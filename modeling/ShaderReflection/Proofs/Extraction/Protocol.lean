import ShaderReflection.Proofs.Document.Built
import ShaderReflection.Proofs.Extraction.Calls
/-!
Which tools an extraction calls and how it ends, for tools that do whatever they like.
-/
namespace ShaderReflection.Extractor

def plannedCalls (x : Extractor) (path : Path) : Backend → List Call
  | .source => [⟨x.tools.compiler, [path]⟩]
  | .linker => [⟨x.tools.linker, ["-l".toList, "-q".toList, path]⟩]
  | .spirv => [⟨x.tools.compiler, ["-V".toList, path, "-o".toList, x.artifactPath path]⟩,
      ⟨x.tools.analyzer, [x.artifactPath path]⟩]

def prepare (x : Extractor) (backend : Backend) (tree : FileTree) : FileTree × Except OsError Unit :=
  if backend = .spirv then tree.makeDirectories x.artifactDirectory else (tree, .ok ())

def Reflects (source : Text) (stage : Stage) (output : Text) (i : Interface) : Backend → Prop
  | .source => Glsl.scan source stage = .ok i
  | .linker => Dump.reflection output source stage = .ok i
  | .spirv => Document.readAnalyzer output = .ok i

def joinDiagnostics (backend : Backend) (first last : Diagnostics) : Diagnostics :=
  if backend = .spirv then { first with stderr := appendStderr first.stderr last.stderr } else first

structure Ends (source : Text) (stage : Stage) (backend : Backend) (plan : List Call)
    (reports : List Report) (result : Except ExtractError Metadata) : Prop where
  inOrder : reports.map (·.call) <+: plan
  notLaunched : ∀ before call cause rest, reports = before ++ ⟨call, .error cause⟩ :: rest →
    rest = [] ∧ result = .error (.launchTool call.program cause)
  rejected : ∀ before call d rest, reports = before ++ ⟨call, .ok d⟩ :: rest → d.exitCode ≠ 0 →
    rest = [] ∧ result = .ok ⟨d, none⟩
  accepted : (∀ r ∈ reports, r.Accepted) → reports.map (·.call) = plan ∧
    ∃ first last, reports.head?.map (·.outcome) = some (.ok first) ∧
      reports.getLast?.map (·.outcome) = some (.ok last) ∧
      (∀ fault, backend = .spirv → Document.readAnalyzer last.stdout = .error fault →
        result = .error (.reflectionDocument fault last.stdout)) ∧
      ((backend = .spirv → ∃ i, Document.readAnalyzer last.stdout = .ok i) →
        ∃ i, Reflects source stage last.stdout i backend ∧
          result = .ok ⟨joinDiagnostics backend first last, some i⟩)

def finishWith (interface : Text → Interface) (ds : List Diagnostics) :
    Except ExtractError Metadata :=
  .ok ⟨ds.headD {}, some (interface (ds.headD {}).stdout)⟩

def finishAnalysis : List Diagnostics → Except ExtractError Metadata
  | [first, last] =>
    match Document.readAnalyzer last.stdout with
    | .error fault => .error (.reflectionDocument fault last.stdout)
    | .ok interface => .ok ⟨joinDiagnostics .spirv first last, some interface⟩
  | _ => .ok (Metadata.failed {})

section Backends
variable (x : Extractor) (path : Path) (source : Text) {stage : Stage} (s : Session)

theorem extractedAccepted {d : Diagnostics} (i : Interface) (code : d.exitCode = 0) :
    Metadata.extracted d i = ⟨d, some i⟩ := if_pos code

theorem extractedRejected {d : Diagnostics} (i : Interface) (code : d.exitCode ≠ 0) :
    Metadata.extracted d i = Metadata.failed d := if_neg code

def Finishes (stage : Stage) (finish : List Diagnostics → Except ExtractError Metadata) :
    Backend → Prop
  | .spirv => finish = finishAnalysis
  | backend => ∃ interface : Text → Interface, finish = finishWith interface ∧
      ∀ output, Reflects source stage output (interface output) backend

theorem sourceFollows (raster : stage.isRaytracing = false) :
    ∃ finish, Finishes source stage finish .source ∧
      Follows x.runner (x.extractSource path source stage) (x.plannedCalls path .source) finish s
        s.tree := by
  obtain ⟨i, found⟩ : ∃ i, Glsl.scan source stage = .ok i := by
    simp [Glsl.scan, Glsl.declarations, raster, Except.map]
  refine ⟨finishWith fun _ => i, ⟨fun _ => i, rfl, fun _ => found⟩, ?_⟩
  unfold extractSource
  rw [found]
  refine followsNote (followsCall (fun d code => ?_) fun d after code => ?_)
  · rw [extractedRejected i code]
  · rw [extractedAccepted i code]
    exact followsPure rfl

theorem linkedFollows (raster : stage.isRaytracing = false) :
    ∃ finish, Finishes source stage finish .linker ∧
      Follows x.runner (x.extractLinked path source stage) (x.plannedCalls path .linker) finish s
        s.tree := by
  have reflected (dump : Text) : ∃ i, Dump.reflection dump source stage = .ok i := by
    simp [Dump.reflection, raster]
  -- The dump is known only once the linker was called.
  obtain ⟨interface, found⟩ := Classical.axiomOfChoice reflected
  refine ⟨finishWith interface, ⟨interface, rfl, found⟩, ?_⟩
  unfold extractLinked
  rw [raster]
  refine followsCall (fun d code => ?_) fun d after code => ?_
  · rw [if_pos code]
  · rw [if_neg (not_not_intro code), found]
    refine followsNote ?_
    dsimp only
    rw [extractedAccepted _ code]
    exact followsPure rfl

theorem analyzedFollows (stage : Stage) {tree : FileTree}
    (made : s.tree.makeDirectories x.artifactDirectory = (tree, .ok ())) :
    Follows x.runner (x.extractAnalyzed path stage) (x.plannedCalls path .spirv) finishAnalysis s
      tree := by
  have ready : x.makeArtifactDirectory.perform s = (.ok (), { s with tree := tree }) := by
    simp [Step.perform, makeArtifactDirectory, made]
  refine followsAfter ready rfl (followsCall (fun d code => ?_) fun d after code => ?_)
  · rw [if_pos code]
  rw [if_neg (not_not_intro code)]
  refine followsCall (fun analysis rejected => ?_) fun analysis after accepted => ?_
  · rw [if_pos rejected]
  rw [if_neg (not_not_intro accepted)]
  cases read : Document.readAnalyzer analysis.stdout with
  | error fault => exact followsThrow (by simp [finishAnalysis, read])
  | ok interface =>
    refine followsNote (followsPure ?_)
    simp [finishAnalysis, joinDiagnostics, read, Metadata.extracted, code]

variable (backend : Backend)

theorem extractionFollows {tree : FileTree} (known : Stage.ofPath path ≠ .unknown)
    (handled : (Stage.ofPath path).isRaytracing = true → backend = .spirv)
    (prepared : x.prepare backend s.tree = (tree, .ok ())) :
    ∃ finish, Finishes source (Stage.ofPath path) finish backend ∧
      Follows x.runner (x.extractText path source backend) (x.plannedCalls path backend) finish s
        tree := by
  unfold extractText
  dsimp only
  rw [if_neg known]
  have raster (text : backend ≠ .spirv) : (Stage.ofPath path).isRaytracing = false := by
    rw [Bool.eq_false_iff]
    exact fun ray => text (handled ray)
  cases backend with
  | source =>
    obtain ⟨rfl, -⟩ := Prod.mk.inj prepared
    obtain ⟨finish, finishes, follows⟩ :=
      x.sourceFollows path source (s.noteAll _) (raster nofun)
    exact ⟨finish, finishes, followsNote (followsRemark (duplicateNotices path) follows)⟩
  | linker =>
    obtain ⟨rfl, -⟩ := Prod.mk.inj prepared
    obtain ⟨finish, finishes, follows⟩ :=
      x.linkedFollows path source (s.noteAll _) (raster nofun)
    exact ⟨finish, finishes, followsNote (followsRemark (duplicateNotices path) follows)⟩
  | spirv =>
    refine ⟨_, rfl, followsNote (followsRemark (duplicateNotices path) ?_)⟩
    exact x.analyzedFollows path _ (Stage.ofPath path) prepared

theorem unknownStage (unknown : Stage.ofPath path = .unknown) :
    (x.extractText path source backend).perform s = (.error (.unknownStage path), s) := by
  unfold extractText
  rw [if_pos unknown]
  rfl

theorem unhandledStage (ray : (Stage.ofPath path).isRaytracing = true) (text : backend ≠ .spirv) :
    ∃ message after, (x.extractText path source backend).perform s =
      (.ok ⟨⟨[], message, 1⟩, none⟩, after) ∧ after.calls = s.calls ∧ after.tree = s.tree := by
  have known : Stage.ofPath path ≠ .unknown := by
    intro unknown
    rw [unknown] at ray
    cases ray
  unfold extractText
  dsimp only
  rw [if_neg known]
  cases backend with
  | source =>
    have refused : Glsl.scan source (Stage.ofPath path) = .error ⟨Stage.ofPath path, .source⟩ := by
      simp [Glsl.scan, Glsl.declarations, ray, Except.map]
    unfold extractSource
    rw [refused]
    exact ⟨_, _, rfl, rfl, rfl⟩
  | linker =>
    unfold extractLinked
    rw [if_pos ray]
    exact ⟨_, _, rfl, rfl, rfl⟩
  | spirv => exact absurd rfl text

theorem noDirectory (known : Stage.ofPath path ≠ .unknown) {tree : FileTree} {cause : OsError}
    (failed : s.tree.makeDirectories x.artifactDirectory = (tree, .error cause)) :
    ∃ after, (x.extractText path source .spirv).perform s =
      (.error (.artifactDirectory x.artifactDirectory cause), after) ∧ after.calls = s.calls := by
  have stopped (t : Session) (same : t.tree = s.tree) : x.makeArtifactDirectory.perform t =
      (.error (.artifactDirectory x.artifactDirectory cause), { t with tree := tree }) := by
    simp [Step.perform, makeArtifactDirectory, same, failed]
  have noted (notices : List Notice) : (Step.note notices : Step ExtractError Unit).perform s =
    (.ok (), s.noteAll notices) := rfl
  unfold extractText
  dsimp only
  rw [if_neg known, performBind, noted]
  dsimp only
  exact ⟨_, performAbort (performAbort (stopped _ rfl)), rfl⟩

theorem finishesAccepted {finish : List Diagnostics → Except ExtractError Metadata}
    (finishes : Finishes source stage finish backend) {ds : List Diagnostics}
    (count : ds.length = (x.plannedCalls path backend).length) :
    ∃ first last, ds.head? = some first ∧ ds.getLast? = some last ∧
      (∀ fault, backend = .spirv → Document.readAnalyzer last.stdout = .error fault →
        finish ds = .error (.reflectionDocument fault last.stdout)) ∧
      ((backend = .spirv → ∃ i, Document.readAnalyzer last.stdout = .ok i) →
        ∃ i, Reflects source stage last.stdout i backend ∧
          finish ds = .ok ⟨joinDiagnostics backend first last, some i⟩) := by
  cases backend with
  | source | linker =>
    obtain ⟨interface, rfl, found⟩ := finishes
    obtain ⟨d, rfl⟩ := List.length_eq_one_iff.mp count
    exact ⟨d, d, rfl, rfl, nofun, fun _ => ⟨interface d.stdout, found d.stdout, rfl⟩⟩
  | spirv =>
    obtain ⟨first, rest, rfl⟩ := List.exists_cons_of_length_eq_add_one count
    obtain ⟨last, rfl⟩ := List.length_eq_one_iff.mp (Nat.succ.inj count)
    refine ⟨first, last, rfl, rfl, fun fault _ malformed => ?_, fun wellFormed => ?_⟩
    · rw [finishes, finishAnalysis, malformed]
    · obtain ⟨i, read⟩ := wellFormed rfl
      exact ⟨i, read, by rw [finishes, finishAnalysis, read]⟩

theorem followsEnds {tree : FileTree} {finish : List Diagnostics → Except ExtractError Metadata}
    (finishes : Finishes source stage finish backend) :
    Ends source stage backend (x.plannedCalls path backend)
      (x.runner.carryOut (x.plannedCalls path backend) tree).1
      (conclude finish (x.runner.carryOut (x.plannedCalls path backend) tree).1) where
  inOrder := callsInOrder x.runner _ tree
  notLaunched := fun before call cause rest made => by
    obtain ⟨last, accepted⟩ := stopsThere x.runner made (launchFailure call cause)
    rw [made, concludesFailure finish accepted (launchFailure call cause)]
    exact ⟨last, rfl⟩
  rejected := fun before call d rest made code => by
    obtain ⟨last, accepted⟩ := stopsThere x.runner made (rejection call code)
    rw [made, concludesFailure finish accepted (rejection call code), conclude, if_neg code]
    exact ⟨last, rfl⟩
  accepted := fun accepted => by
    have all := allCallsMade x.runner accepted
    obtain ⟨ds, outcomes, -, ending⟩ := concludesAccepted finish accepted
    have count : ds.length = (x.plannedCalls path backend).length := by
      have lengths := congrArg List.length outcomes
      rw [List.length_map, List.length_map] at lengths
      rw [← all, List.length_map, lengths]
    obtain ⟨first, last, head, tail, malformed, wellFormed⟩ :=
      x.finishesAccepted path source backend finishes count
    refine ⟨all, first, last, ?_, ?_, ?_⟩
    · rw [← List.head?_map, outcomes, List.head?_map, head, Option.map_some]
    · rw [← List.getLast?_map, outcomes, List.getLast?_map, tail, Option.map_some]
    · rw [ending]
      exact ⟨malformed, wellFormed⟩

theorem finishesBuilt {finish : List Diagnostics → Except ExtractError Metadata}
    (finishes : Finishes source stage finish backend) {ds : List Diagnostics} {m : Metadata}
    (finished : finish ds = .ok m) : m.Built := by
  cases backend with
  | source =>
    obtain ⟨interface, rfl, found⟩ := finishes
    cases finished
    exact .scanned _ (found _)
  | linker =>
    obtain ⟨interface, rfl, found⟩ := finishes
    cases finished
    exact .reflected _ (found _)
  | spirv =>
    rw [finishes] at finished
    unfold finishAnalysis at finished
    split at finished
    · split at finished
      · cases finished
      · cases finished
        exact .analyzed _ ‹_›
    · cases finished
      exact .rejected {}

theorem extractedBuilt {m : Metadata}
    (extracted : ((x.extractText path source backend).perform s).1 = .ok m) : m.Built := by
  by_cases unknown : Stage.ofPath path = .unknown
  · rw [x.unknownStage path source s backend unknown] at extracted
    cases extracted
  by_cases handled : (Stage.ofPath path).isRaytracing = true → backend = .spirv
  · cases prepared : x.prepare backend s.tree with
    | mk tree outcome =>
      cases outcome with
      | ok ready =>
        obtain ⟨finish, finishes, result, -, -⟩ :=
          x.extractionFollows path source s backend unknown handled prepared
        rw [extracted] at result
        obtain ⟨d, rfl⟩ | ⟨ds, finished⟩ := concludesDocument finish result.symm
        · exact .rejected d
        · exact finishesBuilt source backend finishes finished
      | error cause =>
        cases backend with
        | source | linker => cases prepared
        | spirv =>
          obtain ⟨after, stopped, -⟩ := x.noDirectory path source s unknown prepared
          rw [stopped] at extracted
          cases extracted
  · obtain ⟨ray, text⟩ := Classical.not_imp.mp handled
    obtain ⟨message, after, performed, -⟩ := x.unhandledStage path source s backend ray text
    rw [performed] at extracted
    cases extracted
    exact .rejected _

theorem extractionProtocol :
    match (x.extractText path source backend).perform s with
    | (result, after) =>
      (Stage.ofPath path = .unknown →
        result = .error (.unknownStage path) ∧ after.calls = s.calls) ∧
      ((Stage.ofPath path).isRaytracing = true → backend ≠ .spirv →
        (∃ message, result = .ok ⟨⟨[], message, 1⟩, none⟩) ∧ after.calls = s.calls) ∧
      (Stage.ofPath path ≠ .unknown →
        ((Stage.ofPath path).isRaytracing = true → backend = .spirv) →
        (∀ tree cause, x.prepare backend s.tree = (tree, .error cause) →
          result = .error (.artifactDirectory x.artifactDirectory cause) ∧
            after.calls = s.calls) ∧
        (∀ tree, x.prepare backend s.tree = (tree, .ok ()) →
          let plan := x.plannedCalls path backend
          let made := x.runner.carryOut plan tree
          after.calls = s.calls ++ made.1.map (·.call) ∧ after.tree = made.2 ∧
            Ends source (Stage.ofPath path) backend plan made.1 result)) := by
  cases performed : (x.extractText path source backend).perform s with
  | mk result after =>
  refine ⟨fun unknown => ?_, fun ray text => ?_, fun known handled => ⟨?_, ?_⟩⟩
  · rw [x.unknownStage path source s backend unknown] at performed
    cases performed
    exact ⟨rfl, rfl⟩
  · obtain ⟨message, _, refused, calls, -⟩ := x.unhandledStage path source s backend ray text
    rw [refused] at performed
    cases performed
    exact ⟨⟨message, rfl⟩, calls⟩
  · intro tree cause failed
    cases backend with
    | source | linker => cases failed
    | spirv =>
      obtain ⟨_, stopped, calls⟩ := x.noDirectory path source s known failed
      rw [stopped] at performed
      cases performed
      exact ⟨rfl, calls⟩
  · intro tree prepared
    obtain ⟨finish, finishes, ended, calls, left⟩ :=
      x.extractionFollows path source s backend known handled prepared
    rw [performed] at ended calls left
    refine ⟨calls, left, ?_⟩
    obtain rfl : result = conclude finish _ := ended
    exact x.followsEnds path source backend finishes

end Backends

theorem rejectedByLinker :
    let x : Extractor := ⟨{}, .fixed fun _ _ => .ok ⟨[], "bad".toList, 2⟩, "artifacts".toList⟩
    let ending := (x.extractText "a.vert".toList [] .linker).perform {}
    ending.1 = .ok ⟨⟨[], "bad".toList, 2⟩, none⟩ ∧
      ending.2.calls = x.plannedCalls "a.vert".toList .linker := by
  intro x ending
  obtain ⟨-, -, called⟩ := x.extractionProtocol "a.vert".toList [] {} .linker
  obtain ⟨calls, -, ends⟩ := (called (by decide) (by decide)).2 {} rfl
  exact ⟨(ends.rejected [] _ _ [] rfl (by decide)).2, calls⟩

def babbling : Extractor where
  runner := .fixed fun program _ =>
    .ok (if program = "vk_shader_analyze".toList then ⟨"not json".toList, [], 0⟩ else {})
  artifactDirectory := "artifacts".toList

theorem acceptedYetMalformed :
    let plan := babbling.plannedCalls "a.vert".toList .spirv
    let reports := (babbling.runner.carryOut plan (babbling.prepare .spirv {}).1).1
    reports.map (·.call) = plan ∧
      reports.map (·.outcome.toOption) = [some {}, some ⟨"not json".toList, [], 0⟩] ∧
      ¬∃ m, ((babbling.extractText "a.vert".toList [] .spirv).perform {}).1 = .ok m := by
  refine ⟨by decide +kernel, by decide +kernel, ?_⟩
  have failed : ((babbling.extractText "a.vert".toList [] .spirv).perform {}).1.toOption.isSome =
      false := by decide +kernel
  rintro ⟨m, same⟩
  rw [same] at failed
  cases failed

end ShaderReflection.Extractor
