import ShaderReflection.Proofs.Extraction.Protocol
import ShaderReflection.Proofs.Files.Directories
/-!
What an extraction depends on. Two sessions end alike if their files look alike to the tools and to
making the artifact directory: the notices given and the calls made before decide nothing.
-/
namespace ShaderReflection

def ToolRunner.Quiet (runner : ToolRunner) : Prop :=
  ∀ program arguments tree, (runner program arguments tree).2 = tree

theorem fixedQuiet (outcome : Path → List Text → Except OsError Diagnostics) :
    (ToolRunner.fixed outcome).Quiet := fun _ _ _ => rfl

theorem ToolRunner.Quiet.carryOut {runner : ToolRunner} (quiet : runner.Quiet) (plan : List Call)
    (tree : FileTree) : (runner.carryOut plan tree).2 = tree := by
  induction plan generalizing tree with
  | nil => rfl
  | cons call rest ih =>
    have left := quiet call.program call.arguments tree
    unfold ToolRunner.carryOut
    split
    · rename_i ran
      rw [ran] at left
      exact left
    · rename_i d after ran
      rw [ran] at left
      obtain rfl : after = tree := left
      split
      · exact ih after
      · rfl

def Step.Alike {ε α : Type} (same : FileTree → FileTree → Prop) (x : Step ε α) : Prop :=
  ∀ s t : Session, same s.tree t.tree →
    (x.perform s).1 = (x.perform t).1 ∧ same (x.perform s).2.tree (x.perform t).2.tree

section Alike
variable {same : FileTree → FileTree → Prop} {ε α β : Type}

theorem alikePure (a : α) : (pure a : Step ε α).Alike same := fun _ _ start => ⟨rfl, start⟩

theorem alikeThrow (e : ε) : (throw e : Step ε α).Alike same := fun _ _ start => ⟨rfl, start⟩

theorem alikeNote (notices : List Notice) : (Step.note notices : Step ε Unit).Alike same :=
  fun _ _ start => ⟨rfl, start⟩

theorem alikeBind {x : Step ε α} {f : α → Step ε β} (first : x.Alike same)
    (next : ∀ a, (f a).Alike same) : (x >>= f).Alike same := by
  intro s t start
  obtain ⟨result, left⟩ := first s t start
  rw [performBind, performBind]
  cases one : x.perform s with
  | mk ending after =>
    cases two : x.perform t with
    | mk ending' after' =>
      rw [one, two] at result left
      obtain rfl : ending = ending' := result
      cases ending with
      | error e => exact ⟨rfl, left⟩
      | ok a => exact next a after after' left

end Alike

def Step.Yields {ε α : Type} (P : α → Prop) (x : Step ε α) : Prop :=
  ∀ s a, (x.perform s).1 = .ok a → P a

section Yields
variable {ε α β : Type} {P : β → Prop}

theorem yieldsPure {b : β} (holds : P b) : (pure b : Step ε β).Yields P := by
  rintro s a ⟨⟩
  exact holds

theorem yieldsThrow (e : ε) : (throw e : Step ε β).Yields P := nofun

theorem yieldsBind {x : Step ε α} {f : α → Step ε β} {Q : α → Prop} (first : x.Yields Q)
    (next : ∀ a, Q a → (f a).Yields P) : (x >>= f).Yields P := by
  intro s b ended
  rw [performBind] at ended
  split at ended
  · rename_i a after performed
    exact next a (first s a (by rw [performed])) after b ended
  · cases ended

theorem yieldsAfter (x : Step ε α) {f : α → Step ε β} (next : ∀ a, (f a).Yields P) :
    (x >>= f).Yields P :=
  yieldsBind (Q := fun _ => True) (fun _ _ _ => trivial) fun a _ => next a

end Yields

namespace Extractor

section Alike
variable (x : Extractor) {same : FileTree → FileTree → Prop}

def runsAlike (same : FileTree → FileTree → Prop) : Prop :=
  ∀ program arguments a b, same a b →
    (x.runner program arguments a).1 = (x.runner program arguments b).1 ∧
      same (x.runner program arguments a).2 (x.runner program arguments b).2

def preparesAlike (same : FileTree → FileTree → Prop) : Prop :=
  ∀ a b, same a b →
    (a.makeDirectories x.artifactDirectory).2 = (b.makeDirectories x.artifactDirectory).2 ∧
      same (a.makeDirectories x.artifactDirectory).1 (b.makeDirectories x.artifactDirectory).1

theorem alikeArtifacts (artifacts : x.preparesAlike same) :
    x.makeArtifactDirectory.Alike same := by
  intro s t start
  obtain ⟨outcome, left⟩ := artifacts s.tree t.tree start
  unfold Step.perform makeArtifactDirectory
  cases one : s.tree.makeDirectories x.artifactDirectory with
  | mk tree result =>
    cases two : t.tree.makeDirectories x.artifactDirectory with
    | mk tree' result' =>
      rw [one, two] at outcome left
      obtain rfl : result = result' := outcome
      cases result with
      | ok _ => exact ⟨rfl, left⟩
      | error cause => exact ⟨rfl, left⟩

variable (tools : x.runsAlike same)
include tools

theorem alikeRun (program : Path) (arguments : List Text) :
    (x.run program arguments).Alike same := by
  intro s t start
  obtain ⟨outcome, left⟩ := tools program arguments s.tree t.tree start
  rw [performRun, performRun]
  cases one : x.runner program arguments s.tree with
  | mk result tree =>
    cases two : x.runner program arguments t.tree with
    | mk result' tree' =>
      rw [one, two] at outcome left
      obtain rfl : result = result' := outcome
      cases result with
      | ok d => exact ⟨rfl, left⟩
      | error cause => exact ⟨rfl, left⟩

theorem alikeSource (path : Path) (source : Text) (stage : Stage) :
    (x.extractSource path source stage).Alike same := by
  unfold extractSource
  refine alikeBind (alikeNote _) fun _ => ?_
  cases Glsl.scan source stage with
  | error e => exact alikeBind (alikeNote _) fun _ => alikePure _
  | ok i => exact alikeBind (x.alikeRun tools _ _) fun _ => alikePure _

theorem alikeLinked (path : Path) (source : Text) (stage : Stage) :
    (x.extractLinked path source stage).Alike same := by
  unfold extractLinked
  split
  · exact alikeBind (alikeNote _) fun _ => alikePure _
  refine alikeBind (x.alikeRun tools _ _) fun d => ?_
  split
  · exact alikePure _
  refine alikeBind (alikeNote _) fun _ => ?_
  cases Dump.reflection d.stdout source stage with
  | error e => exact alikeBind (alikeNote _) fun _ => alikePure _
  | ok i => exact alikePure _

theorem alikeAnalyzed (artifacts : x.preparesAlike same) (path : Path) (stage : Stage) :
    (x.extractAnalyzed path stage).Alike same := by
  unfold extractAnalyzed
  refine alikeBind (x.alikeArtifacts artifacts) fun _ => alikeBind (x.alikeRun tools _ _) fun d => ?_
  split
  · exact alikePure _
  refine alikeBind (x.alikeRun tools _ _) fun analysis => ?_
  split
  · exact alikePure _
  cases Document.readAnalyzer analysis.stdout with
  | error fault => exact alikeThrow _
  | ok i => exact alikeBind (alikeNote _) fun _ => alikePure _

theorem alikeText (path : Path) (source : Text) (backend : Backend)
    (artifacts : backend = .spirv → x.preparesAlike same) :
    (x.extractText path source backend).Alike same := by
  have reported {y : Step ExtractError Metadata} (alike : y.Alike same) :
      (do let m ← y; Step.note (duplicateNotices path m); return m : Step _ _).Alike same :=
    alikeBind alike fun m => alikeBind (alikeNote _) fun _ => alikePure m
  unfold extractText
  dsimp only
  split
  · exact alikeThrow _
  refine alikeBind (alikeNote _) fun _ => ?_
  cases backend with
  | source => exact reported (x.alikeSource tools path source _)
  | linker => exact reported (x.alikeLinked tools path source _)
  | spirv => exact reported (x.alikeAnalyzed tools (artifacts rfl) path _)

end Alike

section Verdict
variable (x : Extractor) (path : Path) (source : Text) (backend : Backend)

def verdict (tree : FileTree) : Except ExtractError Metadata :=
  ((x.extractText path source backend).perform { tree := tree }).1

theorem verdictIs (s : Session) :
    ((x.extractText path source backend).perform s).1 = x.verdict path source backend s.tree :=
  have tools : x.runsAlike (· = ·) := by
    rintro program arguments a _ rfl
    exact ⟨rfl, rfl⟩
  have alike := x.alikeText tools path source backend (by rintro - a _ rfl; exact ⟨rfl, rfl⟩)
  (alike s { tree := s.tree } rfl).1

theorem verdictBuilt {tree : FileTree} {m : Metadata}
    (decided : x.verdict path source backend tree = .ok m) : m.Built :=
  x.extractedBuilt path source _ backend decided

def Complete (m : Metadata) : Prop := m.diagnostics.exitCode = 0 ↔ m.interface?.isSome = true

theorem completeFailed {d : Diagnostics} (code : d.exitCode ≠ 0) : Complete (Metadata.failed d) :=
  ⟨fun zero => absurd zero code, nofun⟩

theorem completeExtracted (d : Diagnostics) (i : Interface) : Complete (Metadata.extracted d i) := by
  by_cases code : d.exitCode = 0
  · rw [extractedAccepted i code]
    exact ⟨fun _ => rfl, fun _ => code⟩
  · rw [extractedRejected i code]
    exact completeFailed code

theorem completeUnsupported (e : UnsupportedStage) : (unsupported path e).Yields Complete :=
  yieldsAfter _ fun _ => yieldsPure (completeFailed (show (1 : Int32) ≠ 0 by decide))

theorem completeSource (stage : Stage) : (x.extractSource path source stage).Yields Complete := by
  unfold extractSource
  refine yieldsAfter _ fun _ => ?_
  cases Glsl.scan source stage with
  | error e => exact completeUnsupported path e
  | ok i => exact yieldsAfter _ fun d => yieldsPure (completeExtracted d i)

theorem completeLinked (stage : Stage) : (x.extractLinked path source stage).Yields Complete := by
  unfold extractLinked
  split
  · exact completeUnsupported path _
  refine yieldsAfter _ fun d => ?_
  split
  · exact yieldsPure (completeFailed ‹_›)
  refine yieldsAfter _ fun _ => ?_
  cases Dump.reflection d.stdout source stage with
  | error e => exact completeUnsupported path e
  | ok i => exact yieldsPure (completeExtracted d i)

theorem completeAnalyzed (stage : Stage) : (x.extractAnalyzed path stage).Yields Complete := by
  unfold extractAnalyzed
  refine yieldsAfter _ fun _ => yieldsAfter _ fun d => ?_
  split
  · exact yieldsPure (completeFailed ‹_›)
  refine yieldsAfter _ fun analysis => ?_
  split
  · exact yieldsPure (completeFailed ‹_›)
  cases Document.readAnalyzer analysis.stdout with
  | error fault => exact yieldsThrow _
  | ok i => exact yieldsAfter _ fun _ => yieldsPure (completeExtracted _ i)

theorem verdictComplete {tree : FileTree} {m : Metadata}
    (decided : x.verdict path source backend tree = .ok m) : Complete m := by
  have reported {y : Step ExtractError Metadata} (yields : y.Yields Complete) :
      (do let m ← y; Step.note (duplicateNotices path m); return m : Step _ _).Yields Complete :=
    yieldsBind yields fun m complete => yieldsAfter _ fun _ => yieldsPure complete
  refine (?_ : (x.extractText path source backend).Yields Complete) _ m decided
  unfold extractText
  dsimp only
  split
  · exact yieldsThrow _
  refine yieldsAfter _ fun _ => ?_
  cases backend with
  | source => exact reported (x.completeSource path source _)
  | linker => exact reported (x.completeLinked path source _)
  | spirv => exact reported (x.completeAnalyzed path _)

theorem refusedArtifacts {s : Session} {cause : OsError} {tree : FileTree}
    (known : Stage.ofPath path ≠ .unknown)
    (refused : s.tree.makeDirectories x.artifactDirectory = (tree, .error cause)) :
    (∃ e, ((x.extractText path source .spirv).perform s).1 = .error e) ∧
      ((x.extractText path source .spirv).perform s).2.tree = tree := by
  have stopped (notices : List Notice) : x.makeArtifactDirectory.perform (s.noteAll notices) =
      (.error (.artifactDirectory x.artifactDirectory cause),
        { s.noteAll notices with tree := tree }) := by
    simp [Step.perform, makeArtifactDirectory, Session.noteAll, refused]
  have analyzed (notices : List Notice) :
      (x.extractAnalyzed path (Stage.ofPath path)).perform (s.noteAll notices) =
        (.error (.artifactDirectory x.artifactDirectory cause),
          { s.noteAll notices with tree := tree }) := performAbort (stopped notices)
  have noted (notices : List Notice) : (Step.note notices : Step ExtractError Unit).perform s =
    (.ok (), s.noteAll notices) := rfl
  unfold extractText
  dsimp only
  rw [if_neg known, performBind, noted]
  dsimp only
  rw [performAbort (analyzed _)]
  exact ⟨⟨_, rfl⟩, rfl⟩

theorem verdictRefused {tree after : FileTree} {cause : OsError}
    (known : Stage.ofPath path ≠ .unknown)
    (refused : x.prepare backend tree = (after, .error cause)) :
    ∃ e, x.verdict path source backend tree = .error e := by
  cases backend with
  | source | linker => cases refused
  | spirv => exact (x.refusedArtifacts path source (s := { tree := tree }) known refused).1

theorem extractedTree (s : Session) (quiet : x.runner.Quiet) (known : Stage.ofPath path ≠ .unknown) :
    ((x.extractText path source backend).perform s).2.tree = (x.prepare backend s.tree).1 := by
  by_cases handled : (Stage.ofPath path).isRaytracing = true → backend = .spirv
  · cases prepared : x.prepare backend s.tree with
    | mk tree outcome =>
      cases outcome with
      | ok ready =>
        obtain ⟨finish, -, follows⟩ :=
          x.extractionFollows path source s backend known handled prepared
        exact follows.tree.trans (quiet.carryOut _ tree)
      | error cause =>
        cases backend with
        | source | linker => cases prepared
        | spirv => exact (x.refusedArtifacts path source known prepared).2
  · obtain ⟨ray, text⟩ := Classical.not_imp.mp handled
    obtain ⟨message, after, performed, -, left⟩ := x.unhandledStage path source s backend ray text
    rw [performed, prepare, if_neg text]
    exact left

end Verdict

section Prepare
variable (x : Extractor) (backend : Backend) {tree after : FileTree}

def Ready (tree : FileTree) : Prop := x.prepare backend tree = (tree, .ok ())

variable {x backend}

theorem readyStands (stands : backend = .spirv → tree.Stands x.artifactDirectory) :
    x.Ready backend tree := by
  unfold Ready prepare
  split
  · exact FileTree.makeStanding (stands ‹_›)
  · rfl

theorem preparedStands {result : FileTree}
    (prepared : x.prepare backend tree = (result, .ok ())) (spirv : backend = .spirv) :
    result.Stands x.artifactDirectory := by
  rw [prepare, if_pos spirv] at prepared
  exact FileTree.makeReady prepared

theorem preparedReady (prepared : x.prepare backend tree = (after, .ok ())) :
    x.Ready backend after := readyStands (preparedStands prepared)

theorem Ready.grows {written : Location → Prop} (ready : x.Ready backend tree)
    (grows : FileTree.Grows written tree after) : x.Ready backend after :=
  readyStands fun spirv => grows.stands (preparedStands ready spirv)

theorem verdictSteady {outcome : Path → List Text → Except OsError Diagnostics}
    (fixed : x.runner = .fixed outcome) (path : Path) (source : Text) {a b a' b' : FileTree}
    (first : x.prepare backend a = (a', .ok ())) (second : x.prepare backend b = (b', .ok ())) :
    x.verdict path source backend a = x.verdict path source backend b := by
  let fine (tree : FileTree) : Prop := ∃ ready, x.prepare backend tree = (ready, .ok ())
  let same (a b : FileTree) : Prop := fine a ∧ fine b
  have tools : x.runsAlike same := by
    intro program arguments a b ready
    rw [fixed]
    exact ⟨rfl, ready⟩
  have made {a ready : FileTree} (spirv : backend = .spirv)
      (prepared : x.prepare backend a = (ready, .ok ())) :
      a.makeDirectories x.artifactDirectory = (ready, .ok ()) := by
    rwa [prepare, if_pos spirv] at prepared
  refine (x.alikeText tools path source backend ?_ { tree := a } { tree := b }
    ⟨⟨a', first⟩, b', second⟩).1
  rintro spirv a b ⟨⟨ready, first⟩, ready', second⟩
  rw [made spirv first, made spirv second]
  exact ⟨rfl, ⟨_, preparedReady first⟩, _, preparedReady second⟩

variable (sound : tree.Sound) {result : Except OsError Unit}
include sound

theorem preparedKeeps (prepared : x.prepare backend tree = (after, result)) :
    after.Sound ∧ FileTree.Grows (fun _ => False) tree after := by
  unfold prepare at prepared
  split at prepared
  · exact FileTree.makeKeeps sound prepared
  · cases prepared
    exact ⟨sound, FileTree.growsSelf tree⟩

theorem preparedAgain {cause : OsError} (prepared : x.prepare backend tree = (after, .error cause)) :
    ∃ cause, x.prepare backend after = (after, .error cause) := by
  unfold prepare at prepared ⊢
  split at prepared
  · rename_i spirv
    obtain ⟨again, once, repeats⟩ := FileTree.makeAgain sound prepared
    obtain ⟨kind, rfl⟩ := FileTree.repeatsError repeats
    exact ⟨kind, by rw [if_pos spirv, once]⟩
  · cases prepared

end Prepare
end Extractor
end ShaderReflection
