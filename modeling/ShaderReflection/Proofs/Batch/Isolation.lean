import ShaderReflection.Proofs.Batch.Run
/-!
Shaders of a batch do not affect each other. Where the directories are there already, the outcome of
a shader is the one that it would have alone, and it depends on its own bytes and on what is no
shader.
-/
namespace ShaderReflection.Batch
open Text FileTree

section Alike
variable {b : Batch} {x : Extractor} {outcome : Path → List Text → Except OsError Diagnostics}
  {home place : Location} {tree other : FileTree} {name : Text}
  (fixed : x.runner = .fixed outcome) (placed : Placed b home place tree)
  (placed' : Placed b home place other) (ready : x.Ready b.backend tree)
  (ready' : x.Ready b.backend other) (shader : Shader b home tree name)
include fixed placed placed' ready ready' shader

theorem settleAlike
    (text : other.readText (Path.join b.sourceDirectory name) =
      tree.readText (Path.join b.sourceDirectory name))
    (free : other.isDirectoryAt (documentAt place name) = tree.isDirectoryAt (documentAt place name)) :
    (b.settle x (Path.join b.sourceDirectory name) other).1 =
      (b.settle x (Path.join b.sourceDirectory name) tree).1 := by
  cases read : tree.readText (Path.join b.sourceDirectory name) with
  | error cause => rw [settleUnread read, settleUnread (text.trans read)]
  | ok source =>
    have steady := Extractor.verdictSteady fixed (Path.join b.sourceDirectory name) source ready ready'
    cases decided : x.verdict (Path.join b.sourceDirectory name) source b.backend tree with
    | error e =>
      rw [settleUndecided read ready decided,
        settleUndecided (text.trans read) ready' (steady ▸ decided)]
    | ok m =>
      rw [settleDecided read ready decided,
        settleDecided (text.trans read) ready' (steady ▸ decided), metadataPathJoin shader.named]
      unfold writeText
      rcases writeAlike placed.documents (documentNamed shader.named) placed'.documents free
        (bytesOf (Document.pretty m)) with ⟨_, first, second⟩ | ⟨_, _, first, second⟩
      · rw [← bytesOf, first, second]
      · rw [← bytesOf, first, second]

end Alike

section Steady
variable {b : Batch} {x : Extractor} {home place : Location} {tree : FileTree} {names : List Text}

theorem runSteady (placed : Placed b home place tree) (ready : x.Ready b.backend tree)
    (shaders : ∀ name ∈ names, Shader b home tree name) {l : Location}
    (unwritten : ¬DocumentOf place (b.settleEach x names tree).1 l) :
    (b.settleEach x names tree).2.get? l = tree.get? l := by
  induction names generalizing tree with
  | nil => rfl
  | cons name rest ih =>
    rw [List.forall_mem_cons] at shaders
    have settled := b.settles x (shaderStage shaders.1) tree
    obtain ⟨placed', grows⟩ := settlesKeeps placed shaders.1 settled
    obtain ⟨still, elsewhere⟩ := settlesSteady placed shaders.1 ready settled
    have here : (b.settle x (Path.join b.sourceDirectory name) tree).2.get? l = tree.get? l := by
      cases written : (b.settle x (Path.join b.sourceDirectory name) tree).1 with
      | none => rw [still written]
      | some m =>
        refine elsewhere l fun same => unwritten ⟨name, m, ?_, same⟩
        rw [settleEach, written]
        exact List.mem_cons_self
    rw [settleEach, ← here]
    refine ih placed' (ready.grows grows) (fun other member => ?_) ?_
    · exact (shaderStays placed shaders.1 settled).mpr (shaders.2 other member)
    · rintro ⟨other, m, member, same⟩
      exact unwritten ⟨other, m, List.mem_cons_of_mem _ member, same⟩

variable {outcome : Path → List Text → Except OsError Diagnostics} (fixed : x.runner = .fixed outcome)
include fixed

theorem outcomeAlone (placed : Placed b home place tree) (ready : x.Ready b.backend tree)
    (once : names.Nodup) (shaders : ∀ name ∈ names, Shader b home tree name) {name : Text}
    {m? : Option Metadata} (member : (name, m?) ∈ (b.settleEach x names tree).1) :
    m? = (b.settle x (Path.join b.sourceDirectory name) tree).1 := by
  obtain ⟨front, back, before, next, turn⟩ := runTurn x member
  obtain ⟨placed', grows, -⟩ := turn.begins placed shaders
  have shader := shaders name turn.member
  have apart : name ∉ front := by
    rw [turn.order, List.nodup_append] at once
    exact fun inside => once.2.2 name inside name List.mem_cons_self rfl
  have same := runSteady placed ready
    (fun other here => shaders other (turn.order ▸ List.mem_append_left _ here))
    (unnamedUnwritten apart)
  rw [← turn.earlier] at same
  have alike := settleAlike fixed placed placed' ready (ready.grows grows) shader
    (sourceTextKept placed shader placed' grows documentNames)
    (by rw [isDirectoryAt, isDirectoryAt, same])
  rw [turn.settled] at alike
  exact alike

end Steady

/-- Two trees that agree on the bytes of a shader and on everything but other shaders in the
directory. -/
structure AgreeBut (home : Location) (name : Text) (tree other : FileTree) : Prop where
  cwd : other.cwd = tree.cwd
  own : ∃ content first second, tree.get? (home ++ [name]) = some (.file content first) ∧
    other.get? (home ++ [name]) = some (.file content second)
  rest : ∀ l, l ≠ home ++ [name] → other.get? l = tree.get? l ∨
    ∃ shader, l = home ++ [shader] ∧ Stage.ofPath shader ≠ .unknown ∧
      tree.isDirectoryAt l = false ∧ other.isDirectoryAt l = false

section Agree
variable {home : Location} {name : Text} {tree other : FileTree} (agree : AgreeBut home name tree other)
include agree

theorem AgreeBut.directories (l : Location) : other.isDirectoryAt l = tree.isDirectoryAt l := by
  by_cases here : l = home ++ [name]
  · obtain ⟨content, first, second, file, file'⟩ := agree.own
    rw [here, isDirectoryAt, isDirectoryAt, file, file']
  · rcases agree.rest l here with same | ⟨-, -, -, first, second⟩
    · rw [isDirectoryAt, isDirectoryAt, same]
    · rw [first, second]

theorem AgreeBut.document (known : Stage.ofPath name ≠ .unknown) (place : Location) (document : Text) :
    other.get? (documentAt place document) = tree.get? (documentAt place document) := by
  have strange {front : Location} {shader : Text} (stage : Stage.ofPath shader ≠ .unknown)
      (same : documentAt place document = front ++ [shader]) : False := by
    rw [← List.singleton_inj.mp (List.append_inj' same rfl).2] at stage
    exact stage (documentNameStage document)
  rcases agree.rest _ (strange known) with same | ⟨shader, same, stage, -⟩
  · exact same
  · exact (strange stage same).elim

theorem AgreeBut.opens {path : Path} {place : Location} (opens : tree.Opens path place) :
    other.Opens path place :=
  opens.kept agree.cwd fun l stands => (agree.directories l).trans stands

theorem AgreeBut.isDirectory {path : Path} (stands : tree.isDirectory path = true) :
    other.isDirectory path = true := by
  obtain ⟨checked, place, opens⟩ := (tree.isDirectoryOpens).mp stands
  exact (other.isDirectoryOpens).mpr ⟨checked, place, agree.opens opens⟩

end Agree

def ListsEach (b : Batch) (home : Location) (tree : FileTree) (list : List Written) : Prop :=
  ∃ names : List Text, list.map (·.shader) = names.map (Path.join b.sourceDirectory) ∧
    names.Pairwise (· < ·) ∧ ∀ name, name ∈ names ↔
      (∃ content executable, tree.get? (home ++ [name]) = some (.file content executable)) ∧
        Stage.ofPath name ≠ .unknown ∧ utf8Length (Path.join b.sourceDirectory name) ≤ 4095

section Standing
variable {b : Batch} {x : Extractor} {home : Location} {s : Session}

theorem shaderFits {tree : FileTree} (sound : tree.Sound) (checked : checkPath b.sourceDirectory = .ok ())
    {name : Text} : Shader b home tree name ↔
      (∃ content executable, tree.get? (home ++ [name]) = some (.file content executable)) ∧
        Stage.ofPath name ≠ .unknown ∧ utf8Length (Path.join b.sourceDirectory name) ≤ 4095 := by
  constructor
  · exact fun shader => ⟨shader.file, shader.known, (checkPassed.mp shader.fits.checked).2.2⟩
  · rintro ⟨⟨content, executable, file⟩, known, short⟩
    obtain ⟨named, fits⟩ := sound.namesListed (file ▸ Option.some_ne_none _) name (by simp)
    refine ⟨named, ⟨checkPassed.mpr ⟨?_, ?_, short⟩, fits⟩, known, content, executable, file⟩
    · exact Path.joinZeroless named _ (checkPassed.mp checked).1
    · exact Path.joinNonempty named _

theorem beginsStanding (sound : s.tree.Sound) (checked : checkPath b.sourceDirectory = .ok ())
    (source : s.tree.Opens b.sourceDirectory home)
    (metadata : s.tree.isDirectory b.metadataDirectory = true) :
    ∃ place names, Begins b s.tree home place names s.tree := by
  obtain ⟨names, listed, -⟩ := shadersListed sound checked source
  obtain ⟨home', place, names, begun⟩ := begins sound listed (makeStanding (.inr metadata))
  obtain rfl := s.tree.opensUnique begun.source source
  exact ⟨place, names, begun⟩

theorem Begins.listsEach {place : Location} {names : List Text} {made : FileTree}
    (begun : Begins b s.tree home place names made) (sound : s.tree.Sound) :
    ListsEach b home s.tree ((b.settleEach x names made).1.map b.report) := by
  refine ⟨names, ?_, begun.sorted, fun name =>
    (begun.shaders name).trans (shaderFits sound begun.checked)⟩
  have entered (outcome : Text × Option Metadata) :
      (b.report outcome).shader = Path.join b.sourceDirectory outcome.1 := by
    obtain ⟨name, m?⟩ := outcome
    cases m? <;> rfl
  have listed := b.settleEachNames x names made
  conv_rhs => rw [← listed]
  rw [List.map_map, List.map_map]
  exact List.map_congr_left fun outcome _ => entered outcome

end Standing

section Isolation
variable {b : Batch} {x : Extractor} {home place : Location} {s t : Session}
  {names names' : List Text} {name : Text}
  (begun : Begins b s.tree home place names s.tree)
  (begun' : Begins b t.tree home place names' t.tree)
  (ready : x.Ready b.backend s.tree) (ready' : x.Ready b.backend t.tree)
  (agree : AgreeBut home name s.tree t.tree) (shader : Shader b home s.tree name)
include begun begun' ready ready' agree shader

theorem outcomesAlike {outcome : Path → List Text → Except OsError Diagnostics}
    (fixed : x.runner = .fixed outcome) {m? m?' : Option Metadata}
    (member : (name, m?) ∈ (b.settleEach x names s.tree).1)
    (member' : (name, m?') ∈ (b.settleEach x names' t.tree).1) : m?' = m? := by
  obtain ⟨content, first, second, file, file'⟩ := agree.own
  rw [outcomeAlone fixed begun.placed ready begun.sorted.nodup begun.shadersMade member,
    outcomeAlone fixed begun'.placed ready' begun'.sorted.nodup begun'.shadersMade member']
  exact settleAlike fixed begun.placed begun'.placed ready ready' shader
    (sourceText begun.placed shader begun'.placed file file') (agree.directories _)

theorem documentsAlike {m? : Option Metadata}
    (member : (name, m?) ∈ (b.settleEach x names s.tree).1)
    (member' : (name, m?) ∈ (b.settleEach x names' t.tree).1) :
    (b.settleEach x names' t.tree).2.readBytes
        (metadataPath b.metadataDirectory (Path.join b.sourceDirectory name)) =
      (b.settleEach x names s.tree).2.readBytes
        (metadataPath b.metadataDirectory (Path.join b.sourceDirectory name)) := by
  obtain ⟨placed, -⟩ := runKeeps x begun.placed begun.shadersMade
  obtain ⟨placed', -⟩ := runKeeps x begun'.placed begun'.shadersMade
  have named := documentNamed shader.named
  rw [metadataPathJoin shader.named]
  cases m? with
  | some m =>
    obtain ⟨fits, _, file⟩ := begun.documented member
    obtain ⟨-, _, file'⟩ := begun'.documented member'
    rw [readInside placed.documents named fits file, readInside placed'.documents named fits file']
  | none =>
    refine readAlike placed.documents named placed'.documents ?_
    have still := runSteady begun.placed ready begun.shadersMade
      (failedUnwritten begun.sorted.nodup member)
    have still' := runSteady begun'.placed ready' begun'.shadersMade
      (failedUnwritten begun'.sorted.nodup member')
    exact (still'.trans (agree.document shader.known place name)).trans still.symm

end Isolation

theorem shadersIsolated (b : Batch) (x : Extractor)
    {outcome : Path → List Text → Except OsError Diagnostics} (fixed : x.runner = .fixed outcome)
    (s : Session) (sound : s.tree.Sound) {home : Location}
    (source : s.tree.resolve b.sourceDirectory = .ok home)
    (directory : s.tree.isDirectoryAt home = true)
    (metadata : s.tree.isDirectory b.metadataDirectory = true)
    (artifacts : s.tree.isDirectory x.artifactDirectory = true) :
    ∃ list, ((b.writeAll x).perform s).1 = .ok list ∧ ListsEach b home s.tree list ∧
      ∀ t : Session, t.tree.Sound → ∀ name, Stage.ofPath name ≠ .unknown →
        utf8Length (Path.join b.sourceDirectory name) ≤ 4095 →
        AgreeBut home name s.tree t.tree →
          ∃ list', ((b.writeAll x).perform t).1 = .ok list' ∧ ListsEach b home t.tree list' ∧
            (∃ w ∈ list, w ∈ list' ∧ w.shader = Path.join b.sourceDirectory name) ∧
            let document := metadataPath b.metadataDirectory (Path.join b.sourceDirectory name)
            ((b.writeAll x).perform t).2.tree.readBytes document =
              ((b.writeAll x).perform s).2.tree.readBytes document := by
  have quiet : x.runner.Quiet := fixed ▸ fixedQuiet outcome
  obtain ⟨checked, walked, -⟩ := (s.tree.resolveFound).mp source
  have opens : s.tree.Opens b.sourceDirectory home := ⟨walked, directory⟩
  obtain ⟨place, names, begun⟩ := beginsStanding sound checked opens metadata
  obtain ⟨written, final⟩ := begun.ends quiet
  refine ⟨_, written, begun.listsEach sound, fun t sound' name known short agree => ?_⟩
  obtain ⟨place', names', begun'⟩ :=
    beginsStanding sound' checked (agree.opens opens) (agree.isDirectory metadata)
  obtain rfl : place = place' :=
    t.tree.opensUnique (agree.opens begun.placed.documents) begun'.placed.documents
  obtain ⟨written', final'⟩ := begun'.ends quiet
  have ready : x.Ready b.backend s.tree := Extractor.readyStands fun _ => .inr artifacts
  have ready' : x.Ready b.backend t.tree :=
    Extractor.readyStands fun _ => .inr (agree.isDirectory artifacts)
  obtain ⟨content, first, second, file, file'⟩ := agree.own
  have shader := (shaderFits sound checked).mpr ⟨⟨content, first, file⟩, known, short⟩
  have shader' := (shaderFits sound' checked).mpr ⟨⟨content, second, file'⟩, known, short⟩
  obtain ⟨m?, member⟩ := (b.settleEachMember x).mpr ((begun.shaders name).mpr shader)
  obtain ⟨m?', member'⟩ := (b.settleEachMember x).mpr ((begun'.shaders name).mpr shader')
  obtain rfl := outcomesAlike begun begun' ready ready' agree shader fixed member member'
  refine ⟨_, written', begun'.listsEach sound', ⟨b.report (name, m?'), List.mem_map_of_mem member,
    List.mem_map_of_mem member', ?_⟩, ?_⟩
  · cases m?' <;> rfl
  · rw [final, final']
    exact documentsAlike begun begun' ready ready' agree shader member member'

theorem neighbourUnreadable :
    let b : Batch := ⟨.source, "src".toList, "src".toList⟩
    let x : Extractor := { refusing with artifactDirectory := "src".toList }
    let other := threeShaders.tree.put ["src".toList, "b.frag".toList] (.file ⟨#[255]⟩)
    let first := (b.writeAll x).perform threeShaders
    let second := (b.writeAll x).perform { tree := other }
    ∃ list list', first.1 = .ok list ∧ second.1 = .ok list' ∧
      (∃ w ∈ list, w ∈ list' ∧ w.shader = "src/a.vert".toList) ∧
      second.2.tree.readBytes "src/a.vert.meta.json".toList =
        first.2.tree.readBytes "src/a.vert.meta.json".toList := by
  intro b x other first second
  have found : threeShaders.tree.resolve b.sourceDirectory = .ok ["src".toList] := by
    decide +kernel
  have agree : AgreeBut ["src".toList] "a.vert".toList threeShaders.tree other := by
    refine ⟨putCwd _ _, ⟨bytesOf "uniform mat4 m;\n".toList, false, false, rfl, rfl⟩, fun l _ => ?_⟩
    by_cases same : l = ["src".toList, "b.frag".toList]
    · exact .inr ⟨"b.frag".toList, same, by decide, by subst same; decide, by subst same; decide⟩
    · exact .inl (by rw [getPut _ (by simp), if_neg same])
  obtain ⟨list, written, -, isolated⟩ := shadersIsolated b x rfl threeShaders (by decide +kernel)
    found (by decide) (by decide +kernel) (by decide +kernel)
  obtain ⟨list', written', -, entry, document⟩ := isolated { tree := other } (by decide +kernel)
    "a.vert".toList (by decide) (by decide) agree
  exact ⟨list, list', written, written', entry, document⟩

theorem shaderOverlooked :
    let b : Batch := ⟨.source, (List.replicate 2046 "./".toList).flatten ++ "src".toList, "src".toList⟩
    let x : Extractor := { silent with artifactDirectory := "src".toList }
    oneShader.tree.Sound ∧ oneShader.tree.isFile "src/a.vert".toList = true ∧
      Stage.ofPath "a.vert".toList = .vertex ∧
      oneShader.tree.resolve b.sourceDirectory = .ok ["src".toList] ∧
      oneShader.tree.isDirectory b.metadataDirectory = true ∧
      oneShader.tree.isDirectory x.artifactDirectory = true ∧
      ((b.writeAll x).perform oneShader).1 = .ok [] := by
  decide +kernel

end ShaderReflection.Batch
