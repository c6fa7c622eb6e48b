import ShaderReflection.Proofs.Batch.Settling
/-!
A run over the shaders of a batch, as a function of the files. A run keeps every file but the
documents that it reports, and each shader is handled on the files that those before it left.
-/
namespace ShaderReflection.Batch
open Text FileTree

def settleEach (b : Batch) (x : Extractor) :
    List Text → FileTree → List (Text × Option Metadata) × FileTree
  | [], tree => ([], tree)
  | name :: rest, tree =>
    let first := b.settle x (Path.join b.sourceDirectory name) tree
    let others := b.settleEach x rest first.2
    ((name, first.1) :: others.1, others.2)

def report (b : Batch) (outcome : Text × Option Metadata) : Written :=
  b.entry (Path.join b.sourceDirectory outcome.1) outcome.2

section Run
variable (b : Batch) (x : Extractor)

theorem settleEachNames (names : List Text) (tree : FileTree) :
    (b.settleEach x names tree).1.map (·.1) = names := by
  induction names generalizing tree with
  | nil => rfl
  | cons name rest ih => rw [settleEach, List.map_cons, ih]

theorem settleEachMember {names : List Text} {tree : FileTree} {name : Text} :
    (∃ m?, (name, m?) ∈ (b.settleEach x names tree).1) ↔ name ∈ names := by
  conv_rhs => rw [← b.settleEachNames x names tree, List.mem_map]
  constructor
  · rintro ⟨m?, member⟩
    exact ⟨(name, m?), member, rfl⟩
  · rintro ⟨⟨_, m?⟩, member, rfl⟩
    exact ⟨m?, member⟩

theorem writeEachSettles (quiet : x.runner.Quiet) {names : List Text}
    (known : ∀ name ∈ names, Stage.ofPath (Path.join b.sourceDirectory name) ≠ .unknown)
    (s : Session) :
    (b.writeEach x (names.map (Path.join b.sourceDirectory)) s).1 =
        (b.settleEach x names s.tree).1.map b.report ∧
      (b.writeEach x (names.map (Path.join b.sourceDirectory)) s).2.tree =
        (b.settleEach x names s.tree).2 := by
  induction names generalizing s with
  | nil => exact ⟨rfl, rfl⟩
  | cons name rest ih =>
    rw [List.forall_mem_cons] at known
    obtain ⟨written, left⟩ := b.writeListedSettles x _ s quiet known.1
    obtain ⟨others, final⟩ := ih known.2 (b.writeListed x (Path.join b.sourceDirectory name) s).2
    rw [left] at others final
    simp only [List.map_cons, writeEach, settleEach]
    exact ⟨by rw [written, others]; rfl, final⟩

theorem performMake (s : Session) : b.makeMetadataDirectory.perform s =
    match s.tree.makeDirectories b.metadataDirectory with
    | (made, .error cause) => (.error cause, { s with tree := made })
    | (made, .ok ()) => (.ok (), { s with tree := made }) := by
  unfold Step.perform makeMetadataDirectory
  cases s.tree.makeDirectories b.metadataDirectory with
  | mk tree result => cases result <;> rfl

def writeListing (paths : List Path) : Step OsError (List Written) := do
  b.makeMetadataDirectory
  let (written, s) := b.writeEach x paths (← get)
  set s
  Step.note [.summary written.length (written.filter (!·.success)).length]
  return written

theorem performAll (s : Session) : (b.writeAll x).perform s =
    match b.shaders s.tree with
    | .error cause => (.error cause, s)
    | .ok paths =>
      match s.tree.makeDirectories b.metadataDirectory with
      | (made, .error cause) => (.error cause, { s with tree := made })
      | (made, .ok ()) =>
        let ended := b.writeEach x paths { s with tree := made }
        (.ok ended.1,
          ended.2.noteAll [.summary ended.1.length (ended.1.filter (!·.success)).length]) := by
  have listed : (b.writeAll x).perform s =
      (Step.ofExcept (b.shaders s.tree) >>= b.writeListing x).perform s := rfl
  rw [listed, performBind]
  cases b.shaders s.tree with
  | error cause => rfl
  | ok paths =>
    change (b.makeMetadataDirectory >>= fun _ => _).perform s = _
    rw [performBind, performMake]
    cases s.tree.makeDirectories b.metadataDirectory with
    | mk tree result => cases result <;> rfl

theorem performUnlisted {s : Session} {cause : OsError} (unlisted : b.shaders s.tree = .error cause) :
    (b.writeAll x).perform s = (.error cause, s) := by
  rw [performAll, unlisted]

theorem performUnmade {s : Session} {paths : List Path} {made : FileTree} {cause : OsError}
    (listed : b.shaders s.tree = .ok paths)
    (unmade : s.tree.makeDirectories b.metadataDirectory = (made, .error cause)) :
    (b.writeAll x).perform s = (.error cause, { s with tree := made }) := by
  rw [performAll, listed, unmade]

end Run

def DocumentOf (place : Location) (outcomes : List (Text × Option Metadata)) (l : Location) : Prop :=
  ∃ name m, (name, some m) ∈ outcomes ∧ l = documentAt place name

theorem documentNames {place : Location} {outcomes : List (Text × Option Metadata)} (l : Location)
    (written : DocumentOf place outcomes l) : ∃ front name, l = front ++ [documentName name] := by
  obtain ⟨name, m, -, same⟩ := written
  exact ⟨place, name, same⟩

theorem documentOfName {place : Location} {outcomes : List (Text × Option Metadata)} {name : Text}
    (written : DocumentOf place outcomes (documentAt place name)) :
    ∃ m, (name, some m) ∈ outcomes := by
  obtain ⟨other, m, member, same⟩ := written
  obtain rfl := documentNameInjective (List.singleton_inj.mp (List.append_inj' same rfl).2)
  exact ⟨m, member⟩

section Unwritten
variable {b : Batch} {x : Extractor} {place : Location} {tree : FileTree} {names : List Text}
  {name : Text}

theorem unnamedUnwritten (apart : name ∉ names) :
    ¬DocumentOf place (b.settleEach x names tree).1 (documentAt place name) := by
  intro written
  obtain ⟨m, member⟩ := documentOfName written
  exact apart ((b.settleEachMember x).mp ⟨_, member⟩)

theorem failedUnwritten (once : names.Nodup)
    (failed : (name, none) ∈ (b.settleEach x names tree).1) :
    ¬DocumentOf place (b.settleEach x names tree).1 (documentAt place name) := by
  intro written
  obtain ⟨m, member⟩ := documentOfName written
  rw [← b.settleEachNames x names tree] at once
  cases List.inj_on_of_nodup_map once failed member rfl

end Unwritten

section Keeps
variable {b : Batch} (x : Extractor) {home place : Location} {tree : FileTree} {names : List Text}

theorem runKeeps (placed : Placed b home place tree)
    (shaders : ∀ name ∈ names, Shader b home tree name) :
    Placed b home place (b.settleEach x names tree).2 ∧
      Grows (DocumentOf place (b.settleEach x names tree).1) tree (b.settleEach x names tree).2 := by
  induction names generalizing tree with
  | nil => exact ⟨placed, growsSelf tree⟩
  | cons name rest ih =>
    rw [List.forall_mem_cons] at shaders
    obtain ⟨shader, others⟩ := shaders
    have settled := b.settles x (shaderStage shader) tree
    obtain ⟨next, first⟩ := settlesKeeps placed shader settled
    have written : Grows (DocumentOf place (b.settleEach x (name :: rest) tree).1) tree
        (b.settle x (Path.join b.sourceDirectory name) tree).2 := by
      refine growsMore (fun l here => ?_) first
      obtain ⟨m, some'⟩ := Option.isSome_iff_exists.mp here.1
      refine ⟨name, m, ?_, here.2⟩
      rw [settleEach, ← some']
      exact List.mem_cons_self
    obtain ⟨final, after⟩ := ih next fun other member =>
      (shaderGrows written documentNames).mpr (others other member)
    refine ⟨final, growsTrans written (growsMore (fun l here => ?_) after)⟩
    obtain ⟨other, m, member, same⟩ := here
    exact ⟨other, m, List.mem_cons_of_mem _ member, same⟩

structure Turn (b : Batch) (x : Extractor) (names : List Text) (tree : FileTree) (name : Text)
    (m? : Option Metadata) (front back : List Text) (before next : FileTree) : Prop where
  order : names = front ++ name :: back
  earlier : before = (b.settleEach x front tree).2
  settled : b.settle x (Path.join b.sourceDirectory name) before = (m?, next)
  later : (b.settleEach x names tree).2 = (b.settleEach x back next).2

theorem runTurn {name : Text} {m? : Option Metadata}
    (member : (name, m?) ∈ (b.settleEach x names tree).1) :
    ∃ front back before next, Turn b x names tree name m? front back before next := by
  induction names generalizing tree with
  | nil => cases member
  | cons first rest ih =>
    rcases List.mem_cons.mp member with here | later
    · obtain ⟨rfl, same⟩ := Prod.mk.inj here
      exact ⟨[], rest, tree, _, rfl, rfl, Prod.ext same.symm rfl, rfl⟩
    · obtain ⟨front, back, before, next, rfl, same, settled, after⟩ := ih later
      exact ⟨first :: front, back, before, next, rfl, same, settled, after⟩

section Turn
variable {x} {name : Text} {m? : Option Metadata} {front back : List Text} {before next : FileTree}
  (turn : Turn b x names tree name m? front back before next)
include turn

theorem Turn.member : name ∈ names :=
  turn.order ▸ List.mem_append_right front List.mem_cons_self

variable (placed : Placed b home place tree) (shaders : ∀ name ∈ names, Shader b home tree name)
include placed shaders

theorem Turn.begins : Placed b home place before ∧
    Grows (DocumentOf place (b.settleEach x front tree).1) tree before ∧
    ∀ name ∈ names, Shader b home before name := by
  obtain ⟨placed, grows⟩ := runKeeps x placed fun other here =>
    shaders other (turn.order ▸ List.mem_append_left _ here)
  rw [turn.earlier]
  exact ⟨placed, grows, fun other here => (shaderGrows grows documentNames).mpr (shaders other here)⟩

theorem Turn.settles : Settles b x (Path.join b.sourceDirectory name) before m? next := by
  obtain ⟨-, -, others⟩ := turn.begins placed shaders
  have shader := others name turn.member
  have settled := b.settles x (shaderStage shader) before
  rwa [turn.settled] at settled

theorem Turn.ends : Grows (DocumentOf place (b.settleEach x back next).1) next
    (b.settleEach x names tree).2 := by
  obtain ⟨placed', -, others⟩ := turn.begins placed shaders
  have shader := others name turn.member
  have settled := turn.settles placed shaders
  obtain ⟨there, -⟩ := settlesKeeps placed' shader settled
  rw [turn.later]
  refine (runKeeps x there fun other here => ?_).2
  refine (shaderStays placed' shader settled).mpr (others other ?_)
  exact turn.order ▸ List.mem_append_right _ (List.mem_cons_of_mem name here)

theorem Turn.documented {m : Metadata} (once : names.Nodup) (written : m? = some m) :
    Documented b place name m (b.settleEach x names tree).2 := by
  obtain ⟨placed', -, others⟩ := turn.begins placed shaders
  have shader := others name turn.member
  have settled := turn.settles placed shaders
  rw [written] at settled
  have documented := settlesDocumented placed' shader settled
  obtain ⟨executable, file⟩ := documented.file
  refine ⟨documented.fits, executable, ?_⟩
  rw [turn.order, List.nodup_append, List.nodup_cons] at once
  rw [(turn.ends placed shaders).kept (unnamedUnwritten once.2.1.1) (file ▸ Option.some_ne_none _),
    file]

end Turn
end Keeps

structure Begins (b : Batch) (tree : FileTree) (home place : Location) (names : List Text)
    (made : FileTree) : Prop where
  checked : checkPath b.sourceDirectory = .ok ()
  source : tree.Opens b.sourceDirectory home
  listed : b.shaders tree = .ok (names.map (Path.join b.sourceDirectory))
  sorted : names.Pairwise (· < ·)
  shaders : ∀ name, name ∈ names ↔ Shader b home tree name
  directory : tree.makeDirectories b.metadataDirectory = (made, .ok ())
  grows : Grows (fun _ => False) tree made
  placed : Placed b home place made

section Batch
variable {b : Batch} {x : Extractor} {s : Session}

theorem begins {tree made : FileTree} {paths : List Path} (sound : tree.Sound)
    (listed : b.shaders tree = .ok paths)
    (directory : tree.makeDirectories b.metadataDirectory = (made, .ok ())) :
    ∃ home place names, Begins b tree home place names made := by
  obtain ⟨checked, home, source⟩ := shadersOpen listed
  obtain ⟨names, listed, sorted, shaders⟩ := shadersListed sound checked source
  obtain ⟨solid, grows⟩ := makeKeeps sound directory
  obtain ⟨place, documents⟩ := solid.standsOpen (makeReady directory)
  exact ⟨home, place, names, checked, source, listed, sorted, shaders, directory, grows, solid,
    grows.opens source, documents⟩

theorem beginsOk (sound : s.tree.Sound) {list : List Written}
    (ended : ((b.writeAll x).perform s).1 = .ok list) :
    ∃ home place names made, Begins b s.tree home place names made := by
  rw [performAll] at ended
  cases listed : b.shaders s.tree with
  | error cause =>
    rw [listed] at ended
    cases ended
  | ok paths =>
    rw [listed] at ended
    cases directory : s.tree.makeDirectories b.metadataDirectory with
    | mk made result =>
      cases result with
      | error cause =>
        rw [directory] at ended
        cases ended
      | ok _ =>
        obtain ⟨home, place, names, begins⟩ := begins sound listed directory
        exact ⟨home, place, names, made, begins⟩

section Begins
variable {home place : Location} {names : List Text} {made : FileTree}

theorem Begins.shadersMade {tree : FileTree} (begins : Begins b tree home place names made) :
    ∀ name ∈ names, Shader b home made name := fun name member =>
  (shaderGrows begins.grows fun _ => False.elim).mpr ((begins.shaders name).mp member)

theorem Begins.documented {tree : FileTree} (begins : Begins b tree home place names made)
    {name : Text} {m : Metadata} (member : (name, some m) ∈ (b.settleEach x names made).1) :
    Documented b place name m (b.settleEach x names made).2 := by
  obtain ⟨_, _, _, _, turn⟩ := runTurn x member
  exact turn.documented begins.placed begins.shadersMade begins.sorted.nodup rfl

theorem Begins.again {tree : FileTree} (begins : Begins b tree home place names made)
    (sound : tree.Sound) : Begins b (b.settleEach x names made).2 home place names
      (b.settleEach x names made).2 := by
  obtain ⟨placed, grows⟩ := runKeeps x begins.placed begins.shadersMade
  have whole := growsTrans (growsMore (fun _ => False.elim) begins.grows) grows
  have alike (name : Text) : Shader b home (b.settleEach x names made).2 name ↔
      Shader b home tree name := shaderGrows whole documentNames
  exact {
    checked := begins.checked
    source := placed.source
    listed := begins.listed ▸
      shadersSame sound placed.sound begins.checked begins.source placed.source alike
    sorted := begins.sorted
    shaders := fun name => (begins.shaders name).trans (alike name).symm
    directory := makeStanding (grows.stands (makeReady begins.directory))
    grows := growsSelf _
    placed := placed }

variable (begins : Begins b s.tree home place names made)
include begins

theorem Begins.ends (quiet : x.runner.Quiet) :
    ((b.writeAll x).perform s).1 = .ok ((b.settleEach x names made).1.map b.report) ∧
      ((b.writeAll x).perform s).2.tree = (b.settleEach x names made).2 := by
  have known : ∀ name ∈ names, Stage.ofPath (Path.join b.sourceDirectory name) ≠ .unknown :=
    fun name member => shaderStage (begins.shadersMade name member)
  obtain ⟨written, left⟩ := b.writeEachSettles x quiet known { s with tree := made }
  rw [performAll, begins.listed, begins.directory]
  exact ⟨congrArg Except.ok written, left⟩

end Begins
end Batch

def silent : Extractor where
  runner := .fixed fun _ _ => .ok {}
  artifactDirectory := "artifacts".toList

def oneShader : Session where
  tree := { nodes := [(["src".toList], .directory), (["src".toList, "a.vert".toList], .file .empty),
    (["f".toList], .file .empty)] }

def refusing : Extractor where
  runner := .fixed fun _ arguments =>
    if arguments.any "b.frag".toList.isSuffixOf then .ok ⟨[], "b.frag:1: syntax error".toList, 1⟩
    else .ok {}
  artifactDirectory := "artifacts".toList

def threeShaders : Session where
  tree := { nodes := [(["src".toList], .directory),
    (["src".toList, "a.vert".toList], .file (bytesOf "uniform mat4 m;\n".toList)),
    (["src".toList, "b.frag".toList], .file (bytesOf "out vec4\n".toList)),
    (["src".toList, "c.comp".toList], .file ⟨#[255]⟩)] }

theorem threeWritten :
    let b : Batch := ⟨.source, "src".toList, "src".toList⟩
    ((b.writeAll refusing).perform threeShaders).1 = .ok
      [⟨"src/a.vert".toList, some "src/a.vert.meta.json".toList, true⟩,
        ⟨"src/b.frag".toList, some "src/b.frag.meta.json".toList, false⟩,
        ⟨"src/c.comp".toList, none, false⟩] := by
  intro b
  let names : List Text := ["a.vert".toList, "b.frag".toList, "c.comp".toList]
  have listing : threeShaders.tree.list b.sourceDirectory = .ok names := by decide +kernel
  have sorted : names.mergeSort textLe = names := List.mergeSort_of_pairwise (by decide)
  have files : ((names.map (Path.join b.sourceDirectory)).filter fun path =>
      threeShaders.tree.isFile path && Stage.ofPath path != .unknown) =
        names.map (Path.join b.sourceDirectory) := by decide +kernel
  have listed : b.shaders threeShaders.tree = .ok (names.map (Path.join b.sourceDirectory)) := by
    unfold shaders
    rw [listing]
    simp only [bind, Except.bind, pure, Except.pure, sorted, files]
  rw [performAll, listed]
  decide +kernel

end ShaderReflection.Batch
