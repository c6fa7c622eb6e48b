import ShaderReflection.Proofs.Batch.Listing
import ShaderReflection.Proofs.Extraction.Verdict
/-!
What becomes of one shader of a batch, as a function of the files. Handling a shader writes its
document or nothing, and keeps the files that the other shaders are read from.
-/
namespace ShaderReflection.Batch
open Text FileTree

def settle (b : Batch) (x : Extractor) (shader : Path) (tree : FileTree) :
    Option Metadata × FileTree :=
  match tree.readText shader with
  | .error _ => (none, tree)
  | .ok source =>
    let ready := (x.prepare b.backend tree).1
    match x.verdict shader source b.backend tree with
    | .error _ => (none, ready)
    | .ok m =>
      match ready.writeText (metadataPath b.metadataDirectory shader) (Document.pretty m) with
      | .error _ => (none, ready)
      | .ok after => (some m, after)

def entry (b : Batch) (shader : Path) : Option Metadata → Written
  | none => ⟨shader, none, false⟩
  | some m => ⟨shader, some (metadataPath b.metadataDirectory shader), m.isSuccess⟩

section Program
variable (b : Batch) (x : Extractor) (shader : Path) (s : Session)

theorem performAdapt {ε δ α : Type} (f : δ → ε) (y : Step δ α) :
    (Step.adapt f y).perform s = ((y.perform s).1.mapError f, (y.perform s).2) := by
  unfold Step.perform Step.adapt
  cases y s <;> rfl

def writeDocument (m : Metadata) : Step ShaderFailure Written := do
  if !m.isSuccess then
    Step.note [.rejected shader m.diagnostics.exitCode m.diagnostics.stderr]
  let path := metadataPath b.metadataDirectory shader
  writeFile path (Document.pretty m)
  Step.note [.wrote path]
  return ⟨shader, some path, m.isSuccess⟩

theorem performWrite (path : Path) (text : Text) :
    (writeFile path text).perform s = match s.tree.writeText path text with
      | .ok tree => (.ok (), { s with tree := tree })
      | .error cause => (.error (.system cause), s) := by
  unfold Step.perform writeFile
  cases s.tree.writeText path text <;> rfl

theorem writeDocumentSettles (m : Metadata) :
    let ended := (b.writeDocument shader m).perform s
    match s.tree.writeText (metadataPath b.metadataDirectory shader) (Document.pretty m) with
    | .error cause => ended.1 = .error (.system cause) ∧ ended.2.tree = s.tree
    | .ok after => ended.1 = .ok (b.entry shader (some m)) ∧ ended.2.tree = after := by
  have wrote (t : Session) (same : t.tree = s.tree) :
      let path := metadataPath b.metadataDirectory shader
      let ended := (do
        writeFile path (Document.pretty m)
        Step.note [.wrote path]
        return ⟨shader, some path, m.isSuccess⟩ : Step ShaderFailure Written).perform t
      match s.tree.writeText path (Document.pretty m) with
      | .error cause => ended.1 = .error (.system cause) ∧ ended.2.tree = s.tree
      | .ok after => ended.1 = .ok (b.entry shader (some m)) ∧ ended.2.tree = after := by
    dsimp only
    rw [performBind, performWrite, same]
    cases s.tree.writeText (metadataPath b.metadataDirectory shader) (Document.pretty m) with
    | error cause => exact ⟨rfl, same⟩
    | ok after => exact ⟨rfl, rfl⟩
  unfold writeDocument
  dsimp only
  by_cases rejected : (!m.isSuccess) = true
  · rw [if_pos rejected]
    exact wrote (s.noteAll [.rejected shader m.diagnostics.exitCode m.diagnostics.stderr]) rfl
  · rw [if_neg rejected]
    exact wrote s rfl

theorem performExtract : (x.extract shader b.backend).perform s =
    match s.tree.readText shader with
    | .error cause => (.error (.readSource shader cause), s)
    | .ok source => (x.extractText shader source b.backend).perform s := by
  have same : (x.extract shader b.backend).perform s = (match s.tree.readText shader with
      | .error cause => throw (.readSource shader cause)
      | .ok source => x.extractText shader source b.backend : Step _ _).perform s := rfl
  rw [same]
  cases s.tree.readText shader <;> rfl

theorem performListed : b.writeListed x shader s =
    match (b.writeOne x shader).perform s with
    | (.ok written, after) => (written, after)
    | (.error e, after) => (⟨shader, none, false⟩, after.note (.failed shader e)) := by
  unfold writeListed Step.perform
  cases b.writeOne x shader s <;> rfl

variable (quiet : x.runner.Quiet) (known : Stage.ofPath shader ≠ .unknown)
include quiet known

theorem writeListedSettles :
    (b.writeListed x shader s).1 = b.entry shader (b.settle x shader s.tree).1 ∧
      (b.writeListed x shader s).2.tree = (b.settle x shader s.tree).2 := by
  have parts : (b.writeOne x shader).perform s =
      (Step.adapt .extraction (x.extract shader b.backend) >>= b.writeDocument shader).perform s :=
    rfl
  rw [performListed, parts, performBind, performAdapt, performExtract]
  unfold settle
  cases s.tree.readText shader with
  | error cause => exact ⟨rfl, rfl⟩
  | ok source =>
    dsimp only
    have decided := x.verdictIs shader source b.backend s
    have left := x.extractedTree shader source b.backend s quiet known
    cases ended : (x.extractText shader source b.backend).perform s with
    | mk result after =>
      rw [ended] at decided left
      obtain rfl : result = x.verdict shader source b.backend s.tree := decided
      dsimp only at left ⊢
      rw [← left]
      cases x.verdict shader source b.backend s.tree with
      | error e => exact ⟨rfl, rfl⟩
      | ok m =>
        have wrote := b.writeDocumentSettles shader after m
        dsimp only [Except.mapError] at wrote ⊢
        cases written : (b.writeDocument shader m).perform after with
        | mk outcome final =>
          rw [written] at wrote
          cases done : after.tree.writeText (metadataPath b.metadataDirectory shader)
              (Document.pretty m) with
          | error cause =>
            rw [done] at wrote
            obtain ⟨rfl, same⟩ := wrote
            exact ⟨rfl, same⟩
          | ok tree =>
            rw [done] at wrote
            obtain ⟨rfl, same⟩ := wrote
            exact ⟨rfl, same⟩

end Program

section Cases
variable {b : Batch} {x : Extractor} {shader : Path} {tree after : FileTree}

theorem settleUnread {cause : OsError} (unread : tree.readText shader = .error cause) :
    b.settle x shader tree = (none, tree) := by
  rw [settle, unread]

variable {source : Text} (read : tree.readText shader = .ok source)
include read

theorem settleUndecided {e : ExtractError} {ready : FileTree} {result : Except OsError Unit}
    (prepared : x.prepare b.backend tree = (ready, result))
    (failed : x.verdict shader source b.backend tree = .error e) :
    b.settle x shader tree = (none, ready) := by
  rw [settle, read]
  simp only [failed, prepared]

theorem settleDecided {m : Metadata} {ready : FileTree} {result : Except OsError Unit}
    (prepared : x.prepare b.backend tree = (ready, result))
    (decided : x.verdict shader source b.backend tree = .ok m) :
    b.settle x shader tree =
      match ready.writeText (metadataPath b.metadataDirectory shader) (Document.pretty m) with
      | .error _ => (none, ready)
      | .ok after => (some m, after) := by
  rw [settle, read]
  simp only [decided, prepared]

end Cases

inductive Settles (b : Batch) (x : Extractor) (shader : Path) (tree : FileTree) :
    Option Metadata → FileTree → Prop
  | unread (cause : OsError) (unread : tree.readText shader = .error cause) :
    Settles b x shader tree none tree
  | unprepared (source : Text) (read : tree.readText shader = .ok source) (ready : FileTree)
    (cause : OsError) (prepared : x.prepare b.backend tree = (ready, .error cause)) :
    Settles b x shader tree none ready
  | undecided (source : Text) (read : tree.readText shader = .ok source) (ready : FileTree)
    (prepared : x.prepare b.backend tree = (ready, .ok ())) (e : ExtractError)
    (failed : x.verdict shader source b.backend tree = .error e) : Settles b x shader tree none ready
  | unwritten (source : Text) (read : tree.readText shader = .ok source) (ready : FileTree)
    (prepared : x.prepare b.backend tree = (ready, .ok ())) (m : Metadata)
    (decided : x.verdict shader source b.backend tree = .ok m) (cause : OsError)
    (failed : ready.writeText (metadataPath b.metadataDirectory shader) (Document.pretty m) =
      .error cause) : Settles b x shader tree none ready
  | written (source : Text) (read : tree.readText shader = .ok source) (ready : FileTree)
    (prepared : x.prepare b.backend tree = (ready, .ok ())) (m : Metadata)
    (decided : x.verdict shader source b.backend tree = .ok m) (after : FileTree)
    (done : ready.writeText (metadataPath b.metadataDirectory shader) (Document.pretty m) =
      .ok after) : Settles b x shader tree (some m) after

theorem settles (b : Batch) (x : Extractor) {shader : Path} (known : Stage.ofPath shader ≠ .unknown)
    (tree : FileTree) :
    Settles b x shader tree (b.settle x shader tree).1 (b.settle x shader tree).2 := by
  cases read : tree.readText shader with
  | error cause =>
    rw [settleUnread read]
    exact .unread cause read
  | ok source =>
    cases prepared : x.prepare b.backend tree with
    | mk ready result =>
      cases result with
      | error cause =>
        obtain ⟨e, failed⟩ := x.verdictRefused shader source b.backend known prepared
        rw [settleUndecided read prepared failed]
        exact .unprepared source read ready cause prepared
      | ok _ =>
        cases decided : x.verdict shader source b.backend tree with
        | error e =>
          rw [settleUndecided read prepared decided]
          exact .undecided source read ready prepared e decided
        | ok m =>
          rw [settleDecided read prepared decided]
          cases done : ready.writeText (metadataPath b.metadataDirectory shader)
              (Document.pretty m) with
          | error cause => exact .unwritten source read ready prepared m decided cause done
          | ok after => exact .written source read ready prepared m decided after done

theorem settlesExtracted {b : Batch} {x : Extractor} {shader : Path} {tree after : FileTree}
    {m : Metadata} (settled : Settles b x shader tree (some m) after) :
    m.Built ∧ Extractor.Complete m ∧ ∀ s : Session, s.tree = tree →
      ((x.extract shader b.backend).perform s).1 = .ok m := by
  cases settled with
  | written source read _ _ _ decided _ _ =>
    refine ⟨x.verdictBuilt _ _ _ decided, x.verdictComplete _ _ _ decided, ?_⟩
    rintro s rfl
    rw [performExtract, read]
    exact (x.verdictIs shader source b.backend s).trans decided

/-! A shader among files. -/

structure Placed (b : Batch) (home place : Location) (tree : FileTree) : Prop where
  sound : tree.Sound
  source : tree.Opens b.sourceDirectory home
  documents : tree.Opens b.metadataDirectory place

theorem Placed.grows {b : Batch} {home place : Location} {tree after : FileTree}
    {written : Location → Prop} (placed : Placed b home place tree) (solid : after.Sound)
    (grows : Grows written tree after) : Placed b home place after :=
  ⟨solid, grows.opens placed.source, grows.opens placed.documents⟩

def documentAt (place : Location) (name : Text) : Location := place ++ [documentName name]

structure Documented (b : Batch) (place : Location) (name : Text) (m : Metadata) (tree : FileTree) :
    Prop where
  fits : Fits b.metadataDirectory (documentName name)
  file : ∃ executable, tree.get? (documentAt place name) =
    some (.file (bytesOf (Document.pretty m)) executable)

section Documents
variable {b : Batch} {home place : Location} {tree : FileTree} {name : Text} {m : Metadata}
  (placed : Placed b home place tree) (named : Path.IsName name)
  (documented : Documented b place name m tree)
include placed named documented

theorem documentedText :
    tree.readText (Path.join b.metadataDirectory (documentName name)) = .ok (Document.pretty m) := by
  obtain ⟨executable, file⟩ := documented.file
  have bytes := readInside placed.documents (documentNamed named) documented.fits file
  simp only [readText, bytes, bind, Except.bind, textOfBytes, String.toList_ofList]

theorem documentedHeld :
    tree.writeText (Path.join b.metadataDirectory (documentName name)) (Document.pretty m) =
      .ok tree := by
  obtain ⟨executable, file⟩ := documented.file
  exact writeHeld placed.documents (documentNamed named) placed.sound documented.fits file

end Documents

section Step
variable {b : Batch} {x : Extractor} {home place : Location} {tree after : FileTree} {name : Text}
  {m? : Option Metadata} (placed : Placed b home place tree) (shader : Shader b home tree name)
include shader

theorem shaderStage : Stage.ofPath (Path.join b.sourceDirectory name) ≠ .unknown := by
  rw [Path.stageJoin shader.named]
  exact shader.known

include placed

theorem sourceText {content : ByteArray} {first second : Bool} {other : FileTree}
    (placed' : Placed b home place other)
    (file : tree.get? (home ++ [name]) = some (.file content first))
    (file' : other.get? (home ++ [name]) = some (.file content second)) :
    other.readText (Path.join b.sourceDirectory name) =
      tree.readText (Path.join b.sourceDirectory name) := by
  have bytes := readInside placed.source shader.named shader.fits file
  have bytes' := readInside placed'.source shader.named shader.fits file'
  rw [readText, readText, bytes, bytes']

theorem settlesKeeps (settled : Settles b x (Path.join b.sourceDirectory name) tree m? after) :
    Placed b home place after ∧
      Grows (fun l => m?.isSome = true ∧ l = documentAt place name) tree after := by
  have prepared {ready : FileTree} {result : Except OsError Unit}
      (prepared : x.prepare b.backend tree = (ready, result)) :
      Placed b home place ready ∧
        Grows (fun l => m?.isSome = true ∧ l = documentAt place name) tree ready := by
    obtain ⟨solid, grows⟩ := Extractor.preparedKeeps placed.sound prepared
    exact ⟨placed.grows solid grows, growsMore (fun _ => False.elim) grows⟩
  cases settled with
  | unread => exact ⟨placed, growsSelf tree⟩
  | unprepared _ _ _ _ made => exact prepared made
  | undecided _ _ _ made => exact prepared made
  | unwritten _ _ _ made => exact prepared made
  | written _ _ ready made _ _ _ done =>
    obtain ⟨there, grows⟩ := prepared made
    rw [metadataPathJoin shader.named] at done
    have named := documentNamed shader.named
    have wrote := writtenGrows there.documents named done
    refine ⟨there.grows (writtenSound there.documents named done there.sound) wrote, ?_⟩
    exact growsTrans grows (growsMore (fun l same => ⟨rfl, same⟩) wrote)

theorem shaderStays (settled : Settles b x (Path.join b.sourceDirectory name) tree m? after)
    {other : Text} : Shader b home after other ↔ Shader b home tree other :=
  shaderGrows (settlesKeeps placed shader settled).2 fun _ here => ⟨place, name, here.2⟩

theorem settlesReady {m : Metadata}
    (settled : Settles b x (Path.join b.sourceDirectory name) tree (some m) after) :
    x.Ready b.backend after := by
  cases settled with
  | written _ _ ready prepared _ _ _ done =>
    obtain ⟨solid, grows⟩ := Extractor.preparedKeeps placed.sound prepared
    have there := placed.grows solid grows
    rw [metadataPathJoin shader.named] at done
    exact (Extractor.preparedReady prepared).grows
      (writtenGrows there.documents (documentNamed shader.named) done)

theorem settlesSteady (ready : x.Ready b.backend tree)
    (settled : Settles b x (Path.join b.sourceDirectory name) tree m? after) :
    (m? = none → after = tree) ∧ ∀ l, l ≠ documentAt place name → after.get? l = tree.get? l := by
  have still {result : FileTree} {outcome : Except OsError Unit}
      (prepared : x.prepare b.backend tree = (result, outcome)) : result = tree :=
    (Prod.mk.inj (prepared.symm.trans ready)).1
  cases settled with
  | unread => exact ⟨fun _ => rfl, fun _ _ => rfl⟩
  | unprepared _ _ _ _ made =>
    rw [still made]
    exact ⟨fun _ => rfl, fun _ _ => rfl⟩
  | undecided _ _ _ made =>
    rw [still made]
    exact ⟨fun _ => rfl, fun _ _ => rfl⟩
  | unwritten _ _ _ made =>
    rw [still made]
    exact ⟨fun _ => rfl, fun _ _ => rfl⟩
  | written _ _ _ made _ _ _ done =>
    rw [still made, metadataPathJoin shader.named] at done
    refine ⟨nofun, fun l other => ?_⟩
    exact writtenElsewhere placed.documents (documentNamed shader.named) done other

theorem settlesDocumented {m : Metadata}
    (settled : Settles b x (Path.join b.sourceDirectory name) tree (some m) after) :
    Documented b place name m after := by
  have named := documentNamed shader.named
  cases settled with
  | written _ _ ready prepared _ _ _ done =>
    obtain ⟨solid, grows⟩ := Extractor.preparedKeeps placed.sound prepared
    have there := placed.grows solid grows
    rw [metadataPathJoin shader.named] at done
    exact ⟨(writeDone there.documents named done).1, _, writtenFile there.documents named done⟩

theorem sourceTextKept {written : Location → Prop} (placed' : Placed b home place after)
    (grows : Grows written tree after)
    (documents : ∀ l, written l → ∃ front name, l = front ++ [documentName name]) :
    after.readText (Path.join b.sourceDirectory name) =
      tree.readText (Path.join b.sourceDirectory name) := by
  obtain ⟨content, executable, file⟩ := shader.file
  have same := sourceKept grows documents shader.known (file ▸ Option.some_ne_none _)
  exact sourceText placed shader placed' file (same.trans file)

end Step
end ShaderReflection.Batch
