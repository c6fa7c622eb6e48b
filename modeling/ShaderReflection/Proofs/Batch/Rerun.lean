import ShaderReflection.Proofs.Batch.Run
/-!
A batch that is run again. A shader that was handled is settled: handling it again ends in the same
way and changes nothing, also after the other shaders were handled.
-/
namespace ShaderReflection.Batch
open Text FileTree

section Step
variable {b : Batch} {x : Extractor} {outcome : Path → List Text → Except OsError Diagnostics}
  {home place : Location} {tree after : FileTree} {name : Text} {m? : Option Metadata}
  (fixed : x.runner = .fixed outcome) (placed : Placed b home place tree)
  (shader : Shader b home tree name)
include fixed placed shader

theorem settledAgain (settled : Settles b x (Path.join b.sourceDirectory name) tree m? after) :
    b.settle x (Path.join b.sourceDirectory name) after = (m?, after) := by
  obtain ⟨placed', grows⟩ := settlesKeeps placed shader settled
  have text := sourceTextKept placed shader placed' grows fun l here => ⟨place, name, here.2⟩
  cases settled with
  | unread cause unread => exact settleUnread unread
  | unprepared source read ready cause prepared =>
    obtain ⟨again, failed⟩ := Extractor.preparedAgain placed.sound prepared
    obtain ⟨e, undecided⟩ :=
      x.verdictRefused _ source b.backend (shaderStage shader) failed
    exact settleUndecided (text.trans read) failed undecided
  | undecided source read ready prepared e failed =>
    have still := Extractor.preparedReady prepared
    rw [Extractor.verdictSteady fixed _ source prepared still] at failed
    exact settleUndecided (text.trans read) still failed
  | unwritten source read ready prepared m decided cause failed =>
    have still := Extractor.preparedReady prepared
    rw [Extractor.verdictSteady fixed _ source prepared still] at decided
    rw [settleDecided (text.trans read) still decided, failed]
  | written source read ready prepared m decided _ done =>
    have written := Settles.written source read ready prepared m decided after done
    have documented := settlesDocumented placed shader written
    have still := settlesReady placed shader written
    rw [Extractor.verdictSteady fixed _ source prepared still] at decided
    rw [settleDecided (text.trans read) still decided, metadataPathJoin shader.named,
      documentedHeld placed' shader.named documented]

theorem settledStays (settled : Settles b x (Path.join b.sourceDirectory name) tree m? tree)
    {other : Text} (different : name ≠ other) (shader' : Shader b home tree other)
    {m?' : Option Metadata}
    (next : Settles b x (Path.join b.sourceDirectory other) tree m?' after) :
    b.settle x (Path.join b.sourceDirectory name) after = (m?, after) := by
  obtain ⟨placed', grows⟩ := settlesKeeps placed shader' next
  have text := sourceTextKept placed shader placed' grows fun l here => ⟨place, other, here.2⟩
  have named := documentNamed shader.named
  have elsewhere : documentAt place name ≠ documentAt place other := fun same =>
    different (documentNameInjective (List.singleton_inj.mp (List.append_inj' same rfl).2))
  cases settled with
  | unread cause unread => exact settleUnread (text.trans unread)
  | unprepared source read _ cause prepared =>
    -- The artifact directory is refused to the other shader too, which leaves the files as they are.
    have same : after = tree := by
      cases next with
      | unread => rfl
      | unprepared _ _ _ _ prepared' => exact (Prod.mk.inj (prepared'.symm.trans prepared)).1
      | undecided _ _ _ prepared' => cases prepared.symm.trans prepared'
      | unwritten _ _ _ prepared' => cases prepared.symm.trans prepared'
      | written _ _ _ prepared' => cases prepared.symm.trans prepared'
    obtain ⟨e, undecided⟩ :=
      x.verdictRefused _ source b.backend (shaderStage shader) prepared
    rw [same]
    exact settleUndecided read prepared undecided
  | undecided source read _ prepared e failed =>
    have still := Extractor.Ready.grows prepared grows
    rw [Extractor.verdictSteady fixed _ source prepared still] at failed
    exact settleUndecided (text.trans read) still failed
  | unwritten source read _ prepared m decided cause failed =>
    have still := Extractor.Ready.grows prepared grows
    have kept := (settlesSteady placed shader' prepared next).2 _ elsewhere
    rw [Extractor.verdictSteady fixed _ source prepared still] at decided
    rw [metadataPathJoin shader.named] at failed
    rw [settleDecided (text.trans read) still decided, metadataPathJoin shader.named]
    have place' : after.isDirectoryAt (documentAt place name) =
        tree.isDirectoryAt (documentAt place name) := by
      rw [isDirectoryAt, isDirectoryAt, kept]
    rcases writeAlike placed.documents named placed'.documents place'
      (bytesOf (Document.pretty m)) with ⟨_, -, again⟩ | ⟨_, _, done, -⟩
    · rw [writeText, ← bytesOf, again]
    · rw [writeText, ← bytesOf, done] at failed
      cases failed
  | written source read _ prepared m decided _ done =>
    have written := Settles.written source read _ prepared m decided tree done
    have documented := settlesDocumented placed shader written
    have ready := settlesReady placed shader written
    have still := ready.grows grows
    have kept := (settlesSteady placed shader' ready next).2 _ elsewhere
    rw [Extractor.verdictSteady fixed _ source prepared still] at decided
    rw [settleDecided (text.trans read) still decided, metadataPathJoin shader.named,
      documentedHeld placed' shader.named
        ⟨documented.fits, documented.file.imp fun _ file => kept.trans file⟩]

end Step

section Run
variable {b : Batch} {x : Extractor} {outcome : Path → List Text → Except OsError Diagnostics}
  {home place : Location} {tree : FileTree} {names : List Text}
  (fixed : x.runner = .fixed outcome)
include fixed

theorem settledThroughout {name : Text} {m? : Option Metadata} (placed : Placed b home place tree)
    (shader : Shader b home tree name)
    (settled : b.settle x (Path.join b.sourceDirectory name) tree = (m?, tree))
    (shaders : ∀ other ∈ names, Shader b home tree other) (apart : name ∉ names) :
    b.settle x (Path.join b.sourceDirectory name) (b.settleEach x names tree).2 =
      (m?, (b.settleEach x names tree).2) := by
  induction names generalizing tree with
  | nil => exact settled
  | cons other rest ih =>
    rw [List.forall_mem_cons] at shaders
    rw [List.mem_cons, not_or] at apart
    have held := b.settles x (shaderStage shader) tree
    rw [settled] at held
    have next := b.settles x (shaderStage shaders.1) tree
    obtain ⟨placed', -⟩ := settlesKeeps placed shaders.1 next
    have still {name : Text} : Shader b home (b.settle x (Path.join b.sourceDirectory other) tree).2
        name ↔ Shader b home tree name := shaderStays placed shaders.1 next
    exact ih placed' (still.mpr shader) (settledStays fixed placed shader held apart.1 shaders.1 next)
      (fun name member => still.mpr (shaders.2 name member)) apart.2

theorem runAgain (placed : Placed b home place tree) (once : names.Nodup)
    (shaders : ∀ name ∈ names, Shader b home tree name) :
    b.settleEach x names (b.settleEach x names tree).2 = b.settleEach x names tree := by
  induction names generalizing tree with
  | nil => rfl
  | cons name rest ih =>
    rw [List.forall_mem_cons] at shaders
    obtain ⟨apart, once⟩ := List.nodup_cons.mp once
    have settled := b.settles x (shaderStage shaders.1) tree
    obtain ⟨placed', -⟩ := settlesKeeps placed shaders.1 settled
    have still {other : Text} : Shader b home (b.settle x (Path.join b.sourceDirectory name) tree).2
        other ↔ Shader b home tree other := shaderStays placed shaders.1 settled
    have others := fun other member => still.mpr (shaders.2 other member)
    have again := settledThroughout fixed placed' (still.mpr shaders.1)
      (settledAgain fixed placed shaders.1 settled) others apart
    simp only [settleEach, again, ih placed' once others]

end Run

/-- Running a batch again on the files that it left ends in the same way and leaves them as they are,
except that an error about something in the place of a directory that is asked for can come back as
one about no directory. No document and no artifact is a shader. -/
theorem rerunChangesNothing (b : Batch) (x : Extractor)
    {outcome : Path → List Text → Except OsError Diagnostics} (fixed : x.runner = .fixed outcome)
    (s t : Session) (sound : s.tree.Sound) (left : t.tree = ((b.writeAll x).perform s).2.tree) :
    let first := (b.writeAll x).perform s
    let second := (b.writeAll x).perform t
    (second.1 = first.1 ∨
      (s.tree.makeDirectories b.metadataDirectory).2 = .error .alreadyExists ∧
        first.1 = .error .alreadyExists ∧ second.1 = .error .notDirectory) ∧
      second.2.tree = first.2.tree ∧
      (∀ directory path, Stage.ofPath (metadataPath directory path) = .unknown) ∧
      ∀ path, Stage.ofPath (x.artifactPath path) = .unknown := by
  dsimp only
  rw [← and_assoc]
  refine ⟨?_, documentStage, artifactStage x⟩
  have quiet : x.runner.Quiet := fixed ▸ fixedQuiet outcome
  cases listed : b.shaders s.tree with
  | error cause =>
    rw [b.performUnlisted x listed] at left ⊢
    have again : b.shaders t.tree = .error cause := by rw [left, listed]
    rw [b.performUnlisted x again]
    exact ⟨.inl rfl, left⟩
  | ok paths =>
    cases directory : s.tree.makeDirectories b.metadataDirectory with
    | mk made result =>
      cases result with
      | error cause =>
        obtain ⟨checked, home, source⟩ := shadersOpen listed
        obtain ⟨solid, grows⟩ := makeKeeps sound directory
        rw [b.performUnmade x listed directory] at left ⊢
        obtain rfl : t.tree = made := left
        have listedAgain : b.shaders t.tree = .ok paths := listed ▸
          shadersSame sound solid checked source (grows.opens source) fun name =>
            shaderGrows grows fun _ => False.elim
        obtain ⟨again, refused, repeats⟩ := makeAgain sound directory
        obtain ⟨kind, rfl⟩ := repeatsError repeats
        rw [b.performUnmade x listedAgain refused]
        refine ⟨?_, rfl⟩
        rcases repeats with same | ⟨first, second⟩
        · exact .inl (by rw [Except.error.inj same])
        · rw [Except.error.inj first, Except.error.inj second]
          exact .inr ⟨rfl, rfl, rfl⟩
      | ok _ =>
        obtain ⟨home, place, names, begun⟩ := begins sound listed directory
        obtain ⟨written, final⟩ := begun.ends quiet
        rw [final] at left
        have begunAgain := begun.again (x := x) sound
        rw [← left] at begunAgain
        obtain ⟨writtenAgain, finalAgain⟩ := begunAgain.ends quiet
        have settled := runAgain fixed begun.placed begun.sorted.nodup begun.shadersMade
        rw [← left] at settled
        rw [writtenAgain, finalAgain, written, final, settled]
        exact ⟨.inl rfl, rfl⟩

theorem rerunInSource :
    let b : Batch := ⟨.source, "src".toList, "src".toList⟩
    let first := (b.writeAll refusing).perform threeShaders
    let second := (b.writeAll refusing).perform { tree := first.2.tree }
    threeShaders.tree.Sound ∧ second.1 = .ok
        [⟨"src/a.vert".toList, some "src/a.vert.meta.json".toList, true⟩,
          ⟨"src/b.frag".toList, some "src/b.frag.meta.json".toList, false⟩,
          ⟨"src/c.comp".toList, none, false⟩] ∧
      second.2.tree = first.2.tree := by
  intro b first second
  have sound : threeShaders.tree.Sound := by decide +kernel
  obtain ⟨alike, still, -⟩ :=
    rerunChangesNothing b refusing rfl threeShaders { tree := first.2.tree } sound rfl
  have same : second.1 = first.1 := alike.resolve_right fun refused => by
    cases threeWritten.symm.trans refused.2.1
  exact ⟨sound, same.trans threeWritten, still⟩

theorem rerunTellsOtherwise :
    let b : Batch := ⟨.source, "src".toList, "x/../f/y".toList⟩
    let first := (b.writeAll silent).perform oneShader
    let second := (b.writeAll silent).perform { tree := first.2.tree }
    oneShader.tree.Sound ∧ first.1 = .error .alreadyExists ∧ second.1 = .error .notDirectory := by
  decide +kernel

end ShaderReflection.Batch
