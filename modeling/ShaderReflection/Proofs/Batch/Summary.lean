import ShaderReflection.Proofs.Batch.Run
import ShaderReflection.Proofs.Document.RoundTrip
/-!
What a batch reports and what it leaves. Every document that is reported is there and can be read
back; where none is reported, none was written; all other files stay as they were.
-/
namespace ShaderReflection
open Text FileTree

namespace FileTree

theorem resolveOpens {tree : FileTree} {directory name : Path} {there : Location}
    (named : Path.IsName name) (found : tree.resolve (Path.join directory name) = .ok there) :
    ∃ place, tree.Opens directory place := by
  obtain ⟨-, walked, -⟩ := (tree.resolveFound).mp found
  rw [origin, Path.joinAbsolute named, ← origin, Path.piecesJoin named] at walked
  obtain ⟨place, walked, entered⟩ := tree.walkParts walked
  rw [walkOne] at entered
  exact ⟨place, walked, tree.enterOpen entered⟩

end FileTree

namespace Batch

def Extracts (b : Batch) (x : Extractor) (s : Session) (shader : Path) (m : Metadata) : Prop :=
  ∃ front back, b.shaders s.tree = .ok (front ++ shader :: back) ∧
    ((x.extract shader b.backend).perform
      (b.writeEach x front (b.makeMetadataDirectory.perform s).2).2).1 = .ok m

/-- What a path led to is there as before, and what it leads to stood there before or is a new
directory. -/
structure Untouched (path : Path) (before after : FileTree) : Prop where
  kept : ∀ l, before.resolve path = .ok l →
    after.resolve path = .ok l ∧ after.get? l = before.get? l
  found : ∀ l, after.resolve path = .ok l → after.get? l = before.get? l ∨
    before.get? l = none ∧ after.get? l = some .directory

structure Agrees (b : Batch) (x : Extractor) (s : Session) (list : List Written)
    (after : FileTree) : Prop where
  documents : ∀ w ∈ list, ∀ path, w.document? = some path →
    path = metadataPath b.metadataDirectory w.shader ∧
      ∃ m, Extracts b x s w.shader m ∧ after.readText path = .ok (Document.pretty m) ∧
        Document.readMetadata (Document.pretty m) = .ok m ∧
        (w.success = true ↔ m.diagnostics.exitCode = 0) ∧
        (m.diagnostics.exitCode = 0 ↔ m.interface?.isSome = true)
  apart : list.Pairwise fun a b => ∀ path, a.document? = some path → b.document? ≠ some path
  failures : ∀ w ∈ list, w.document? = none → w.success = false ∧
    Untouched (metadataPath b.metadataDirectory w.shader) s.tree after
  files : Grows (fun l => ∃ w ∈ list, ∃ path, w.document? = some path ∧ after.resolve path = .ok l)
    s.tree after
  sources : ∀ l name content executable, Stage.ofPath name ≠ .unknown →
    s.tree.get? (l ++ [name]) = some (.file content executable) →
      after.get? (l ++ [name]) = some (.file content executable)

section Summary
variable {b : Batch} {x : Extractor} {s : Session} {home place : Location} {names : List Text}
  {made : FileTree}

theorem reportDocument {name : Text} {m? : Option Metadata} {path : Path}
    (reported : (b.report (name, m?)).document? = some path) :
    ∃ m, m? = some m ∧ path = metadataPath b.metadataDirectory (Path.join b.sourceDirectory name) := by
  cases m? with
  | none => cases reported
  | some m => exact ⟨m, rfl, (Option.some.inj reported).symm⟩

theorem prettyRead {m : Metadata} (built : m.Built) :
    Document.readMetadata (Document.pretty m) = .ok m := by
  have read : Document.readMetadata (Document.pretty m) = .ok m.canonical :=
    Document.readRendered Json.prettyBlank m
  rwa [Metadata.canonicalSelf (builtUnreserved built)] at read

theorem untouched {after : FileTree} {written : Location → Prop} {name : Text}
    (named : Path.IsName name) (grows : Grows written s.tree after)
    (documents : after.Opens b.metadataDirectory place)
    (unwritten : ¬written (documentAt place name)) :
    Untouched (Path.join b.metadataDirectory (documentName name)) s.tree after := by
  have isName := documentNamed named
  constructor
  · intro l found
    obtain ⟨above, opens⟩ := resolveOpens isName found
    obtain rfl : above = place := after.opensUnique (grows.opens opens) documents
    obtain ⟨fits, rfl, present⟩ := (resolveInside opens isName).mp found
    have kept := grows.kept unwritten present
    exact ⟨(resolveInside documents isName).mpr ⟨fits, rfl, grows.present present⟩, kept⟩
  · intro l found
    obtain ⟨-, rfl, -⟩ := (resolveInside documents isName).mp found
    rcases grows.nodes (place ++ [documentName name]) with same | new | ⟨there, -⟩
    · exact .inl same
    · exact .inr new
    · exact absurd there unwritten

section Parts
variable (quiet : x.runner.Quiet) (sound : s.tree.Sound) (begun : Begins b s.tree home place names made)
include begun

theorem outcomeNamed {outcome : Text × Option Metadata}
    (member : outcome ∈ (b.settleEach x names made).1) : Path.IsName outcome.1 :=
  ((begun.shaders outcome.1).mp ((b.settleEachMember x).mp ⟨outcome.2, member⟩)).named

theorem reportsApart : ((b.settleEach x names made).1.map b.report).Pairwise fun a b =>
    ∀ path, a.document? = some path → b.document? ≠ some path := by
  have apart : (b.settleEach x names made).1.Pairwise fun a b => a.1 ≠ b.1 := by
    rw [← List.pairwise_map, settleEachNames]
    exact begun.sorted.nodup
  refine List.pairwise_map.mpr (apart.imp_of_mem fun {first second} one two different => ?_)
  intro path here there
  obtain ⟨-, -, rfl⟩ := reportDocument here
  obtain ⟨-, -, same⟩ := reportDocument there
  have named := outcomeNamed begun one
  have named' := outcomeNamed begun two
  rw [metadataPathJoin named, metadataPathJoin named'] at same
  exact different (documentNameInjective
    (Path.joinInjective (documentNamed named) (documentNamed named') same))

theorem wholeGrows : Placed b home place (b.settleEach x names made).2 ∧
    Grows (DocumentOf place (b.settleEach x names made).1) s.tree (b.settleEach x names made).2 := by
  obtain ⟨placed, grows⟩ := runKeeps x begun.placed begun.shadersMade
  exact ⟨placed, growsTrans (growsMore (fun _ => False.elim) begun.grows) grows⟩

theorem reportsGrow : Grows (fun l => ∃ w ∈ (b.settleEach x names made).1.map b.report, ∃ path,
      w.document? = some path ∧ (b.settleEach x names made).2.resolve path = .ok l)
    s.tree (b.settleEach x names made).2 := by
  obtain ⟨placed, grows⟩ := wholeGrows (x := x) begun
  refine growsMore ?_ grows
  rintro l ⟨name, m, member, rfl⟩
  have named := outcomeNamed begun member
  obtain ⟨fits, executable, file⟩ := begun.documented member
  refine ⟨_, List.mem_map_of_mem member, _, rfl, ?_⟩
  rw [metadataPathJoin named]
  exact (resolveInside placed.documents (documentNamed named)).mpr
    ⟨fits, rfl, file ▸ Option.some_ne_none _⟩

include quiet

theorem reportExtracted {name : Text} {m : Metadata}
    (member : (name, some m) ∈ (b.settleEach x names made).1) :
    Extracts b x s (Path.join b.sourceDirectory name) m ∧ m.Built ∧ Extractor.Complete m := by
  obtain ⟨front, back, before, next, turn⟩ := runTurn x member
  obtain ⟨built, complete, extracts⟩ :=
    settlesExtracted (turn.settles begun.placed begun.shadersMade)
  refine ⟨⟨front.map (Path.join b.sourceDirectory), back.map (Path.join b.sourceDirectory), ?_,
    extracts _ ?_⟩, built, complete⟩
  · rw [begun.listed, turn.order, List.map_append, List.map_cons]
  · have known : ∀ name ∈ front, Stage.ofPath (Path.join b.sourceDirectory name) ≠ .unknown :=
      fun other here => shaderStage
        (begun.shadersMade other (turn.order ▸ List.mem_append_left _ here))
    rw [performMake, begun.directory, turn.earlier]
    exact (b.writeEachSettles x quiet known { s with tree := made }).2

end Parts
end Summary

theorem summaryAgrees (b : Batch) (x : Extractor) (quiet : x.runner.Quiet) (s : Session)
    (sound : s.tree.Sound) {list : List Written}
    (ended : ((b.writeAll x).perform s).1 = .ok list) :
    Agrees b x s list ((b.writeAll x).perform s).2.tree := by
  obtain ⟨home, place, names, made, begun⟩ := beginsOk sound ended
  obtain ⟨written, final⟩ := begun.ends quiet
  rw [written] at ended
  obtain rfl := Except.ok.inj ended
  rw [final]
  obtain ⟨placed, grows⟩ := wholeGrows (x := x) begun
  constructor
  · rintro w member path document
    obtain ⟨⟨name, m?⟩, inside, rfl⟩ := List.mem_map.mp member
    obtain ⟨m, rfl, rfl⟩ := reportDocument document
    obtain ⟨extracts, built, complete⟩ := reportExtracted quiet begun inside
    refine ⟨rfl, m, extracts, ?_, prettyRead built, beq_iff_eq, complete⟩
    have named := outcomeNamed begun inside
    rw [metadataPathJoin named]
    exact documentedText placed named (begun.documented inside)
  · exact reportsApart begun
  · rintro w member none
    obtain ⟨⟨name, m?⟩, inside, rfl⟩ := List.mem_map.mp member
    cases m? with
    | some m => cases none
    | none =>
      have named := outcomeNamed begun inside
      refine ⟨rfl, metadataPathJoin named _ _ ▸ untouched named grows placed.documents ?_⟩
      exact failedUnwritten begun.sorted.nodup inside
  · exact reportsGrow begun
  · intro l name content executable known file
    rw [sourceKept grows documentNames known (file ▸ Option.some_ne_none _), file]

theorem summaryInSource :
    let b : Batch := ⟨.source, "src".toList, "src".toList⟩
    let list : List Written := [⟨"src/a.vert".toList, some "src/a.vert.meta.json".toList, true⟩,
      ⟨"src/b.frag".toList, some "src/b.frag.meta.json".toList, false⟩,
      ⟨"src/c.comp".toList, none, false⟩]
    let ended := (b.writeAll refusing).perform threeShaders
    refusing.runner.Quiet ∧ threeShaders.tree.Sound ∧ ended.1 = .ok list ∧
      Agrees b refusing threeShaders list ended.2.tree := by
  intro b list ended
  have quiet : refusing.runner.Quiet := fixedQuiet _
  have sound : threeShaders.tree.Sound := by decide +kernel
  exact ⟨quiet, sound, threeWritten,
    summaryAgrees b refusing quiet threeShaders sound threeWritten⟩

theorem directoryInstead :
    let b : Batch := ⟨.source, "src".toList, "meta/a.vert.meta.json/..".toList⟩
    let ended := (b.writeAll silent).perform oneShader
    let path := metadataPath b.metadataDirectory "src/a.vert".toList
    oneShader.tree.Sound ∧ ended.1 = .ok [⟨"src/a.vert".toList, none, false⟩] ∧
      oneShader.tree.resolve path = .error .notFound ∧ ended.2.tree.isDirectory path = true := by
  decide +kernel

end Batch
end ShaderReflection
