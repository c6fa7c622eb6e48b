import Mathlib.Data.List.Basic
import Mathlib.Data.List.TakeWhile
import ShaderReflection.Proofs.Document.Accepted
import ShaderReflection.Proofs.Document.RoundTrip
import ShaderReflection.Proofs.Json.Lookahead
/-!
A document that is cut off is refused. Where the part that is left were accepted, its end would
have been seen before the cut, so the whole would be a value with more text behind it.
-/
namespace ShaderReflection.Document
open Json

theorem decodeCases {α : Type} {d : Decoder α} {text : Text} {a : α}
    (decoded : decode d text = .ok a) :
    ∃ node after, Node.parse text = (node, after) ∧ d.fault? node = none ∧
      (after.skipSpace).rest = [] := by
  unfold decode at decoded
  generalize parsed : Node.parse text = found at decoded
  obtain ⟨node, after⟩ := found
  dsimp only at decoded
  split at decoded
  · cases decoded
  · split at decoded
    · exact ⟨node, after, rfl, ‹_›, List.isEmpty_iff.mp ‹_›⟩
    · cases decoded

def Bounded {α : Type} (d : Decoder α) : Prop :=
  ∀ node, d.fault? node = none → node.tree?.isSome = true ∧ ¬node.IsNumber

theorem cutBlank {α : Type} {d : Decoder α} (bounded : Bounded d) {kept dropped : Text} {a b : α}
    (part : decode d kept = .ok a) (whole : decode d (kept ++ dropped) = .ok b) :
    Blank dropped := by
  obtain ⟨node, after, parsed, accepted, -⟩ := decodeCases part
  obtain ⟨node', after', parsed', -, done⟩ := decodeCases whole
  obtain ⟨means, other⟩ := bounded node accepted
  -- The value of the part ends before the cut, so the whole is read as the same value.
  rw [parseFollowed parsed means other dropped, Prod.mk.injEq] at parsed'
  obtain ⟨-, rfl⟩ := parsed'
  have blank := List.dropWhile_eq_nil_iff.mp done
  exact fun c member => blank c (List.mem_append_right after.rest member)

theorem cutRefused {α : Type} {d : Decoder α} (bounded : Bounded d) {kept dropped : Text} {a : α}
    (whole : decode d (kept ++ dropped) = .ok a) (solid : ∃ c ∈ dropped, isSpace c = false) :
    ∃ fault, decode d kept = .error fault := by
  cases part : decode d kept with
  | error fault => exact ⟨fault, rfl⟩
  | ok b =>
    obtain ⟨c, member, mark⟩ := solid
    have blank := cutBlank bounded part whole c member
    simp [blank] at mark

theorem recordBounded {name : String} {fields : List Field} {node : Node}
    (accepted : recordFault? name fields node = none) : ¬node.IsNumber := by
  rintro number
  cases node with
  | number value start stop => simp [recordFault?] at accepted
  | _ => exact number

theorem analyzerBounded : Bounded analyzer := by
  intro node accepted
  obtain ⟨tree, means, -⟩ := soundAnalyzer node accepted
  exact ⟨by simp [means], recordBounded accepted⟩

theorem metadataBounded : Bounded metadata := by
  intro node accepted
  cases node with
  | object members close start =>
    obtain ⟨whole, -⟩ := Option.or_eq_none_iff.mp accepted
    exact ⟨wholeBuffered maxDepth _ whole, not_false⟩
  | _ => simp [metadata] at accepted

theorem prettyEnds (m : Metadata) : (pretty m).getLast? = some '}' := by
  simp [pretty, ofMetadata, Value.render, Value.write, List.getLast?_cons]

theorem truncationRefused :
    (∀ (kept dropped : Text) (i : Interface), readAnalyzer (kept ++ dropped) = .ok i →
      (∃ c ∈ dropped, isSpace c = false) → ∃ fault, readAnalyzer kept = .error fault) ∧
    (∀ (m : Metadata) (kept dropped : Text), pretty m = kept ++ dropped → dropped ≠ [] →
      ∃ fault, readMetadata kept = .error fault) := by
  refine ⟨fun kept dropped i whole solid => cutRefused analyzerBounded whole solid, ?_⟩
  intro m kept dropped written some'
  have whole : readMetadata (kept ++ dropped) = .ok m.canonical :=
    written ▸ readRendered prettyBlank m
  have last : '}' ∈ dropped := by
    have ends := prettyEnds m
    rw [written, List.getLast?_append_of_ne_nil kept some'] at ends
    exact List.mem_of_getLast? ends
  exact cutRefused metadataBounded whole ⟨'}', last, by decide⟩

theorem truncationRefusedInEscape :
    let kept := "\x7b\"inputs\":[],\"outputs\":[],\"structs\":[],\"uniforms\":[],\"x\":\"\\u00".toList
    let dropped := "41\"\x7d ".toList
    let m := Metadata.failed ⟨"out".toList, [], 1⟩
    readAnalyzer (kept ++ dropped) = .ok {} ∧ (∃ fault, readAnalyzer kept = .error fault) ∧
      ∃ fault, readMetadata ((pretty m).take 17) = .error fault := by
  intro kept dropped m
  have whole : readAnalyzer (kept ++ dropped) = .ok {} := valueOfOption (by decide +kernel)
  refine ⟨whole, truncationRefused.1 kept dropped {} whole ⟨'"', by decide, by decide⟩, ?_⟩
  exact truncationRefused.2 m _ ((pretty m).drop 17) (List.take_append_drop 17 _).symm (by decide)

end ShaderReflection.Document
