import ShaderReflection.Dump.Reflection
import ShaderReflection.Proofs.Glsl.Comment
import ShaderReflection.Proofs.Interface.Extension
/-!
What comments mean to the linker backend. Structs come from the code of the lines alone. Clauses
come from the code, too, but they end at the first line that holds the entry point anywhere, so a
comment counts where it names the entry point.
-/
namespace ShaderReflection
open Text

namespace Glsl

def linesBeforeEntry (source : Text) : Nat :=
  (((lines source).drop 1).takeWhile fun line => !hasInfix entryPoint line).length

section Code
variable {source other : Text}
  (same : (lines source).map stripComment = (lines other).map stripComment)
include same

theorem clausesCode (entry : linesBeforeEntry source = linesBeforeEntry other) :
    interfaceClauses source = interfaceClauses other := by
  have codes (text : Text) : (((lines text).drop 1).takeWhile fun line =>
      !hasInfix entryPoint line).map lineCode =
        ((((lines text).map stripComment).drop 1).take (linesBeforeEntry text)).map trim := by
    have front := List.prefix_iff_eq_take.mp
      (List.takeWhile_prefix (l := (lines text).drop 1) fun line => !hasInfix entryPoint line)
    rw [← List.map_drop, ← List.map_take, List.map_map, linesBeforeEntry, ← front]
    rfl
  have text : clauseText source = clauseText other := by
    rw [clauseText, clauseText, codes source, codes other, same, entry]
  rw [interfaceClauses, interfaceClauses, text]

theorem structsCode : scanStructs source = scanStructs other := by
  have spans (scanner : Scanner) (rows : List Text) :
      closedSpans scanner rows = closedSpans scanner (rows.map stripComment) := by
    induction rows generalizing scanner with
    | nil => rfl
    | cons line rest ih => rw [List.map_cons, closedSpans, closedSpans, ← feedCode, ih]
  rw [scanStructs, scanStructs, spans .idle (lines source), same, ← spans]

end Code
end Glsl

namespace Dump
open Glsl (stripComment linesBeforeEntry)

theorem backfillUniforms (i : Interface) (source : Text) (stage : Stage) :
    (i.backfill source stage).uniforms = i.uniforms := by
  unfold Interface.backfill
  split
  · exact (mergesComplete stage i _).uniforms
  · rfl

/-- Two sources with the same code give the same uniforms and structs, and the same interface if
their clauses end at the same line or the stage has no variables. -/
theorem reflectionIgnoresComments {source other : Text}
    (same : (lines source).map stripComment = (lines other).map stripComment) (dump : Text)
    (stage : Stage) :
    (reflection dump source stage).map (fun i => (i.uniforms, i.structs)) =
        (reflection dump other stage).map (fun i => (i.uniforms, i.structs)) ∧
      ((stage.hasAttributes = true → linesBeforeEntry source = linesBeforeEntry other) →
        reflection dump source stage = reflection dump other stage) := by
  have structs := Glsl.structsCode same
  refine ⟨?_, fun entry => ?_⟩
  · rw [reflection, reflection, structs]
    split
    · rfl
    · simp only [Except.map, backfillUniforms]
  · have completed (i : Interface) : i.backfill source stage = i.backfill other stage := by
      unfold Interface.backfill
      split
      · rename_i attributes
        have clauses := Glsl.clausesCode same (entry attributes)
        rw [Glsl.interfaceDeclarations, clauses]
        rfl
      · rfl
    rw [reflection, reflection, completed, structs]

theorem reflectionIgnoresNotes :
    let source := "#version 450 // in\nin vec3 a; // struct S\n// in vec3 b;\nvoid main() \x7b\x7d".toList
    let other := "#version 450 //\nin vec3 a; // void\n//\nvoid main() \x7b\x7d".toList
    (lines source).map stripComment = (lines other).map stripComment ∧
      linesBeforeEntry source = linesBeforeEntry other ∧
      reflection [] source .vertex = reflection [] other .vertex := by
  intro source other
  have same : (lines source).map stripComment = (lines other).map stripComment := by decide
  have entry : linesBeforeEntry source = linesBeforeEntry other := by decide
  exact ⟨same, entry, (reflectionIgnoresComments same [] .vertex).2 fun _ => entry⟩

theorem commentHidesInput :
    let source := "#version 450\n// void main\nin vec3 a;".toList
    let other := "#version 450\n//\nin vec3 a;".toList
    (lines source).map stripComment = (lines other).map stripComment ∧
      (reflection [] source .vertex).map (·.inputs.map (·.name)) = .ok [] ∧
      (reflection [] other .vertex).map (·.inputs.map (·.name)) = .ok ["a".toList] ∧
      reflection [] source .vertex ≠ reflection [] other .vertex := by
  decide

end Dump
end ShaderReflection
