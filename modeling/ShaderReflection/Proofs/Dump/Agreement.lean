import ShaderReflection.Dump.Reflection
import ShaderReflection.Proofs.Glsl.Port
import ShaderReflection.Proofs.Interface.Completion
/-!
The two backends that read variables from source, side by side. A dump that names none leaves them
to the clauses, so the linker backend reports what the clauses declare, and the source backend what
the lines declare. They agree on rows that both readings understand.
-/
namespace ShaderReflection
open Glsl (Qualifier InterfaceDeclaration Port PortSource portsAs)

theorem missingDistinct {old declared : List Attribute} (distinct : (declared.map (·.name)).Nodup)
    (fresh : ∀ a ∈ declared, old.any (hasName a.name) = false) :
    missing old declared = declared.map Attribute.unlocated := by
  induction declared generalizing old with
  | nil => rfl
  | cons e rest ih =>
    rw [List.map_cons, List.nodup_cons] at distinct
    obtain ⟨here, others⟩ := List.forall_mem_cons.mp fresh
    rw [missingAbsent here, ih distinct.2, List.map_cons]
    intro a member
    have differ : e.name ≠ a.name := fun same =>
      distinct.1 (List.mem_map.mpr ⟨a, member, same.symm⟩)
    rw [List.any_append, others a member, Bool.false_or]
    simp [hasName, Attribute.unlocated, differ]

theorem missingAll {declared : List Attribute} (distinct : (declared.map (·.name)).Nodup) :
    missing [] declared = declared.map Attribute.unlocated :=
  missingDistinct distinct fun _ _ => rfl

theorem backfillAll {i : Interface} (inputs : i.inputs = []) (outputs : i.outputs = [])
    {source : Text} {stage : Stage} (attributes : stage.hasAttributes = true)
    (distinct : ∀ q, ((declaredAs q (Glsl.interfaceDeclarations source)).map (·.name)).Nodup) :
    (i.backfill source stage).inputs.map Attribute.unlocated =
        (declaredAs .input (Glsl.interfaceDeclarations source)).map Attribute.unlocated ∧
      (stage ≠ .fragment → (i.backfill source stage).outputs.map Attribute.unlocated =
        (declaredAs .output (Glsl.interfaceDeclarations source)).map Attribute.unlocated) := by
  obtain ⟨ins, outs⟩ := mergesByLists stage i (Glsl.interfaceDeclarations source)
  have whole : i.backfill source stage =
      (Glsl.interfaceDeclarations source).foldl (Interface.merge stage) i := if_pos attributes
  rw [whole, ins, outs, inputs, outputs]
  constructor
  · by_cases vertex : stage = .vertex
    · rw [vertexInputs vertex, vertexAdds, missingAll (distinct .input)]
      rfl
    · rw [otherInputs vertex, List.nil_append, missingAsIs, missingAll (distinct .input)]
  · intro other
    rw [otherOutputs other, List.nil_append, missingAsIs, missingAll (distinct .output)]

theorem declaredPorts (q : Qualifier) (ports : List Port) :
    declaredAs q (ports.map Port.declared) = (portsAs q ports).map (·.declared.entry) := by
  rw [declaredAs, List.filter_map, List.map_map]
  rfl

namespace Dump

/-- The source backend finds every variable. The linker backend finds those without array suffix in
front of the first row that holds the entry point, so that both agree where this leaves out none. -/
theorem portsAgree {s : PortSource} (whole : s.WellFormed) {stage : Stage}
    (attributes : stage.hasAttributes = true) {dump : Text}
    (inputs : (interfaceOf dump).inputs = []) (outputs : (interfaceOf dump).outputs = []) :
    ∃ scanned linked, Glsl.scan s.text stage = .ok scanned ∧
      reflection dump s.text stage = .ok linked ∧
      (scanned.inputs = (portsAs .input s.ports).map Port.entry ∧
        scanned.outputs = (portsAs .output s.ports).map Port.entry) ∧
      (linked.inputs.map Attribute.unlocated = (portsAs .input s.clausePorts).map Port.entry ∧
        (stage ≠ .fragment →
          linked.outputs.map Attribute.unlocated = (portsAs .output s.clausePorts).map Port.entry)) ∧
      ((∀ p ∈ s.ports, p.isPlain = true ∧ ¬Glsl.entryPoint <:+: p.row) →
        linked.inputs.map Attribute.unlocated = scanned.inputs ∧
          (stage ≠ .fragment → linked.outputs.map Attribute.unlocated = scanned.outputs)) := by
  obtain ⟨scanned, accepted, ins, outs⟩ := Glsl.scanPorts whole attributes
  have declared (q : Qualifier) : declaredAs q (Glsl.interfaceDeclarations s.text) =
      (portsAs q s.clausePorts).map (·.declared.entry) := by
    rw [Glsl.clausesFindPorts whole, declaredPorts]
  have unlocated (q : Qualifier) : (declaredAs q (Glsl.interfaceDeclarations s.text)).map
      Attribute.unlocated = (portsAs q s.clausePorts).map Port.entry := by
    rw [declared, List.map_map]
    rfl
  have distinct (q : Qualifier) :
      ((declaredAs q (Glsl.interfaceDeclarations s.text)).map (·.name)).Nodup := by
    have part : (portsAs q s.clausePorts).Sublist s.ports :=
      List.filter_sublist.trans (List.filter_sublist.trans (List.takeWhile_sublist _))
    rw [declared, List.map_map]
    exact whole.distinct.sublist (part.map _)
  have raster := Glsl.attributesRaster attributes
  have kept : restrict stage (interfaceOf dump) = interfaceOf dump := if_pos attributes
  have linked : reflection dump s.text stage = .ok { (interfaceOf dump).backfill s.text stage with
      structs := Glsl.scanStructs s.text } := by
    rw [reflection, raster, kept]
    rfl
  obtain ⟨inputs', outputs'⟩ := backfillAll inputs outputs attributes distinct
  rw [unlocated] at inputs' outputs'
  refine ⟨scanned, _, accepted, linked, ⟨ins, outs⟩, ⟨inputs', outputs'⟩, fun plain => ?_⟩
  have all : s.clausePorts = s.ports := by
    have front : s.frontPorts = s.ports := List.takeWhile_eq_self_iff.mpr fun p member =>
      Glsl.rowBefore.mpr (plain p member).2
    rw [PortSource.clausePorts, front, List.filter_eq_self]
    exact fun p member => (plain p member).1
  rw [ins, outs]
  rw [all] at inputs' outputs'
  exact ⟨inputs', outputs'⟩

theorem portsAgreeUv :
    let source : PortSource := {
      first := "#version 450".toList
      ports := [⟨[.layout [("location".toList, 1)]], .input, "vec2".toList, "uv".toList, none, []⟩,
        ⟨[], .output, "vec4".toList, "tint".toList, some 2, " // in T n;\r".toList⟩]
      rest := "void main() \x7b\n\x7d".toList }
    source.WellFormed ∧ (interfaceOf "Uniform reflection:".toList).inputs = [] ∧
      (interfaceOf "Uniform reflection:".toList).outputs = [] ∧
      ∃ scanned linked, Glsl.scan source.text .vertex = .ok scanned ∧
        reflection "Uniform reflection:".toList source.text .vertex = .ok linked ∧
        scanned.inputs = [⟨.vec2, "uv".toList, none⟩] ∧
        scanned.outputs = [⟨.vec4, "tint".toList, none⟩] ∧
        linked.inputs.map Attribute.unlocated = [⟨.vec2, "uv".toList, none⟩] ∧
        linked.outputs.map Attribute.unlocated = [] := by
  intro source
  have uv : Port.WellFormed ⟨[.layout [("location".toList, 1)]], .input, "vec2".toList,
      "uv".toList, none, []⟩ := {
    specified := List.forall_mem_singleton.mpr (List.forall_mem_singleton.mpr ⟨by decide, by decide⟩)
    typed := ⟨by decide, by decide⟩
    named := ⟨by decide, by decide⟩
    blank := Glsl.emptyTail }
  have tint : Port.WellFormed ⟨[], .output, "vec4".toList, "tint".toList, some 2,
      " // in T n;\r".toList⟩ := {
    specified := List.forall_mem_nil _
    typed := ⟨by decide, by decide⟩
    named := ⟨by decide, by decide⟩
    blank := ⟨by decide, by decide⟩ }
  have ends : Text.lines source.rest = ["void main() \x7b".toList, "\x7d".toList] := by decide
  have whole : source.WellFormed := {
    oneRow := by decide
    ports := List.forall_mem_cons.mpr ⟨uv, List.forall_mem_singleton.mpr tint⟩
    distinct := by decide
    enters := ⟨_, _, ends, [], "() \x7b".toList, rfl⟩
    silent := by
      rw [ends]
      simp only [List.forall_mem_cons]
      exact ⟨⟨by decide, by decide⟩, ⟨by decide, by decide⟩, ⟨by decide, by decide⟩,
        List.forall_mem_nil _⟩ }
  have inputs : (interfaceOf "Uniform reflection:".toList).inputs = [] := by decide
  have outputs : (interfaceOf "Uniform reflection:".toList).outputs = [] := by decide
  obtain ⟨scanned, linked, accepted, reflected, scan, clauses, -⟩ :=
    @portsAgree source whole .vertex rfl _ inputs outputs
  refine ⟨whole, inputs, outputs, scanned, linked, accepted, reflected, ?_⟩
  exact ⟨scan.1.trans (by decide), scan.2.trans (by decide), clauses.1.trans (by decide),
    (clauses.2 (by decide)).trans (by decide)⟩

theorem suffixHidesInput :
    let suffixed := "#version 450\nin vec3 a[3];\nvoid main() \x7b\x7d".toList
    let entering := "#version 450\nin myvoid mainColor;\nvoid main() \x7b\x7d".toList
    let names := fun i : Interface => i.inputs.map (·.name)
    (interfaceOf []).inputs = [] ∧ (interfaceOf []).outputs = [] ∧
      (Glsl.scan suffixed .vertex).map names = .ok ["a".toList] ∧
      (reflection [] suffixed .vertex).map names = .ok [] ∧
      (Glsl.scan entering .vertex).map names = .ok ["mainColor".toList] ∧
      (reflection [] entering .vertex).map names = .ok [] := by
  decide

end Dump
end ShaderReflection
