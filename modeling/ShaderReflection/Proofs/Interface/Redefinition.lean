import ShaderReflection.Proofs.Interface.Leaves
/-!
Structs that are defined again. Flattening asks a struct table for nothing but the last definition
of a name, so the definitions that a later one shadows can go, and those that are left can stand in
any order.
-/
namespace ShaderReflection

def unshadowed : List StructDef → List StructDef
  | [] => []
  | d :: rest =>
    if rest.any (·.name == d.name) then unshadowed rest else d :: unshadowed rest

section Table
variable {structs table : List StructDef} {t : TypeName} {d e : StructDef}

theorem lastCons : LastNamed (e :: structs) t d ↔
    LastNamed structs t d ∨ d = e ∧ t = .custom e.name ∧ ∀ later ∈ structs, later.name ≠ e.name := by
  constructor
  · rintro ⟨same, front, back, split, others⟩
    cases front with
    | nil =>
      obtain ⟨rfl, rfl⟩ := List.cons.inj split
      exact .inr ⟨rfl, same, others⟩
    | cons first front =>
      obtain ⟨-, inner⟩ := List.cons.inj split
      exact .inl ⟨same, front, back, inner, others⟩
  · rintro (⟨same, front, back, split, others⟩ | ⟨rfl, same, others⟩)
    · exact ⟨same, e :: front, back, by rw [split, List.cons_append], others⟩
    · exact ⟨same, [], structs, rfl, others⟩

theorem unshadowedExact : d ∈ unshadowed structs ↔ LastNamed structs (.custom d.name) d := by
  induction structs with
  | nil => exact ⟨nofun, fun ⟨_, front, back, split, _⟩ => by cases front <;> cases split⟩
  | cons e rest ih =>
    rw [lastCons, unshadowed, ← ih]
    split
    · rename_i again
      obtain ⟨later, member, same⟩ := List.any_eq_true.mp again
      refine ⟨.inl, fun last => last.resolve_right ?_⟩
      exact fun ⟨_, _, others⟩ => others later member (beq_iff_eq.mp same)
    · rename_i only
      have others : ∀ later ∈ rest, later.name ≠ e.name := fun later member same =>
        only (List.any_eq_true.mpr ⟨later, member, beq_iff_eq.mpr same⟩)
      rw [List.mem_cons, or_comm]
      refine or_congr_right ⟨?_, And.left⟩
      rintro rfl
      exact ⟨rfl, rfl, others⟩

theorem unshadowedDistinct (structs : List StructDef) :
    ((unshadowed structs).map (·.name)).Nodup := by
  induction structs with
  | nil => exact List.nodup_nil
  | cons e rest ih =>
    rw [unshadowed]
    split
    · exact ih
    · rename_i only
      refine List.nodup_cons.mpr ⟨fun member => ?_, ih⟩
      obtain ⟨d, inside, same⟩ := List.mem_map.mp member
      -- What is left of the rest is among the rest, where the name does not occur.
      obtain ⟨-, front, back, split, -⟩ := unshadowedExact.mp inside
      exact only (List.any_eq_true.mpr ⟨d, by simp [split], beq_iff_eq.mpr same⟩)

theorem lastDistinct (distinct : (table.map (·.name)).Nodup) :
    LastNamed table t d ↔ t = .custom d.name ∧ d ∈ table := by
  constructor
  · rintro ⟨same, front, back, rfl, -⟩
    exact ⟨same, by simp⟩
  · rintro ⟨same, member⟩
    obtain ⟨front, back, rfl⟩ := List.append_of_mem member
    rw [List.map_append, List.map_cons] at distinct
    obtain ⟨fresh, -⟩ := List.nodup_cons.mp (List.nodup_append.mp distinct).2.1
    exact ⟨same, front, back, rfl, fun later inside again =>
      fresh (again ▸ List.mem_map_of_mem inside)⟩

theorem foundUnshadowed (reordered : table.Perm (unshadowed structs)) :
    StructDef.find? structs t = StructDef.find? table t := by
  have distinct : (table.map (·.name)).Nodup :=
    (reordered.map _).nodup_iff.mpr (unshadowedDistinct structs)
  refine Option.ext fun d => ?_
  rw [foundLast, foundLast, lastDistinct distinct, reordered.mem_iff, unshadowedExact]
  constructor
  · intro last
    exact ⟨last.1, last.1 ▸ last⟩
  · rintro ⟨rfl, last⟩
    exact last

end Table

section Lookup
variable {structs table : List StructDef}
  (same : ∀ t, StructDef.find? structs t = StructDef.find? table t)
include same

theorem leavesByLookup (depth : Nat) (path : Text) (members : List StructMember) :
    StructDef.leaves structs depth path members = StructDef.leaves table depth path members := by
  induction depth generalizing path members with
  | zero => rfl
  | succ depth ih =>
    rw [StructDef.leaves, StructDef.leaves]
    refine List.flatMap_congr fun m _ => ?_
    rw [same]
    cases StructDef.find? table m.typeName with
    | none => rfl
    | some nested => exact ih _ nested.members

theorem flattenByLookup (uniforms : List Uniform) :
    flatten uniforms structs = flatten uniforms table := by
  have opened (u : Uniform) : u.leaves structs = u.leaves table := by
    rw [Uniform.leaves, Uniform.leaves, same]
    cases StructDef.find? table u.typeName with
    | none => rfl
    | some d => exact leavesByLookup same maxNesting u.name d.members
  have plain : uniforms.filter (fun u => (StructDef.find? structs u.typeName).isNone) =
      uniforms.filter fun u => (StructDef.find? table u.typeName).isNone := by simp only [same]
  rw [flatten, flatten, plain, List.flatMap_congr fun u _ => opened u]

end Lookup

theorem flattenUnshadowed (uniforms : List Uniform) {structs table : List StructDef}
    (reordered : table.Perm (unshadowed structs)) :
    flatten uniforms structs = flatten uniforms table :=
  flattenByLookup (fun _ => foundUnshadowed reordered) uniforms

theorem flattenUnshadowedScene :
    let color : StructDef := { name := "Color".toList, members := [⟨.vec3, "rgb".toList⟩] }
    let light : StructDef :=
      { name := "Light".toList, members := [⟨.custom "Color".toList, "color".toList⟩] }
    let scene : StructDef :=
      { name := "Scene".toList, members := [⟨.custom "Light".toList, "sun".toList⟩] }
    let plain : StructDef := { name := "Light".toList, members := [⟨.float, "power".toList⟩] }
    let structs := [{ scene with members := [] }, plain, scene, color, light]
    let uniforms : List Uniform := [{ typeName := .custom "Scene".toList, name := "u".toList }]
    [light, color, scene].Perm (unshadowed structs) ∧
      flatten uniforms structs = flatten uniforms [light, color, scene] ∧
      flatten uniforms structs = [{ typeName := .vec3, name := "u.sun.color.rgb".toList }] := by
  intro color light scene plain structs uniforms
  have reordered : [light, color, scene].Perm (unshadowed structs) := by decide
  exact ⟨reordered, flattenUnshadowed uniforms reordered, by decide⟩

end ShaderReflection
