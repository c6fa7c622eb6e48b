import Mathlib.Data.List.Nodup
import ShaderReflection.Proofs.Json.Acceptance
import ShaderReflection.Proofs.Json.Grammar
/-!
Records by their fields: which values the members of a field's name may have, wherever they stand
among the others, and what is read from them.
-/
namespace ShaderReflection.Json

def valuesOf (name : String) (members : List (Option Text × Tree)) : List Tree :=
  (members.filter (·.1 == some name.toList)).map (·.2)

section Values
variable {name : String} {members : List (Option Text × Tree)}

theorem valueMember {tree : Tree} :
    tree ∈ valuesOf name members ↔ (some name.toList, tree) ∈ members := by
  simp [valuesOf]

theorem valuesPerm {others : List (Option Text × Tree)} (same : members.Perm others) :
    (valuesOf name members).Perm (valuesOf name others) :=
  (same.filter _).map _

theorem memberOfValues : memberOf? name members = (valuesOf name members).head? := by
  induction members with
  | nil => rfl
  | cons m rest ih =>
    by_cases same : m.1 = some name.toList <;> simp_all [memberOf?, valuesOf]

theorem knownCount {fields : List Field} (distinct : (fields.map (·.name)).Nodup) {field : Field}
    (member : field ∈ fields) :
    (knownNames fields (members.map (·.1))).count field.name =
      (valuesOf field.name members).length := by
  induction members with
  | nil => rfl
  | cons m rest ih =>
    rw [List.map_cons, knownNamesCons, List.count_append, ih]
    by_cases same : m.1 = some field.name.toList
    · simp [same, fieldFound distinct member, valuesOf, Nat.add_comm]
    · have other : ((fieldOf? fields m.1).map (·.name)).toList.count field.name = 0 := by
        rw [List.count_eq_zero]
        intro inside
        obtain ⟨found, known, equal⟩ := Option.map_eq_some_iff.mp (Option.mem_toList.mp inside)
        exact same (equal ▸ (fieldNamed known).2)
      simp [other, same, valuesOf]

end Values

structure Field.Fills (field : Field) (values : List Tree) : Prop where
  single : values.length ≤ 1
  present : field.required = true → values ≠ []
  accepted : ∀ tree ∈ values, ∀ node, node.tree? = some tree → field.fault? node = none

theorem fitsByFields {fields : List Field} (distinct : (fields.map (·.name)).Nodup)
    {members : List (Option Text × Tree)} :
    FieldsFit fields members ↔ (∀ m ∈ members, m.1.isSome = true) ∧
      ∀ field ∈ fields, field.Fills (valuesOf field.name members) := by
  constructor
  · intro fits
    refine ⟨fits.named, fun field member => ⟨?_, fun required empty => ?_, fun tree value => ?_⟩⟩
    · exact knownCount distinct member ▸ List.nodup_iff_count_le_one.mp fits.distinct field.name
    · obtain ⟨m, inside, named⟩ := List.mem_map.mp (fits.present field member required)
      have value : m.2 ∈ valuesOf field.name members := valueMember.mpr (named ▸ inside)
      simp [empty] at value
    · exact fits.accepted _ (valueMember.mp value) field (fieldFound distinct member)
  · rintro ⟨named, each⟩
    refine ⟨named, List.nodup_iff_count_le_one.mpr fun name => ?_, ?_, ?_⟩
    · by_cases known : name ∈ knownNames fields (members.map (·.1))
      · obtain ⟨key, -, same⟩ := List.mem_filterMap.mp known
        obtain ⟨field, found, rfl⟩ := Option.map_eq_some_iff.mp same
        have member := (fieldNamed found).1
        exact knownCount distinct member ▸ (each field member).single
      · simp [List.count_eq_zero.mpr known]
    · intro m inside field found
      obtain ⟨member, key⟩ := fieldNamed found
      exact (each field member).accepted m.2 (valueMember.mpr (key ▸ inside))
    · intro field member required
      obtain ⟨tree, value⟩ := List.exists_mem_of_ne_nil _ ((each field member).present required)
      exact List.mem_map.mpr ⟨_, valueMember.mp value, rfl⟩

section Given
variable {α : Type} {d : Decoder α} {name : String} {required : Bool} {values : List Tree}
  {default a : α}

inductive Given (d : Decoder α) (required : Bool) (default : α) : List Tree → α → Prop where
  | absent (optional : required = false) : Given d required default [] default
  | value {tree : Tree} {a : α} (taken : d.Takes tree a) : Given d required default [tree] a

theorem givenFills (given : Given d required default values a) :
    Field.Fills ⟨name, required, d.fault?⟩ values := by
  cases given with
  | absent optional => exact ⟨by simp, by simp [optional], List.forall_mem_nil _⟩
  | value taken => exact ⟨by simp, by simp, List.forall_mem_singleton.mpr taken.accepts⟩

theorem givenRead {members : List (Option Text × Tree)}
    (given : Given d required default (valuesOf name members) a) {node : Node}
    (means : node.tree? = some (.object members)) (index : Nat) :
    node.read index name d default = a := by
  have first := @memberOfValues name members
  generalize valuesOf name members = values at given first
  cases given with
  | absent => exact readAbsent means first d index default
  | value taken => exact readPresent means first taken index default

end Given

end ShaderReflection.Json
