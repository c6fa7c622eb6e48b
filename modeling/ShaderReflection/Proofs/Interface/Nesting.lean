import ShaderReflection.Proofs.Interface.Leaves
/-!
How deep structs nest, and what that means for flattening. Nine levels of structs are opened, so no
struct type is left over exactly where structs nest without cycles at most nine levels deep, and
exactly there a second pass finds nothing to do.
-/
namespace ShaderReflection

inductive Chain (structs : List StructDef) : TypeName → List StructDef → Prop where
  | one {t d} (names : LastNamed structs t d) : Chain structs t [d]
  | more {t d m chain} (names : LastNamed structs t d) (member : m ∈ d.members)
      (inside : Chain structs m.typeName chain) : Chain structs t (d :: chain)

structure Nests (structs : List StructDef) (levels : Nat) (t : TypeName) : Prop where
  acyclic : ∀ chain, Chain structs t chain → chain.Nodup
  shallow : ∀ chain, Chain structs t chain → chain.length ≤ levels

section Chains
variable {structs : List StructDef} {t u : TypeName} {d : StructDef} {rest : List StructDef}

theorem chainFirst {chain : List StructDef} (nested : Chain structs t chain) :
    ∃ d rest, chain = d :: rest ∧ LastNamed structs t d := by
  cases nested with
  | one names => exact ⟨_, _, rfl, names⟩
  | more names member inside => exact ⟨_, _, rfl, names⟩

theorem chainStep (nested : Chain structs t (d :: rest)) (further : rest ≠ []) :
    LastNamed structs t d ∧ ∃ m ∈ d.members, Chain structs m.typeName rest := by
  cases nested with
  | one names => exact absurd rfl further
  | more names member inside => exact ⟨names, _, member, inside⟩

theorem chainFrom (nested : Chain structs u (d :: rest)) (names : LastNamed structs t d) :
    Chain structs t (d :: rest) := by
  cases nested with
  | one _ => exact .one names
  | more _ member inside => exact .more names member inside

theorem chainGraft {front back : List StructDef} (nested : Chain structs t (front ++ d :: back))
    (other : Chain structs u (d :: rest)) : Chain structs t (front ++ d :: rest) := by
  induction front generalizing t with
  | nil =>
    obtain ⟨_, _, same, names⟩ := chainFirst nested
    cases same
    exact chainFrom other names
  | cons e front ih =>
    obtain ⟨names, m, member, inside⟩ := chainStep nested (by simp)
    exact .more names member (ih inside)

theorem shallowAcyclic {levels : Nat}
    (shallow : ∀ chain, Chain structs t chain → chain.length ≤ levels) :
    ∀ chain, Chain structs t chain → chain.Nodup := by
  induction levels generalizing t with
  | zero =>
    intro chain nested
    rw [List.length_eq_zero_iff.mp (Nat.le_zero.mp (shallow chain nested))]
    exact List.nodup_nil
  | succ levels ih =>
    intro chain nested
    cases nested with
    | one names => exact List.pairwise_singleton _ _
    | @more _ d m rest names member inside =>
      by_cases again : d ∈ rest
      · -- The way from `d` back to `d` can be put in front of every chain of `t`.
        obtain ⟨front, back, rfl⟩ := List.append_of_mem again
        refine ih (fun chain nested' => ?_) _ (.more names member inside)
        obtain ⟨e, rest', rfl, names'⟩ := chainFirst nested'
        obtain rfl := lastUnique names names'
        have bound := shallow _ (.more names member (chainGraft inside nested'))
        simp only [List.length_cons, List.length_append] at bound ⊢
        omega
      · have below : ∀ chain, Chain structs m.typeName chain → chain.length ≤ levels :=
          fun chain nested' => Nat.le_of_succ_le_succ (shallow _ (.more names member nested'))
        exact List.nodup_cons.mpr ⟨again, ih below rest inside⟩

theorem descentChain {way : Descent} {e : StructDef} (names : LastNamed structs t d)
    (descends : Descends structs d.members way) (opens : LastNamed structs way.member.typeName e) :
    ∃ chain, Chain structs t chain ∧ chain.length = way.length + 1 := by
  generalize inside : d.members = members at descends
  induction descends generalizing t d with
  | single here =>
    exact ⟨_, .more names (inside ▸ List.mem_of_getElem? here) (.one opens), rfl⟩
  | under here opened below ih =>
    obtain ⟨chain, nested, long⟩ := ih opened opens rfl
    exact ⟨_, .more names (inside ▸ List.mem_of_getElem? here) nested, congrArg Nat.succ long⟩

theorem chainDescent {chain : List StructDef} (nested : Chain structs t chain) {n : Nat}
    (long : n + 1 < chain.length) :
    ∃ d way, LastNamed structs t d ∧ Descends structs d.members way ∧ way.length = n + 1 ∧
      NamesStruct structs way.member.typeName := by
  induction nested generalizing n with
  | one names => simp at long
  | @more t d m chain names member inside ih =>
    obtain ⟨place, here⟩ := List.getElem?_of_mem member
    cases n with
    | zero =>
      obtain ⟨e, -, -, opens⟩ := chainFirst inside
      exact ⟨d, .single place m, names, .single here, rfl, namesLast.mpr ⟨e, opens⟩⟩
    | succ n =>
      obtain ⟨e, way, opens, descends, length, struct⟩ := ih (Nat.lt_of_succ_lt_succ long)
      exact ⟨d, .under place m way, names, .under here opens descends,
        congrArg Nat.succ length, struct⟩

end Chains

section Flattened
variable {uniforms : List Uniform} {structs : List StructDef}

theorem flattenMember {v : Uniform} : v ∈ flatten uniforms structs ↔
    (v ∈ uniforms ∧ ¬NamesStruct structs v.typeName) ∨
      ∃ u ∈ uniforms, ∃ way, LeafOf structs u.typeName way ∧ way.uniform u.name = v := by
  simp only [flatten, List.mem_append, List.mem_filter, Option.isNone_iff_eq_none, foundNone,
    List.mem_flatMap, uniformLeaves, List.mem_map, leafWaysExact]

theorem nestsSettled : (∀ u ∈ uniforms, Nests structs 9 u.typeName) ↔
    ∀ v ∈ flatten uniforms structs, ¬NamesStruct structs v.typeName := by
  constructor
  · intro nests v member
    rcases flattenMember.mp member with ⟨-, plain⟩ | ⟨u, inside, way, leaf, rfl⟩
    · exact plain
    · intro struct
      -- A leaf that names a struct is the ninth member, so its struct is the tenth level.
      obtain ⟨d, names, descends⟩ := leaf.descends
      obtain ⟨e, opens⟩ := namesLast.mp struct
      obtain ⟨chain, nested, long⟩ := descentChain names descends opens
      have bound := (nests u inside).shallow chain nested
      have ninth := leaf.ends.resolve_left (not_not_intro struct)
      omega
  · intro settled u inside
    have shallow : ∀ chain, Chain structs u.typeName chain → chain.length ≤ 9 := by
      intro chain nested
      by_contra long
      obtain ⟨d, way, names, descends, length, struct⟩ :=
        chainDescent nested (n := 8) (Nat.lt_of_not_le long)
      have leaf : LeafOf structs u.typeName way :=
        ⟨⟨d, names, descends⟩, Nat.le_of_eq length, .inr length⟩
      exact settled _ (flattenMember.mpr (.inr ⟨u, inside, way, leaf, rfl⟩)) struct
    exact ⟨shallowAcyclic shallow, shallow⟩

theorem flattenFixed : flatten uniforms structs = uniforms ↔
    ∀ u ∈ uniforms, ¬NamesStruct structs u.typeName := by
  constructor
  · intro fixed
    -- A leaf's name is longer than that of its uniform, so no shortest one is a leaf.
    suffices shortest : ∀ n, ∀ v ∈ uniforms, v.name.length = n → ¬NamesStruct structs v.typeName from
      fun v member => shortest _ v member rfl
    intro n
    induction n using Nat.strongRecOn with
    | ind n ih =>
      intro v member length
      rw [← fixed] at member
      rcases flattenMember.mp member with ⟨-, plain⟩ | ⟨u, inside, way, leaf, rfl⟩
      · exact plain
      · obtain ⟨d, names, -⟩ := leaf.descends
        have shorter : u.name.length < n := by
          rw [← length, Descent.uniform, List.length_append]
          exact Nat.lt_add_of_pos_right (List.length_pos_of_ne_nil (by simp))
        exact absurd (namesLast.mpr ⟨d, names⟩) (ih _ shorter u inside rfl)
  · intro plain
    have kept : uniforms.filter (fun u => (StructDef.find? structs u.typeName).isNone) = uniforms :=
      List.filter_eq_self.mpr fun u member =>
        Option.isNone_iff_eq_none.mpr (foundNone.mpr (plain u member))
    have opened : uniforms.flatMap (Uniform.leaves structs) = [] :=
      List.flatMap_eq_nil_iff.mpr fun u member => by
        rw [Uniform.leaves, foundNone.mpr (plain u member)]
    rw [flatten, kept, opened, List.append_nil]

end Flattened

theorem flattenSettles (uniforms : List Uniform) (structs : List StructDef) :
    ((∀ u ∈ uniforms, Nests structs 9 u.typeName) ↔
      ∀ v ∈ flatten uniforms structs, ¬NamesStruct structs v.typeName) ∧
    ((∀ u ∈ uniforms, Nests structs 9 u.typeName) ↔
      flatten (flatten uniforms structs) structs = flatten uniforms structs) :=
  ⟨nestsSettled, nestsSettled.trans flattenFixed.symm⟩

end ShaderReflection
