import Mathlib.Data.List.Basic
import ShaderReflection.Interface.Flatten
/-!
The member tree of a uniform of a struct type, by the ways that lead down to its members. A struct
table may define a name again and may be cyclic, so a way is cut at its ninth member. Flattening
lists the leaves of each tree, depth first and in the order of declaration.
-/
namespace ShaderReflection

def LastNamed (structs : List StructDef) (t : TypeName) (d : StructDef) : Prop :=
  t = .custom d.name ∧
    ∃ front back, structs = front ++ d :: back ∧ ∀ later ∈ back, later.name ≠ d.name

def NamesStruct (structs : List StructDef) (t : TypeName) : Prop :=
  ∃ d ∈ structs, t = .custom d.name

instance (structs : List StructDef) (t : TypeName) : Decidable (NamesStruct structs t) :=
  inferInstanceAs (Decidable (∃ d ∈ structs, t = .custom d.name))

section Types
variable {structs : List StructDef} {t : TypeName} {d : StructDef}

theorem foundLast : StructDef.find? structs t = some d ↔ LastNamed structs t d := by
  cases t with
  | custom name =>
    simp only [StructDef.find?, List.find?_eq_some_iff_append, beq_iff_eq]
    constructor
    · rintro ⟨rfl, after, before, split, others⟩
      have table := congrArg List.reverse split
      rw [List.reverse_reverse, List.reverse_append, List.reverse_cons, List.append_assoc] at table
      refine ⟨rfl, before.reverse, after.reverse, table, fun later member => ?_⟩
      simpa using others later (List.mem_reverse.mp member)
    · rintro ⟨same, front, back, rfl, others⟩
      cases same
      refine ⟨rfl, back.reverse, front.reverse, by simp, fun later member => ?_⟩
      simpa using others later (List.mem_reverse.mp member)
  | _ => exact ⟨nofun, fun named => nomatch named.1⟩

theorem foundNone : StructDef.find? structs t = none ↔ ¬NamesStruct structs t := by
  cases t with
  | custom name =>
    rw [StructDef.find?, List.find?_eq_none]
    constructor
    · rintro others ⟨d, member, same⟩
      cases same
      exact others d (List.mem_reverse.mpr member) (beq_self_eq_true d.name)
    · intro unnamed d member same
      exact unnamed ⟨d, List.mem_reverse.mp member, by rw [beq_iff_eq.mp same]⟩
  | _ =>
    refine ⟨fun _ names => ?_, fun _ => rfl⟩
    obtain ⟨d, -, same⟩ := names
    cases same

theorem namesLast : NamesStruct structs t ↔ ∃ d, LastNamed structs t d := by
  constructor
  · intro names
    cases found : StructDef.find? structs t with
    | none => exact absurd names (foundNone.mp found)
    | some d => exact ⟨d, foundLast.mp found⟩
  · rintro ⟨d, same, front, back, rfl, -⟩
    exact ⟨d, by simp, same⟩

theorem lastUnique {e : StructDef} (first : LastNamed structs t d) (second : LastNamed structs t e) :
    d = e :=
  Option.some.inj ((foundLast.mpr first).symm.trans (foundLast.mpr second))

end Types

structure Descent where
  places : List Nat
  above : List StructMember
  member : StructMember

namespace Descent

def single (place : Nat) (m : StructMember) : Descent := ⟨[place], [], m⟩

def under (place : Nat) (m : StructMember) (way : Descent) : Descent :=
  ⟨place :: way.places, m :: way.above, way.member⟩

def length (way : Descent) : Nat := way.above.length + 1

def uniform (name : Text) (way : Descent) : Uniform :=
  ⟨way.member.typeName, name ++ (way.above ++ [way.member]).flatMap (fun m => '.' :: m.name),
    1, none, false⟩

end Descent

inductive Descends (structs : List StructDef) : List StructMember → Descent → Prop where
  | single {members place m} (here : members[place]? = some m) :
      Descends structs members (.single place m)
  | under {members place m d way} (here : members[place]? = some m)
      (opens : LastNamed structs m.typeName d) (below : Descends structs d.members way) :
      Descends structs members (.under place m way)

theorem descentMembers {structs : List StructDef} {P : StructMember → Prop}
    (table : ∀ d ∈ structs, ∀ m ∈ d.members, P m) {members : List StructMember} {way : Descent}
    (own : ∀ m ∈ members, P m) (descends : Descends structs members way) :
    ∀ m ∈ way.above ++ [way.member], P m := by
  induction descends with
  | single here => exact List.forall_mem_singleton.mpr (own _ (List.mem_of_getElem? here))
  | under here opens below ih =>
    obtain ⟨-, front, back, split, -⟩ := opens
    have opened := table _ (split ▸ List.mem_append_right front List.mem_cons_self)
    exact List.forall_mem_cons.mpr ⟨own _ (List.mem_of_getElem? here), ih opened⟩

/-- A leaf of the tree of a type: its last member names no struct, or it is the ninth on its way. -/
structure LeafOf (structs : List StructDef) (t : TypeName) (way : Descent) : Prop where
  descends : ∃ d, LastNamed structs t d ∧ Descends structs d.members way
  short : way.length ≤ 9
  ends : ¬NamesStruct structs way.member.typeName ∨ way.length = 9

section Opened
variable (structs : List StructDef)

def through (below : StructDef → List Descent) (p : StructMember × Nat) : List Descent :=
  match StructDef.find? structs p.1.typeName with
  | some d => (below d).map (.under p.2 p.1)
  | none => [.single p.2 p.1]

def descents : Nat → List StructMember → List Descent
  | 0, members => members.zipIdx.map fun p => .single p.2 p.1
  | depth + 1, members => members.zipIdx.flatMap (through structs fun d => descents depth d.members)

theorem leavesDescents (depth : Nat) (path : Text) (members : List StructMember) :
    StructDef.leaves structs depth path members =
      (descents structs depth members).map (Descent.uniform path) := by
  have placed (members : List StructMember) : members.zipIdx.map Prod.fst = members :=
    List.zipIdx_map_fst 0 members
  induction depth generalizing path members with
  | zero =>
    rw [StructDef.leaves, descents, List.map_map]
    conv => lhs; rw [← placed members, List.map_map]
    simp [Descent.uniform, Descent.single]
  | succ depth ih =>
    rw [StructDef.leaves, descents, List.map_flatMap]
    conv => lhs; rw [← placed members, List.flatMap_map]
    refine List.flatMap_congr fun p _ => ?_
    unfold through
    cases StructDef.find? structs p.1.typeName with
    | none => simp [Descent.uniform, Descent.single]
    | some d => simp [ih, Descent.uniform, Descent.under]

theorem descentsExact {depth : Nat} {members : List StructMember} {way : Descent} :
    way ∈ descents structs depth members ↔ Descends structs members way ∧
      way.length ≤ depth + 1 ∧
      (¬NamesStruct structs way.member.typeName ∨ way.length = depth + 1) := by
  induction depth generalizing members way with
  | zero =>
    simp only [descents, List.mem_map, Prod.exists, List.mk_mem_zipIdx_iff_getElem?]
    constructor
    · rintro ⟨m, place, here, rfl⟩
      exact ⟨.single here, Nat.le_refl 1, .inr rfl⟩
    · rintro ⟨descends, short, -⟩
      cases descends with
      | single here => exact ⟨_, _, here, rfl⟩
      | under here opens below => simp [Descent.length, Descent.under] at short
  | succ depth ih =>
    simp only [descents, through, List.mem_flatMap, Prod.exists, List.mk_mem_zipIdx_iff_getElem?]
    constructor
    · rintro ⟨m, place, here, inside⟩
      cases found : StructDef.find? structs m.typeName with
      | none =>
        rw [found] at inside
        obtain rfl := List.mem_singleton.mp inside
        exact ⟨.single here, Nat.le_add_left 1 _, .inl (foundNone.mp found)⟩
      | some d =>
        rw [found] at inside
        obtain ⟨below, member, rfl⟩ := List.mem_map.mp inside
        obtain ⟨descends, short, ends⟩ := ih.mp member
        exact ⟨.under here (foundLast.mp found) descends, Nat.succ_le_succ short,
          ends.imp_right (congrArg Nat.succ)⟩
    · rintro ⟨descends, short, ends⟩
      cases descends with
      | @single _ place m here =>
        have unnamed : ¬NamesStruct structs m.typeName :=
          ends.resolve_right (by simp [Descent.length, Descent.single])
        refine ⟨m, place, here, ?_⟩
        rw [foundNone.mpr unnamed]
        exact List.mem_singleton_self _
      | under here opens below =>
        have member := ih.mpr ⟨below, Nat.le_of_succ_le_succ short, ends.imp_right Nat.succ.inj⟩
        refine ⟨_, _, here, ?_⟩
        rw [foundLast.mpr opens]
        exact List.mem_map_of_mem member

theorem placesOrdered (members : List StructMember) :
    members.zipIdx.Pairwise fun p q => p.2 < q.2 := by
  rw [← List.pairwise_map (f := Prod.snd), List.zipIdx_map_snd]
  exact List.pairwise_lt_range' 1

theorem throughBegins {below : StructDef → List Descent} {p : StructMember × Nat} {way : Descent}
    (member : way ∈ through structs below p) : ∃ rest, way.places = p.2 :: rest := by
  unfold through at member
  split at member
  · obtain ⟨inner, -, rfl⟩ := List.mem_map.mp member
    exact ⟨inner.places, rfl⟩
  · obtain rfl := List.mem_singleton.mp member
    exact ⟨[], rfl⟩

theorem descentsOrdered (depth : Nat) (members : List StructMember) :
    (descents structs depth members).Pairwise fun a b => a.places < b.places := by
  induction depth generalizing members with
  | zero =>
    rw [descents, List.pairwise_map]
    exact (placesOrdered members).imp fun earlier => List.cons_lt_cons_iff.mpr (.inl earlier)
  | succ depth ih =>
    rw [descents, List.pairwise_flatMap]
    constructor
    · intro p _
      unfold through
      split
      · rw [List.pairwise_map]
        exact (ih _).imp fun earlier => List.cons_lt_cons_iff.mpr (.inr ⟨rfl, earlier⟩)
      · exact List.pairwise_singleton _ _
    · refine (placesOrdered members).imp fun earlier a first b second => ?_
      obtain ⟨rest, begins⟩ := throughBegins structs first
      obtain ⟨rest', begins'⟩ := throughBegins structs second
      rw [begins, begins']
      exact List.cons_lt_cons_iff.mpr (.inl earlier)

def leafWays (t : TypeName) : List Descent :=
  match StructDef.find? structs t with
  | some d => descents structs maxNesting d.members
  | none => []

theorem leafWaysExact {t : TypeName} {way : Descent} :
    way ∈ leafWays structs t ↔ LeafOf structs t way := by
  unfold leafWays
  constructor
  · intro member
    split at member
    · rename_i d found
      obtain ⟨descends, short, ends⟩ := (descentsExact structs).mp member
      exact ⟨⟨d, foundLast.mp found, descends⟩, short, ends⟩
    · cases member
  · rintro ⟨⟨d, names, descends⟩, short, ends⟩
    rw [foundLast.mpr names]
    exact (descentsExact structs).mpr ⟨descends, short, ends⟩

theorem leafWaysOrdered (t : TypeName) :
    (leafWays structs t).Pairwise fun a b => a.places < b.places := by
  unfold leafWays
  split
  · exact descentsOrdered structs maxNesting _
  · exact .nil

theorem uniformLeaves (u : Uniform) :
    u.leaves structs = (leafWays structs u.typeName).map (Descent.uniform u.name) := by
  unfold Uniform.leaves leafWays
  cases StructDef.find? structs u.typeName with
  | none => rfl
  | some d => exact leavesDescents structs maxNesting u.name d.members

end Opened

theorem structsOnly (uniforms : List Uniform) (structs : List StructDef) :
    uniforms.flatMap (Uniform.leaves structs) =
      (uniforms.filter fun u => NamesStruct structs u.typeName).flatMap (Uniform.leaves structs) := by
  induction uniforms with
  | nil => rfl
  | cons u rest ih =>
    rw [List.flatMap_cons, ih, List.filter_cons]
    split
    · rw [List.flatMap_cons]
    · rename_i unnamed
      have none : u.leaves structs = [] := by
        rw [Uniform.leaves, foundNone.mpr (of_decide_eq_false (Bool.eq_false_iff.mpr unnamed))]
      rw [none, List.nil_append]

theorem flattenEnumerates (uniforms : List Uniform) (structs : List StructDef) :
    ∃ leaves : TypeName → List Descent,
      (∀ t, (∀ way, way ∈ leaves t ↔ LeafOf structs t way) ∧
        (leaves t).Pairwise fun a b => a.places < b.places) ∧
      flatten uniforms structs =
        (uniforms.filter fun u => ¬NamesStruct structs u.typeName) ++
          (uniforms.filter fun u => NamesStruct structs u.typeName).flatMap fun u =>
            (leaves u.typeName).map (Descent.uniform u.name) := by
  refine ⟨leafWays structs, fun t => ⟨fun way => leafWaysExact structs,
    leafWaysOrdered structs t⟩, ?_⟩
  have plain : (uniforms.filter fun u => (StructDef.find? structs u.typeName).isNone) =
      uniforms.filter fun u => ¬NamesStruct structs u.typeName := by
    refine List.filter_congr fun u _ => ?_
    rw [Bool.eq_iff_iff, decide_eq_true_iff, Option.isNone_iff_eq_none, foundNone]
  rw [flatten, plain, structsOnly]
  exact congrArg _ (List.flatMap_congr fun u _ => uniformLeaves structs u)

example :
    let table : List StructDef := [{ name := ['S'], members := [⟨.custom ['S'], ['s']⟩, ⟨.int, ['n']⟩] }]
    let leaves := flatten [{ typeName := .custom ['S'], name := ['u'] }] table
    leaves.length = 10 ∧
      leaves.head? = some { typeName := .custom ['S'], name := "u.s.s.s.s.s.s.s.s.s".toList } := by
  decide

end ShaderReflection
