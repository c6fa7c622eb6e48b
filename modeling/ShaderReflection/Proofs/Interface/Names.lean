import Mathlib.Data.List.Nodup
import ShaderReflection.Proofs.Glsl.Emission
import ShaderReflection.Proofs.Interface.Extension
import ShaderReflection.Proofs.Interface.Leaves
/-!
Names of flattened uniforms. A name that is written with dots gives back the names that were put
together, and these lead down one way only, so that no two uniforms get the same name if the names
in use are distinct and have no dots of their own.
-/
namespace ShaderReflection
open Text

structure Separate (names : List Text) : Prop where
  distinct : names.Nodup
  undotted : ∀ name ∈ names, '.' ∉ name

instance (names : List Text) : Decidable (Separate names) :=
  decidable_of_iff (names.Nodup ∧ ∀ name ∈ names, '.' ∉ name)
    ⟨fun ⟨distinct, undotted⟩ => ⟨distinct, undotted⟩, fun ⟨distinct, undotted⟩ => ⟨distinct, undotted⟩⟩

def dotted (first : Text) (others : List Text) : Text := first ++ others.flatMap ('.' :: ·)

theorem dottedParts {first : Text} {others : List Text} (plain : '.' ∉ first)
    (undotted : ∀ name ∈ others, '.' ∉ name) :
    splitOn '.' (dotted first others) = first :: others := by
  induction others generalizing first with
  | nil => rw [dotted, List.flatMap_nil, List.append_nil, splitOnNone plain]
  | cons next rest ih =>
    obtain ⟨here, more⟩ := List.forall_mem_cons.mp undotted
    have shape : dotted first (next :: rest) = first ++ '.' :: dotted next rest := rfl
    rw [shape, splitOnAt plain, ih here more]

def Descent.names (way : Descent) : List Text := (way.above ++ [way.member]).map (·.name)

theorem uniformNamed (name : Text) (way : Descent) :
    (way.uniform name).name = dotted name way.names := by
  rw [Descent.uniform, dotted, Descent.names, List.flatMap_map]

theorem memberAt {members : List StructMember} (distinct : (members.map (·.name)).Nodup)
    {place place' : Nat} {m m' : StructMember} (here : members[place]? = some m)
    (there : members[place']? = some m') (same : m.name = m'.name) : place = place' ∧ m = m' := by
  have named : (members.map (·.name))[place]? = (members.map (·.name))[place']? := by
    rw [List.getElem?_map, List.getElem?_map, here, there, Option.map_some, Option.map_some, same]
  have bound : place < (members.map (·.name)).length := by
    rw [List.length_map]
    exact (List.getElem?_eq_some_iff.mp here).1
  obtain rfl := (List.getElem?_inj bound distinct).mp named
  exact ⟨rfl, Option.some.inj (here.symm.trans there)⟩

section Table
variable {structs : List StructDef}
  (tidy : ∀ d ∈ structs, Separate (d.members.map (·.name)))
include tidy

theorem lastTidy {t : TypeName} {d : StructDef} (names : LastNamed structs t d) :
    Separate (d.members.map (·.name)) := by
  obtain ⟨-, front, back, rfl, -⟩ := names
  exact tidy d (by simp)

theorem namesDetermine {members : List StructMember} {a b : Descent}
    (distinct : (members.map (·.name)).Nodup) (first : Descends structs members a)
    (second : Descends structs members b) (same : a.names = b.names) : a.places = b.places := by
  induction first generalizing b with
  | single here =>
    cases second with
    | single there =>
      obtain ⟨rfl, -⟩ := memberAt distinct here there (List.singleton_inj.mp same)
      rfl
    | under there opens below => simp [Descent.names, Descent.single, Descent.under] at same
  | @under _ place _ _ _ here opens below ih =>
    cases second with
    | single there => simp [Descent.names, Descent.single, Descent.under] at same
    | under there opens' below' =>
      obtain ⟨head, rest⟩ := List.cons.inj same
      obtain ⟨rfl, rfl⟩ := memberAt distinct here there head
      obtain rfl := lastUnique opens opens'
      exact congrArg (place :: ·) (ih (lastTidy tidy opens).distinct below' rest)

theorem namesUndotted {members : List StructMember} {way : Descent}
    (undotted : ∀ name ∈ members.map (·.name), '.' ∉ name)
    (descends : Descends structs members way) : ∀ name ∈ way.names, '.' ∉ name := by
  have table : ∀ d ∈ structs, ∀ m ∈ d.members, '.' ∉ m.name := fun d member m inside =>
    (tidy d member).undotted m.name (List.mem_map_of_mem inside)
  have own : ∀ m ∈ members, '.' ∉ m.name := fun m inside =>
    undotted m.name (List.mem_map_of_mem inside)
  exact List.forall_mem_map.mpr (descentMembers table own descends)

theorem leafParts {t : TypeName} {way : Descent} (leaf : LeafOf structs t way) {name : Text}
    (plain : '.' ∉ name) : splitOn '.' (way.uniform name).name = name :: way.names := by
  obtain ⟨d, names, descends⟩ := leaf.descends
  rw [uniformNamed, dottedParts plain (namesUndotted tidy (lastTidy tidy names).undotted descends)]

theorem leavesDistinct (u : Uniform) (plain : '.' ∉ u.name) :
    ((u.leaves structs).map (·.name)).Nodup := by
  rw [uniformLeaves, List.map_map, List.Nodup, List.pairwise_map]
  refine (leafWaysOrdered structs u.typeName).imp_of_mem fun first second earlier same => ?_
  have one := (leafWaysExact structs).mp first
  have other := (leafWaysExact structs).mp second
  have parts := congrArg (splitOn '.') same
  simp only [Function.comp_apply, leafParts tidy one plain, leafParts tidy other plain] at parts
  obtain ⟨d, names, descends⟩ := one.descends
  obtain ⟨e, names', descends'⟩ := other.descends
  obtain rfl := lastUnique names names'
  have place := namesDetermine tidy (lastTidy tidy names).distinct descends descends'
    (List.cons.inj parts).2
  rw [place] at earlier
  exact List.lt_irrefl _ earlier

theorem flattenSeparate {uniforms : List Uniform} (separate : Separate (uniforms.map (·.name))) :
    ((flatten uniforms structs).map (·.name)).Nodup := by
  have undotted : ∀ u ∈ uniforms, '.' ∉ u.name := fun u member =>
    separate.undotted u.name (List.mem_map_of_mem member)
  have opened {u v : Uniform} (inside : u ∈ uniforms) (leaf : v ∈ u.leaves structs) :
      ∃ next rest, splitOn '.' v.name = u.name :: next :: rest := by
    rw [uniformLeaves] at leaf
    obtain ⟨way, member, rfl⟩ := List.mem_map.mp leaf
    have parts := leafParts tidy ((leafWaysExact structs).mp member) (undotted u inside)
    cases shape : way.names with
    | nil => simp [Descent.names] at shape
    | cons next rest => exact ⟨next, rest, shape ▸ parts⟩
  have apart := List.pairwise_map.mp separate.distinct
  rw [flatten, List.map_append, List.nodup_append]
  refine ⟨?_, ?_, ?_⟩
  · rw [List.Nodup, List.pairwise_map]
    exact apart.sublist List.filter_sublist
  · rw [List.map_flatMap, List.Nodup, List.pairwise_flatMap]
    refine ⟨fun u member => leavesDistinct tidy u (undotted u member), ?_⟩
    refine apart.imp_of_mem fun first second differ a left b right same => ?_
    obtain ⟨v, leaf, rfl⟩ := List.mem_map.mp left
    obtain ⟨w, leaf', rfl⟩ := List.mem_map.mp right
    obtain ⟨_, _, parts⟩ := opened first leaf
    obtain ⟨_, _, parts'⟩ := opened second leaf'
    rw [same, parts'] at parts
    exact differ (List.cons.inj parts).1.symm
  · intro a left b right same
    obtain ⟨u, plain, rfl⟩ := List.mem_map.mp left
    obtain ⟨v, member, rfl⟩ := List.mem_map.mp right
    obtain ⟨w, inside, leaf⟩ := List.mem_flatMap.mp member
    obtain ⟨_, _, parts⟩ := opened inside leaf
    -- A plain name is one part, the name of a leaf at least two.
    rw [← same, splitOnNone (undotted u (List.mem_filter.mp plain).1)] at parts
    cases (List.cons.inj parts).2

end Table

theorem repeatsDistinct {names : List Text} (distinct : names.Nodup) :
    Interface.repeats [] [] names = [] := by
  induction names using List.reverseRecOn with
  | nil => rfl
  | append_singleton front name ih =>
    obtain ⟨before, -, apart⟩ := List.nodup_append.mp distinct
    have fresh : name ∉ front := fun member => apart name member name List.mem_cons_self rfl
    rw [repeatsFresh fresh List.not_mem_nil, ih before]

theorem wordUndotted {name : Text} (chars : ∀ c ∈ name, Glsl.isWordChar c = true) : '.' ∉ name :=
  fun dot => nomatch chars '.' dot

theorem flattenNames :
    (∀ uniforms structs, Separate (uniforms.map (·.name)) →
      (∀ d ∈ structs, Separate (d.members.map (·.name))) →
      ((flatten uniforms structs).map (·.name)).Nodup) ∧
    ∀ source stage declared, Glsl.declarations source stage = .ok declared →
      (declared.uniforms.map (·.name)).Nodup →
      (∀ d ∈ Glsl.scanStructs source, (d.members.map (·.name)).Nodup) →
      ∃ scanned, Glsl.scan source stage = .ok scanned ∧
        ∀ name, (Interface.Listing.uniforms, name) ∉ scanned.duplicates := by
  refine ⟨fun uniforms structs separate tidy => flattenSeparate tidy separate, ?_⟩
  intro source stage declared accepted distinct members
  have raster : stage.isRaytracing = false := by
    rw [Bool.eq_false_iff]
    intro refused
    rw [Glsl.declarations, if_pos refused] at accepted
    cases accepted
  obtain ⟨_, same, apart⟩ := Dump.declaredApart source raster
  obtain rfl := Except.ok.inj (accepted.symm.trans same)
  have separate : Separate (declared.uniforms.map (·.name)) := by
    refine ⟨distinct, List.forall_mem_map.mpr fun u member => ?_⟩
    rw [apart.uniforms] at member
    obtain ⟨line, -, inside⟩ := List.mem_flatMap.mp member
    exact wordUndotted (Glsl.identifierChars (Glsl.uniformIdentifier inside))
  have tidy : ∀ d ∈ declared.structs, Separate (d.members.map (·.name)) := by
    rw [apart.structs]
    refine fun d member => ⟨members d member, List.forall_mem_map.mpr fun m inside => ?_⟩
    exact wordUndotted (Glsl.scannedMembers member m inside).2
  refine ⟨_, by rw [Glsl.scan, accepted]; rfl, fun name reported => ?_⟩
  rw [duplicatesByLists, repeatsDistinct (flattenSeparate tidy separate)] at reported
  simp at reported

theorem flattenNamesNode :
    let node : StructDef :=
      { name := ['N'], members := [⟨.custom ['N'], ['n']⟩, ⟨.float, ['n', 'n']⟩] }
    let uniforms : List Uniform := [{ typeName := .custom ['N'], name := ['k'] },
      { typeName := .float, name := ['k', 'n'] }, { typeName := .custom ['N'], name := ['k', 'k'] }]
    let source := "struct A { float x; };\nstruct B { A x; A y; };\nuniform B b;\nuniform A bx;".toList
    Separate (uniforms.map (·.name)) ∧ (∀ d ∈ [node], Separate (d.members.map (·.name))) ∧
      ((flatten uniforms [node]).map (·.name)).Nodup ∧
      ∃ declared scanned, Glsl.declarations source .fragment = .ok declared ∧
        (declared.uniforms.map (·.name)).Nodup ∧
        (∀ d ∈ Glsl.scanStructs source, (d.members.map (·.name)).Nodup) ∧
        Glsl.scan source .fragment = .ok scanned ∧
        scanned.uniforms.map (·.name) = ["b.x.x", "b.y.x", "bx.x"].map String.toList ∧
        ∀ name, (Interface.Listing.uniforms, name) ∉ scanned.duplicates := by
  intro node uniforms source
  have separate : Separate (uniforms.map (·.name)) := by decide
  have tidy : ∀ d ∈ [node], Separate (d.members.map (·.name)) := by decide
  let declared := Glsl.interfaceOf (Glsl.sourceFindings source .fragment)
  have accepted : Glsl.declarations source .fragment = .ok declared := rfl
  have distinct : (declared.uniforms.map (·.name)).Nodup := by decide
  have members : ∀ d ∈ Glsl.scanStructs source, (d.members.map (·.name)).Nodup := by decide
  obtain ⟨scanned, found, silent⟩ :=
    flattenNames.2 source .fragment declared accepted distinct members
  refine ⟨separate, tidy, flattenNames.1 uniforms [node] separate tidy, declared, scanned, accepted,
    distinct, members, found, ?_, silent⟩
  have names : (Glsl.scan source .fragment).map (fun i => i.uniforms.map (·.name)) =
      .ok (["b.x.x", "b.y.x", "bx.x"].map String.toList) := by decide
  rw [found] at names
  exact Except.ok.inj names

end ShaderReflection
