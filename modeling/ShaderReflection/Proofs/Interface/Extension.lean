import ShaderReflection.Interface.Backfill
/-!
Completing an interface from source extends it. What was reflected stays in its place with its type
and name, a location is only filled in where there was none, and what is added has a name of its
own. One declaration does so, hence a whole source.
-/
namespace ShaderReflection
open Glsl (InterfaceDeclaration)

structure Keeps (fills : Bool) (a b : Attribute) : Prop where
  typeName : b.typeName = a.typeName
  name : b.name = a.name
  location : b.location = a.location ∨ fills = true ∧ a.location = none ∧ b.location.isSome = true

structure Extends (fills : Bool) (old new : List Attribute) : Prop where
  kept : ∀ (k : Nat) (a : Attribute), old[k]? = some a → ∃ b, new[k]? = some b ∧ Keeps fills a b
  fresh : ∀ (k : Nat) (a : Attribute), old.length ≤ k → new[k]? = some a →
    ∀ b ∈ new.take k, b.name ≠ a.name

section Lists
variable {fills : Bool}

theorem keepsSelf (a : Attribute) : Keeps fills a a := ⟨rfl, rfl, .inl rfl⟩

theorem keepsTrans {a b c : Attribute} (first : Keeps fills a b) (second : Keeps fills b c) :
    Keeps fills a c := by
  refine ⟨second.typeName.trans first.typeName, second.name.trans first.name, ?_⟩
  rcases second.location with same | ⟨allowed, none, some'⟩
  · rw [same]
    exact first.location
  · rcases first.location with same | ⟨_, _, filled⟩
    · exact .inr ⟨allowed, same ▸ none, some'⟩
    · rw [none] at filled
      cases filled

theorem extendsSelf (l : List Attribute) : Extends fills l l where
  kept k a found := ⟨a, found, keepsSelf a⟩
  fresh k a beyond found := by
    rw [List.getElem?_eq_none beyond] at found
    cases found

theorem extendsTrans {a b c : List Attribute} (first : Extends fills a b)
    (second : Extends fills b c) : Extends fills a c where
  kept k x found := by
    obtain ⟨y, middle, here⟩ := first.kept k x found
    obtain ⟨z, last, there⟩ := second.kept k y middle
    exact ⟨z, last, keepsTrans here there⟩
  fresh k x beyond found z before := by
    by_cases later : b.length ≤ k
    · exact second.fresh k x later found z before
    -- The entry was added by the first extension, and the second has kept all names up to it.
    have bound : k < b.length := by omega
    obtain ⟨y, middle, same⟩ := second.kept k b[k] (List.getElem?_eq_getElem bound)
    obtain rfl := Option.some.inj (found.symm.trans middle)
    obtain ⟨j, both, place⟩ := List.mem_take_iff_getElem.mp before
    have early : j < b.length := by omega
    obtain ⟨w, there, named⟩ := second.kept j b[j] (List.getElem?_eq_getElem early)
    rw [List.getElem?_eq_getElem (by omega), place] at there
    obtain rfl := Option.some.inj there
    rw [same.name, named.name]
    refine first.fresh k b[k] beyond (List.getElem?_eq_getElem bound) b[j] ?_
    exact List.mem_take_iff_getElem.mpr ⟨j, by omega, rfl⟩

theorem extendsPush {l : List Attribute} {e : Attribute} (new : ∀ b ∈ l, b.name ≠ e.name) :
    Extends fills l (l ++ [e]) where
  kept k a found := by
    obtain ⟨bound, -⟩ := List.getElem?_eq_some_iff.mp found
    exact ⟨a, by rw [List.getElem?_append_left bound, found], keepsSelf a⟩
  fresh k a beyond found b before := by
    obtain ⟨bound, -⟩ := List.getElem?_eq_some_iff.mp found
    have last : k = l.length := by
      simp only [List.length_append, List.length_singleton] at bound
      omega
    subst last
    rw [List.getElem?_concat_length] at found
    rw [List.take_left] at before
    exact Option.some.inj found ▸ new b before

end Lists

theorem namedAbsent {l : List Attribute} {name : Text} (absent : l.any (·.name == name) = false) :
    ∀ b ∈ l, b.name ≠ name := by
  intro b member same
  rw [List.any_eq_false] at absent
  exact absent b member (beq_iff_eq.mpr same)

theorem missingExtends (fills : Bool) (l : List Attribute) (e : Attribute) :
    Extends fills l (addMissing l e) := by
  unfold addMissing
  split
  · exact extendsSelf l
  · rename_i absent
    exact extendsPush (namedAbsent (Bool.eq_false_iff.mpr absent))

theorem fillAt (e : Attribute) (l : List Attribute) (k : Nat) :
    (fillLocation e l)[k]? = l[k]? ∨ ∃ a, l[k]? = some a ∧
      (fillLocation e l)[k]? = some { a with location := a.location.or e.location } := by
  induction l generalizing k with
  | nil => exact .inl rfl
  | cons a rest ih =>
    unfold fillLocation
    split
    · cases k with
      | zero => exact .inr ⟨a, rfl, rfl⟩
      | succ k => exact .inl rfl
    · cases k with
      | zero => exact .inl rfl
      | succ k => exact ih k

theorem fillLength (e : Attribute) (l : List Attribute) : (fillLocation e l).length = l.length := by
  induction l with
  | nil => rfl
  | cons a rest ih =>
    unfold fillLocation
    split
    · rfl
    · rw [List.length_cons, List.length_cons, ih]

theorem fillExtends (e : Attribute) (l : List Attribute) : Extends true l (fillLocation e l) where
  kept k a found := by
    rcases fillAt e l k with same | ⟨b, here, filled⟩
    · exact ⟨a, same.trans found, keepsSelf a⟩
    · obtain rfl := Option.some.inj (here.symm.trans found)
      refine ⟨_, filled, rfl, rfl, ?_⟩
      cases located : b.location with
      | some n => exact .inl rfl
      | none =>
        cases given : e.location with
        | none => exact .inl rfl
        | some n => exact .inr ⟨rfl, rfl, rfl⟩
  fresh k a beyond found := by
    rw [← fillLength e l] at beyond
    rw [List.getElem?_eq_none beyond] at found
    cases found

theorem vertexExtends (l : List Attribute) (e : Attribute) :
    Extends true l (mergeVertexInput l e) := by
  unfold mergeVertexInput
  split
  · exact fillExtends e l
  · rename_i absent
    exact extendsPush (namedAbsent (Bool.eq_false_iff.mpr absent))

theorem repeatsFresh {names : List Text} {name : Text} (new : name ∉ names) {seen : List Text}
    (unseen : name ∉ seen) (reported : List Text) :
    Interface.repeats seen reported (names ++ [name]) = Interface.repeats seen reported names := by
  induction names generalizing seen reported with
  | nil => simp [Interface.repeats, unseen]
  | cons first rest ih =>
    rw [List.mem_cons, not_or] at new
    rw [List.cons_append, Interface.repeats, Interface.repeats]
    split
    · split
      · exact ih new.2 unseen reported
      · rw [ih new.2 unseen]
    · refine ih new.2 ?_ reported
      rw [List.mem_cons, not_or]
      exact ⟨new.1, unseen⟩

def repeated (l : List Attribute) : List Text := Interface.repeats [] [] (l.map (·.name))

theorem repeatedPush {l : List Attribute} {e : Attribute} (new : ∀ b ∈ l, b.name ≠ e.name) :
    repeated (l ++ [e]) = repeated l := by
  unfold repeated
  rw [List.map_append, List.map_singleton]
  refine repeatsFresh (fun member => ?_) List.not_mem_nil []
  obtain ⟨b, inside, same⟩ := List.mem_map.mp member
  exact new b inside same

theorem repeatedMissing (l : List Attribute) (e : Attribute) :
    repeated (addMissing l e) = repeated l := by
  unfold addMissing
  split
  · rfl
  · rename_i absent
    exact repeatedPush (namedAbsent (Bool.eq_false_iff.mpr absent))

theorem fillNames (e : Attribute) (l : List Attribute) :
    (fillLocation e l).map (·.name) = l.map (·.name) := by
  induction l with
  | nil => rfl
  | cons a rest ih =>
    unfold fillLocation
    split
    · rfl
    · rw [List.map_cons, List.map_cons, ih]

theorem repeatedVertex (l : List Attribute) (e : Attribute) :
    repeated (mergeVertexInput l e) = repeated l := by
  unfold mergeVertexInput
  split
  · unfold repeated
    rw [fillNames]
  · rename_i absent
    exact repeatedPush (namedAbsent (Bool.eq_false_iff.mpr absent))

theorem duplicatesByLists (i : Interface) : i.duplicates =
    (Interface.repeats [] [] (i.uniforms.map (·.name))).map (.uniforms, ·) ++
      ((repeated i.inputs).map (.inputs, ·) ++ (repeated i.outputs).map (.outputs, ·)) := by
  simp only [Interface.duplicates, Interface.names, List.flatMap_cons, List.flatMap_nil,
    List.append_nil, repeated]

structure Completes (stage : Stage) (i r : Interface) : Prop where
  uniforms : r.uniforms = i.uniforms
  structs : r.structs = i.structs
  inputs : Extends (stage == .vertex) i.inputs r.inputs
  outputs : Extends false i.outputs r.outputs
  fragment : stage = .fragment → r.outputs = i.outputs
  duplicates : r.duplicates = i.duplicates

theorem completesSelf (stage : Stage) (i : Interface) : Completes stage i i :=
  ⟨rfl, rfl, extendsSelf _, extendsSelf _, fun _ => rfl, rfl⟩

theorem completesTrans {stage : Stage} {i j r : Interface} (first : Completes stage i j)
    (second : Completes stage j r) : Completes stage i r where
  uniforms := second.uniforms.trans first.uniforms
  structs := second.structs.trans first.structs
  inputs := extendsTrans first.inputs second.inputs
  outputs := extendsTrans first.outputs second.outputs
  fragment is := (second.fragment is).trans (first.fragment is)
  duplicates := second.duplicates.trans first.duplicates

theorem completesInputs {stage : Stage} {i : Interface} {inputs : List Attribute}
    (grows : Extends (stage == .vertex) i.inputs inputs) (same : repeated inputs = repeated i.inputs) :
    Completes stage i { i with inputs := inputs } where
  uniforms := rfl
  structs := rfl
  inputs := grows
  outputs := extendsSelf _
  fragment _ := rfl
  duplicates := by rw [duplicatesByLists, duplicatesByLists, same]

theorem completesOutputs {stage : Stage} {i : Interface} {outputs : List Attribute}
    (other : stage ≠ .fragment) (grows : Extends false i.outputs outputs)
    (same : repeated outputs = repeated i.outputs) :
    Completes stage i { i with outputs := outputs } where
  uniforms := rfl
  structs := rfl
  inputs := extendsSelf _
  outputs := grows
  fragment is := absurd is other
  duplicates := by rw [duplicatesByLists, duplicatesByLists, same]

theorem mergeCompletes (stage : Stage) (i : Interface) (d : InterfaceDeclaration) :
    Completes stage i (i.merge stage d) := by
  unfold Interface.merge
  cases d.qualifier with
  | input =>
    dsimp only
    split
    · rename_i vertex
      refine completesInputs ?_ (repeatedVertex _ _)
      rw [vertex]
      exact vertexExtends _ _
    · exact completesInputs (missingExtends _ _ _) (repeatedMissing _ _)
  | output =>
    dsimp only
    split
    · exact completesSelf stage i
    · rename_i other
      exact completesOutputs (fun same => other (beq_iff_eq.mpr same)) (missingExtends _ _ _)
        (repeatedMissing _ _)

theorem mergesComplete (stage : Stage) (i : Interface) (declared : List InterfaceDeclaration) :
    Completes stage i (declared.foldl (Interface.merge stage) i) := by
  induction declared generalizing i with
  | nil => exact completesSelf stage i
  | cons d rest ih => exact completesTrans (mergeCompletes stage i d) (ih _)

theorem backfillExtends (i : Interface) (source : Text) (stage : Stage) :
    Completes stage i (i.backfill source stage) ∧
      (stage = .compute ∨ stage.isRaytracing = true → i.backfill source stage = i) := by
  unfold Interface.backfill
  split
  · rename_i attributes
    refine ⟨mergesComplete stage i _, fun without => ?_⟩
    simp only [Stage.hasAttributes, Bool.not_eq_true', Bool.or_eq_false_iff,
      beq_eq_false_iff_ne] at attributes
    rcases without with compute | raytracing
    · exact absurd compute attributes.1
    · rw [raytracing] at attributes
      exact nomatch attributes.2
  · exact ⟨completesSelf stage i, fun _ => rfl⟩

theorem backfillExtendsNormals :
    let i : Interface := { inputs := [⟨.vec4, "normal".toList, none⟩, ⟨.vec3, "normal".toList, none⟩] }
    let source := "#version 450\nlayout(location = 2) in vec3 normal;\nin vec2 uv;".toList
    (i.backfill source .vertex).inputs = [⟨.vec4, "normal".toList, some 2⟩,
      ⟨.vec3, "normal".toList, none⟩, ⟨.vec2, "uv".toList, none⟩] ∧
      Completes .vertex i (i.backfill source .vertex) ∧ i.backfill source .compute = i := by
  intro i source
  refine ⟨by decide, (backfillExtends i source .vertex).1, ?_⟩
  exact (backfillExtends i source .compute).2 (.inl rfl)

end ShaderReflection
