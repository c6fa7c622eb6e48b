import ShaderReflection.Proofs.Interface.Completion
import ShaderReflection.Proofs.Interface.Extension
/-!
Completing an interface from the same source again. A declaration that has been merged has nothing
left to give, and no other one gives it anything to do again, so after one pass every declaration
is settled.
-/
namespace ShaderReflection
open Glsl (InterfaceDeclaration)

def Settled {σ α : Type} (step : σ → α → σ) (s : σ) (a : α) : Prop := step s a = s

structure Settling {σ α : Type} (step : σ → α → σ) : Prop where
  taken : ∀ s a, Settled step (step s a) a
  stays : ∀ s a b, Settled step s a → Settled step (step s b) a

section Steps
variable {σ α : Type} {step : σ → α → σ}

theorem runStays (settles : Settling step) {a : α} {s : σ} (settled : Settled step s a)
    (as : List α) : Settled step (as.foldl step s) a := by
  induction as generalizing s with
  | nil => exact settled
  | cons b rest ih => exact ih (settles.stays s a b settled)

theorem runSettles (settles : Settling step) (s : σ) (as : List α) :
    ∀ a ∈ as, Settled step (as.foldl step s) a := by
  induction as generalizing s with
  | nil => exact List.forall_mem_nil _
  | cons a rest ih =>
    exact List.forall_mem_cons.mpr ⟨runStays settles (settles.taken s a) rest, ih (step s a)⟩

theorem settledRun {s : σ} {as : List α} (settled : ∀ a ∈ as, Settled step s a) :
    as.foldl step s = s := by
  induction as with
  | nil => rfl
  | cons a rest ih =>
    obtain ⟨first, others⟩ := List.forall_mem_cons.mp settled
    rw [List.foldl_cons, first, ih others]

theorem runTwice (settles : Settling step) (s : σ) (as : List α) :
    as.foldl step (as.foldl step s) = as.foldl step s := settledRun (runSettles settles s as)

end Steps

theorem missingSettled {l : List Attribute} {e : Attribute} :
    addMissing l e = l ↔ l.any (hasName e.name) = true := by
  cases known : l.any (hasName e.name) with
  | true => exact ⟨fun _ => rfl, fun _ => addPresent known⟩
  | false => simp [addAbsent known]

theorem missingSettling : Settling fun l (e : Attribute) => addMissing l e.unlocated where
  taken l e := by
    refine missingSettled.mpr ?_
    cases known : l.any (hasName e.unlocated.name) with
    | true => rw [addPresent known, known]
    | false => simp [addAbsent known, hasName]
  stays l e f settled := by
    have known := missingSettled.mp settled
    refine missingSettled.mpr ?_
    cases other : l.any (hasName f.unlocated.name) with
    | true => rw [addPresent other, known]
    | false => rw [addAbsent other, List.any_append, known, Bool.true_or]

theorem fillSettled {l : List Attribute} {e : Attribute}
    (located : (locationOf e.name l).or e.location = locationOf e.name l) :
    fillLocation e l = l := by
  induction l with
  | nil => rfl
  | cons a rest ih =>
    unfold fillLocation
    unfold locationOf at located
    by_cases here : a.name = e.name
    · have first : (a :: rest).find? (hasName e.name) = some a :=
        List.find?_cons_of_pos (beq_iff_eq.mpr here)
      rw [first, Option.bind_some] at located
      rw [if_pos (beq_iff_eq.mpr here), located]
    · have later : (a :: rest).find? (hasName e.name) = rest.find? (hasName e.name) :=
        List.find?_cons_of_neg fun same => here (beq_iff_eq.mp same)
      rw [later] at located
      rw [if_neg fun same => here (beq_iff_eq.mp same), ih located]

theorem vertexOwn (l : List Attribute) (e : Attribute) :
    locationOf e.name (mergeVertexInput l e) = (locationOf e.name l).or e.location := by
  have own : hasName e.name e = true := beq_self_eq_true e.name
  rw [vertexLocates, locationFor, if_pos own]

theorem vertexSettled {l : List Attribute} {e : Attribute} : mergeVertexInput l e = l ↔
    l.any (hasName e.name) = true ∧
      (locationOf e.name l).or e.location = locationOf e.name l := by
  constructor
  · intro settled
    have located := vertexOwn l e
    rw [settled] at located
    refine ⟨?_, located.symm⟩
    cases known : l.any (hasName e.name) with
    | true => rfl
    | false => simp [vertexAbsent known] at settled
  · rintro ⟨known, located⟩
    rw [vertexPresent known, fillSettled located]

theorem vertexKeepsName {name : Text} {l : List Attribute} (known : l.any (hasName name) = true)
    (f : Attribute) : (mergeVertexInput l f).any (hasName name) = true := by
  have names := vertexKnows name l [f]
  rw [List.foldl_cons, List.foldl_nil, known, Bool.true_or] at names
  exact names

theorem vertexSettling : Settling mergeVertexInput where
  taken l e := by
    have names := vertexKnows e.name l [e]
    simp only [List.foldl_cons, List.foldl_nil, List.any_cons, hasName, beq_self_eq_true,
      Bool.true_or, Bool.or_true] at names
    refine vertexSettled.mpr ⟨names, ?_⟩
    rw [vertexOwn, Option.or_assoc, Option.or_self]
  stays l e f settled := by
    obtain ⟨known, located⟩ := vertexSettled.mp settled
    refine vertexSettled.mpr ⟨vertexKeepsName known f, ?_⟩
    rw [vertexLocates]
    cases own : locationOf e.name l with
    | some n => rw [Option.some_or, Option.some_or]
    | none =>
      rw [own, Option.none_or] at located
      rw [located, Option.or_none]

theorem inputsSettling (stage : Stage) : Settling (mergeInput stage) := by
  by_cases vertex : stage = .vertex
  · subst vertex
    exact vertexSettling
  · rw [otherInput vertex]
    exact missingSettling

theorem outputsSettling (stage : Stage) : Settling (mergeOutput stage) := by
  by_cases fragment : stage = .fragment
  · subst fragment
    exact ⟨fun _ _ => rfl, fun _ _ _ _ => rfl⟩
  · rw [otherOutput fragment]
    exact missingSettling

theorem interfaceByLists {i j : Interface} (uniforms : i.uniforms = j.uniforms)
    (inputs : i.inputs = j.inputs) (outputs : i.outputs = j.outputs)
    (structs : i.structs = j.structs) : i = j := by
  obtain ⟨us, ins, outs, defs⟩ := i
  obtain rfl : us = j.uniforms := uniforms
  obtain rfl : ins = j.inputs := inputs
  obtain rfl : outs = j.outputs := outputs
  obtain rfl : defs = j.structs := structs
  rfl

theorem mergesTwice (stage : Stage) (i : Interface) (declared : List InterfaceDeclaration) :
    declared.foldl (Interface.merge stage) (declared.foldl (Interface.merge stage) i) =
      declared.foldl (Interface.merge stage) i := by
  have again := mergesComplete stage (declared.foldl (Interface.merge stage) i) declared
  obtain ⟨inputs, outputs⟩ := mergesByLists stage i declared
  obtain ⟨inputs', outputs'⟩ :=
    mergesByLists stage (declared.foldl (Interface.merge stage) i) declared
  rw [inputs, runTwice (inputsSettling stage), ← inputs] at inputs'
  rw [outputs, runTwice (outputsSettling stage), ← outputs] at outputs'
  exact interfaceByLists again.uniforms inputs' outputs' again.structs

theorem backfillRepeats (i : Interface) (source : Text) (stage : Stage) :
    (i.backfill source stage).backfill source stage = i.backfill source stage := by
  unfold Interface.backfill
  split
  · exact mergesTwice stage i (Glsl.interfaceDeclarations source)
  · rfl

example :
    let i : Interface := { inputs := [⟨.vec4, "n".toList, none⟩, ⟨.vec3, "n".toList, none⟩] }
    let source := "\nin vec3 n;layout(location = 2) in vec3 n;layout(location = 3) in vec3 n;".toList
    let once := i.backfill source .vertex
    once.inputs = [⟨.vec4, "n".toList, some 2⟩, ⟨.vec3, "n".toList, none⟩] ∧
      once.backfill source .vertex = once := by
  decide

end ShaderReflection
