import Mathlib.Data.List.Basic
import ShaderReflection.Interface.Backfill
/-!
Completing an interface from source is complete. Every declared name that is missing is added once,
in the order in which the names first appear and with the type declared first. A vertex input has
its reflected location, or else the first one that the source gives its name.
-/
namespace ShaderReflection
open Glsl (InterfaceDeclaration Qualifier)

def Attribute.unlocated (a : Attribute) : Attribute := { a with location := none }

def hasName (name : Text) (a : Attribute) : Bool := a.name == name

def declaredAs (qualifier : Qualifier) (declared : List InterfaceDeclaration) : List Attribute :=
  (declared.filter fun d => d.qualifier == qualifier).map (·.entry)

def missingNames (old declared : List Attribute) : List Text :=
  ((declared.map (·.name)).filter fun name => !(old.any (hasName name))).eraseDups

def missing (old declared : List Attribute) : List Attribute :=
  (missingNames old declared).filterMap fun name =>
    (declared.find? (hasName name)).map Attribute.unlocated

def appended (old new : List Attribute) : List Attribute := new.drop old.length

theorem appendedBehind (old more : List Attribute) : appended old (old ++ more) = more :=
  List.drop_left

theorem missingPresent {old declared : List Attribute} {e : Attribute}
    (present : old.any (hasName e.name) = true) :
    missing old (e :: declared) = missing old declared := by
  have names : missingNames old (e :: declared) = missingNames old declared := by
    simp [missingNames, present]
  unfold missing
  rw [names]
  refine List.filterMap_congr fun name member => ?_
  have lacks : old.any (hasName name) = false := by
    simpa using (List.mem_filter.mp (List.mem_eraseDups.mp member)).2
  have other : hasName name e = false := by
    refine beq_false_of_ne fun same => ?_
    rw [same, lacks] at present
    cases present
  rw [List.find?_cons_of_neg (by simp [other])]

theorem missingAbsent {old declared : List Attribute} {e : Attribute}
    (absent : old.any (hasName e.name) = false) :
    missing old (e :: declared) = e.unlocated :: missing (old ++ [e.unlocated]) declared := by
  have names : missingNames old (e :: declared) =
      e.name :: missingNames (old ++ [e.unlocated]) declared := by
    simp only [missingNames, List.map_cons, List.filter_cons, absent, Bool.not_false, if_true,
      List.eraseDups_cons, List.filter_filter]
    congr 2
    refine List.filter_congr fun name _ => ?_
    rw [List.any_append, Bool.not_or, Bool.and_comm]
    simp [hasName, Attribute.unlocated, BEq.comm]
  have first : (e :: declared).find? (hasName e.name) = some e :=
    List.find?_cons_of_pos (beq_self_eq_true e.name)
  unfold missing
  rw [names, List.filterMap_cons_some (by rw [first, Option.map_some])]
  congr 1
  refine List.filterMap_congr fun name member => ?_
  have lacks := (List.mem_filter.mp (List.mem_eraseDups.mp member)).2
  have other : hasName name e = false := by
    rw [List.any_append, Bool.not_or, Bool.and_eq_true] at lacks
    simpa [hasName, Attribute.unlocated] using lacks.2
  rw [List.find?_cons_of_neg (by simp [other])]

theorem addPresent {l : List Attribute} {e : Attribute} (present : l.any (hasName e.name) = true) :
    addMissing l e = l := if_pos present

theorem addAbsent {l : List Attribute} {e : Attribute} (absent : l.any (hasName e.name) = false) :
    addMissing l e = l ++ [e] := if_neg (Bool.eq_false_iff.mp absent)

theorem addsMissing (old declared : List Attribute) :
    declared.foldl (fun l e => addMissing l e.unlocated) old = old ++ missing old declared := by
  induction declared generalizing old with
  | nil => simp [missing, missingNames]
  | cons e rest ih =>
    rw [List.foldl_cons, ih]
    cases known : old.any (hasName e.name) with
    | true => rw [addPresent (e := e.unlocated) known, missingPresent known]
    | false =>
      rw [addAbsent (e := e.unlocated) known, missingAbsent known, List.append_assoc,
        List.singleton_append]

theorem missingUnlocated (old declared : List Attribute) :
    ∀ a ∈ missing old declared, a.location = none := by
  intro a member
  obtain ⟨name, -, found⟩ := List.mem_filterMap.mp member
  obtain ⟨b, -, rfl⟩ := Option.map_eq_some_iff.mp found
  rfl

theorem missingAsIs (old declared : List Attribute) :
    (missing old declared).map Attribute.unlocated = missing old declared := by
  unfold missing
  rw [List.map_filterMap]
  refine List.filterMap_congr fun name _ => ?_
  cases declared.find? (hasName name) <;> rfl

theorem unlocatedNamed (name : Text) (l : List Attribute) :
    (l.map Attribute.unlocated).any (hasName name) = l.any (hasName name) := by
  rw [List.any_map]
  rfl

theorem fillUnlocated (e : Attribute) (l : List Attribute) :
    (fillLocation e l).map Attribute.unlocated = l.map Attribute.unlocated := by
  induction l with
  | nil => rfl
  | cons a rest ih =>
    unfold fillLocation
    split
    · rfl
    · rw [List.map_cons, List.map_cons, ih]

theorem vertexPresent {l : List Attribute} {e : Attribute} (present : l.any (hasName e.name) = true) :
    mergeVertexInput l e = fillLocation e l := if_pos present

theorem vertexAbsent {l : List Attribute} {e : Attribute} (absent : l.any (hasName e.name) = false) :
    mergeVertexInput l e = l ++ [e] := if_neg (Bool.eq_false_iff.mp absent)

theorem vertexUnlocated (e : Attribute) (l : List Attribute) :
    (mergeVertexInput l e).map Attribute.unlocated =
      addMissing (l.map Attribute.unlocated) e.unlocated := by
  have same := unlocatedNamed e.name l
  cases known : l.any (hasName e.name) with
  | true =>
    rw [known] at same
    rw [vertexPresent known, addPresent (e := e.unlocated) same, fillUnlocated]
  | false =>
    rw [known] at same
    rw [vertexAbsent known, addAbsent (e := e.unlocated) same, List.map_append, List.map_singleton]

theorem missingOfUnlocated (old declared : List Attribute) :
    missing (old.map Attribute.unlocated) declared = missing old declared := by
  simp only [missing, missingNames, unlocatedNamed]

theorem vertexAdds (old declared : List Attribute) :
    (declared.foldl mergeVertexInput old).map Attribute.unlocated =
      old.map Attribute.unlocated ++ missing old declared := by
  rw [← missingOfUnlocated, ← addsMissing]
  induction declared generalizing old with
  | nil => rfl
  | cons e rest ih => rw [List.foldl_cons, List.foldl_cons, ih, vertexUnlocated]

theorem vertexAppends (old declared : List Attribute) :
    (appended old (declared.foldl mergeVertexInput old)).map Attribute.unlocated =
      missing old declared := by
  rw [appended, List.map_drop, vertexAdds]
  exact List.drop_left' (List.length_map _)

theorem vertexKnows (name : Text) (old declared : List Attribute) :
    (declared.foldl mergeVertexInput old).any (hasName name) =
      (old.any (hasName name) || declared.any (hasName name)) := by
  have step (l : List Attribute) (e : Attribute) :
      (mergeVertexInput l e).any (hasName name) = (l.any (hasName name) || hasName name e) := by
    cases known : l.any (hasName e.name) with
    | true =>
      rw [← unlocatedNamed, vertexPresent known, fillUnlocated, unlocatedNamed]
      by_cases same : e.name = name
      · rw [← same, known, Bool.true_or]
      · simp [hasName, same]
    | false => simp [vertexAbsent known]
  induction declared generalizing old with
  | nil => simp
  | cons e rest ih => rw [List.foldl_cons, ih, step, List.any_cons, Bool.or_assoc]

def locationOf (name : Text) (l : List Attribute) : Option UInt32 :=
  (l.find? (hasName name)).bind (·.location)

def declaredLocation (name : Text) (declared : List Attribute) : Option UInt32 :=
  (declared.filter (hasName name)).findSome? (·.location)

def locationFor (name : Text) (e : Attribute) : Option UInt32 :=
  if hasName name e then e.location else none

theorem declaredCons (name : Text) (e : Attribute) (rest : List Attribute) :
    declaredLocation name (e :: rest) = (locationFor name e).or (declaredLocation name rest) := by
  unfold declaredLocation locationFor
  cases same : hasName name e with
  | true =>
    rw [List.filter_cons_of_pos same, List.findSome?_cons, if_pos rfl]
    cases e.location <;> rfl
  | false => simp [same]

theorem fillLocates (name : Text) {e : Attribute} {l : List Attribute}
    (present : l.any (hasName e.name) = true) :
    locationOf name (fillLocation e l) = (locationOf name l).or (locationFor name e) := by
  induction l with
  | nil => cases present
  | cons a rest ih =>
    unfold fillLocation locationOf locationFor
    by_cases here : a.name = e.name
    · by_cases same : e.name = name
      · simp [here, same, hasName]
      · simp [here, same, hasName]
    · have later : rest.any (hasName e.name) = true := by simpa [here, hasName] using present
      have inner := ih later
      unfold locationOf locationFor at inner
      by_cases first : a.name = name
      · have other : e.name ≠ name := fun same => here (first.trans same.symm)
        simp [first, other, other.symm, hasName]
      · simpa [here, first, hasName] using inner

theorem vertexLocates (name : Text) (l : List Attribute) (e : Attribute) :
    locationOf name (mergeVertexInput l e) = (locationOf name l).or (locationFor name e) := by
  cases known : l.any (hasName e.name) with
  | true => rw [vertexPresent known, fillLocates name known]
  | false =>
    rw [vertexAbsent known]
    unfold locationOf locationFor
    by_cases same : e.name = name
    · rw [← same]
      have none : l.find? (hasName e.name) = none := by simpa using known
      simp [none, hasName]
    · simp [same, hasName]

theorem locatesDeclared (name : Text) (old declared : List Attribute) :
    locationOf name (declared.foldl mergeVertexInput old) =
      (locationOf name old).or (declaredLocation name declared) := by
  induction declared generalizing old with
  | nil => simp [declaredLocation]
  | cons e rest ih => rw [List.foldl_cons, ih, vertexLocates, declaredCons, Option.or_assoc]

theorem vertexFinds {name : Text} {declared : List Attribute} (member : name ∈ declared.map (·.name))
    (old : List Attribute) :
    ∃ a, (declared.foldl mergeVertexInput old).find? (hasName name) = some a ∧
      a.location = (locationOf name old).or (declaredLocation name declared) := by
  obtain ⟨e, inside, same⟩ := List.mem_map.mp member
  have some' : declared.any (hasName name) = true :=
    List.any_eq_true.mpr ⟨e, inside, beq_iff_eq.mpr same⟩
  have known := vertexKnows name old declared
  rw [some', Bool.or_true, List.any_eq_true] at known
  obtain ⟨a, found⟩ := Option.isSome_iff_exists.mp (List.find?_isSome.mpr known)
  have located := locatesDeclared name old declared
  rw [locationOf, found, Option.bind_some] at located
  exact ⟨a, found, located⟩

def mergeInput (stage : Stage) (l : List Attribute) (e : Attribute) : List Attribute :=
  if stage == .vertex then mergeVertexInput l e else addMissing l e.unlocated

def mergeOutput (stage : Stage) (l : List Attribute) (e : Attribute) : List Attribute :=
  if stage == .fragment then l else addMissing l e.unlocated

theorem mergeByLists (stage : Stage) (i : Interface) (d : InterfaceDeclaration) :
    (i.merge stage d).inputs = (declaredAs .input [d]).foldl (mergeInput stage) i.inputs ∧
      (i.merge stage d).outputs = (declaredAs .output [d]).foldl (mergeOutput stage) i.outputs := by
  obtain ⟨qualifier, e⟩ := d
  cases qualifier with
  | input =>
    cases vertex : stage == .vertex <;>
      simp [Interface.merge, declaredAs, mergeInput, Attribute.unlocated, vertex]
  | output =>
    cases fragment : stage == .fragment <;>
      simp [Interface.merge, declaredAs, mergeOutput, Attribute.unlocated, fragment]

theorem declaredAppend (qualifier : Qualifier) (front back : List InterfaceDeclaration) :
    declaredAs qualifier (front ++ back) = declaredAs qualifier front ++ declaredAs qualifier back := by
  unfold declaredAs
  rw [List.filter_append, List.map_append]

theorem mergesByLists (stage : Stage) (i : Interface) (declared : List InterfaceDeclaration) :
    (declared.foldl (Interface.merge stage) i).inputs =
        (declaredAs .input declared).foldl (mergeInput stage) i.inputs ∧
      (declared.foldl (Interface.merge stage) i).outputs =
        (declaredAs .output declared).foldl (mergeOutput stage) i.outputs := by
  induction declared generalizing i with
  | nil => exact ⟨rfl, rfl⟩
  | cons d rest ih =>
    obtain ⟨inputs, outputs⟩ := ih (i.merge stage d)
    obtain ⟨input, output⟩ := mergeByLists stage i d
    rw [List.foldl_cons, inputs, outputs, input, output, ← List.foldl_append, ← List.foldl_append,
      ← declaredAppend, ← declaredAppend]
    exact ⟨rfl, rfl⟩

theorem otherInput {stage : Stage} (other : stage ≠ .vertex) :
    mergeInput stage = fun l e => addMissing l e.unlocated := by
  funext l e
  rw [mergeInput, if_neg (by simp [other])]

theorem otherOutput {stage : Stage} (other : stage ≠ .fragment) :
    mergeOutput stage = fun l e => addMissing l e.unlocated := by
  funext l e
  rw [mergeOutput, if_neg (by simp [other])]

theorem otherInputs {stage : Stage} (other : stage ≠ .vertex) (old declared : List Attribute) :
    declared.foldl (mergeInput stage) old = old ++ missing old declared := by
  rw [otherInput other, addsMissing]

theorem otherOutputs {stage : Stage} (other : stage ≠ .fragment) (old declared : List Attribute) :
    declared.foldl (mergeOutput stage) old = old ++ missing old declared := by
  rw [otherOutput other, addsMissing]

theorem vertexInputs {stage : Stage} (vertex : stage = .vertex) (old declared : List Attribute) :
    declared.foldl (mergeInput stage) old = declared.foldl mergeVertexInput old := by
  subst vertex
  rfl

theorem fragmentOutputs (old declared : List Attribute) :
    declared.foldl (mergeOutput .fragment) old = old := by
  induction declared with
  | nil => rfl
  | cons e rest ih => exact ih

theorem backfillCompletes (i : Interface) (source : Text) {stage : Stage}
    (attributes : stage.hasAttributes = true) :
    let inputs := declaredAs .input (Glsl.interfaceDeclarations source)
    let outputs := declaredAs .output (Glsl.interfaceDeclarations source)
    let result := i.backfill source stage
    (appended i.inputs result.inputs).map Attribute.unlocated = missing i.inputs inputs ∧
      (stage ≠ .fragment → appended i.outputs result.outputs = missing i.outputs outputs) ∧
      (stage = .vertex → ∀ name ∈ inputs.map (·.name),
        ∃ a, result.inputs.find? (hasName name) = some a ∧
          a.location = (locationOf name i.inputs).or (declaredLocation name inputs)) ∧
      (stage ≠ .vertex → ∀ a ∈ appended i.inputs result.inputs, a.location = none) ∧
      ∀ a ∈ appended i.outputs result.outputs, a.location = none := by
  intro inputs outputs result
  obtain ⟨ins, outs⟩ := mergesByLists stage i (Glsl.interfaceDeclarations source)
  have whole : result = (Glsl.interfaceDeclarations source).foldl (Interface.merge stage) i :=
    if_pos attributes
  rw [← whole] at ins outs
  refine ⟨?_, fun other => ?_, ?_, fun other => ?_, ?_⟩
  · by_cases vertex : stage = .vertex
    · rw [ins, vertexInputs vertex, vertexAppends]
    · rw [ins, otherInputs vertex, appendedBehind, missingAsIs]
  · rw [outs, otherOutputs other, appendedBehind]
  · intro vertex name member
    rw [ins, vertexInputs vertex]
    exact vertexFinds member i.inputs
  · rw [ins, otherInputs other, appendedBehind]
    exact missingUnlocated _ _
  · by_cases fragment : stage = .fragment
    · subst fragment
      rw [outs, fragmentOutputs, appended, List.drop_length]
      exact List.forall_mem_nil _
    · rw [outs, otherOutputs fragment, appendedBehind]
      exact missingUnlocated _ _

theorem backfillCompletesNormal :
    let i : Interface := { inputs := [⟨.vec4, "normal".toList, none⟩] }
    let source := "\nin vec3 normal;in vec2 uv;\nlayout(location = 2) in vec3 normal;out vec2 uv;".toList
    let result := i.backfill source .vertex
    Stage.vertex.hasAttributes = true ∧
      (appended i.inputs result.inputs).map Attribute.unlocated = [⟨.vec2, "uv".toList, none⟩] ∧
      appended i.outputs result.outputs = [⟨.vec2, "uv".toList, none⟩] ∧
      ∃ a, result.inputs.find? (hasName "normal".toList) = some a ∧ a.location = some 2 := by
  intro i source result
  have attributes : Stage.vertex.hasAttributes = true := rfl
  obtain ⟨ins, outs, located, -⟩ := backfillCompletes i source attributes
  refine ⟨attributes, ins.trans (by decide), (outs (by decide)).trans (by decide), ?_⟩
  obtain ⟨a, found, location⟩ := located rfl "normal".toList (by decide)
  exact ⟨a, found, location.trans (by decide)⟩

end ShaderReflection
