import Mathlib.Data.List.Forall2
import ShaderReflection.Proofs.Document.Built
import ShaderReflection.Proofs.Document.RoundTrip
import ShaderReflection.Proofs.Json.Fields
/-!
The documents that describe an interface: its lists under their names, one object for each record,
with the members in any order and others among them. Whatever the layout and the spelling of such a
text, the interface is what is read from it.
-/
namespace ShaderReflection

def Interface.types (i : Interface) : List TypeName :=
  i.uniforms.map (·.typeName) ++ i.inputs.map (·.typeName) ++ i.outputs.map (·.typeName) ++
    i.structs.flatMap fun d => d.members.map (·.typeName)

namespace Document
open Json

def Keyed (members : List (Option Text × Tree)) : Prop := ∀ m ∈ members, m.1.isSome = true

def wordTree (n : UInt32) : Tree := .number (some (.integer n.toNat))

def signedTree (n : Int32) : Tree := .number (some (.integer n.toInt))

def NamesType (t : TypeName) (tree : Tree) : Prop :=
  tree = .string (some t.toText) ∨ t = .undefined ∧ tree = .string (some [])

inductive Optionally : Option Tree → List Tree → Prop where
  | absent : Optionally none []
  | null : Optionally none [.null]
  | given (tree : Tree) : Optionally (some tree) [tree]

section Records
variable (members : List (Option Text × Tree))

structure AttributeObject (a : Attribute) : Prop where
  keys : Keyed members
  type : ∃ tree, valuesOf "type_name" members = [tree] ∧ NamesType a.typeName tree
  name : valuesOf "name" members = [.string (some a.name)]
  location : Optionally (a.location.map wordTree) (valuesOf "location" members)

structure UniformObject (u : Uniform) : Prop where
  keys : Keyed members
  type : ∃ tree, valuesOf "type_name" members = [tree] ∧ NamesType u.typeName tree
  name : valuesOf "name" members = [.string (some u.name)]
  count : valuesOf "count" members = [wordTree u.count] ∨
    valuesOf "count" members = [] ∧ u.count = 1
  binding : Optionally (u.binding.map signedTree) (valuesOf "binding" members)
  pushConstant : valuesOf "push_constant" members = [.boolean u.pushConstant] ∨
    valuesOf "push_constant" members = [] ∧ u.pushConstant = false

structure MemberObject (m : StructMember) : Prop where
  keys : Keyed members
  type : ∃ tree, valuesOf "type_name" members = [tree] ∧ NamesType m.typeName tree
  name : valuesOf "name" members = [.string (some m.name)]

end Records

def Lists {α : Type} (object : List (Option Text × Tree) → α → Prop) (xs : List α)
    (tree : Tree) : Prop :=
  ∃ records : List (List (Option Text × Tree)), tree = .array (records.map .object) ∧
    List.Forall₂ object records xs

structure StructObject (members : List (Option Text × Tree)) (d : StructDef) : Prop where
  keys : Keyed members
  name : valuesOf "name" members = [.string (some d.name)]
  attributes : ∃ tree, valuesOf "attributes" members = [tree] ∧ Lists MemberObject d.members tree
  size : Optionally (d.size.map wordTree) (valuesOf "size" members)
  alignment : Optionally (d.alignment.map wordTree) (valuesOf "alignment" members)

structure Describes (members : List (Option Text × Tree)) (i : Interface) : Prop where
  keys : Keyed members
  inputs : ∃ tree, valuesOf "inputs" members = [tree] ∧ Lists AttributeObject i.inputs tree
  outputs : ∃ tree, valuesOf "outputs" members = [tree] ∧ Lists AttributeObject i.outputs tree
  structs : ∃ tree, valuesOf "structs" members = [tree] ∧ Lists StructObject i.structs tree
  uniforms : ∃ tree, valuesOf "uniforms" members = [tree] ∧ Lists UniformObject i.uniforms tree

section Given
variable {members : List (Option Text × Tree)}

theorem givenOne {α : Type} {d : Decoder α} {required : Bool} {default a : α} {values : List Tree}
    {tree : Tree} (one : values = [tree]) (taken : d.Takes tree a) :
    Given d required default values a := one ▸ .value taken

theorem givenMaybe {α : Type} {d : Decoder α} {f : α → Tree} (taken : ∀ a, d.Takes (f a) a)
    (some' : ∀ a, f a ≠ .null) {value : Option α} {values : List Tree}
    (given : Optionally (value.map f) values) : Given d.nullable false none values value := by
  cases value with
  | none =>
    cases given with
    | absent => exact .absent rfl
    | null => exact .value (Decoder.takesNull d)
  | some a =>
    cases given
    exact .value (Decoder.takesSome (taken a) (some' a))

theorem givenDefault {α : Type} {d : Decoder α} {default a : α} {values : List Tree} {tree : Tree}
    (taken : d.Takes tree a) (given : values = [tree] ∨ values = [] ∧ a = default) :
    Given d false default values a := by
  rcases given with rfl | ⟨rfl, rfl⟩
  · exact .value taken
  · exact .absent rfl

theorem takesLocation {value : Option UInt32} {values : List Tree}
    (given : Optionally (value.map wordTree) values) :
    Given Decoder.unsigned32.nullable false none values value :=
  givenMaybe Decoder.takesUnsigned (fun _ => nofun) given

theorem takesNamed {t : TypeName} (read : ∃ token, TypeName.ofText token = t) {tree : Tree}
    (named : NamesType t tree) : typeName.Takes tree t := by
  obtain ⟨token, rfl⟩ := read
  rcases named with rfl | ⟨unknown, rfl⟩
  · have taken := takesTypeName (TypeName.ofText token)
    rwa [TypeName.canonicalSelf (TypeName.ofTextUnreserved token)] at taken
  · rw [unknown]
    exact Decoder.takesMap (Decoder.takesText []) TypeName.ofText

end Given

theorem attributeTaken {members : List (Option Text × Tree)} {a : Attribute}
    (read : ∃ token, TypeName.ofText token = a.typeName) (object : AttributeObject members a) :
    attributes.Takes (.object members) a := by
  obtain ⟨tree, single, named⟩ := object.type
  have type : Given typeName true .undefined _ _ := givenOne single (takesNamed read named)
  have name : Given Decoder.text true [] _ _ := givenOne object.name (Decoder.takesText a.name)
  have location := takesLocation object.location
  intro node means
  constructor
  · refine recordFits "Attribute" attributeFields means
      ((fitsByFields (by decide)).mpr ⟨object.keys, ?_⟩)
    simp [attributeFields, givenFills type, givenFills name, givenFills location]
  · simp only [attributes]
    rw [givenRead type means, givenRead name means, givenRead location means]

theorem uniformTaken {members : List (Option Text × Tree)} {u : Uniform}
    (read : ∃ token, TypeName.ofText token = u.typeName) (object : UniformObject members u) :
    uniforms.Takes (.object members) u := by
  obtain ⟨tree, single, named⟩ := object.type
  have type : Given typeName true .undefined _ _ := givenOne single (takesNamed read named)
  have name : Given Decoder.text true [] _ _ := givenOne object.name (Decoder.takesText u.name)
  have count := givenDefault (Decoder.takesUnsigned u.count) object.count
  have binding : Given Decoder.signed32.nullable false none _ _ :=
    givenMaybe Decoder.takesSigned (fun _ => nofun) object.binding
  have flag := givenDefault (Decoder.takesBoolean u.pushConstant) object.pushConstant
  intro node means
  constructor
  · refine recordFits "Uniform" uniformFields means
      ((fitsByFields (by decide)).mpr ⟨object.keys, ?_⟩)
    simp [uniformFields, givenFills type, givenFills name, givenFills count, givenFills binding,
      givenFills flag]
  · simp only [uniforms]
    rw [givenRead type means, givenRead name means, givenRead count means,
      givenRead binding means, givenRead flag means]

theorem memberTaken {members : List (Option Text × Tree)} {m : StructMember}
    (read : ∃ token, TypeName.ofText token = m.typeName) (object : MemberObject members m) :
    Document.members.Takes (.object members) m := by
  obtain ⟨tree, single, named⟩ := object.type
  have type : Given typeName true .undefined _ _ := givenOne single (takesNamed read named)
  have name : Given Decoder.text true [] _ _ := givenOne object.name (Decoder.takesText m.name)
  intro node means
  constructor
  · refine recordFits "StructMember" memberFields means
      ((fitsByFields (by decide)).mpr ⟨object.keys, ?_⟩)
    simp [memberFields, givenFills type, givenFills name]
  · simp only [Document.members]
    rw [givenRead type means, givenRead name means]

theorem listTaken {α : Type} {d : Decoder α} {object : List (Option Text × Tree) → α → Prop}
    {xs : List α} (taken : ∀ members, ∀ x ∈ xs, object members x → d.Takes (.object members) x)
    {tree : Tree} (lists : Lists object xs tree) : d.list.Takes tree xs := by
  obtain ⟨records, rfl, each⟩ := lists
  obtain ⟨length, pairs⟩ := List.forall₂_iff_zip.mp each
  -- The trees and the records are the two sides of one list of pairs.
  have part : ∀ p ∈ records.zip xs, d.Takes (.object p.1) p.2 := fun p member =>
    taken p.1 p.2 (List.of_mem_zip member).2 (pairs member)
  have list : d.list.Takes (.array ((records.zip xs).map fun p => Tree.object p.1))
      ((records.zip xs).map Prod.snd) := Decoder.takesList part
  rwa [← Function.comp_def Tree.object Prod.fst, ← List.map_map,
    List.map_fst_zip (Nat.le_of_eq length), List.map_snd_zip (Nat.le_of_eq length.symm)] at list

theorem structTaken {members : List (Option Text × Tree)} {d : StructDef}
    (read : ∀ m ∈ d.members, ∃ token, TypeName.ofText token = m.typeName)
    (object : StructObject members d) : structs.Takes (.object members) d := by
  obtain ⟨tree, single, lists⟩ := object.attributes
  have name : Given Decoder.text true [] _ _ := givenOne object.name (Decoder.takesText d.name)
  have inner : Given Document.members.list true [] _ _ :=
    givenOne single (listTaken (fun _ m member => memberTaken (read m member)) lists)
  have size := takesLocation object.size
  have alignment := takesLocation object.alignment
  intro node means
  constructor
  · refine recordFits "StructDef" structFields means
      ((fitsByFields (by decide)).mpr ⟨object.keys, ?_⟩)
    simp [structFields, givenFills name, givenFills inner, givenFills size, givenFills alignment]
  · simp only [structs]
    rw [givenRead name means, givenRead inner means, givenRead size means,
      givenRead alignment means]

theorem interfaceTaken {members : List (Option Text × Tree)} {i : Interface}
    (read : ∀ t ∈ i.types, ∃ token, TypeName.ofText token = t) (described : Describes members i) :
    analyzer.Takes (.object members) i := by
  simp only [Interface.types, List.mem_append, List.mem_map, List.mem_flatMap] at read
  obtain ⟨tree, inputSingle, inputLists⟩ := described.inputs
  obtain ⟨second, outputSingle, outputLists⟩ := described.outputs
  obtain ⟨third, structSingle, structLists⟩ := described.structs
  obtain ⟨last, uniformSingle, uniformLists⟩ := described.uniforms
  have inputs : Given attributes.list true [] _ _ := givenOne inputSingle <| listTaken
    (fun _ a member => attributeTaken (read _ (.inl (.inl (.inr ⟨a, member, rfl⟩))))) inputLists
  have outputs : Given attributes.list true [] _ _ := givenOne outputSingle <| listTaken
    (fun _ a member => attributeTaken (read _ (.inl (.inr ⟨a, member, rfl⟩)))) outputLists
  have structs' : Given structs.list true [] _ _ := givenOne structSingle <| listTaken
    (fun _ d member => structTaken fun m inside =>
      read _ (.inr ⟨d, member, m, inside, rfl⟩)) structLists
  have uniforms' : Given uniforms.list true [] _ _ := givenOne uniformSingle <| listTaken
    (fun _ u member => uniformTaken (read _ (.inl (.inl (.inl ⟨u, member, rfl⟩))))) uniformLists
  intro node means
  constructor
  · refine recordFits "AnalyzerDocument" analyzerFields means
      ((fitsByFields (by decide)).mpr ⟨described.keys, ?_⟩)
    simp [analyzerFields, givenFills inputs, givenFills outputs, givenFills structs',
      givenFills uniforms']
  · simp only [analyzer]
    rw [givenRead uniforms' means, givenRead inputs means, givenRead outputs means,
      givenRead structs' means]

theorem describedRead {front text back : Text} {members : List (Option Text × Tree)} {i : Interface}
    (before : Blank front) (said : Says text (.object members)) (behind : Blank back)
    (described : Describes members i) (read : ∀ t ∈ i.types, ∃ token, TypeName.ofText token = t) :
    readAnalyzer (front ++ (text ++ back)) = .ok i :=
  decodeReads (saysReads said) (interfaceTaken read described) before behind

theorem describedReadReordered :
    let text := "\x7b\"\\u0075niforms\":[],\"x\":[true],\"x\":null,\"structs\":[],\"outputs\":[],".toList ++
      "\"inputs\": [\x7b\"name\":\"\\u00e9\",\"location\":null,\"type_name\":\"vec3\"\x7d]\x7d".toList
    readAnalyzer text = .ok { inputs := [⟨.vec3, "é".toList, none⟩] } := by
  intro text
  have accent : Spelling "\\u00e9".toList (some "é".toList) :=
    @Spelling.unit "00e9".toList 'é' [] (some []) ⟨rfl, 2, by decide⟩ .nil
  have letter : Spelling "\\u0075niforms".toList (some "uniforms".toList) :=
    @Spelling.unit "0075".toList 'u' _ _ ⟨rfl, 2, by decide⟩ (textSpelled "niforms".toList)
  have space : Blank [' '] := List.forall_mem_singleton.mpr rfl
  let record : List (Option Text × Tree) := [(some "name".toList, .string (some "é".toList)),
    (some "location".toList, .null), (some "type_name".toList, .string (some "vec3".toList))]
  have input : Says _ (.object record) := .object blankNil <|
    .more (textSpelled "name".toList) blankNil blankNil (.string accent) blankNil blankNil <|
    .more (textSpelled "location".toList) blankNil blankNil .null blankNil blankNil <|
    .last (textSpelled "type_name".toList) blankNil blankNil (saysQuoted "vec3".toList) blankNil
  let document : List (Option Text × Tree) := [(some "uniforms".toList, .array []),
    (some "x".toList, .array [.boolean true]), (some "x".toList, .null),
    (some "structs".toList, .array []), (some "outputs".toList, .array []),
    (some "inputs".toList, .array [.object record])]
  have said : Says _ (.object document) := .object blankNil <|
    .more letter blankNil blankNil (.emptyList blankNil) blankNil blankNil <|
    .more (textSpelled "x".toList) blankNil blankNil (.list blankNil (.last .trueWord blankNil))
      blankNil blankNil <|
    .more (textSpelled "x".toList) blankNil blankNil .null blankNil blankNil <|
    .more (textSpelled "structs".toList) blankNil blankNil (.emptyList blankNil) blankNil blankNil <|
    .more (textSpelled "outputs".toList) blankNil blankNil (.emptyList blankNil) blankNil blankNil <|
    .last (textSpelled "inputs".toList) blankNil space (.list blankNil (.last input blankNil))
      blankNil
  have object : AttributeObject record ⟨.vec3, "é".toList, none⟩ :=
    ⟨by simp [Keyed, record], ⟨_, rfl, .inl rfl⟩, rfl, .null⟩
  have described : Describes document { inputs := [⟨.vec3, "é".toList, none⟩] } :=
    ⟨by simp [Keyed, document], ⟨_, rfl, [record], rfl, .cons object .nil⟩,
      ⟨_, rfl, [], rfl, .nil⟩, ⟨_, rfl, [], rfl, .nil⟩, ⟨_, rfl, [], rfl, .nil⟩⟩
  have types : ∀ t ∈ [TypeName.vec3], ∃ token, TypeName.ofText token = t :=
    List.forall_mem_singleton.mpr ⟨"vec3".toList, rfl⟩
  have read := describedRead blankNil said blankNil described types
  exact (congrArg readAnalyzer (by decide +kernel)).trans read

end Document
end ShaderReflection
