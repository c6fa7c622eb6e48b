import ShaderReflection.Document.Write
import ShaderReflection.Proofs.Document.Built
import ShaderReflection.Proofs.Json.Decoding
import ShaderReflection.Proofs.Json.Written
/-!
Metadata that is written is read back.
-/
namespace ShaderReflection.Document
open Json

theorem takesTypeName (t : TypeName) : typeName.Takes (.string (some t.toText)) t.canonical := by
  rw [← TypeName.ofToText]
  exact Decoder.takesMap (Decoder.takesText t.toText) TypeName.ofText

theorem takesWordValue (n : UInt32) : Decoder.unsigned32.nullable.Takes (ofWord n).tree (some n) :=
  Decoder.takesSome (Decoder.takesUnsigned n) (by simp [ofWord, Value.tree])

theorem memberTreesAppend (front back : List (Text × Value)) :
    memberTrees (front ++ back) = memberTrees front ++ memberTrees back := by
  induction front with
  | nil => rfl
  | cons m rest ih => simp [memberTrees, ih]

section Optional
variable {β : Type} {f : β → Value} {d : Decoder (Option β)} {name : String}

theorem givesOptional {all fields : List Field} {rest : List (Option Text × Tree)}
    (taken : ∀ b, d.Takes (f b).tree (some b)) (more : Gives all fields rest) (value : Option β) :
    Gives all (⟨name, false, d.fault?⟩ :: fields) (memberTrees (optional name f value) ++ rest) := by
  cases value with
  | none => exact .absent rfl more
  | some b => exact .given (taken b).accepts more

theorem optionalFound (value : Option β) :
    memberOf? name (memberTrees (optional name f value)) = value.map fun b => (f b).tree := by
  cases value <;> simp [optional, memberTrees, memberOf?]

theorem optionalOther {other : String} (differ : name ≠ other) (value : Option β) :
    memberOf? other (memberTrees (optional name f value)) = none := by
  have names : name.toList ≠ other.toList := fun h => differ (String.toList_inj.mp h)
  cases value <;> simp [optional, memberTrees, memberOf?, names]

theorem readOptional (value : Option β) {node : Node} {trees : List (Option Text × Tree)}
    (means : node.tree? = some (.object trees))
    (found : memberOf? name trees = value.map fun b => (f b).tree)
    (taken : ∀ b, d.Takes (f b).tree (some b)) (index : Nat) :
    node.read index name d none = value := by
  cases value with
  | none => exact readAbsent means found d index none
  | some b => exact readPresent means found (taken b) index none

end Optional

theorem takesAttribute (a : Attribute) :
    attributes.Takes (ofAttribute a).tree a.canonical := by
  obtain ⟨type, name, location⟩ := a
  intro node means
  simp only [ofAttribute, Value.tree, memberTrees, List.cons_append, List.nil_append] at means
  constructor
  · exact recordFits "Attribute" attributeFields means <| givesFits (by decide) <|
      .given (takesTypeName type).accepts <| .given (Decoder.takesText name).accepts <|
      by simpa using givesOptional takesWordValue .nil location
  · simp only [attributes]
    rw [readPresent means (by simp [memberOf?]) (takesTypeName type),
      readPresent means (by simp [memberOf?]) (Decoder.takesText name),
      readOptional location means (by simp [memberOf?, optionalFound]) takesWordValue]
    rfl

theorem takesBinding (n : Int32) :
    Decoder.signed32.nullable.Takes (Value.integer n.toInt).tree (some n) :=
  Decoder.takesSome (Decoder.takesSigned n) (by simp [Value.tree])

theorem takesUniform (u : Uniform) :
    uniforms.Takes (ofUniform u).tree u.canonical := by
  obtain ⟨type, name, count, binding, pushConstant⟩ := u
  intro node means
  simp only [ofUniform, Value.tree, memberTreesAppend, memberTrees, List.cons_append,
    List.nil_append] at means
  constructor
  · refine recordFits "Uniform" uniformFields means <| givesFits (by decide) <|
      .given (takesTypeName type).accepts <| .given (Decoder.takesText name).accepts <|
      .given (Decoder.takesUnsigned count).accepts <| givesOptional takesBinding ?_ binding
    cases pushConstant with
    | false => exact .absent rfl .nil
    | true => exact .given (Decoder.takesBoolean true).accepts .nil
  · have flag : node.read 4 "push_constant" Decoder.boolean false = pushConstant := by
      cases pushConstant with
      | false =>
        exact readAbsent means (by simp [memberOf?, optionalOther, memberTrees]) _ _ _
      | true =>
        exact readPresent means
          (by simp [memberOf?, memberOfAppend, optionalOther, memberTrees, Value.tree])
          (Decoder.takesBoolean true) _ _
    simp only [uniforms]
    rw [readPresent means (by simp [memberOf?]) (takesTypeName type),
      readPresent means (by simp [memberOf?]) (Decoder.takesText name),
      readPresent means (by simp [memberOf?, ofWord, Value.tree]) (Decoder.takesUnsigned count),
      readOptional binding means
        (by cases pushConstant <;> simp [memberOf?, memberOfAppend, optionalFound, memberTrees])
        takesBinding, flag]
    rfl

theorem takesMember (m : StructMember) :
    members.Takes (ofMember m).tree m.canonical := by
  obtain ⟨type, name⟩ := m
  intro node means
  simp only [ofMember, Value.tree, memberTrees] at means
  constructor
  · exact recordFits "StructMember" memberFields means <| givesFits (by decide) <|
      .given (takesTypeName type).accepts <| .given (Decoder.takesText name).accepts .nil
  · simp only [members]
    rw [readPresent means (by simp [memberOf?]) (takesTypeName type),
      readPresent means (by simp [memberOf?]) (Decoder.takesText name)]
    rfl

theorem itemTreesMap {γ : Type} (f : γ → Value) (xs : List γ) :
    itemTrees (xs.map f) = xs.map fun x => (f x).tree := by
  induction xs with
  | nil => rfl
  | cons x rest ih => simp [itemTrees, ih]

theorem takesMapped {γ : Type} {d : Decoder γ} {f : γ → Value} {g : γ → γ}
    (taken : ∀ x, d.Takes (f x).tree (g x)) (xs : List γ) :
    d.list.Takes (Value.array (xs.map f)).tree (xs.map g) := by
  rw [Value.tree, itemTreesMap]
  exact Decoder.takesList fun x _ => taken x

theorem takesStruct (d : StructDef) : structs.Takes (ofStruct d).tree d.canonical := by
  obtain ⟨name, inner, size, alignment⟩ := d
  intro node means
  simp only [ofStruct, Value.tree, memberTreesAppend, memberTrees, List.cons_append,
    List.nil_append] at means
  have list := takesMapped takesMember inner
  rw [Value.tree] at list
  constructor
  · exact recordFits "StructDef" structFields means <| givesFits (by decide) <|
      .given (Decoder.takesText name).accepts <| .given list.accepts <|
      givesOptional takesWordValue
        (by simpa using givesOptional takesWordValue .nil alignment) size
  · simp only [structs]
    rw [readPresent means (by simp [memberOf?]) (Decoder.takesText name),
      readPresent means (by simp [memberOf?]) list,
      readOptional size means
        (by simp [memberOf?, memberOfAppend, optionalFound, optionalOther]) takesWordValue,
      readOptional alignment means
        (by simp [memberOf?, memberOfAppend, optionalFound, optionalOther]) takesWordValue]
    rfl

theorem takesDiagnostics (m : Metadata) : diagnostics.Takes (ofMetadata m).tree m.diagnostics := by
  obtain ⟨⟨stdout, stderr, exitCode⟩, i⟩ := m
  intro node means
  simp only [ofMetadata, Value.tree, memberTrees, List.cons_append, List.nil_append] at means
  constructor
  · refine recordFits "Diagnostics" diagnosticsFields means <| givesFits (by decide) <|
      .given (Decoder.takesText stdout).accepts <| .given (Decoder.takesText stderr).accepts <|
      .given (Decoder.takesSigned exitCode).accepts ?_
    -- The lists of an interface stand in the same object and are no fields of diagnostics.
    cases i with
    | none => exact .nil
    | some i => exact .other rfl <| .other rfl <| .other rfl <| .other rfl .nil
  · simp only [diagnostics]
    rw [readPresent means (by simp [memberOf?]) (Decoder.takesText stdout),
      readPresent means (by simp [memberOf?]) (Decoder.takesText stderr),
      readPresent means (by simp [memberOf?]) (Decoder.takesSigned exitCode)]

theorem takesInterface (d : Diagnostics) (i : Interface) :
    interface.Takes (ofMetadata ⟨d, some i⟩).tree i.canonical := by
  obtain ⟨uniformList, inputs, outputs, structList⟩ := i
  intro node means
  simp only [ofMetadata, Option.map_some, Option.getD_some, interfaceMembers, Value.tree,
    memberTrees, List.cons_append, List.nil_append] at means
  have first := takesMapped takesUniform uniformList
  have second := takesMapped takesAttribute inputs
  have third := takesMapped takesAttribute outputs
  have fourth := takesMapped takesStruct structList
  rw [Value.tree] at first second third fourth
  constructor
  · exact recordFits "ShaderInterface" interfaceFields means <| givesFits (by decide) <|
      .other rfl <| .other rfl <| .other rfl <|
      .given first.accepts <| .given second.accepts <| .given third.accepts <|
      .given fourth.accepts .nil
  · simp only [interface]
    rw [readPresent means (by simp [memberOf?]) first,
      readPresent means (by simp [memberOf?]) second,
      readPresent means (by simp [memberOf?]) third,
      readPresent means (by simp [memberOf?]) fourth]
    rfl

theorem refusesInterface (d : Diagnostics) : interface.Refuses (ofMetadata ⟨d, none⟩).tree := by
  intro node means accepted
  have incomplete : (interface.fault? node).isNone = false :=
    recordIncomplete "ShaderInterface" List.mem_cons_self rfl means (by simp [memberTrees])
  rw [accepted] at incomplete
  cases incomplete

theorem membersFitAppend (depth : Nat) (front back : List (Option Text × Tree)) :
    membersFit depth (front ++ back) = (membersFit depth front && membersFit depth back) := by
  induction front with
  | nil => rfl
  | cons m rest ih => simp [membersFit, ih, Bool.and_assoc]

theorem optionalFits {β : Type} {f : β → Value} {depth : Nat}
    (fits : ∀ b, (f b).tree.fits depth = true) (name : String) (value : Option β) :
    membersFit depth (memberTrees (optional name f value)) = true := by
  cases value with
  | none => rfl
  | some b => simp [optional, memberTrees, membersFit, fits]

theorem itemsFitMap {γ : Type} {f : γ → Value} {depth : Nat}
    (fits : ∀ x, (f x).tree.fits depth = true) (xs : List γ) :
    itemsFit depth (itemTrees (xs.map f)) = true := by
  induction xs with
  | nil => rfl
  | cons x rest ih => simp [itemTrees, itemsFit, fits, ih]

theorem wordFits (depth : Nat) (n : UInt32) : (ofWord n).tree.fits depth = true := rfl

theorem attributeFits (depth : Nat) (a : Attribute) :
    (ofAttribute a).tree.fits (depth + 2) = true := by
  have location := optionalFits (wordFits (depth + 1)) "location" a.location
  simp [ofAttribute, Value.tree, memberTrees, Tree.fits, membersFit, location]

theorem uniformFits (depth : Nat) (u : Uniform) : (ofUniform u).tree.fits (depth + 2) = true := by
  have number (b : Int32) : (Value.integer b.toInt).tree.fits (depth + 1) = true := rfl
  have binding := optionalFits number "binding" u.binding
  have count := wordFits (depth + 1) u.count
  cases flag : u.pushConstant <;>
    simp [ofUniform, Value.tree, memberTrees, memberTreesAppend, Tree.fits, membersFit,
      membersFitAppend, binding, count, flag]

theorem memberFits (depth : Nat) (m : StructMember) :
    (ofMember m).tree.fits (depth + 2) = true := by
  simp [ofMember, Value.tree, memberTrees, Tree.fits, membersFit]

theorem structFits (depth : Nat) (d : StructDef) : (ofStruct d).tree.fits (depth + 4) = true := by
  have inner := itemsFitMap (memberFits depth) d.members
  have size := optionalFits (wordFits (depth + 3)) "size" d.size
  have alignment := optionalFits (wordFits (depth + 3)) "alignment" d.alignment
  simp [ofStruct, Value.tree, memberTrees, memberTreesAppend, Tree.fits, membersFit,
    membersFitAppend, inner, size, alignment]

theorem metadataFits (m : Metadata) : (ofMetadata m).tree.fits maxDepth = true := by
  obtain ⟨d, i⟩ := m
  cases i with
  | none => simp [ofMetadata, Value.tree, memberTrees, Tree.fits, membersFit, maxDepth]
  | some i =>
    have first := itemsFitMap (uniformFits 124) i.uniforms
    have second := itemsFitMap (attributeFits 124) i.inputs
    have third := itemsFitMap (attributeFits 124) i.outputs
    have fourth := itemsFitMap (structFits 122) i.structs
    simp [ofMetadata, interfaceMembers, Value.tree, memberTrees, Tree.fits, membersFit, maxDepth,
      first, second, third, fourth]

theorem membersInRangeAppend (front back : List (Text × Value)) :
    membersInRange (front ++ back) ↔ membersInRange front ∧ membersInRange back := by
  induction front with
  | nil => simp [membersInRange]
  | cons m rest ih => simp [membersInRange, ih, and_assoc]

theorem optionalInRange {β : Type} {f : β → Value} (range : ∀ b, (f b).InRange) (name : String)
    (value : Option β) : membersInRange (optional name f value) := by
  cases value with
  | none => trivial
  | some b => exact ⟨range b, trivial⟩

theorem itemsInRangeMap {γ : Type} {f : γ → Value} (range : ∀ x, (f x).InRange) (xs : List γ) :
    itemsInRange (xs.map f) := by
  induction xs with
  | nil => trivial
  | cons x rest ih => exact ⟨range x, ih⟩

theorem wordInRange (n : UInt32) : (ofWord n).InRange := by
  have high := n.toNat_lt
  simp only [ofWord, Value.InRange, Word64, longLimit]
  omega

theorem signedInRange (n : Int32) : (Value.integer n.toInt).InRange := by
  have low := n.le_toInt
  have high := n.toInt_lt
  simp only [Value.InRange, Word64, longLimit]
  omega

theorem attributeInRange (a : Attribute) : (ofAttribute a).InRange := by
  have location := optionalInRange wordInRange "location" a.location
  simp [ofAttribute, Value.InRange, membersInRange, location]

theorem uniformInRange (u : Uniform) : (ofUniform u).InRange := by
  have binding := optionalInRange signedInRange "binding" u.binding
  have count := wordInRange u.count
  cases flag : u.pushConstant <;>
    simp [ofUniform, Value.InRange, membersInRange, membersInRangeAppend, binding, count, flag]

theorem memberInRange (m : StructMember) : (ofMember m).InRange := by
  simp [ofMember, Value.InRange, membersInRange]

theorem structInRange (d : StructDef) : (ofStruct d).InRange := by
  have inner := itemsInRangeMap memberInRange d.members
  have size := optionalInRange wordInRange "size" d.size
  have alignment := optionalInRange wordInRange "alignment" d.alignment
  simp [ofStruct, Value.InRange, membersInRange, membersInRangeAppend, inner, size, alignment]

theorem metadataInRange (m : Metadata) : (ofMetadata m).InRange := by
  obtain ⟨d, i⟩ := m
  have code := signedInRange d.exitCode
  rw [Value.InRange] at code
  cases i with
  | none => simp [ofMetadata, Value.InRange, membersInRange, code]
  | some i =>
    have first := itemsInRangeMap uniformInRange i.uniforms
    have second := itemsInRangeMap attributeInRange i.inputs
    have third := itemsInRangeMap attributeInRange i.outputs
    have fourth := itemsInRangeMap structInRange i.structs
    simp [ofMetadata, interfaceMembers, Value.InRange, membersInRange, code, first, second, third,
      fourth]

section Whole
variable {members : List (Option Text × Tree)}

theorem metadataAccepts {node : Node} (means : node.tree? = some (.object members))
    (fits : (Tree.object members).fits maxDepth = true) :
    metadata.fault? node = diagnostics.fault? node := by
  -- Both parts of a document are taken from one object, which is therefore buffered first.
  have whole := (bufferWhole maxDepth node _ means).mpr fits
  obtain ⟨inside, stop, start, rfl, -⟩ := nodeForm means
  simp only [metadata, whole, Option.none_or]

def Listed (tree : Tree) : Option Interface → Prop
  | some x => interface.Takes tree x
  | none => interface.Refuses tree

theorem metadataTakes (fits : (Tree.object members).fits maxDepth = true) {d : Diagnostics}
    (diagnosed : diagnostics.Takes (.object members) d) {x : Option Interface}
    (listed : Listed (.object members) x) : metadata.Takes (.object members) ⟨d, x⟩ := by
  intro node means
  obtain ⟨accepted, rfl⟩ := diagnosed node means
  refine ⟨(metadataAccepts means fits).trans accepted, ?_⟩
  simp only [metadata]
  cases x with
  | some x =>
    obtain ⟨taken, rfl⟩ := listed node means
    simp [taken]
  | none =>
    have refused := listed node means
    simp [refused]

end Whole

theorem takesMetadata (m : Metadata) : metadata.Takes (ofMetadata m).tree m.canonical := by
  refine metadataTakes (metadataFits m) (takesDiagnostics m) ?_
  obtain ⟨d, i⟩ := m
  cases i with
  | none => exact refusesInterface d
  | some i => exact takesInterface d i

theorem readRendered {l : Layout} (blank : l.Blank) (m : Metadata) :
    readMetadata ((ofMetadata m).render l) = .ok m.canonical := by
  have reads := readsWritten blank 0 (ofMetadata m) (metadataInRange m)
  have decoded := decodeReads reads (takesMetadata m) blankNil blankNil
  rwa [List.nil_append, List.append_nil] at decoded

theorem readWrittenMetadata (m : Metadata) :
    readMetadata (compact m) = .ok m.canonical ∧ readMetadata (pretty m) = .ok m.canonical ∧
      (m.Unreserved → readMetadata (compact m) = .ok m ∧ readMetadata (pretty m) = .ok m) ∧
      (m.Built → m.Unreserved) := by
  have dense : readMetadata (compact m) = .ok m.canonical := readRendered compactBlank m
  have wide : readMetadata (pretty m) = .ok m.canonical := readRendered prettyBlank m
  refine ⟨dense, wide, fun own => ?_, builtUnreserved⟩
  rw [Metadata.canonicalSelf own] at dense wide
  exact ⟨dense, wide⟩

theorem readWrittenLight :
    let m : Metadata := ⟨⟨"\"é\"\n".toList, [], -1⟩,
      some { inputs := [⟨.custom "Light".toList, "sun".toList, some 3⟩, ⟨.vec3, "normal".toList, none⟩] }⟩
    m.Unreserved ∧ readMetadata (compact m) = .ok m ∧ readMetadata (pretty m) = .ok m ∧
      m.Built := by
  intro m
  have own : m.Unreserved := by
    rintro i ⟨⟩
    refine ⟨List.forall_mem_nil _, ?_, List.forall_mem_nil _, List.forall_mem_nil _⟩
    rw [List.forall_mem_cons, List.forall_mem_singleton]
    refine ⟨?_, TypeName.basicUnreserved rfl⟩
    rintro name ⟨⟩
    decide
  obtain ⟨-, -, same, built⟩ := readWrittenMetadata m
  have read : m.Built := .read (same own).1
  exact ⟨built read, (same own).1, (same own).2, read⟩

end ShaderReflection.Document
