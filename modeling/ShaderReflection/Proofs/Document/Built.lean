import ShaderReflection.Document.Read
import ShaderReflection.Dump.Reflection
import ShaderReflection.Glsl.Declaration
import ShaderReflection.Proofs.Document.Canonical
/-!
The metadata that the scan of a source, the dump of a linker, the document of an analyzer and a
metadata document give. Every type in it was read from its name, so no type of the shader's own has
a reserved name.
-/
namespace ShaderReflection

theorem foundMember {structs : List StructDef} {t : TypeName} {d : StructDef}
    (found : StructDef.find? structs t = some d) : d ∈ structs := by
  cases t with
  | custom name => simpa using List.mem_of_find?_eq_some found
  | _ => cases found

theorem leavesUnreserved {structs : List StructDef} (own : ∀ d ∈ structs, d.Unreserved)
    (depth : Nat) (path : Text) (members : List StructMember)
    (types : ∀ m ∈ members, m.typeName.Unreserved) :
    ∀ u ∈ StructDef.leaves structs depth path members, u.typeName.Unreserved := by
  induction depth generalizing path members with
  | zero =>
    intro u member
    obtain ⟨m, inside, rfl⟩ := List.mem_map.mp member
    exact types m inside
  | succ depth ih =>
    intro u member
    obtain ⟨m, inside, leaf⟩ := List.mem_flatMap.mp member
    split at leaf
    · rename_i nested found
      exact ih _ nested.members (own nested (foundMember found)) u leaf
    · obtain rfl := List.mem_singleton.mp leaf
      exact types m inside

theorem flattenUnreserved {uniforms : List Uniform} {structs : List StructDef}
    (own : ∀ d ∈ structs, d.Unreserved) (types : ∀ u ∈ uniforms, u.typeName.Unreserved) :
    ∀ u ∈ flatten uniforms structs, u.typeName.Unreserved := by
  intro u member
  rcases List.mem_append.mp member with plain | opened
  · exact types u (List.mem_filter.mp plain).1
  · obtain ⟨v, -, leaf⟩ := List.mem_flatMap.mp opened
    unfold Uniform.leaves at leaf
    split at leaf
    · rename_i d found
      exact leavesUnreserved own maxNesting v.name d.members (own d (foundMember found)) u leaf
    · cases leaf

namespace Glsl

theorem membersUnreserved (body : Text) :
    ∀ m ∈ structMembers body, m.typeName.Unreserved := by
  intro m member
  obtain ⟨clause, -, found⟩ := List.mem_filterMap.mp member
  split at found
  · cases found
    exact TypeName.ofTextUnreserved _
  · cases found

theorem structUnreserved {span : Text} {d : StructDef} (found : structOfSpan? span = some d) :
    d.Unreserved := by
  simp only [structOfSpan?, Option.bind_eq_some_iff] at found
  obtain ⟨p, -, found⟩ := found
  split at found
  · cases found
  · cases found
    exact membersUnreserved p.2

theorem uniformUnreserved {d : Declared} {u : Uniform} (found : d.uniform? = some u) :
    u.typeName.Unreserved := by
  cases d with
  | named type name =>
    cases found
    exact TypeName.ofTextUnreserved type
  | _ => cases found

theorem attributeUnreserved {d : Declared} {a : Attribute} (found : d.attribute? = some a) :
    a.typeName.Unreserved := by
  cases d with
  | named type name =>
    cases found
    exact TypeName.ofTextUnreserved type
  | _ => cases found

theorem findingsUnreserved (found : List Finding) : (interfaceOf found).Unreserved where
  uniforms := fun u member => by
    obtain ⟨f, -, declared⟩ := List.mem_filterMap.mp member
    exact uniformUnreserved declared
  inputs := fun a member => by
    obtain ⟨f, -, declared⟩ := List.mem_filterMap.mp member
    exact attributeUnreserved declared
  outputs := fun a member => by
    obtain ⟨f, -, declared⟩ := List.mem_filterMap.mp member
    exact attributeUnreserved declared
  structs := fun d member => by
    obtain ⟨f, -, declared⟩ := List.mem_filterMap.mp member
    obtain ⟨span, -, definition⟩ := Option.bind_eq_some_iff.mp declared
    exact structUnreserved definition

theorem scanUnreserved {source : Text} {stage : Stage} {i : Interface}
    (scanned : scan source stage = .ok i) : i.Unreserved := by
  unfold scan declarations at scanned
  split at scanned
  · cases scanned
  · cases scanned
    have own := findingsUnreserved (sourceFindings source stage)
    exact { own with uniforms := flattenUnreserved own.structs own.uniforms }

theorem clauseUnreserved {clause : Text} {d : InterfaceDeclaration}
    (found : declarationOf? clause = some d) : d.entry.typeName.Unreserved := by
  simp only [declarationOf?, Option.bind_eq_some_iff] at found
  obtain ⟨⟨qualifier, type, name⟩, -, found⟩ := found
  split at found
  · cases found
    exact TypeName.ofTextUnreserved type
  · cases found

end Glsl

theorem missingUnreserved {as : List Attribute} {entry : Attribute}
    (types : ∀ a ∈ as, a.typeName.Unreserved) (own : entry.typeName.Unreserved) :
    ∀ a ∈ addMissing as entry, a.typeName.Unreserved := by
  unfold addMissing
  split
  · exact types
  · intro a member
    rcases List.mem_append.mp member with old | new
    · exact types a old
    · obtain rfl := List.mem_singleton.mp new
      exact own

theorem fillTypes (entry : Attribute) (as : List Attribute) :
    (fillLocation entry as).map (·.typeName) = as.map (·.typeName) := by
  induction as with
  | nil => rfl
  | cons a rest ih =>
    unfold fillLocation
    split
    · rfl
    · rw [List.map_cons, ih, List.map_cons]

theorem vertexUnreserved {as : List Attribute} {entry : Attribute}
    (types : ∀ a ∈ as, a.typeName.Unreserved) (own : entry.typeName.Unreserved) :
    ∀ a ∈ mergeVertexInput as entry, a.typeName.Unreserved := by
  by_cases known : as.any (·.name == entry.name) = true
  · intro a member
    rw [mergeVertexInput, if_pos known] at member
    -- Only a location is filled in, so the type is one that stood there before.
    have kept : a.typeName ∈ as.map (·.typeName) := by
      rw [← fillTypes entry as]
      exact List.mem_map_of_mem member
    obtain ⟨b, inside, same⟩ := List.mem_map.mp kept
    rw [← same]
    exact types b inside
  · have added := missingUnreserved types own
    rw [addMissing, if_neg known] at added
    rwa [mergeVertexInput, if_neg known]

namespace Interface

theorem mergeUnreserved {i : Interface} {d : Glsl.InterfaceDeclaration} (stage : Stage)
    (own : i.Unreserved) (declared : d.entry.typeName.Unreserved) :
    (merge stage i d).Unreserved := by
  unfold merge
  cases d.qualifier with
  | input =>
    dsimp only
    split
    · exact { own with inputs := vertexUnreserved own.inputs declared }
    · exact { own with inputs := missingUnreserved own.inputs declared }
  | output =>
    dsimp only
    split
    · exact own
    · exact { own with outputs := missingUnreserved own.outputs declared }

theorem mergesUnreserved (stage : Stage) {ds : List Glsl.InterfaceDeclaration}
    (declared : ∀ d ∈ ds, d.entry.typeName.Unreserved) {i : Interface} (own : i.Unreserved) :
    (ds.foldl (merge stage) i).Unreserved := by
  induction ds generalizing i with
  | nil => exact own
  | cons d rest ih =>
    rw [List.forall_mem_cons] at declared
    exact ih declared.2 (mergeUnreserved stage own declared.1)

theorem backfillUnreserved {i : Interface} (source : Text) (stage : Stage) (own : i.Unreserved) :
    (i.backfill source stage).Unreserved := by
  unfold backfill
  split
  · refine mergesUnreserved stage (fun d member => ?_) own
    obtain ⟨clause, -, found⟩ := List.mem_filterMap.mp member
    exact Glsl.clauseUnreserved found
  · exact own

end Interface

namespace Dump

theorem codeUnreserved (code : Text) : (typeOfCode code).Unreserved := by
  have known : ∀ t ∈ typeTable.map (·.2), t.isCustom = false := by decide
  unfold typeOfCode
  cases found : (codeValue? code).bind fun value => typeTable.lookup value with
  | none => exact TypeName.basicUnreserved rfl
  | some t =>
    obtain ⟨value, -, listed⟩ := Option.bind_eq_some_iff.mp found
    obtain ⟨front, back, table, -⟩ := List.lookup_eq_some_iff.mp listed
    exact TypeName.basicUnreserved (known t (by simp [table]))

theorem fieldsUnreserved (fields : List Field) {entry : Entry}
    (own : entry.typeName.Unreserved) : (fields.foldl Entry.set entry).typeName.Unreserved := by
  induction fields generalizing entry with
  | nil => exact own
  | cons field rest ih =>
    cases field with
    | type code => exact ih (codeUnreserved code)
    | size value => exact ih own
    | other => exact ih own

theorem entryUnreserved {line : Text} {entry : Entry} (found : Entry.ofLine? line = some entry) :
    entry.typeName.Unreserved := by
  simp only [Entry.ofLine?, Option.map_eq_some_iff] at found
  obtain ⟨p, -, rfl⟩ := found
  exact fieldsUnreserved p.2 (TypeName.basicUnreserved rfl)

namespace Reader

theorem recordUnreserved {reader : Reader} {entry : Entry} (section' : Section)
    (own : reader.interface.Unreserved) (type : entry.typeName.Unreserved) :
    (reader.record entry section').interface.Unreserved := by
  have appended {α : Type} {xs : List α} {x : α} {f : α → TypeName}
      (types : ∀ y ∈ xs, (f y).Unreserved) (last : (f x).Unreserved) :
      ∀ y ∈ xs ++ [x], (f y).Unreserved := by
    simp only [List.forall_mem_append, List.forall_mem_singleton]
    exact ⟨types, last⟩
  cases section' with
  | uniform => exact { own with uniforms := appended own.uniforms type }
  | pipelineInput => exact { own with inputs := appended own.inputs type }
  | pipelineOutput => exact { own with outputs := appended own.outputs type }
  | _ => exact own

theorem feedUnreserved {reader : Reader} (line : Text) (own : reader.interface.Unreserved) :
    (reader.feed line).interface.Unreserved := by
  unfold feed
  split
  · exact { own with }
  · split
    · rename_i section' entry _ found
      exact recordUnreserved section' own (entryUnreserved found)
    · exact own

theorem linesUnreserved (lines : List Text) {reader : Reader} (own : reader.interface.Unreserved) :
    (lines.foldl feed reader).interface.Unreserved := by
  induction lines generalizing reader with
  | nil => exact own
  | cons line rest ih => exact ih (feedUnreserved line own)

end Reader

theorem dumpUnreserved (dump : Text) : (interfaceOf dump).Unreserved :=
  Reader.linesUnreserved (Text.lines dump) ⟨by simp [Reader.interface], by simp [Reader.interface],
    by simp [Reader.interface], by simp [Reader.interface]⟩

theorem reflectionUnreserved {dump source : Text} {stage : Stage} {i : Interface}
    (reflected : reflection dump source stage = .ok i) : i.Unreserved := by
  unfold reflection at reflected
  split at reflected
  · cases reflected
  · cases reflected
    have restricted : (restrict stage (interfaceOf dump)).Unreserved := by
      unfold restrict
      split
      · exact dumpUnreserved dump
      · exact { dumpUnreserved dump with inputs := nofun, outputs := nofun }
    have structs : ∀ d ∈ Glsl.scanStructs source, d.Unreserved := by
      intro d member
      obtain ⟨span, -, definition⟩ := List.mem_filterMap.mp member
      exact Glsl.structUnreserved definition
    exact { Interface.backfillUnreserved source stage restricted with structs := structs }

end Dump

namespace Document
open Json (Node Decoder)

theorem readHolds {α : Type} {d : Decoder α} {P : α → Prop} {default : α}
    (every : ∀ node, P (d.read node)) (usual : P default) (node : Node) (index : Nat)
    (name : String) : P (node.read index name d default) := by
  unfold Node.read
  split
  · exact every _
  · exact usual

theorem readEach {α : Type} {d : Decoder α} {P : α → Prop} (every : ∀ node, P (d.read node))
    (node : Node) (index : Nat) (name : String) :
    ∀ x ∈ node.read index name d.list [], P x := by
  have items (n : Node) : ∀ x ∈ d.list.read n, P x := by
    intro x member
    cases n with
    | array items _ _ =>
      obtain ⟨item, -, rfl⟩ := List.mem_map.mp member
      exact every item
    | _ => cases member
  exact readHolds (P := fun xs => ∀ x ∈ xs, P x) items (List.forall_mem_nil P) node index name

theorem readType (node : Node) (index : Nat) (name : String) :
    (node.read index name typeName .undefined).Unreserved :=
  readHolds (fun n => TypeName.ofTextUnreserved (Decoder.text.read n))
    (TypeName.basicUnreserved rfl) node index name

theorem readAttribute (node : Node) : (attributes.read node).typeName.Unreserved :=
  readType node 0 "type_name"

theorem readUniform (node : Node) : (uniforms.read node).typeName.Unreserved :=
  readType node 0 "type_name"

theorem readStruct (node : Node) : (structs.read node).Unreserved :=
  readEach (fun n => readType n 0 "type_name") node 1 "attributes"

theorem analyzerUnreserved (node : Node) : (analyzer.read node).Unreserved where
  uniforms := readEach readUniform node 3 "uniforms"
  inputs := readEach readAttribute node 0 "inputs"
  outputs := readEach readAttribute node 1 "outputs"
  structs := readEach readStruct node 2 "structs"

theorem interfaceUnreserved (node : Node) : (interface.read node).Unreserved where
  uniforms := readEach readUniform node 0 "uniforms"
  inputs := readEach readAttribute node 1 "in_attributes"
  outputs := readEach readAttribute node 2 "out_attributes"
  structs := readEach readStruct node 3 "structs"

theorem metadataUnreserved (node : Node) : (metadata.read node).Unreserved := by
  intro i same
  simp only [metadata] at same
  split at same
  · cases same
    exact interfaceUnreserved node
  · cases same

theorem decodedSource {α : Type} {d : Decoder α} {text : Text} {a : α}
    (decoded : Json.decode d text = .ok a) : ∃ node, d.read node = a := by
  unfold Json.decode at decoded
  split at decoded
  rename_i node after _
  split at decoded
  · cases decoded
  · dsimp only at decoded
    split at decoded
    · cases decoded
      exact ⟨node, rfl⟩
    · cases decoded

end Document

inductive Metadata.Built : Metadata → Prop where
  | rejected (d : Diagnostics) : Built ⟨d, none⟩
  | scanned {source stage i} (d : Diagnostics) (scanned : Glsl.scan source stage = .ok i) :
      Built ⟨d, some i⟩
  | reflected {dump source stage i} (d : Diagnostics)
      (reflected : Dump.reflection dump source stage = .ok i) : Built ⟨d, some i⟩
  | analyzed {text i} (d : Diagnostics) (analyzed : Document.readAnalyzer text = .ok i) :
      Built ⟨d, some i⟩
  | read {text m} (read : Document.readMetadata text = .ok m) : Built m

theorem builtUnreserved {m : Metadata} (built : m.Built) : m.Unreserved := by
  cases built with
  | rejected d => exact nofun
  | scanned d scanned =>
    rintro i ⟨⟩
    exact Glsl.scanUnreserved scanned
  | reflected d reflected =>
    rintro i ⟨⟩
    exact Dump.reflectionUnreserved reflected
  | analyzed d analyzed =>
    rintro i ⟨⟩
    obtain ⟨node, rfl⟩ := Document.decodedSource analyzed
    exact Document.analyzerUnreserved node
  | read read =>
    obtain ⟨node, rfl⟩ := Document.decodedSource read
    exact Document.metadataUnreserved node

end ShaderReflection
