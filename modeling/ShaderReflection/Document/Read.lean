import ShaderReflection.Json.Decoder
import ShaderReflection.Metadata
/-!
Reading interfaces and metadata from JSON. The document of an analyzer has to have all four lists.
In a metadata document the diagnostics decide whether it can be read at all, while an interface
that is not as it should be counts as none.
-/
namespace ShaderReflection.Document
open Json (Node Decoder Field Fault decode recordFault?)

def typeName : Decoder TypeName := Decoder.text.map TypeName.ofText

def attributeFields : List Field := [
  ⟨"type_name", true, typeName.fault?⟩,
  ⟨"name", true, Decoder.text.fault?⟩,
  ⟨"location", false, Decoder.unsigned32.nullable.fault?⟩]

def attributes : Decoder Attribute where
  fault? := recordFault? "Attribute" attributeFields
  read := fun node =>
    ⟨node.read 0 "type_name" typeName .undefined, node.read 1 "name" Decoder.text [],
      node.read 2 "location" Decoder.unsigned32.nullable none⟩

def uniformFields : List Field := [
  ⟨"type_name", true, typeName.fault?⟩,
  ⟨"name", true, Decoder.text.fault?⟩,
  ⟨"count", false, Decoder.unsigned32.fault?⟩,
  ⟨"binding", false, Decoder.signed32.nullable.fault?⟩,
  ⟨"push_constant", false, Decoder.boolean.fault?⟩]

def uniforms : Decoder Uniform where
  fault? := recordFault? "Uniform" uniformFields
  read := fun node =>
    ⟨node.read 0 "type_name" typeName .undefined, node.read 1 "name" Decoder.text [],
      node.read 2 "count" Decoder.unsigned32 1,
      node.read 3 "binding" Decoder.signed32.nullable none,
      node.read 4 "push_constant" Decoder.boolean false⟩

def memberFields : List Field := [
  ⟨"type_name", true, typeName.fault?⟩,
  ⟨"name", true, Decoder.text.fault?⟩]

def members : Decoder StructMember where
  fault? := recordFault? "StructMember" memberFields
  read := fun node =>
    ⟨node.read 0 "type_name" typeName .undefined, node.read 1 "name" Decoder.text []⟩

def structFields : List Field := [
  ⟨"name", true, Decoder.text.fault?⟩,
  ⟨"attributes", true, members.list.fault?⟩,
  ⟨"size", false, Decoder.unsigned32.nullable.fault?⟩,
  ⟨"alignment", false, Decoder.unsigned32.nullable.fault?⟩]

def structs : Decoder StructDef where
  fault? := recordFault? "StructDef" structFields
  read := fun node =>
    ⟨node.read 0 "name" Decoder.text [], node.read 1 "attributes" members.list [],
      node.read 2 "size" Decoder.unsigned32.nullable none,
      node.read 3 "alignment" Decoder.unsigned32.nullable none⟩

def analyzerFields : List Field := [
  ⟨"inputs", true, attributes.list.fault?⟩,
  ⟨"outputs", true, attributes.list.fault?⟩,
  ⟨"structs", true, structs.list.fault?⟩,
  ⟨"uniforms", true, uniforms.list.fault?⟩]

def analyzer : Decoder Interface where
  fault? := recordFault? "AnalyzerDocument" analyzerFields
  read := fun node =>
    ⟨node.read 3 "uniforms" uniforms.list [], node.read 0 "inputs" attributes.list [],
      node.read 1 "outputs" attributes.list [], node.read 2 "structs" structs.list []⟩

def diagnosticsFields : List Field := [
  ⟨"stdout", true, Decoder.text.fault?⟩,
  ⟨"stderr", true, Decoder.text.fault?⟩,
  ⟨"returncode", true, Decoder.signed32.fault?⟩]

def interfaceFields : List Field := [
  ⟨"uniforms", true, uniforms.list.fault?⟩,
  ⟨"in_attributes", true, attributes.list.fault?⟩,
  ⟨"out_attributes", true, attributes.list.fault?⟩,
  ⟨"structs", true, structs.list.fault?⟩]

def diagnostics : Decoder Diagnostics where
  fault? := recordFault? "Diagnostics" diagnosticsFields
  read := fun node =>
    ⟨node.read 0 "stdout" Decoder.text [], node.read 1 "stderr" Decoder.text [],
      node.read 2 "returncode" Decoder.signed32 0⟩

def interface : Decoder Interface where
  fault? := recordFault? "ShaderInterface" interfaceFields
  read := fun node =>
    ⟨node.read 0 "uniforms" uniforms.list [], node.read 1 "in_attributes" attributes.list [],
      node.read 2 "out_attributes" attributes.list [], node.read 3 "structs" structs.list []⟩

def maxDepth : Nat := 128

/-- A metadata document: an object that is taken in as a whole before its members are looked at. -/
def metadata : Decoder Metadata where
  fault? := fun node => match node with
    | .object _ _ _ => (node.bufferFault? maxDepth).or (diagnostics.fault? node)
    | _ => some (node.wrongType "struct ShaderMetadata")
  read := fun node =>
    ⟨diagnostics.read node,
      if (interface.fault? node).isNone then some (interface.read node) else none⟩

def readAnalyzer (text : Text) : Except Fault Interface := decode analyzer text

def readMetadata (text : Text) : Except Fault Metadata := decode metadata text

end ShaderReflection.Document
