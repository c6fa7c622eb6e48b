import ShaderReflection.Json.Value
import ShaderReflection.Metadata
/-!
Interfaces and metadata as JSON. Members that say nothing are left out: an absent location, binding,
size or alignment, and a push constant flag that is not set.
-/
namespace ShaderReflection.Document
open Json (Value Layout)

def optional {α : Type} (name : String) (f : α → Value) : Option α → List (Text × Value)
  | none => []
  | some a => [(name.toList, f a)]

def ofWord (n : UInt32) : Value := .integer n.toNat

def ofAttribute (a : Attribute) : Value := .object <|
  [("type_name".toList, .string a.typeName.toText), ("name".toList, .string a.name)] ++
    optional "location" ofWord a.location

def ofUniform (u : Uniform) : Value := .object <|
  [("type_name".toList, .string u.typeName.toText), ("name".toList, .string u.name),
    ("count".toList, ofWord u.count)] ++
    optional "binding" (fun b => .integer b.toInt) u.binding ++
    (if u.pushConstant then [("push_constant".toList, .boolean true)] else [])

def ofMember (m : StructMember) : Value :=
  .object [("type_name".toList, .string m.typeName.toText), ("name".toList, .string m.name)]

def ofStruct (d : StructDef) : Value := .object <|
  [("name".toList, .string d.name), ("attributes".toList, .array (d.members.map ofMember))] ++
    optional "size" ofWord d.size ++ optional "alignment" ofWord d.alignment

def interfaceMembers (i : Interface) : List (Text × Value) := [
  ("uniforms".toList, .array (i.uniforms.map ofUniform)),
  ("in_attributes".toList, .array (i.inputs.map ofAttribute)),
  ("out_attributes".toList, .array (i.outputs.map ofAttribute)),
  ("structs".toList, .array (i.structs.map ofStruct))]

def ofInterface (i : Interface) : Value := .object (interfaceMembers i)

def ofMetadata (m : Metadata) : Value := .object <|
  [("stdout".toList, .string m.diagnostics.stdout), ("stderr".toList, .string m.diagnostics.stderr),
    ("returncode".toList, .integer m.diagnostics.exitCode.toInt)] ++
    (m.interface?.map interfaceMembers).getD []

def compact (m : Metadata) : Text := (ofMetadata m).render Layout.compact

def pretty (m : Metadata) : Text := (ofMetadata m).render Layout.pretty

end ShaderReflection.Document
