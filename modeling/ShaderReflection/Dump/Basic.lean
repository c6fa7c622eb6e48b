import ShaderReflection.Dump.TypeCode
import ShaderReflection.Interface.Basic
/-!
The reflection dump that a linker prints: sections under headers, each entry a line with a name, a
colon and fields between commas. Entries count in the sections for uniforms and for pipeline inputs
and outputs; a line belongs to the last header before it.
-/
namespace ShaderReflection.Dump

inductive Section where
  | uniform
  | uniformBlock
  | bufferVariable
  | bufferBlock
  | pipelineInput
  | pipelineOutput
  deriving DecidableEq, Repr

namespace Section

def headers : List (Text × Section) := [
  ("Uniform reflection".toList, uniform),
  ("Uniform block reflection".toList, uniformBlock),
  ("Buffer variable reflection".toList, bufferVariable),
  ("Buffer block reflection".toList, bufferBlock),
  ("Pipeline input reflection".toList, pipelineInput),
  ("Pipeline output reflection".toList, pipelineOutput)]

def ofHeader? (line : Text) : Option Section :=
  (headers.find? fun h => h.1.isPrefixOf (Text.trim line)).map (·.2)

def isRecorded : Section → Bool
  | uniform | pipelineInput | pipelineOutput => true
  | uniformBlock | bufferVariable | bufferBlock => false

end Section

structure Entry where
  name : Text
  typeName : TypeName := .undefined
  size : Option UInt32 := none
  deriving DecidableEq, Repr

inductive Field where
  | type (code : Text)
  | size (value : Text)
  | other
  deriving DecidableEq, Repr

def Field.ofText (field : Text) : Field :=
  match Text.words field with
  | key :: value :: _ =>
    if key = "type".toList then .type value
    else if key = "size".toList then .size value
    else .other
  | _ => .other

def Entry.set (entry : Entry) : Field → Entry
  | .type code => { entry with typeName := typeOfCode code }
  | .size value => { entry with size := Text.word32? 10 value }
  | .other => entry

def entryParts? (line : Text) : Option (Text × List Field) :=
  (Text.splitFirst? ':' line).bind fun p =>
    let name := Text.trim p.1
    if name.isEmpty then none else some (name, (Text.splitOn ',' p.2).map Field.ofText)

def Entry.ofLine? (line : Text) : Option Entry :=
  (entryParts? line).map fun p => p.2.foldl Entry.set ⟨p.1, .undefined, none⟩

def entryRemarks (line : Text) : List Remark :=
  match entryParts? line with
  | none => []
  | some (_, fields) => fields.filterMap fun
    | .type code => codeRemark? code
    | _ => none

structure Reader where
  current? : Option Section := none
  uniforms : List Uniform := []
  inputs : List Attribute := []
  outputs : List Attribute := []

namespace Reader

def record (reader : Reader) (e : Entry) : Section → Reader
  | .uniform => { reader with
      uniforms := reader.uniforms ++ [⟨e.typeName, e.name, e.size.getD 0, none, false⟩] }
  | .pipelineInput => { reader with inputs := reader.inputs ++ [⟨e.typeName, e.name, none⟩] }
  | .pipelineOutput => { reader with outputs := reader.outputs ++ [⟨e.typeName, e.name, none⟩] }
  | .uniformBlock | .bufferVariable | .bufferBlock => reader

def feed (reader : Reader) (line : Text) : Reader :=
  match Section.ofHeader? line with
  | some s => { reader with current? := some s }
  | none =>
    match reader.current?, Entry.ofLine? line with
    | some s, some entry => reader.record entry s
    | _, _ => reader

def remarks (reader : Reader) (line : Text) : List Remark :=
  if (Section.ofHeader? line).isNone && reader.current?.any (·.isRecorded) then entryRemarks line
  else []

def interface (reader : Reader) : Interface :=
  ⟨reader.uniforms, reader.inputs, reader.outputs, []⟩

end Reader

def interfaceOf (dump : Text) : Interface := ((Text.lines dump).foldl Reader.feed {}).interface

def remarksFrom : Reader → List Text → List Remark
  | _, [] => []
  | reader, line :: rest => reader.remarks line ++ remarksFrom (reader.feed line) rest

end ShaderReflection.Dump
