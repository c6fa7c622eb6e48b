import ShaderReflection.Backend
import ShaderReflection.Glsl.Line
import ShaderReflection.Glsl.Remark
import ShaderReflection.Glsl.StructSpan
import ShaderReflection.Interface.Flatten
/-!
The interface as the source text declares it. Every line is looked at by itself for a uniform, an
`in` and an `out` declaration, while the struct scan runs along over all lines; neither influences
the other.
-/
namespace ShaderReflection.Glsl

inductive Declared where
  | absent
  | malformed
  | named (type name : Text)
  deriving DecidableEq, Repr

def declaredName (token : Text) : Text := Text.upTo '[' (Text.trimEnd (· == ',') token)

def Line.declared (line : Line) (keyword : Text) : Declared :=
  match line.qualifierIndex? keyword with
  | none => .absent
  | some index =>
    match line.declarationAfter? index with
    | none => .malformed
    | some (type, token) =>
      let name := declaredName token
      if isIdentifier type && isIdentifier name then .named type name else .malformed

namespace Declared

def uniform? : Declared → Option Uniform
  | .named type name => some ⟨TypeName.ofText type, name, 1, none, false⟩
  | _ => none

def attribute? : Declared → Option Attribute
  | .named type name => some ⟨TypeName.ofText type, name, none⟩
  | _ => none

def remark? (keyword line : Text) : Declared → Option Remark
  | .malformed => some (.malformedDeclaration keyword line)
  | _ => none

end Declared

def uniformKeyword : Text := "uniform".toList
def inKeyword : Text := "in".toList
def outKeyword : Text := "out".toList

structure Finding where
  text : Text
  span : Option Text
  uniform : Declared
  input : Declared
  output : Declared

def findings (attributes : Bool) : Scanner → List Line → List Finding
  | _, [] => []
  | scanner, line :: rest =>
    let next := scanner.feed line.text
    ⟨line.text, next.2, line.declared uniformKeyword,
      if attributes then line.declared inKeyword else .absent,
      if attributes then line.declared outKeyword else .absent⟩ :: findings attributes next.1 rest

def Finding.remarks (f : Finding) : List Remark :=
  (f.span.filter isAnonymous).toList.map .anonymousStruct ++
    (f.uniform.remark? uniformKeyword f.text).toList ++
    (f.input.remark? inKeyword f.text).toList ++
    (f.output.remark? outKeyword f.text).toList

def interfaceOf (found : List Finding) : Interface where
  uniforms := found.filterMap (·.uniform.uniform?)
  inputs := found.filterMap (·.input.attribute?)
  outputs := found.filterMap (·.output.attribute?)
  structs := found.filterMap fun f => f.span.bind structOfSpan?

def sourceFindings (source : Text) (stage : Stage) : List Finding :=
  findings stage.hasAttributes .idle (sourceLines source)

def declarations (source : Text) (stage : Stage) : Except UnsupportedStage Interface :=
  if stage.isRaytracing then .error ⟨stage, .source⟩
  else .ok (interfaceOf (sourceFindings source stage))

def scan (source : Text) (stage : Stage) : Except UnsupportedStage Interface :=
  (declarations source stage).map fun i => { i with uniforms := flatten i.uniforms i.structs }

def scanRemarks (source : Text) (stage : Stage) : List Remark :=
  if stage.isRaytracing then [] else (sourceFindings source stage).flatMap Finding.remarks

end ShaderReflection.Glsl
