import ShaderReflection.Backend
import ShaderReflection.Dump.Basic
import ShaderReflection.Glsl.StructSpan
import ShaderReflection.Interface.Backfill
/-!
The interface by the linker backend: uniforms and variables from the dump, what the dump leaves out
and the struct table from the source.
-/
namespace ShaderReflection.Dump

def restrict (stage : Stage) (i : Interface) : Interface :=
  if stage.hasAttributes then i else { i with inputs := [], outputs := [] }

def reflection (dump source : Text) (stage : Stage) : Except UnsupportedStage Interface :=
  if stage.isRaytracing then .error ⟨stage, .linker⟩
  else .ok { (restrict stage (interfaceOf dump)).backfill source stage with
    structs := Glsl.scanStructs source }

inductive ReflectionRemark where
  | dump (remark : Remark)
  | source (remark : Glsl.Remark)
  deriving DecidableEq, Repr

def ReflectionRemark.message : ReflectionRemark → String
  | dump remark => remark.message
  | source remark => remark.message

def reflectionRemarks (dump source : Text) (stage : Stage) : List ReflectionRemark :=
  if stage.isRaytracing then []
  else (remarksFrom {} (Text.lines dump)).map .dump ++
    (backfillRemarks source stage).map .source ++
    (((Glsl.closedSpans .idle (Text.lines source)).filter Glsl.isAnonymous).map
      fun span => .source (.anonymousStruct span))

end ShaderReflection.Dump
