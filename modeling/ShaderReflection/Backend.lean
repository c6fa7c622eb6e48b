import ShaderReflection.Stage
import ShaderReflection.Text.LowerCase
/-!
The three ways of learning the interface of a shader, and the one combination of stage and backend
that is refused as such.
-/
namespace ShaderReflection

inductive Backend where
  | source
  | linker
  | spirv
  deriving DecidableEq, Repr

namespace Backend

def label : Backend → String
  | source => "source"
  | linker => "linker"
  | spirv => "spirv"

def standard : Backend := linker

structure Unknown where
  name : Text
  deriving DecidableEq, Repr

def ofName (name : Text) : Except Unknown Backend :=
  let lower := Text.toLower name
  match [source, linker, spirv].find? (·.label.toList == lower) with
  | some backend => .ok backend
  | none => .error ⟨lower⟩

def Unknown.message (e : Unknown) : String :=
  s!"unknown backend '{String.ofList e.name}' (expected source, linker or spirv)"

end Backend

structure UnsupportedStage where
  stage : Stage
  backend : Backend
  deriving DecidableEq, Repr

def UnsupportedStage.message (e : UnsupportedStage) : String :=
  s!"{e.stage.label} shaders are unsupported by the {e.backend.label} backend " ++
    "(raytracing stages have no attribute reflection)"

end ShaderReflection
