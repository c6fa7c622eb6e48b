import ShaderReflection.Text.Basic
/-!
The names of shader types. Each basic type has one spelling; any other token names a type of the
shader's own. The empty token and `undefined` both stand for a type that is not known.
-/
namespace ShaderReflection

inductive TypeName where
  | float
  | int
  | bool
  | vec2
  | vec3
  | vec4
  | ivec2
  | ivec3
  | ivec4
  | mat2
  | mat3
  | mat4
  | sampler2D
  | samplerCube
  | image2D
  | void
  | undefined
  | custom (name : Text)
  deriving DecidableEq, Repr

namespace TypeName

def basic : List (Text × TypeName) := [
  ("float".toList, float), ("int".toList, int), ("bool".toList, bool),
  ("vec2".toList, vec2), ("vec3".toList, vec3), ("vec4".toList, vec4),
  ("ivec2".toList, ivec2), ("ivec3".toList, ivec3), ("ivec4".toList, ivec4),
  ("mat2".toList, mat2), ("mat3".toList, mat3), ("mat4".toList, mat4),
  ("sampler2D".toList, sampler2D), ("samplerCube".toList, samplerCube),
  ("image2D".toList, image2D), ("void".toList, void),
  ([], undefined), ("undefined".toList, undefined)]

def ofText (token : Text) : TypeName := (basic.lookup token).getD (custom token)

def toText : TypeName → Text
  | float => "float".toList
  | int => "int".toList
  | bool => "bool".toList
  | vec2 => "vec2".toList
  | vec3 => "vec3".toList
  | vec4 => "vec4".toList
  | ivec2 => "ivec2".toList
  | ivec3 => "ivec3".toList
  | ivec4 => "ivec4".toList
  | mat2 => "mat2".toList
  | mat3 => "mat3".toList
  | mat4 => "mat4".toList
  | sampler2D => "sampler2D".toList
  | samplerCube => "samplerCube".toList
  | image2D => "image2D".toList
  | void => "void".toList
  | undefined => "undefined".toList
  | custom name => name

def isCustom : TypeName → Bool
  | custom _ => true
  | _ => false

end TypeName
end ShaderReflection
