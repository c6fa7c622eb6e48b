import ShaderReflection.Text.Numeral
import ShaderReflection.TypeName
/-!
The hexadecimal codes by which a reflection dump names types. A code counts by its value, however
it is spelled.
-/
namespace ShaderReflection.Dump

def typeTable : List (UInt32 × TypeName) := [
  (0x8b5c, .mat4), (0x8b5b, .mat3), (0x8b51, .vec3), (0x8b50, .vec2), (0x8b5e, .sampler2D),
  (0x8b52, .vec4), (0x904d, .image2D), (0x8b60, .samplerCube), (0x1406, .float), (0x1404, .int)]

def dropHexMarks : Text → Text
  | '0' :: 'x' :: r => dropHexMarks r
  | t => t

def codeValue? (code : Text) : Option UInt32 := Text.word32? 16 (dropHexMarks (Text.trim code))

def typeOfCode (code : Text) : TypeName :=
  ((codeValue? code).bind fun value => typeTable.lookup value).getD .undefined

inductive Remark where
  | unreadableCode (code : Text)
  | unlistedCode (value : UInt32)
  deriving DecidableEq, Repr

def codeRemark? (code : Text) : Option Remark :=
  match codeValue? code with
  | none => some (.unreadableCode code)
  | some value => if (typeTable.lookup value).isNone then some (.unlistedCode value) else none

def Remark.message : Remark → String
  | unreadableCode code => s!"unparseable reflection type code: {String.ofList code}"
  | unlistedCode value =>
    s!"no type name for reflection type code 0x{String.ofList (Text.hexadecimal value.toNat)}"

end ShaderReflection.Dump
