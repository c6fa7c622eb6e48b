import ShaderReflection.Text.Basic
/-!
What a reader of shader source passes over and says so.
-/
namespace ShaderReflection.Glsl

inductive Remark where
  | anonymousStruct (span : Text)
  | malformedDeclaration (keyword line : Text)
  | malformedClause (clause : Text)
  deriving DecidableEq, Repr

def Remark.message : Remark → String
  | anonymousStruct span => s!"skipping anonymous struct: {String.ofList span}"
  | malformedDeclaration keyword line =>
    s!"skipping malformed '{String.ofList keyword}' declaration: {String.ofList line}"
  | malformedClause clause =>
    s!"skipping malformed interface declaration: {String.ofList clause}"

end ShaderReflection.Glsl
