import ShaderReflection.Glsl.Word
/-!
One line of shader source as a list of tokens: runs without blanks, a `//` comment opening a token
of its own, semicolons taken off both ends. A qualifier counts only in front of the comment.
-/
namespace ShaderReflection.Glsl

def opensComment (token : Text) : Bool := "//".toList.isPrefixOf token

def splitComment (token : Text) : List Text :=
  let code := stripComment token
  if code.isEmpty then [token] else [code, token.drop code.length]

def tokens (line : Text) : List Text :=
  (((Text.words line).flatMap splitComment).map (Text.trimBoth (· == ';'))).filter
    fun token => !token.isEmpty

structure Line where
  text : Text
  tokens : List Text
  deriving DecidableEq, Repr

namespace Line

def ofText (text : Text) : Line := ⟨text, Glsl.tokens text⟩

def commentIndex? (line : Line) : Option Nat := line.tokens.findIdx? opensComment

def qualifierIndex? (line : Line) (keyword : Text) : Option Nat :=
  match line.tokens.findIdx? (· == keyword), line.commentIndex? with
  | some index, some comment => if comment < index then none else some index
  | found, _ => found

def declarationAfter? (line : Line) (index : Nat) : Option (Text × Text) :=
  match line.tokens[index + 1]?, line.tokens[index + 2]? with
  | some type, some name =>
    if opensComment type || opensComment name then none else some (type, name)
  | _, _ => none

end Line

def sourceLines (source : Text) : List Line := (Text.lines source).map Line.ofText

example : tokens "in vec3 a;//b c;".toList = ["in", "vec3", "a", "//b", "c"].map String.toList := by
  decide

end ShaderReflection.Glsl
