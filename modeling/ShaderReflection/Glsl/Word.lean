import ShaderReflection.Text.Basic
/-!
Identifiers in shader source, and the search for a keyword as a whole word: one that no identifier
character touches.
-/
namespace ShaderReflection.Glsl

def isLetter (c : Char) : Bool :=
  (97 ≤ c.toNat && c.toNat ≤ 122) || (65 ≤ c.toNat && c.toNat ≤ 90)

def isDigit (c : Char) : Bool := 48 ≤ c.toNat && c.toNat ≤ 57

def isWordChar (c : Char) : Bool := isLetter c || isDigit c || c == '_'

def isIdentifier : Text → Bool
  | [] => false
  | c :: r => (isLetter c || c == '_') && r.all isWordChar

def isBoundary (neighbour : Option Char) : Bool := !(neighbour.any isWordChar)

/-- Looks for `word` as a whole word and gives the text before and after it. Occurrences are
tried from the left and do not overlap: after one that is not whole the search goes on behind it,
which `skip` counts. -/
def splitAtWordAfter (word : Text) : Option Char → Nat → Text → Option (Text × Text)
  | previous, skip, [] =>
    if skip = 0 ∧ word = [] ∧ isBoundary previous then some ([], []) else none
  | previous, 0, c :: r =>
    if word.isPrefixOf (c :: r) then
      let after := (c :: r).drop word.length
      if isBoundary previous && isBoundary after.head? then some ([], after)
      else (splitAtWordAfter word (some c) (word.length - 1) r).map fun p => (c :: p.1, p.2)
    else (splitAtWordAfter word (some c) 0 r).map fun p => (c :: p.1, p.2)
  | _, skip + 1, c :: r => (splitAtWordAfter word (some c) skip r).map fun p => (c :: p.1, p.2)

def splitAtWord? (word text : Text) : Option (Text × Text) := splitAtWordAfter word none 0 text

def wordOffset? (word text : Text) : Option Nat :=
  (splitAtWord? word text).map fun p => Text.utf8Length p.1

def stripComment : Text → Text
  | [] => []
  | '/' :: '/' :: _ => []
  | c :: r => c :: stripComment r

example : wordOffset? "struct".toList "é constructs struct S".toList = some 14 := by decide
example : stripComment "a / b // c".toList = "a / b ".toList := by decide

end ShaderReflection.Glsl
