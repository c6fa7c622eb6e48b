/-!
Text as a list of characters, and the ways in which the readers of this library take it apart:
at every separator, at the first one, at blanks, into lines. Each function recurses on the list,
so that what it does to `c :: r` is said by one equation.
-/
namespace ShaderReflection

abbrev Text := List Char

namespace Text

def isBlank (c : Char) : Bool :=
  let n := c.toNat
  (9 ≤ n && n ≤ 13) || n == 0x20 || n == 0x85 || n == 0xA0 || n == 0x1680 ||
    (0x2000 ≤ n && n ≤ 0x200A) || n == 0x2028 || n == 0x2029 || n == 0x202F || n == 0x205F ||
    n == 0x3000

def consHead (c : Char) : List Text → List Text
  | [] => [[c]]
  | piece :: rest => (c :: piece) :: rest

def splitWhere (p : Char → Bool) : Text → List Text
  | [] => [[]]
  | c :: r => if p c then [] :: splitWhere p r else consHead c (splitWhere p r)

def splitOn (separator : Char) : Text → List Text := splitWhere (· == separator)

def words (t : Text) : List Text := (splitWhere isBlank t).filter (fun w => !w.isEmpty)

def splitFirst? (separator : Char) : Text → Option (Text × Text)
  | [] => none
  | c :: r =>
    if c == separator then some ([], r)
    else (splitFirst? separator r).map fun p => (c :: p.1, p.2)

def upTo (stop : Char) (t : Text) : Text := t.takeWhile (· != stop)

def afterLast (mark : Char) (t : Text) : Text := (t.reverse.takeWhile (· != mark)).reverse

def trimEnd (p : Char → Bool) (t : Text) : Text := (t.reverse.dropWhile p).reverse

def trimBoth (p : Char → Bool) (t : Text) : Text := trimEnd p (t.dropWhile p)

def trim (t : Text) : Text := trimBoth isBlank t

def hasInfix (part : Text) : Text → Bool
  | [] => part.isEmpty
  | c :: r => part.isPrefixOf (c :: r) || hasInfix part r

/-- The lines of a text: each line feed ends one and takes a carriage return directly before it
along; a last line without line feed counts if it is not empty. -/
def lines : Text → List Text
  | [] => []
  | '\r' :: '\n' :: r => [] :: lines r
  | c :: r => if c == '\n' then [] :: lines r else consHead c (lines r)

def utf8Length : Text → Nat
  | [] => 0
  | c :: r => c.utf8Size + utf8Length r

def joinWith (separator : Text) : List Text → Text
  | [] => []
  | [piece] => piece
  | piece :: rest => piece ++ separator ++ joinWith separator rest

example : lines "a\r\nb\rc\n\nd\r".toList = ["a", "b\rc", "", "d\r"].map String.toList := by decide
example : words " a\tb  ".toList = ["a", "b"].map String.toList := by decide
example : afterLast ')' "a)b)c".toList = "c".toList := by decide

end Text
end ShaderReflection
