import ShaderReflection.Binary64.Shortest
import ShaderReflection.Text.Quoted
/-!
The problems that a reader of JSON meets: the text ends too early, the text is malformed, or a
value is not of the shape that is asked for. A fault is a problem with its place in the text,
counted in bytes.
-/
namespace ShaderReflection.Json

inductive Number where
  | integer (value : Int)
  | float (negative : Bool) (magnitude : Binary64)
  deriving DecidableEq, Repr

def Number.toText : Number → Text
  | integer value => Text.signedDecimal value
  | float negative magnitude => (if negative then ['-'] else []) ++ magnitude.toText

inductive Found where
  | null
  | boolean (value : Bool)
  | number (value : Number)
  | string (value : Text)
  | sequence
  | map
  deriving DecidableEq, Repr

def Found.message : Found → String
  | null => "null"
  | boolean value => s!"boolean `{value}`"
  | number (.integer value) => s!"integer `{value}`"
  | number value => s!"floating point `{String.ofList value.toText}`"
  | string value => s!"string {String.ofList (Text.quoted value)}"
  | sequence => "sequence"
  | map => "map"

inductive Mismatch where
  | wrongType (found : Found) (expected : String)
  | wrongValue (found : Found) (expected : String)
  | wrongLength (length : Nat) (expected : String)
  | missingField (name : String)
  | duplicateField (name : String)
  deriving DecidableEq, Repr

def Mismatch.message : Mismatch → String
  | wrongType found expected => s!"invalid type: {found.message}, expected {expected}"
  | wrongValue found expected => s!"invalid value: {found.message}, expected {expected}"
  | wrongLength length expected => s!"invalid length {length}, expected {expected}"
  | missingField name => s!"missing field `{name}`"
  | duplicateField name => s!"duplicate field `{name}`"

inductive Problem where
  | endInValue
  | endInList
  | endInObject
  | endInString
  | expectedColon
  | expectedListEnd
  | expectedObjectEnd
  | expectedIdent
  | expectedValue
  | invalidEscape
  | invalidNumber
  | numberOutOfRange
  | controlCharacter
  | keyNotString
  | loneSurrogate
  | unpairedSurrogate
  | trailingComma
  | trailingCharacters
  | tooDeep
  | mismatch (m : Mismatch)
  deriving DecidableEq, Repr

inductive Category where
  | malformed
  | ended
  | data
  deriving DecidableEq, Repr

namespace Problem

def category : Problem → Category
  | endInValue | endInList | endInObject | endInString => .ended
  | mismatch _ => .data
  | _ => .malformed

def message : Problem → String
  | endInValue => "EOF while parsing a value"
  | endInList => "EOF while parsing a list"
  | endInObject => "EOF while parsing an object"
  | endInString => "EOF while parsing a string"
  | expectedColon => "expected `:`"
  | expectedListEnd => "expected `,` or `]`"
  | expectedObjectEnd => "expected `,` or `\x7d`"
  | expectedIdent => "expected ident"
  | expectedValue => "expected value"
  | invalidEscape => "invalid escape"
  | invalidNumber => "invalid number"
  | numberOutOfRange => "number out of range"
  | controlCharacter => "control character (\\u0000-\\u001F) found while parsing a string"
  | keyNotString => "key must be a string"
  | loneSurrogate => "lone leading surrogate in hex escape"
  | unpairedSurrogate => "unexpected end of hex escape"
  | trailingComma => "trailing comma"
  | trailingCharacters => "trailing characters"
  | tooDeep => "recursion limit exceeded"
  | mismatch m => m.message

end Problem

/-- A problem and its place: the number of bytes that are read, one more being looked at if
`ahead` holds. -/
structure Fault where
  problem : Problem
  place : Nat
  ahead : Bool := false
  deriving DecidableEq, Repr

namespace Fault

def lineAt (target : Nat) : (place line start : Nat) → Text → Nat × Nat
  | _, line, start, [] => (line, start)
  | place, line, start, c :: r =>
    if target ≤ place then (line, start)
    else if c = '\n' then lineAt target (place + 1) (line + 1) (place + 1) r
    else lineAt target (place + c.utf8Size) line start r

def position (fault : Fault) (text : Text) : Nat × Nat :=
  let target :=
    if fault.ahead then min (Text.utf8Length text) (fault.place + 1) else fault.place
  let (line, start) := lineAt target 0 1 0 text
  (line, target - start)

def message (fault : Fault) (text : Text) : String :=
  let (line, column) := fault.position text
  s!"{fault.problem.message} at line {line} column {column}"

end Fault
end ShaderReflection.Json
