import ShaderReflection.Glsl.Word
import ShaderReflection.Interface.Basic
/-!
Struct definitions in shader source. A span opens on the line that holds the keyword and closes on
the first line with a closing brace and semicolon; the code of its lines, joined by single spaces,
is then read as one definition. Comments never reach a span.
-/
namespace ShaderReflection.Glsl

def structKeyword : Text := "struct".toList

def spanEnd : Text := ['}', ';']

inductive Scanner where
  | idle
  | capturing (buffer : Text)
  deriving DecidableEq, Repr

namespace Scanner

def extended (code : Text) : Scanner → Option Text
  | idle => if (splitAtWord? structKeyword code).isSome then some code else none
  | capturing buffer => some (if buffer.isEmpty then code else buffer ++ ' ' :: code)

def feed (scanner : Scanner) (line : Text) : Scanner × Option Text :=
  let code := stripComment line
  match scanner.extended code with
  | none => (idle, none)
  | some span => if Text.hasInfix spanEnd code then (idle, some span) else (capturing span, none)

end Scanner

def closedSpans : Scanner → List Text → List Text
  | _, [] => []
  | scanner, line :: rest =>
    let next := scanner.feed line
    next.2.toList ++ closedSpans next.1 rest

def structParts? (span : Text) : Option (Text × Text) :=
  (splitAtWord? structKeyword span).bind fun p =>
    (Text.splitFirst? '{' p.2).map fun q => (q.1.filter isWordChar, q.2)

/-- The members that the text after the opening brace declares. Characters other than identifier
characters, spaces and semicolons are passed over. -/
def structMembers (body : Text) : List StructMember :=
  let kept := (Text.upTo '}' body).filter fun c => isWordChar c || c == ' ' || c == ';'
  (Text.splitOn ';' kept).filterMap fun clause =>
    match Text.words clause with
    | type :: name :: _ => some ⟨TypeName.ofText type, name⟩
    | _ => none

def structOfSpan? (span : Text) : Option StructDef :=
  (structParts? span).bind fun p =>
    if p.1.isEmpty then none else some ⟨p.1, structMembers p.2, none, none⟩

def isAnonymous (span : Text) : Bool := (structParts? span).any (·.1.isEmpty)

def scanStructs (source : Text) : List StructDef :=
  (closedSpans .idle (Text.lines source)).filterMap structOfSpan?

end ShaderReflection.Glsl
