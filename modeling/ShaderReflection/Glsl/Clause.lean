import ShaderReflection.Glsl.Remark
import ShaderReflection.Glsl.Word
import ShaderReflection.Interface.Basic
import ShaderReflection.Text.Numeral
/-!
The declarations in front of `main`, read as clauses that end in semicolons and may cover several
lines. Unlike the scan by lines, this reading knows the explicit location of a variable.
-/
namespace ShaderReflection.Glsl

def entryPoint : Text := "void main".toList

def lineCode (line : Text) : Text := Text.trim (stripComment line)

def isClauseCode (code : Text) : Bool := !code.isEmpty && code.head? != some '#'

/-- The code in front of the entry point, each line's followed by a space. The first line holds
the version directive. -/
def clauseText (source : Text) : Text :=
  ((((Text.lines source).drop 1).takeWhile fun line => !(Text.hasInfix entryPoint line)).map
    lineCode).filter isClauseCode |>.flatMap (· ++ [' '])

def interfaceClauses (source : Text) : List Text :=
  ((Text.splitOn ';' (clauseText source)).map Text.trim).filter fun clause => !clause.isEmpty

def locationOf? (assignment : Text) : Option UInt32 :=
  (Text.splitFirst? '=' assignment).bind fun p =>
    if Text.trim p.1 = "location".toList then Text.word32? 10 (Text.trim p.2) else none

def explicitLocation? (clause : Text) : Option UInt32 :=
  (Text.splitFirst? '(' clause).bind fun p =>
    (Text.splitFirst? ')' p.2).bind fun q => (Text.splitOn ',' q.1).findSome? locationOf?

inductive Qualifier where
  | input
  | output
  deriving DecidableEq, Repr

def Qualifier.ofToken? (token : Text) : Option Qualifier :=
  if token = "in".toList then some .input
  else if token = "out".toList then some .output
  else none

def qualified? : List Text → Option (Qualifier × List Text)
  | [] => none
  | token :: rest =>
    match Qualifier.ofToken? token with
    | some qualifier => some (qualifier, rest)
    | none => qualified? rest

structure InterfaceDeclaration where
  qualifier : Qualifier
  entry : Attribute
  deriving DecidableEq, Repr

def clauseHead? (clause : Text) : Option (Qualifier × Text × Text) :=
  match qualified? (Text.words (Text.afterLast ')' clause)) with
  | some (qualifier, type :: name :: _) => some (qualifier, type, name)
  | _ => none

def declarationOf? (clause : Text) : Option InterfaceDeclaration :=
  (clauseHead? clause).bind fun (qualifier, type, name) =>
    if isIdentifier type && isIdentifier name then
      some ⟨qualifier, ⟨TypeName.ofText type, name, explicitLocation? clause⟩⟩
    else none

def clauseRemark? (clause : Text) : Option Remark :=
  (clauseHead? clause).bind fun (_, type, name) =>
    if isIdentifier type && isIdentifier name then none else some (.malformedClause clause)

def interfaceDeclarations (source : Text) : List InterfaceDeclaration :=
  (interfaceClauses source).filterMap declarationOf?

end ShaderReflection.Glsl
