import ShaderReflection.Text.Numeral
/-!
Shell scripts as data: words with quoting and expansions, redirections, and commands. Like all of
the shell they only stand in for processes of the system, and no result is about them.
-/
namespace ShaderReflection.Shell

inductive Treatment where
  | plain
  | length
  | default (orEmpty : Bool)
  | assign (orEmpty : Bool)
  | demand (orEmpty : Bool)
  | replace (orEmpty : Bool)
  | dropStart (longest : Bool)
  | dropEnd (longest : Bool)
  | unknown
  deriving DecidableEq, Repr

def Treatment.takesPattern : Treatment → Bool
  | dropStart _ | dropEnd _ => true
  | _ => false

inductive Part where
  | literal (text : Text) (quoted : Bool)
  | parameter (name : Text) (treatment : Treatment) (argument : List Part) (quoted : Bool)
  | output (script : Text) (line : Nat) (quoted : Bool)
  | arithmetic (expression : List Part) (quoted : Bool)

abbrev Word := List Part

inductive Redirect where
  | read (stream : Nat) (path : Word)
  | write (stream : Nat) (path : Word)
  | append (stream : Nat) (path : Word)
  | duplicate (stream : Nat) (target : Word)
  | here (stream : Nat) (body : Word)

inductive Command where
  | simple (line : Nat) (assignments : List (Text × Word)) (words : List Word)
  | redirected (line : Nat) (command : Command) (redirects : List Redirect)
  | pipeline (commands : List Command)
  | negated (command : Command)
  | both (first second : Command)
  | either (first second : Command)
  | sequence (commands : List Command)
  | subshell (command : Command)
  | branch (condition success : Command) (failure : Option Command)
  | loop (outcome : Bool) (condition body : Command)
  | each (name : Text) (words : Option (List Word)) (body : Command)
  | choice (word : Word) (arms : List (List Word × Command))
  | define (name : Text) (body : Command)

structure Misplaced where
  line : Nat
  message : Text
  deriving DecidableEq, Repr

def isSpace (c : Char) : Bool := c == ' ' || c == '\t'

def isLetter (c : Char) : Bool := ('a' ≤ c && c ≤ 'z') || ('A' ≤ c && c ≤ 'Z')

def isDigit (c : Char) : Bool := '0' ≤ c && c ≤ '9'

def isNameChar (c : Char) : Bool := isLetter c || isDigit c || c == '_'

def isName : Text → Bool
  | [] => false
  | c :: r => (isLetter c || c == '_') && r.all isNameChar

def endsWord (c : Char) : Bool :=
  isSpace c || c == '\n' || c == ';' || c == '&' || c == '|' || c == '<' || c == '>' ||
    c == '(' || c == ')'

end ShaderReflection.Shell
