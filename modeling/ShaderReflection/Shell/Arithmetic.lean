import ShaderReflection.Shell.Format
import ShaderReflection.Shell.State
/-!
Arithmetic in scripts: integers of 64 bits, the operators in their order of precedence, variables
and assignments.
-/
namespace ShaderReflection.Shell.Arithmetic

inductive Token where
  | number (value : Int)
  | name (text : Text)
  | operator (text : String)
  | unknown
  deriving DecidableEq, Repr

def operators : List String :=
  ["<<=", ">>=", "<<", ">>", "<=", ">=", "==", "!=", "&&", "||", "+=", "-=", "*=", "/=", "%=",
    "&=", "|=", "^=", "+", "-", "*", "/", "%", "<", ">", "=", "!", "~", "&", "|", "^", "?", ":",
    "(", ")", ","]

def greatest : Int := 9223372036854775807

def tokens : Nat → Text → List Token
  | 0, _ => []
  | _, [] => []
  | fuel + 1, c :: r =>
    if isSpace c || c == '\n' then tokens fuel r
    else if isDigit c then
      match leadingInteger (c :: r) with
      | (some n, rest) => .number (min n greatest) :: tokens fuel rest
      | (none, _) => [.unknown]
    else if isNameChar c then
      let text := (c :: r).takeWhile isNameChar
      .name text :: tokens fuel ((c :: r).drop text.length)
    else match operators.find? fun o => o.toList.isPrefixOf (c :: r) with
      | some o => .operator o :: tokens fuel ((c :: r).drop o.length)
      | none => [.unknown]

def levels : List (List String) :=
  [["||"], ["&&"], ["|"], ["^"], ["&"], ["==", "!="], ["<", "<=", ">", ">="], ["<<", ">>"],
    ["+", "-"], ["*", "/", "%"]]

def ofBool (b : Bool) : Int64 := if b then 1 else 0

def combine? (operator : String) (a b : Int64) : Option Int64 :=
  match operator with
  | "||" => some (ofBool (a != 0 || b != 0))
  | "&&" => some (ofBool (a != 0 && b != 0))
  | "|" => some (a ||| b)
  | "^" => some (a ^^^ b)
  | "&" => some (a &&& b)
  | "==" => some (ofBool (a == b))
  | "!=" => some (ofBool (a != b))
  | "<" => some (ofBool (a < b))
  | "<=" => some (ofBool (a ≤ b))
  | ">" => some (ofBool (b < a))
  | ">=" => some (ofBool (b ≤ a))
  | "<<" => some (a <<< b)
  | ">>" => some (a >>> b)
  | "+" => some (a + b)
  | "-" => some (a - b)
  | "*" => some (a * b)
  | "/" => if b = 0 then none else some (a / b)
  | "%" => if b = 0 then none else some (a % b)
  | _ => some b

def fail {α : Type} (expression : Text) (problem : String) : Run α :=
  Run.fail ("arithmetic expression: ".toList ++ problem.toList ++ ": \"".toList ++ expression ++
    ['"'])

def valueOf (name : Text) : Run Int64 := do
  let s ← get
  match s.value? name with
  | none =>
    if s.has 'u' then Run.fail (name ++ ": parameter not set".toList) else return 0
  | some text =>
    match leadingInteger text with
    | (some n, rest) =>
      if rest.all fun c => isSpace c || c == '\n' then return Int64.ofInt n
      else Run.fail ("Illegal number: ".toList ++ text)
    | (none, _) =>
      if text.isEmpty then return 0 else Run.fail ("Illegal number: ".toList ++ text)

mutual

def assignment (expression : Text) : Nat → Bool → List Token → Run (Int64 × List Token)
  | 0, _, _ => fail expression "expecting primary"
  | fuel + 1, active, tokens => do
    match tokens with
    | .name name :: .operator operator :: rest =>
      if operator == "=" || (operator.endsWith "=" &&
          !(["==", "!=", "<=", ">="].contains operator)) then
        let (value, rest) ← assignment expression fuel active rest
        if !active then return (value, rest)
        else
          let value ← if operator == "=" then pure value
            else match combine? (operator.dropEnd 1).toString (← valueOf name) value with
              | some value => pure value
              | none => fail expression "division by zero"
          modify fun s => s.assign name (Text.signedDecimal value.toInt)
          return (value, rest)
      else conditional expression fuel active tokens
    | _ => conditional expression fuel active tokens

def conditional (expression : Text) : Nat → Bool → List Token → Run (Int64 × List Token)
  | 0, _, _ => fail expression "expecting primary"
  | fuel + 1, active, tokens => do
    let (condition, rest) ← binary expression fuel levels active tokens
    match rest with
    | .operator "?" :: rest =>
      let (yes, rest) ← assignment expression fuel (active && condition != 0) rest
      match rest with
      | .operator ":" :: rest =>
        let (no, rest) ← conditional expression fuel (active && condition == 0) rest
        return (if condition != 0 then yes else no, rest)
      | _ => fail expression "expecting ':'"
    | rest => return (condition, rest)

def binary (expression : Text) :
    Nat → List (List String) → Bool → List Token → Run (Int64 × List Token)
  | 0, _, _, _ => fail expression "expecting primary"
  | fuel + 1, [], active, tokens => unary expression fuel active tokens
  | fuel + 1, level :: higher, active, tokens => do
    let (first, rest) ← binary expression fuel higher active tokens
    binaryAfter expression fuel level higher active first rest

def binaryAfter (expression : Text) : Nat → List String → List (List String) → Bool → Int64 →
    List Token → Run (Int64 × List Token)
  | 0, _, _, _, _, _ => fail expression "expecting primary"
  | fuel + 1, level, higher, active, first, tokens => do
    match tokens with
    | .operator operator :: rest =>
      if !level.contains operator then return (first, tokens)
      else
        let matters := !(operator == "&&" && first == 0) && !(operator == "||" && first != 0)
        let (second, rest) ← binary expression fuel higher (active && matters) rest
        match combine? operator first second with
        | some value => binaryAfter expression fuel level higher active value rest
        | none =>
          if active then fail expression "division by zero"
          else binaryAfter expression fuel level higher active 0 rest
    | _ => return (first, tokens)

def unary (expression : Text) : Nat → Bool → List Token → Run (Int64 × List Token)
  | 0, _, _ => fail expression "expecting primary"
  | fuel + 1, active, tokens => do
    match tokens with
    | .number n :: rest => return (Int64.ofInt n, rest)
    | .name name :: rest =>
      let value ← if active then valueOf name else pure 0
      return (value, rest)
    | .operator "(" :: rest =>
      let (value, rest) ← assignment expression fuel active rest
      match rest with
      | .operator ")" :: rest => return (value, rest)
      | _ => fail expression "expecting ')'"
    | .operator operator :: rest =>
      match operator with
      | "-" => let (value, rest) ← unary expression fuel active rest; return (-value, rest)
      | "+" => unary expression fuel active rest
      | "!" =>
        let (value, rest) ← unary expression fuel active rest
        return (ofBool (value == 0), rest)
      | "~" => let (value, rest) ← unary expression fuel active rest; return (~~~value, rest)
      | _ => fail expression "expecting primary"
    | [] | .unknown :: _ => fail expression "expecting primary"

end

def evaluate (expression : Text) : Run Int := do
  let tokens := tokens (expression.length + 1) expression
  let (value, rest) ← assignment expression (tokens.length * 16 + 16) true tokens
  if rest.isEmpty then return value.toInt else fail expression "expecting EOF"

end ShaderReflection.Shell.Arithmetic
