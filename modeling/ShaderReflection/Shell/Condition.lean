import ShaderReflection.Shell.Format
import ShaderReflection.Shell.World
/-!
Conditions about texts, numbers and files, as `test` reads them from its arguments.
-/
namespace ShaderReflection.Shell.Condition

def unaryOperators : List Text :=
  ["-b", "-c", "-d", "-e", "-f", "-g", "-h", "-k", "-L", "-n", "-p", "-r", "-S", "-s", "-t", "-u",
    "-w", "-x", "-z"].map String.toList

def binaryOperators : List Text :=
  ["=", "!=", "<", ">", "-eq", "-ne", "-gt", "-ge", "-lt", "-le", "-nt", "-ot", "-ef"].map
    String.toList

def isUnary (t : Text) : Bool := unaryOperators.any (· == t)

def isBinary (t : Text) : Bool := binaryOperators.any (· == t)

def node? (tree : FileTree) (path : Path) : Option FileNode :=
  match tree.resolve path with
  | .ok location => tree.get? location
  | .error _ => none

def unary (tree : FileTree) (operator operand : Text) : Bool :=
  match String.ofList operator with
  | "-n" => !operand.isEmpty
  | "-z" => operand.isEmpty
  | "-d" => tree.isDirectory operand
  | "-e" | "-r" | "-w" => (node? tree operand).isSome
  | "-f" => tree.isFile operand
  | "-s" => match node? tree operand with
    | some (.file content _) => content.size != 0
    | some .directory => true
    | none => false
  | "-x" => match node? tree operand with
    | some (.file _ executable) => executable
    | some .directory => true
    | none => false
  | _ => false

def integer (operand : Text) : Except Text Int :=
  match leadingInteger operand with
  | (some n, rest) =>
    if rest.all fun c => c == ' ' || c == '\t' || c == '\n' then .ok n
    else .error ("Illegal number: ".toList ++ operand)
  | (none, _) => .error ("Illegal number: ".toList ++ operand)

def binary (tree : FileTree) (first operator second : Text) : Except Text Bool :=
  let compare (holds : Int → Int → Bool) : Except Text Bool := do
    return holds (← integer first) (← integer second)
  match String.ofList operator with
  | "=" => .ok (first == second)
  | "!=" => .ok (first != second)
  | "<" => .ok (decide (first < second))
  | ">" => .ok (decide (second < first))
  | "-eq" => compare fun a b => a == b
  | "-ne" => compare fun a b => a != b
  | "-gt" => compare fun a b => decide (b < a)
  | "-ge" => compare fun a b => decide (b ≤ a)
  | "-lt" => compare fun a b => decide (a < b)
  | "-le" => compare fun a b => decide (a ≤ b)
  | "-ef" => .ok (match tree.resolve first, tree.resolve second with
    | .ok a, .ok b => a == b
    | _, _ => false)
  | _ => .ok false

mutual

def disjunction (tree : FileTree) : Nat → List Text → Except Text (Bool × List Text)
  | 0, _ => .error "argument expected".toList
  | fuel + 1, arguments => do
    let (first, rest) ← conjunction tree fuel arguments
    match rest with
    | ['-', 'o'] :: rest =>
      let (second, rest) ← disjunction tree fuel rest
      return (first || second, rest)
    | rest => return (first, rest)

def conjunction (tree : FileTree) : Nat → List Text → Except Text (Bool × List Text)
  | 0, _ => .error "argument expected".toList
  | fuel + 1, arguments => do
    let (first, rest) ← negation tree fuel arguments
    match rest with
    | ['-', 'a'] :: rest =>
      let (second, rest) ← conjunction tree fuel rest
      return (first && second, rest)
    | rest => return (first, rest)

def negation (tree : FileTree) : Nat → List Text → Except Text (Bool × List Text)
  | 0, _ => .error "argument expected".toList
  | fuel + 1, arguments => do
    match arguments with
    | ['!'] :: next :: rest =>
      if isBinary next && !rest.isEmpty then primary tree fuel arguments
      else
        let (holds, rest) ← negation tree fuel (next :: rest)
        return (!holds, rest)
    | _ => primary tree fuel arguments

def primary (tree : FileTree) : Nat → List Text → Except Text (Bool × List Text)
  | 0, _ => .error "argument expected".toList
  | fuel + 1, arguments => do
    let inParentheses (arguments : List Text) : Except Text (Bool × List Text) := do
      if arguments.head? = some [')'] then return (false, arguments.tail)
      else
        let (holds, rest) ← disjunction tree fuel arguments
        if rest.head? = some [')'] then return (holds, rest.tail)
        else throw "closing paren expected".toList
    match arguments with
    | [] => return (false, [])
    | first :: operator :: second :: rest =>
      if isBinary operator then return (← binary tree first operator second, rest)
      else if first = ['('] then inParentheses (operator :: second :: rest)
      else if isUnary first then return (unary tree first operator, second :: rest)
      else return (!first.isEmpty, operator :: second :: rest)
    | [first, second] =>
      if isUnary first then return (unary tree first second, [])
      else if first = ['('] then inParentheses [second]
      else if isBinary second then throw (second ++ ": argument expected".toList)
      else return (!first.isEmpty, [second])
    | [only] => return (!only.isEmpty, [])

end

def holds (tree : FileTree) (arguments : List Text) : Except Text Bool := do
  match arguments with
  | [['!'], operand] => return operand.isEmpty
  | [['('], operand, [')']] => return !operand.isEmpty
  | _ =>
    let (result, rest) ← disjunction tree (arguments.length * 4 + 4) arguments
    if rest.isEmpty then return result
    else
      let last := arguments[arguments.length - rest.length - 1]?.getD []
      throw (last ++ ": unexpected operator".toList)

example : (holds {} (["a", "=", "a", "-a", "!", "-n", ""].map String.toList)).toOption =
    some true := by decide +kernel
example : (holds {} (["1", "-lt", "x"].map String.toList)).toOption = none := by decide +kernel

end ShaderReflection.Shell.Condition
