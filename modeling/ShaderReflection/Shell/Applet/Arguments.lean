import ShaderReflection.Shell.Applet.Quoting
import ShaderReflection.Shell.World
/-!
The arguments of the system's programs: options, which may stand anywhere before a double dash, and
operands. Refusals of operations on files are told in the way these programs do.
-/
namespace ShaderReflection.Shell

structure Arguments where
  options : List (Char × Text) := []
  operands : List Text := []

namespace Arguments

def has (a : Arguments) (letter : Char) : Bool := a.options.any (·.1 == letter)

def value? (a : Arguments) (letter : Char) : Option Text :=
  (a.options.reverse.find? (·.1 == letter)).map (·.2)

def group (plain valued : Text) : Text → List Text → Except Text (List (Char × Text) × List Text)
  | [], rest => .ok ([], rest)
  | letter :: more, rest =>
    if valued.contains letter then
      match more, rest with
      | [], [] => .error ("option requires an argument -- '".toList ++ [letter, '\''])
      | [], value :: rest => .ok ([(letter, value)], rest)
      | value, rest => .ok ([(letter, value)], rest)
    else if plain.contains letter then
      (group plain valued more rest).map fun p => ((letter, []) :: p.1, p.2)
    else .error ("invalid option -- '".toList ++ [letter, '\''])

def readWithin (plain valued : Text) : Nat → List Text → Except Text Arguments
  | 0, _ => .ok {}
  | _, [] => .ok {}
  | _, ['-', '-'] :: rest => .ok { operands := rest }
  | fuel + 1, ('-' :: letter :: more) :: rest => do
    if letter = '-' then
      .error ("unrecognized option '--".toList ++ more ++ ['\''])
    else
      let (options, rest) ← group plain valued (letter :: more) rest
      let others ← readWithin plain valued fuel rest
      return { others with options := options ++ others.options }
  | fuel + 1, operand :: rest => do
    let others ← readWithin plain valued fuel rest
    return { others with operands := operand :: others.operands }

def read (plain valued : String) (arguments : List Text) : Except Text Arguments :=
  readWithin plain.toList valued.toList (arguments.length + 1) arguments

end Arguments

abbrev Applet := (name : Text) → (arguments : List Text) → Job

namespace Job

def complainAs (name message : Text) : JobStep := complain (name ++ ": ".toList ++ message)

def adviseOn (name : Text) : JobStep :=
  complain ("Try '".toList ++ name ++ " --help' for more information.".toList)

def refuseUse (name message : Text) : Job := do
  complainAs name message
  adviseOn name
  return 1

def refuseUseHard (name message : Text) : Job := do
  complainAs name message
  adviseOn name
  return 2

def withArgumentsOr (refuse : Text → Text → Job) (plain valued : String)
    (run : Text → Arguments → Job) : Applet :=
  fun name arguments =>
    match Arguments.read plain valued arguments with
    | .ok a => run name a
    | .error message => refuse name message

def withArguments : String → String → (Text → Arguments → Job) → Applet :=
  withArgumentsOr refuseUse

def withOperands (plain valued : String) (run : Text → Arguments → Job) : Applet :=
  withArguments plain valued fun name a =>
    if a.operands.isEmpty then refuseUse name "missing operand".toList else run name a

def forEach (operands : List Text) (run : Text → StateM World Bool) : Job := do
  let mut code := 0
  for operand in operands do
    if !(← run operand) then code := 1
  return code

def readOperand (operand : Text) : StateM World (Except OsError (List UInt8)) := do
  if operand = ['-'] || operand = "/dev/stdin".toList then return .ok (← takeInput)
  else if operand = nullDevice then return .ok []
  else return ((← get).tree.readBytes operand).map (·.toList)

def settle (name action operand : Text) : Except OsError FileTree → StateM World Bool
  | .ok tree => do
    modify fun w => { w with tree := tree }
    return true
  | .error e => do
    complainAs name (action ++ ' ' :: Quoting.quoted operand ++ ": ".toList ++ refusal e)
    return false

end Job
end ShaderReflection.Shell
