import ShaderReflection.Shell.Launch
import ShaderReflection.Shell.Line
import ShaderReflection.Shell.Options
import ShaderReflection.Shell.Signal
import ShaderReflection.Shell.State
/-!
The commands that are part of the shell and need nothing but its state. Each is given its arguments
and gives an exit code.
-/
namespace ShaderReflection.Shell

abbrev Builtin := List Text → Run Nat

namespace Builtin

def refuse (message : Text) : Run Nat := do
  Run.complain message
  return 2

def echo (arguments : List Text) : Run Nat := do
  if !(← get).echoesEscapes then Run.job (Applet.echo "echo".toList arguments)
  else
    let quiet := arguments.head? == some ['-', 'n']
    let line := Text.joinWith [' '] (if quiet then arguments.tail else arguments)
    let (bytes, stopped) := unescaped .shell line
    Run.print (if stopped || quiet then bytes else bytes ++ [10])
    return 0

def printf (arguments : List Text) : Run Nat := do
  let arguments := if arguments.head? = some ['-', '-'] then arguments.tail else arguments
  match arguments with
  | [] => refuse "usage: printf format [arg ...]".toList
  | text :: rest =>
    let printing := format .shell text rest
    Run.print printing.output
    for complaint in printing.complaints do
      Run.complain complaint
    match printing.invalid? with
    | some (conversion, true) => refuse (conversion ++ ": invalid directive".toList)
    | some (_, false) => refuse "missing format character".toList
    | none => return if printing.complaints.isEmpty then 0 else 1

def test (arguments : List Text) : Run Nat := do
  match Condition.holds (← get).world.tree arguments with
  | .ok holds => return if holds then 0 else 1
  | .error message => refuse message

def bracket (arguments : List Text) : Run Nat := do
  if arguments.getLast? = some [']'] then test arguments.dropLast
  else refuse "missing ]".toList

def greatestNumber : Int := 2147483647

def number (argument : Text) : Run Nat :=
  match Condition.integer argument with
  | .ok n =>
    if 0 ≤ n && n ≤ greatestNumber then return n.toNat
    else Run.fail ("Illegal number: ".toList ++ argument)
  | .error _ => Run.fail ("Illegal number: ".toList ++ argument)

def code (arguments : List Text) : Run Nat := do
  match arguments with
  | [] => return (← get).status
  | argument :: _ => number argument

def exit (arguments : List Text) : Run Nat := do
  Run.setStatus (← code arguments)
  throw .exit

def leaveFunction (arguments : List Text) : Run Nat := do
  Run.setStatus (← code arguments)
  throw .leaveFunction

def leave (detour : Nat → Detour) (arguments : List Text) : Run Nat := do
  let count ← match arguments with
    | [] => pure 1
    | argument :: _ => number argument
  if count = 0 then Run.fail "Illegal number: 0".toList
  else
    let loops := (← get).loops
    if loops = 0 then return 0
    else
      Run.setStatus 0
      throw (detour (min count loops))

def shift (arguments : List Text) : Run Nat := do
  let count ← match arguments with
    | [] => pure 1
    | argument :: _ => number argument
  if (← get).arguments.length < count then Run.fail "can't shift that many".toList
  else
    modify fun s => { s with arguments := s.arguments.drop count }
    return 0

def setOptions (arguments : List Text) : Run Nat := do
  match OptionList.read false (← get).options arguments with
  | .error message => Run.fail message
  | .ok settings =>
    modify fun s => { s with
      options := settings.options
      arguments := if settings.replaces then settings.rest else s.arguments }
    return 0

def onVariables (run : Text → Run Unit) (arguments : List Text) : Run Nat := do
  for argument in arguments do
    let target := Text.upTo '=' argument
    if !isName target then
      Run.fail (target ++ ": bad variable name".toList)
    else
      run target
      if target.length < argument.length then
        modify fun s => s.assign target (argument.drop (target.length + 1))
  return 0

def share (arguments : List Text) : Run Nat :=
  onVariables (fun name => modify fun s => s.share name)
    (arguments.filter (· != ['-', 'p']))

def hide (arguments : List Text) : Run Nat := do
  if !(← get).inFunction then Run.fail "not in a function".toList
  onVariables (fun name => modify fun s =>
    { s with hidden := (name, s.lookup? name) :: s.hidden }) arguments

def unset (arguments : List Text) : Run Nat := do
  let functions := arguments.head? == some ['-', 'f']
  for name in arguments.filter fun a => a != ['-', 'f'] && a != ['-', 'v'] do
    if !isName name then Run.fail (name ++ ": bad variable name".toList)
    else if functions then
      modify fun s => { s with functions := s.functions.filter (·.1 != name) }
    else modify fun s => s.put name none
  return 0

def cd (arguments : List Text) : Run Nat := do
  match arguments.filter fun a => a != ['-', 'P'] && a != ['-', 'L'] with
  | path :: _ =>
    let tree := (← get).world.tree
    match tree.resolve path with
    | .ok location =>
      if tree.isDirectoryAt location then
        modify fun s => { s with world := { s.world with tree := { tree with cwd := location } } }
        return 0
      else refuse ("can't cd to ".toList ++ path)
    | .error _ => refuse ("can't cd to ".toList ++ path)
  | [] => return 0

def pwd (_ : List Text) : Run Nat := do
  let location := (← get).world.tree.cwd
  Run.print (Text.toUtf8 ('/' :: Text.joinWith ['/'] location ++ ['\n']))
  return 0

def umask (arguments : List Text) : Run Nat := do
  if arguments.isEmpty then Run.print (Text.toUtf8 "0022\n".toList)
  return 0

def read (arguments : List Text) : Run Nat := do
  let raw := arguments.any (· == ['-', 'r'])
  let names := arguments.filter (· != ['-', 'r'])
  if names.isEmpty then return ← refuse "arg count".toList
  let s ← get
  let text := Text.ofUtf8Lossy (s.world.waiting World.standardInput)
  let (line, rest, complete) := Line.take raw text
  modify fun s => { s with world := s.world.leave World.standardInput (Text.toUtf8 rest) }
  let values := Line.fields s.separators names.length line
  for (name, value) in names.zip values do
    modify fun s => s.assign name value
  return if complete then 0 else 1

def receive (signal : Nat) : Run Nat := do
  match (← get).trap? signal with
  | none => if harmlessSignals.contains signal then return 0 else throw (.killed signal)
  | some script =>
    modify fun s => { s with due := s.due ++ [script] }
    return 0

def kill (arguments : List Text) : Run Nat := do
  let (signal?, targets) := match arguments with
    | ['-', 's'] :: name :: targets => (signal? name, targets)
    | ['-', '-'] :: targets => (some 15, targets)
    | ('-' :: name) :: targets => (signal? name, targets)
    | targets => (some 15, targets)
  match signal? with
  | none => refuse ("Illegal option -".toList ++ ((arguments.head?.getD []).drop 1).take 1)
  | some signal =>
    let own := Text.decimal (← get).process
    if targets.isEmpty then
      refuse ("Usage: kill [-s sigspec | -signum | -sigspec] [pid | job]... or\n" ++
        "kill -l [exitstatus]").toList
    else if !targets.any (· == own) then
      Run.complain "No such process\n".toList
      return 1
    else if signal = 0 then return 0
    else receive signal

def trap (arguments : List Text) : Run Nat := do
  let arguments := if arguments.head? = some ['-', '-'] then arguments.tail else arguments
  let (script?, conditions) := match arguments with
    | [] => (none, [])
    | [condition] => (none, [condition])
    | script :: conditions => (if script = ['-'] then none else some script, conditions)
  for condition in conditions do
    match if condition = "EXIT".toList then some 0 else signal? condition with
    | none =>
      Run.complain (condition ++ ": bad trap".toList)
      return 1
    | some signal =>
      modify fun s => { s with traps := s.traps.filter (·.1 != signal) ++
        (script?.map fun script => (signal, script)).toList }
  return 0

def numberIn (s : State) (name : String) : Nat :=
  ((s.value? name.toList).bind (Text.natural? 10)).getD 1

def getopts (arguments : List Text) : Run Nat := do
  match arguments with
  | letters :: name :: rest =>
    let s ← get
    let list := if rest.isEmpty then s.arguments else rest
    let index := numberIn s "OPTIND"
    let place := if s.optionPlace = 0 then 1 else s.optionPlace
    let put (found : Text) (value? : Option Text) (index place : Nat) : Run Unit :=
      modify fun s =>
        let s := { s.assign name found with optionPlace := place }
        let s := s.assign "OPTIND".toList (Text.decimal index)
        match value? with
        | some value => s.assign "OPTARG".toList value
        | none => s.put "OPTARG".toList none
    let quiet := letters.head? == some ':'
    match list[index - 1]? with
    | some ('-' :: '-' :: []) =>
      put ['?'] none (index + 1) 0
      return 1
    | some ('-' :: group) =>
      match group[place - 1]? with
      | none =>
        put ['?'] none index 0
        return 1
      | some letter =>
        let later := group.drop place
        let next := if later.isEmpty then (index + 1, 0) else (index, place + 1)
        match letters.dropWhile (fun c => c != letter || c == ':') with
        | _ :: ':' :: _ =>
          if !later.isEmpty then put [letter] (some later) (index + 1) 0
          else match list[index]? with
            | some value => put [letter] (some value) (index + 2) 0
            | none =>
              if quiet then put [':'] (some [letter]) (index + 1) 0
              else
                Run.printError ("No arg for -".toList ++ letter :: " option".toList)
                put ['?'] none (index + 1) 0
          return 0
        | _ :: _ =>
          put [letter] (some []) next.1 next.2
          return 0
        | [] =>
          if quiet then put ['?'] (some [letter]) next.1 next.2
          else
            Run.printError ("Illegal option -".toList ++ [letter])
            put ['?'] none next.1 next.2
          return 0
    | _ =>
      put ['?'] none index 0
      return 1
  | _ => refuse "usage: getopts optstring var [arg...]".toList

def special? (name : Text) : Option Builtin :=
  match String.ofList name with
  | ":" => some fun _ => return 0
  | "break" => some (leave .leaveLoops)
  | "continue" => some (leave .nextRound)
  | "exit" => some exit
  | "export" => some share
  | "readonly" => some (onVariables fun _ => return ())
  | "return" => some leaveFunction
  | "set" => some setOptions
  | "shift" => some shift
  | "trap" => some trap
  | "unset" => some unset
  | _ => none

def ordinary? (name : Text) : Option Builtin :=
  match String.ofList name with
  | "[" => some bracket
  | "cd" => some cd
  | "echo" => some echo
  | "false" => some fun _ => return 1
  | "getopts" => some getopts
  | "alias" | "hash" | "unalias" | "wait" => some fun _ => return 0
  | "kill" => some kill
  | "local" => some hide
  | "printf" => some printf
  | "pwd" => some pwd
  | "read" => some read
  | "test" => some test
  | "true" => some fun _ => return 0
  | "umask" => some umask
  | _ => none

end Builtin
end ShaderReflection.Shell
