import ShaderReflection.Shell.Script
import ShaderReflection.Shell.World
/-!
The state of a shell that runs a script: the world around it, its parameters, functions and options.
Commands change it and may leave the usual course.
-/
namespace ShaderReflection.Shell

structure Variable where
  name : Text
  value : Text
  exported : Bool := false
  deriving DecidableEq, Repr

structure State where
  world : World := {}
  name : Text
  arguments : List Text := []
  bindings : List Variable := []
  functions : List (Text × Command) := []
  inFunction : Bool := false
  hidden : List (Text × Option Variable) := []
  options : List Char := []
  status : Nat := 0
  substituted : Nat := 0
  line : Nat := 1
  command? : Option Text := none
  loops : Nat := 0
  process : Nat := 1
  optionPlace : Nat := 0
  traps : List (Nat × Text) := []
  due : List Text := []
  echoesEscapes : Bool := true

inductive Detour where
  | exit
  | killed (signal : Nat)
  | leaveLoops (count : Nat)
  | nextRound (count : Nat)
  | leaveFunction
  deriving DecidableEq, Repr

abbrev Run := EStateM Detour State

namespace State

def has (s : State) (option : Char) : Bool := s.options.contains option

def lookup? (s : State) (name : Text) : Option Variable := s.bindings.find? (·.name == name)

def value? (s : State) (name : Text) : Option Text := (s.lookup? name).map (·.value)

def put (s : State) (name : Text) (lookup? : Option Variable) : State :=
  { s with bindings := s.bindings.filter (·.name != name) ++ lookup?.toList }

def assign (s : State) (name value : Text) : State :=
  let exported := ((s.lookup? name).map (·.exported)).getD false || s.has 'a'
  s.put name (some ⟨name, value, exported⟩)

def share (s : State) (name : Text) : State :=
  s.put name (some ⟨name, (s.value? name).getD [], true⟩)

def trap? (s : State) (signal : Nat) : Option Text :=
  (s.traps.find? (·.1 == signal)).map (·.2)

def environment (s : State) : List Variable := s.bindings.filter (·.exported)

def parameter? (s : State) (name : Text) : Option Text :=
  match name with
  | ['#'] => some (Text.decimal s.arguments.length)
  | ['?'] => some (Text.decimal s.status)
  | ['$'] => some (Text.decimal s.process)
  | ['-'] => some s.options
  | ['!'] => none
  | _ =>
    match Text.natural? 10 name with
    | some 0 => some s.name
    | some n => s.arguments[n - 1]?
    | none => s.value? name

def separators (s : State) : Text := (s.value? "IFS".toList).getD [' ', '\t', '\n']

end State

namespace Run

def setStatus (status : Nat) : Run Unit := modify fun s => { s with status := status }

def job (run : Job) : Run Nat :=
  modifyGet fun s => let (code, world) := run s.world; (code, { s with world := world })

def print (bytes : List UInt8) : Run Unit :=
  modify fun s => { s with world := s.world.write World.standardOutput bytes }

def printError (line : Text) : Run Unit :=
  modify fun s =>
    { s with world := s.world.write World.standardError (Text.toUtf8 (line ++ ['\n'])) }

def complain (message : Text) : Run Unit := do
  let s ← get
  let place := [s.name, Text.decimal s.line] ++ s.command?.toList
  printError (place.flatMap (· ++ [':', ' ']) ++ message)

def fail {α : Type} (message : Text) : Run α := do
  complain message
  setStatus 2
  throw .exit

def keepingStreams {α : Type} (run : Run α) : Run α := fun s =>
  let back (t : State) : State := { t with world := { t.world with streams := s.world.streams } }
  match run s with
  | .ok a t => .ok a (back t)
  | .error e t => .error e (back t)

def inCommand {α : Type} (name : Text) (run : Run α) : Run α := fun s =>
  match run { s with command? := some name } with
  | .ok a t => .ok a { t with command? := s.command? }
  | .error e t => .error e { t with command? := s.command? }

end Run
end ShaderReflection.Shell
