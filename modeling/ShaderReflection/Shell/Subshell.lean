import ShaderReflection.Shell.Grammar
import ShaderReflection.Shell.Launch
import ShaderReflection.Shell.State
/-!
Running a whole script: to its end with what was put off to the end, in a shell of its own, or for
what it writes. How a single command is run is left open.
-/
namespace ShaderReflection.Shell

abbrev Runner := (tested : Bool) → Command → Run Unit

def runText (run : Runner) (tested : Bool) (line : Nat) (script : Text) : Run Unit := do
  let (commands, misplaced?) := commandsOf line script
  if commands.isEmpty then Run.setStatus 0
  for command in commands do
    if !(← get).has 'n' then run tested command
  if let some misplaced := misplaced? then
    modify fun s => { s with line := misplaced.line }
    Run.fail ("Syntax error: ".toList ++ misplaced.message)

def endOf : EStateM.Result Detour State Unit → Ending × State
  | .error (.killed signal) s => (.killed signal, s)
  | .ok _ s | .error _ s => (.exited (s.status % 256), s)

def toEnd (run : Runner) (body : Run Unit) (s : State) : Ending × State :=
  match endOf (body s) with
  | (.killed signal, s) => (.killed signal, s)
  | (.exited code, s) =>
    match s.trap? 0 with
    | none => (.exited code, s)
    | some script =>
      let last : Run Unit := do
        runText run false 1 script
        Run.setStatus code
      endOf (last { s with traps := s.traps.filter (·.1 != 0) })

def World.after (before after : World) : World :=
  { after with
    streams := before.streams
    tree := { after.tree with cwd := before.tree.cwd } }

def inSubshell (run : Runner) (body : Run Unit) : Run Unit := fun s =>
  let ignored := s.traps.filter (·.2.isEmpty)
  match toEnd run body { s with traps := ignored, due := [], loops := 0 } with
  | (.exited code, t) => .ok () { s with world := s.world.after t.world, status := code }
  | (.killed signal, t) =>
    .error (.killed signal) { s with world := s.world.after t.world }

def gathering (body : Run Unit) : Run (List UInt8) := fun s =>
  let index := s.world.outputs.length
  let taken (t : State) : List UInt8 × State :=
    (t.world.outputs[index]?.getD [],
      { t with world := { s.world.after t.world with outputs := t.world.outputs.take index } })
  match body { s with world := s.world.gather World.standardOutput } with
  | .ok _ t => let (bytes, t) := taken t; .ok bytes t
  | .error e t => .error e (taken t).2

def outputOf (run : Runner) (line : Nat) (script : Text) : Run Text := do
  let status := (← get).status
  let bytes ← gathering (inSubshell run (runText run false line script))
  modify fun s => { s with substituted := s.status, status := status }
  return Text.trimEnd (· == '\n') (Text.ofUtf8Lossy (bytes.filter (· != 0)))

end ShaderReflection.Shell
