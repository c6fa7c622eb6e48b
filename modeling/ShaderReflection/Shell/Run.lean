import ShaderReflection.Shell.Invocation
/-!
Running commands. A command is run by a function that is given how the commands in it are run; the
depth to which they are nested is bounded, and so is the number of rounds of a loop. A script that
goes beyond the bounds is killed. All this stands in for processes of the system, and no result is
about it.
-/
namespace ShaderReflection.Shell

def checkFailure (tested : Bool) : Run Unit := do
  let s ← get
  if !tested && s.status != 0 && s.has 'e' then throw .exit

def runPipeline (run : Runner) (tested : Bool) : List Command → Run Unit
  | [] => return ()
  | [command] => inSubshell run (run tested command)
  | command :: rest => do
    let bytes ← gathering (inSubshell run (run tested command))
    Run.keepingStreams do
      modify fun s => { s with world := s.world.feed World.standardInput bytes }
      runPipeline run tested rest

def mostRounds : Nat := 1000000

def loopRound (round : Run (Option Nat)) : Run (Option Nat) := fun s =>
  match round { s with loops := s.loops + 1 } with
  | .ok status t => .ok status { t with loops := s.loops }
  | .error e t =>
    let t := { t with loops := s.loops }
    match e with
    | .leaveLoops count => if count ≤ 1 then .ok none t else .error (.leaveLoops (count - 1)) t
    | .nextRound count => if count ≤ 1 then .ok (some 0) t else .error (.nextRound (count - 1)) t
    | e => .error e t

def runRounds (round : Nat → Run (Option Nat)) : (most last : Nat) → Run Unit
  | 0, _ => throw (.killed killSignal)
  | most + 1, last => do
    if let some status ← loopRound (round last) then runRounds round most status

def runLoop (run : Runner) (tested outcome : Bool) (condition body : Command) : Run Unit :=
  let round (last : Nat) : Run (Option Nat) := do
    run true condition
    if ((← get).status == 0) == outcome then
      run tested body
      return some (← get).status
    else
      Run.setStatus last
      return none
  runRounds round mostRounds 0

def runEach (run : Runner) (tested : Bool) (name : Text) (body : Command) :
    List Text → Run Unit
  | [] => return ()
  | value :: rest => do
    let status? ← loopRound do
      modify fun s => s.assign name value
      run tested body
      return some (← get).status
    if status?.isSome then runEach run tested name body rest

def fitsAny (run : Runner) (text : Text) : List Word → Run Bool
  | [] => return false
  | word :: rest => do
    let glyphs ← Expansion.parts (outputOf run) word
    if Pattern.fits (Expansion.patternOf glyphs) text then return true else fitsAny run text rest

def runChoice (run : Runner) (tested : Bool) (text : Text) :
    List (List Word × Command) → Run Unit
  | [] => Run.setStatus 0
  | (patterns, body) :: rest => do
    if ← fitsAny run text patterns then
      match body with
      | .sequence [] => Run.setStatus 0
      | body => run tested body
    else runChoice run tested text rest

def runDue (run : Runner) : Run Unit := do
  let s ← get
  if !s.due.isEmpty then
    set { s with due := [] }
    for script in s.due do runText run false 1 script
    Run.setStatus s.status

def execute (run : Runner) (tested : Bool) : Command → Run Unit
  | .simple line assignments words => do
    runSimple run tested line assignments words []
    runDue run
    checkFailure tested
  | .redirected _ (.simple line assignments words) redirects => do
    runSimple run tested line assignments words redirects
    runDue run
    checkFailure tested
  | .redirected line command redirects => do
    modify fun s => { s with line := line }
    Run.keepingStreams do
      if ← redirectAll run redirects then run tested command
  | .pipeline commands => do
    runPipeline run tested commands
    checkFailure tested
  | .negated command => do
    run true command
    modify fun s => { s with status := if s.status == 0 then 1 else 0 }
  | .both first second => do
    run true first
    if (← get).status == 0 then run tested second
  | .either first second => do
    run true first
    if (← get).status != 0 then run tested second
  | .sequence commands => do
    for command in commands do run tested command
  | .subshell command => do
    inSubshell run (run tested command)
    checkFailure tested
  | .branch condition success failure => do
    run true condition
    if (← get).status == 0 then run tested success
    else match failure with
      | some command => run tested command
      | none => Run.setStatus 0
  | .loop outcome condition body => runLoop run tested outcome condition body
  | .each name words body => do
    let values ← match words with
      | some words => Expansion.fields (outputOf run) words
      | none => pure (← get).arguments
    if values.isEmpty then Run.setStatus 0 else runEach run tested name body values
  | .choice word arms => do
    let text ← Expansion.single (outputOf run) word
    runChoice run tested text arms
  | .define name body => do
    modify fun s =>
      { s with functions := (name, body) :: s.functions.filter (·.1 != name), status := 0 }

def runner : Nat → Runner
  | 0 => fun _ _ => throw (.killed killSignal)
  | depth + 1 => execute (runner depth)

def mostDepth : Nat := 2000

end ShaderReflection.Shell
