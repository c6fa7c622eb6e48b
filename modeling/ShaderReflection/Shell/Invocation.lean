import ShaderReflection.Shell.Builtin
import ShaderReflection.Shell.Redirection
import ShaderReflection.Shell.Start
/-!
Running simple commands: finding out what their names stand for, and running that with their
assignments and redirections.
-/
namespace ShaderReflection.Shell

def assignAll (run : Runner) (assignments : List (Text × Word)) : Run (List (Text × Text)) := do
  let mut done := []
  for (name, word) in assignments do
    let value ← Expansion.single (outputOf run) word
    modify fun s => s.assign name value
    done := done ++ [(name, value)]
  return done

def assignedValues (run : Runner) (assignments : List (Text × Word)) :
    Run (List (Text × Text)) := do
  let before ← get
  let assigned ← assignAll run assignments
  modify fun s => assigned.foldl (fun s p => s.put p.1 (before.lookup? p.1)) s
  return assigned

def findProgram (name : Text) (arguments : List Text) : Run (Option Launch) := do
  match Launch.ofName (← get).world.tree name arguments with
  | .ok launch => return some launch
  -- a file without interpreter is a script for the shell itself
  | .error .noProgram => return some ⟨.shell true, name, name :: arguments⟩
  | .error e =>
    Run.complain (name ++ ": ".toList ++ refusalOr e "not found")
    Run.setStatus (if e.isAbsence then 127 else 126)
    return none

def startFromScript (run : Runner) (process : Nat) (launch : Launch) : Run Ending := do
  let s ← get
  let (ending, world) := start run ⟨s.environment, process⟩ launch s.world
  set { s with world := s.world.after world }
  return ending

def runProgram (run : Runner) (name : Text) (arguments : List Text) : Run Unit := do
  if let some launch ← findProgram name arguments then
    match ← startFromScript run ((← get).process + 1) launch with
    | .exited code => Run.setStatus code
    | .killed signal =>
      if let some message := signalMessage? signal then Run.printError message.toList
      Run.setStatus (128 + signal)

def becomeProgram (run : Runner) (name : Text) (arguments : List Text) : Run Unit := do
  if let some launch ← findProgram name arguments then
    modify fun s => { s with traps := [] }
    match ← startFromScript run (← get).process launch with
    | .exited code => Run.setStatus code
    | .killed signal => throw (.killed signal)
  throw .exit

def callFunction (run : Runner) (tested : Bool) (body : Command) (arguments : List Text) :
    Run Unit := fun s =>
  let back (t : State) : State :=
    let t := t.hidden.foldl (fun t p => t.put p.1 p.2) t
    { t with
      arguments := s.arguments
      hidden := s.hidden
      inFunction := s.inFunction
      loops := s.loops }
  let inside := { s with arguments := arguments, hidden := [], inFunction := true, loops := 0 }
  match run tested body inside with
  | .ok _ t | .error .leaveFunction t => .ok () (back t)
  | .error e t => .error e (back t)

def runFile (run : Runner) (tested : Bool) (path : Path) : Run Unit := do
  if !path.contains '/' then Run.fail (path ++ ": not found".toList)
  else
    match (← get).world.tree.readBytes path with
    | .ok content =>
      Run.inCommand path fun s =>
        match runText run tested 1 (Text.ofUtf8Lossy content.toList) s with
        | .error .leaveFunction t => .ok () t
        | result => result
    | .error e =>
      Run.fail ("cannot open ".toList ++ path ++ ": ".toList ++ refusalOr e "No such file")

def runnerNames : List Text := [".", "command", "eval", "exec", "type"].map String.toList

def programPath? (tree : FileTree) (name : Text) : Option Path :=
  if name.contains '/' then (Launch.ofName tree name []).toOption.map fun _ => name
  else (Image.named? name).map fun _ => "/usr/bin/".toList ++ name

def locate (name : Text) : Run Unit := do
  let s ← get
  let isOwn := (Builtin.special? name).isSome || (Builtin.ordinary? name).isSome ||
    s.functions.any (·.1 == name) || runnerNames.any (· == name)
  match if isOwn then some name else programPath? s.world.tree name with
  | some path =>
    Run.print (Text.toUtf8 (path ++ ['\n']))
    Run.setStatus 0
  | none => Run.setStatus 127

def describe : List Text → Run Unit
  | [] => return ()
  | name :: rest => do
    let s ← get
    let kind? :=
      if reservedWords.any (· == name) then some " is a shell keyword".toList
      else if s.functions.any (·.1 == name) then some " is a shell function".toList
      else if (Builtin.special? name).isSome || ["eval", "exec", "."].any (·.toList == name) then
        some " is a special shell builtin".toList
      else if (Builtin.ordinary? name).isSome || runnerNames.any (· == name) then
        some " is a shell builtin".toList
      else (programPath? s.world.tree name).map fun path => " is ".toList ++ path
    Run.print (Text.toUtf8 (name ++ kind?.getD ": not found".toList ++ ['\n']))
    describe rest
    if kind?.isNone then Run.setStatus 127

def runBuiltin (name : Text) (builtin : Builtin) (arguments : List Text) : Run Unit := do
  Run.setStatus (← Run.inCommand name (builtin arguments))

def runNamed (run : Runner) (tested : Bool) (name : Text) (arguments : List Text) : Run Unit := do
  match Builtin.special? name with
  | some builtin => runBuiltin name builtin arguments
  | none =>
    match String.ofList name, arguments with
    | "eval", words => Run.inCommand name (runText run tested 1 (Text.joinWith [' '] words))
    | ".", path :: _ => Run.inCommand name (runFile run tested path)
    | ".", [] => Run.setStatus 0
    | "exec", program :: rest =>
      Run.inCommand name (becomeProgram run program rest)
    | "exec", [] => Run.setStatus 0
    | "command", option :: words =>
      if option = ['-', 'v'] then
        match words with
        | word :: _ => locate word
        | [] => Run.setStatus 0
      else
        match Builtin.special? option, Builtin.ordinary? option with
        | some builtin, _ | none, some builtin => runBuiltin option builtin words
        | none, none => runProgram run option words
    | "command", [] => Run.setStatus 0
    | "type", names =>
      Run.setStatus 0
      describe names
    | _, _ =>
      match Builtin.ordinary? name with
      | some builtin => runBuiltin name builtin arguments
      | none => runProgram run name arguments

def isSpecial (name : Text) : Bool :=
  (Builtin.special? name).isSome || [".", "eval", "exec"].any (·.toList == name)

def traceCommand (shown : Option Channel) (assigned : List (Text × Text)) (fields : List Text) :
    Run Unit := do
  if (← get).has 'x' then
    let words := assigned.map (fun p => p.1 ++ '=' :: p.2) ++ fields
    let line := "+ ".toList ++ Text.joinWith [' '] words ++ ['\n']
    modify fun s => { s with world := s.world.writeTo (Text.toUtf8 line) shown }

def withAssignments (assigned : List (Text × Text)) (body : Run Unit) : Run Unit := do
  let before ← get
  for (name, value) in assigned do modify fun s => (s.assign name value).share name
  let back (t : State) : State :=
    assigned.foldl (fun t p => t.put p.1 (before.lookup? p.1)) t
  fun s => match body s with
    | .ok _ t => .ok () (back t)
    | .error e t => .error e (back t)

def runSimple (run : Runner) (tested : Bool) (line : Nat) (assignments : List (Text × Word))
    (words : List Word) (redirects : List Redirect) : Run Unit := do
  modify fun s => { s with line := line, substituted := 0 }
  let fields ← Expansion.fields (outputOf run) words
  let shown := (← get).world.channel? World.standardError
  match fields with
  | [] =>
    Run.keepingStreams do
      if ← redirectAll run redirects then
        let assigned ← assignAll run assignments
        if !assigned.isEmpty then traceCommand shown assigned []
        modify fun s => { s with status := s.substituted }
  | name :: arguments =>
    if name = "exec".toList && arguments.isEmpty then
      traceCommand shown [] fields
      if ← redirectAll run redirects then Run.setStatus 0 else throw .exit
    else
      Run.keepingStreams do
        if ← redirectAll run redirects then
          let assigned ← assignedValues run assignments
          traceCommand shown assigned fields
          if isSpecial name then
            modify fun s => assigned.foldl (fun s p => s.assign p.1 p.2) s
            runNamed run tested name arguments
          else withAssignments assigned do
            match (← get).functions.find? (·.1 == name) with
            | some (_, body) => callFunction run tested body arguments
            | none => runNamed run tested name arguments
        else if isSpecial name then throw .exit

end ShaderReflection.Shell
