import ShaderReflection.Shell.Expansion
import ShaderReflection.Shell.Subshell
/-!
Redirections: streams that are led to files, to other streams or to text of the script.
-/
namespace ShaderReflection.Shell

def streamAt? (path : Path) : Option Nat :=
  match String.ofList path with
  | "/dev/stdin" | "/dev/fd/0" => some 0
  | "/dev/stdout" | "/dev/fd/1" => some 1
  | "/dev/stderr" | "/dev/fd/2" => some 2
  | _ => none

def openForWriting (stream : Nat) (path : Path) (appending : Bool) : Run Bool := do
  let world := (← get).world
  let connect (world : World) (channel : Option Channel) : Run Bool := do
    modify fun s => { s with world := world.connect stream channel }
    return true
  if path = nullDevice then connect world (some .nowhere)
  else match streamAt? path with
    | some other => connect world (world.channel? other)
    | none =>
      let tree := world.tree
      if (← get).has 'C' && !appending && tree.isFile path then
        Run.complain ("cannot create ".toList ++ path ++ ": ".toList ++ refusal .alreadyExists)
        return false
      let content := if appending then (tree.readBytes path).toOption.getD .empty else .empty
      match tree.writeBytes path content with
      | .ok tree =>
        connect { world with tree := tree } ((tree.resolve path).toOption.map .file)
      | .error e =>
        Run.complain ("cannot create ".toList ++ path ++ ": ".toList ++
          refusalOr e "Directory nonexistent")
        return false

def redirectStream (run : Runner) (redirect : Redirect) : Run Bool := do
  match redirect with
  | .read stream word =>
    let path ← Expansion.single (outputOf run) word
    let world := (← get).world
    let change (world : World) : Run Bool := do
      modify fun s => { s with world := world }
      return true
    if path = nullDevice then change (world.connect stream (some .nowhere))
    else match streamAt? path with
      | some other => change (world.connect stream (world.channel? other))
      | none =>
        match world.tree.readBytes path with
        | .ok content => change (world.feed stream content.toList)
        | .error .isDirectory => change (world.feed stream [])
        | .error e =>
          Run.complain ("cannot open ".toList ++ path ++ ": ".toList ++
            refusalOr e "No such file")
          return false
  | .write stream word =>
    openForWriting stream (← Expansion.single (outputOf run) word) false
  | .append stream word =>
    openForWriting stream (← Expansion.single (outputOf run) word) true
  | .here stream body =>
    let text ← Expansion.single (outputOf run) body
    modify fun s => { s with world := s.world.feed stream (Text.toUtf8 text) }
    return true
  | .duplicate stream word =>
    let target ← Expansion.single (outputOf run) word
    let world := (← get).world
    if target = ['-'] then
      modify fun s => { s with world := world.connect stream none }
      return true
    else match Text.natural? 10 target with
      | none => Run.fail "Syntax error: Bad fd number".toList
      | some other =>
        match world.channel? other with
        | some channel =>
          modify fun s => { s with world := world.connect stream (some channel) }
          return true
        | none =>
          Run.complain (target ++ ": Bad file descriptor".toList)
          return false

def redirectAll (run : Runner) : List Redirect → Run Bool
  | [] => return true
  | redirect :: rest => do
    if ← redirectStream run redirect then redirectAll run rest
    else
      Run.setStatus 2
      return false

end ShaderReflection.Shell
