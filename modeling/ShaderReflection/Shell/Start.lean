import ShaderReflection.Shell.Options
import ShaderReflection.Shell.Signal
import ShaderReflection.Shell.Subshell
/-!
Starting programs: a shell on its options and script, `env` on its variables, and the others.
-/
namespace ShaderReflection.Shell

def refuseStart (world : World) (name message : Text) : Ending × World :=
  let line := name ++ ": 0: ".toList ++ message ++ ['\n']
  (.exited 2, world.write World.standardError (Text.toUtf8 line))

def runScript (run : Runner) (start : State) (script : Text) : Ending × World :=
  let (ending, s) := toEnd run (runText run false 1 script) start
  (ending, s.world)

def startShell (run : Runner) (start : State) (arguments : List Text) : Ending × World :=
  let world := start.world
  match OptionList.read true [] arguments with
  | .error message => refuseStart world start.name message
  | .ok settings =>
    let start := { start with options := settings.options }
    if settings.isScript then
      match settings.rest with
      | [] => refuseStart world start.name "-c requires an argument".toList
      | [script] => runScript run start script
      | script :: name :: rest =>
        runScript run { start with name := name, arguments := rest } script
    else
      let readsScript := settings.rest.isEmpty || settings.options.contains 's'
      if readsScript then
        let script := Text.ofUtf8Lossy (world.waiting World.standardInput)
        let world := world.leave World.standardInput []
        runScript run { start with world := world, arguments := settings.rest } script
      else
        let path := settings.rest.head?.getD []
        match world.tree.readBytes path with
        | .ok content =>
          runScript run { start with name := path, arguments := settings.rest.tail }
            (Text.ofUtf8Lossy content.toList)
        | .error .isDirectory => (.exited 0, world)
        | .error e =>
          refuseStart world start.name ("cannot open ".toList ++ path ++ ": ".toList ++
            refusalOr e "No such file")

structure Context where
  environment : List Variable
  process : Nat

def startImage (run : Runner) (context : Context) (launch : Launch) (world : World) :
    Ending × World :=
  match launch.image with
  | .job job => let (code, world) := job launch.name launch.arguments world; (.exited code, world)
  | .environment => (.exited 0, world)
  | .shell echoesEscapes =>
    let start : State := { world := world, name := launch.name, bindings := context.environment,
                           process := context.process, echoesEscapes := echoesEscapes }
    startShell run start launch.arguments

def startEnvironment (run : Runner) (name : Text) :
    Nat → Context → List Text → World → Ending × World
  | 0, _, _, world => (.killed killSignal, world)
  | fuel + 1, context, arguments, world =>
    match arguments with
    | ['-', 'i'] :: rest | ['-'] :: rest =>
      startEnvironment run name fuel { context with environment := [] } rest world
    | ['-', 'u'] :: gone :: rest =>
      let others := context.environment.filter (·.name != gone)
      startEnvironment run name fuel { context with environment := others } rest world
    | [] =>
      let lines := context.environment.flatMap fun v => v.name ++ '=' :: v.value ++ ['\n']
      (.exited 0, world.write World.standardOutput (Text.toUtf8 lines))
    | word :: rest =>
      match Text.splitFirst? '=' word with
      | some (target, value) =>
        let others := context.environment.filter (·.name != target)
        startEnvironment run name fuel
          { context with environment := others ++ [⟨target, value, true⟩] } rest world
      | none =>
        match Launch.ofName world.tree word rest with
        | .ok launch =>
          match launch.image with
          | .environment => startEnvironment run launch.name fuel context launch.arguments world
          | _ => startImage run context launch world
        | .error e =>
          let complaint : JobStep := do
            Job.complainAs name (Quoting.quoted word ++ ": ".toList ++ refusal e)
            if word.contains ' ' then
              Job.complainAs name "use -[v]S to pass options in shebang lines".toList
          (.exited (if e = .notFound then 127 else 126), (complaint world).2)

def start (run : Runner) (context : Context) (launch : Launch) (world : World) : Ending × World :=
  match launch.image with
  | .environment =>
    let most := launch.arguments.length * 2 + 8
    startEnvironment run launch.name most context launch.arguments world
  | _ => startImage run context launch world

end ShaderReflection.Shell
