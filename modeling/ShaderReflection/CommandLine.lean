import ShaderReflection.Batch
import ShaderReflection.Program
/-!
The command line as a function: arguments, settings and a file tree in; exit code, output and the
changed tree out.
-/
namespace ShaderReflection.CommandLine

structure Result where
  exitCode : Nat
  stdout : String
  stderr : String
  tree : FileTree

def usage : String := "usage: shader-meta <shader source dir> <metadata dir>"

def errorLine (message : String) : String := s!"Error: {message}\n"

def logLine (notice : Notice) : Option String :=
  match notice.level with
  | .error => some s!" ERROR shader_meta::shaders::build_tasks > {notice.message}\n"
  | _ => none

def failure (tree : FileTree) (message : String) : Result := ⟨1, "", errorLine message, tree⟩

def backendOf (settings : Settings) : Except Backend.Unknown Backend :=
  match settings.get? "SHADER_META_BACKEND" with
  | some name => Backend.ofName name
  | none => .ok .standard

/-- Writes the metadata of the shaders in the directory of the first argument to the directory of
the second. Artifacts go to the latter, too. -/
def run (runner : ToolRunner) (settings : Settings) (arguments : List Text) (tree : FileTree) :
    Result :=
  match arguments with
  | sources :: documents :: _ =>
    match backendOf settings with
    | .error e => failure tree e.message
    | .ok backend =>
      let batch : Batch := ⟨backend, sources, documents⟩
      let extractor : Extractor := ⟨ToolPaths.ofSettings settings, runner, documents⟩
      match batch.writeAll extractor { tree := tree } with
      | .ok _ s => ⟨0, "", String.join (s.notices.filterMap logLine), s.tree⟩
      | .error cause s =>
        ⟨1, "", String.join (s.notices.filterMap logLine) ++ errorLine cause.message, s.tree⟩
  | _ => failure tree usage

end ShaderReflection.CommandLine
