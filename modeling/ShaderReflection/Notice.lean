import ShaderReflection.Document.Read
import ShaderReflection.Dump.Reflection
import ShaderReflection.Glsl.Declaration
import ShaderReflection.OsError
import ShaderReflection.Path
/-!
The errors of extracting metadata, and the notices that are given on the way. Both are causes; their
wording is in one function each.
-/
namespace ShaderReflection

inductive ExtractError where
  | unknownStage (path : Path)
  | readSource (path : Path) (cause : OsError)
  | launchTool (program : Path) (cause : OsError)
  | artifactDirectory (path : Path) (cause : OsError)
  | reflectionDocument (fault : Json.Fault) (document : Text)
  deriving DecidableEq, Repr

namespace ExtractError

def cause? : ExtractError → Option String
  | unknownStage _ => none
  | readSource _ cause | launchTool _ cause | artifactDirectory _ cause => some cause.message
  | reflectionDocument fault document => some (fault.message document)

def label : ExtractError → String
  | unknownStage path => s!"no shader stage for file extension: {String.ofList path}"
  | readSource path _ => s!"failed to read shader source {String.ofList path}"
  | launchTool program _ => s!"failed to launch {String.ofList program}"
  | artifactDirectory path _ => s!"failed to create artifact directory {String.ofList path}"
  | reflectionDocument _ _ => "malformed reflection document"

def message (e : ExtractError) : String :=
  match e.cause? with
  | some cause => s!"{e.label}: {cause}"
  | none => e.label

end ExtractError

inductive ShaderFailure where
  | extraction (e : ExtractError)
  | system (cause : OsError)
  deriving DecidableEq, Repr

namespace ShaderFailure

def message : ShaderFailure → String
  | extraction e => e.message
  | system cause => cause.message

def report : ShaderFailure → String
  | extraction e => match e.cause? with
    | some cause => s!"{e.message}: {cause}"
    | none => e.message
  | system cause => cause.message

end ShaderFailure

inductive Level where
  | error
  | warning
  | info
  | debug
  deriving DecidableEq, Repr

def Level.label : Level → String
  | error => "ERROR"
  | warning => "WARN"
  | info => "INFO"
  | debug => "DEBUG"

inductive Notice where
  | source (remark : Glsl.Remark)
  | reflection (remark : Dump.ReflectionRemark)
  | extracting (path : Path) (stage : Stage) (backend : Backend)
  | reflected (path : Path) (stage : Stage) (uniforms : Nat)
  | unsupported (path : Path) (e : UnsupportedStage)
  | duplicate (path : Path) (listing : Interface.Listing) (name : Text)
  | rejected (path : Path) (exitCode : Int32) (stderr : Text)
  | wrote (path : Path)
  | failed (path : Path) (e : ShaderFailure)
  | summary (shaders failures : Nat)
  deriving DecidableEq

namespace Notice

def level : Notice → Level
  | source _ | reflection _ | extracting _ _ _ | reflected _ _ _ | wrote _ => .debug
  | unsupported _ _ | duplicate _ _ _ | rejected _ _ _ => .warning
  | failed _ _ => .error
  | summary _ _ => .info

def message : Notice → String
  | source remark => remark.message
  | reflection remark => remark.message
  | extracting path stage backend =>
    s!"extracting {String.ofList path} ({stage.label}) with the {backend.label} backend"
  | reflected path stage uniforms =>
    s!"{String.ofList path} ({stage.label}): {uniforms} uniforms from spirv reflection"
  | unsupported path e => s!"{String.ofList path}: {e.message}"
  | duplicate path listing name =>
    s!"{String.ofList path}: '{String.ofList name}' is declared more than once in {listing.label}"
  | rejected path exitCode stderr =>
    s!"{String.ofList path} failed (exit code {exitCode.toInt}):\n{String.ofList stderr}"
  | wrote path => s!"wrote {String.ofList path}"
  | failed path e => s!"{String.ofList path}: {e.report}"
  | summary shaders failures => s!"wrote metadata for {shaders} shaders ({failures} failed)"

end Notice
end ShaderReflection
