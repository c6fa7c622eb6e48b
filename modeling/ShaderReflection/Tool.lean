import ShaderReflection.FileTree
import ShaderReflection.Metadata
import ShaderReflection.Text.LowerCase
/-!
The external tools: where their programs are, how settings name them, and what running one gives.
-/
namespace ShaderReflection

/-- What a tool does, as a function of program, arguments and files: it runs to an end, or it cannot
be started. It may change files. -/
abbrev ToolRunner := Path → List Text → FileTree → Except OsError Diagnostics × FileTree

def ToolRunner.fixed (outcome : Path → List Text → Except OsError Diagnostics) : ToolRunner :=
  fun program arguments tree => (outcome program arguments, tree)

structure ToolPaths where
  compiler : Path := "glslangValidator".toList
  linker : Path := "glslangValidator".toList
  analyzer : Path := "vk_shader_analyze".toList
  deriving DecidableEq, Repr

abbrev Settings := List (String × Text)

namespace Settings

def get? (settings : Settings) (name : String) : Option Text :=
  (settings.find? (·.1 == name)).map (·.2)

def isFlagSet (value : Option Text) : Bool :=
  match value with
  | none => false
  | some text => !text.isEmpty && Text.toLower text != "false".toList

end Settings

namespace ToolPaths

def ofSettings (settings : Settings) : ToolPaths :=
  let usual : ToolPaths := {}
  ⟨(settings.get? "SHADER_META_COMPILER").getD usual.compiler,
    (settings.get? "SHADER_META_LINKER").getD usual.linker,
    (settings.get? "SHADER_META_ANALYZER").getD usual.analyzer⟩

def agree (a b : ToolPaths) : Bool :=
  Path.components a.compiler == Path.components b.compiler &&
    Path.components a.linker == Path.components b.linker &&
    Path.components a.analyzer == Path.components b.analyzer

end ToolPaths
end ShaderReflection
