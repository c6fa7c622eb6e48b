import ShaderReflection.CommandLine
/-!
The program: takes in the files that a run can look at, runs it on them as a value, and stores what
has changed. Only what touches the disk is here.
-/
namespace ShaderReflection.Main

def absolute (location : Location) : String := String.ofList ('/' :: Text.joinWith ['/'] location)

def load (tree : FileTree) (location : Location) : IO (FileTree × List String) := do
  let path := absolute location
  match ← (do (← IO.FS.realPath path).readDir : IO _).toBaseIO with
  | .ok entries =>
    return (tree.put location .directory, entries.toList.map (·.fileName))
  | .error _ =>
    match ← (IO.FS.readBinFile path).toBaseIO with
    | .ok content =>
      return (tree.put location (.file content (Text.toUtf8 ['#', '!'] |>.isPrefixOf
        (content.extract 0 2).toList)), [])
    | .error _ => return (tree, [])

def follow (location : Location) (name : Text) : Location :=
  if name = ['.'] then location
  else if name = ['.', '.'] then location.dropLast
  else location ++ [name]

def loadPath (tree : FileTree) (path : Path) : IO FileTree := do
  let mut tree := tree
  let mut names := []
  let mut location := tree.origin path
  for name in Path.pieces path do
    location := follow location name
    (tree, names) ← load tree location
  for name in names do
    (tree, _) ← load tree (location ++ [name.toList])
  return tree

def store (location : Location) : FileNode → IO Unit
  | .directory => IO.FS.createDirAll (absolute location)
  | .file content _ => IO.FS.writeBinFile (absolute location) content

def isIn (tree : FileTree) (location : Location) (node : FileNode) : Bool :=
  match tree.get? location, node with
  | some .directory, .directory => true
  | some (.file old _), .file new _ => old == new
  | _, _ => false

def settingNames : List String :=
  ["SHADER_META_BACKEND", "SHADER_META_COMPILER", "SHADER_META_LINKER", "SHADER_META_ANALYZER"]

def settings : IO Settings :=
  settingNames.filterMapM fun name => do
    return (← IO.getEnv name).map fun value => (name, value.toList)

def run (arguments : List String) : IO UInt32 := do
  let settings ← settings
  let tools := ToolPaths.ofSettings settings
  let arguments := arguments.map (·.toList)
  let directory := (← IO.currentDir).toString.toList
  let mut tree ← loadPath ⟨Path.pieces directory, []⟩ directory
  for path in arguments.take 2 ++ [tools.compiler, tools.linker, tools.analyzer] do
    tree ← loadPath tree path
  let result := CommandLine.run (Program.run settings) settings arguments tree
  for (location, node) in result.tree.nodes do
    if !isIn tree location node then store location node
  IO.print result.stdout
  (← IO.getStderr).putStr result.stderr
  return UInt32.ofNat result.exitCode

end ShaderReflection.Main

def main (arguments : List String) : IO UInt32 := ShaderReflection.Main.run arguments
