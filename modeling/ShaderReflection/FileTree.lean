import ShaderReflection.OsError
import ShaderReflection.Path
/-!
A tree of directories and files as a value. Paths are resolved step by step from the working
directory, every step but the last through a directory. Operations that are refused say why and
change nothing.
-/
namespace ShaderReflection

/-- The names that lead from the root of a tree to a place in it. -/
abbrev Location := List Text

inductive FileNode where
  | file (content : ByteArray) (executable : Bool := false)
  | directory

structure FileTree where
  cwd : Location := []
  nodes : List (Location × FileNode) := []

namespace FileTree

def get? (tree : FileTree) (location : Location) : Option FileNode :=
  if location.isEmpty then some .directory
  else (tree.nodes.find? (·.1 == location)).map (·.2)

def put (tree : FileTree) (location : Location) (node : FileNode) : FileTree :=
  if tree.nodes.any (·.1 == location) then
    { tree with nodes := tree.nodes.map fun n => if n.1 == location then (location, node) else n }
  else { tree with nodes := tree.nodes ++ [(location, node)] }

def erase (tree : FileTree) (location : Location) : FileTree :=
  { tree with nodes := tree.nodes.filter fun n => n.1 != location }

def isDirectoryAt (tree : FileTree) (location : Location) : Bool :=
  match tree.get? location with
  | some .directory => true
  | _ => false

def namesAt (tree : FileTree) (location : Location) : List Text :=
  tree.nodes.filterMap fun n =>
    match n.1.getLast? with
    | some name => if n.1.dropLast == location then some name else none
    | none => none

def walk (tree : FileTree) : Location → List Text → Except OsError Location
  | here, [] => .ok here
  | here, name :: rest =>
    if !tree.isDirectoryAt here then .error .notDirectory
    else if name = ['.'] then walk tree here rest
    else if name = ['.', '.'] then walk tree here.dropLast rest
    else if 255 < Text.utf8Length name then .error .nameTooLong
    else if (tree.get? (here ++ [name])).isSome then walk tree (here ++ [name]) rest
    else .error .notFound

def origin (tree : FileTree) (path : Path) : Location :=
  if Path.isAbsolute path then [] else tree.cwd

def checkPath (path : Path) : Except OsError Unit :=
  if path.contains '\x00' then .error .zeroInPath
  else if path.isEmpty then .error .notFound
  else if 4095 < Text.utf8Length path then .error .nameTooLong
  else .ok ()

def resolve (tree : FileTree) (path : Path) : Except OsError Location := do
  checkPath path
  let location ← tree.walk (tree.origin path) (Path.pieces path)
  if path.getLast? == some '/' && !tree.isDirectoryAt location then .error .notDirectory
  else .ok location

def resolveNew (tree : FileTree) (path : Path) : Except OsError (Location × Option Text) := do
  checkPath path
  match (Path.pieces path).getLast? with
  | none => .ok (tree.origin path, none)
  | some last =>
    let dots := last = ['.'] ∨ last = ['.', '.']
    let directory ← tree.walk (tree.origin path) (Path.pieces path).dropLast
    if !tree.isDirectoryAt directory then .error .notDirectory
    else if dots then .ok (directory, none)
    else if 255 < Text.utf8Length last then .error .nameTooLong
    else .ok (directory, some last)

def isFile (tree : FileTree) (path : Path) : Bool :=
  match tree.resolve path with
  | .ok location => match tree.get? location with
    | some (.file _ _) => true
    | _ => false
  | .error _ => false

def isDirectory (tree : FileTree) (path : Path) : Bool :=
  match tree.resolve path with
  | .ok location => tree.isDirectoryAt location
  | .error _ => false

def readBytes (tree : FileTree) (path : Path) : Except OsError ByteArray := do
  let location ← tree.resolve path
  match tree.get? location with
  | some (.file content _) => .ok content
  | _ => .error .isDirectory

def readText (tree : FileTree) (path : Path) : Except OsError Text := do
  let content ← tree.readBytes path
  match String.fromUTF8? content with
  | some text => .ok text.toList
  | none => .error .notText

def writeBytes (tree : FileTree) (path : Path) (content : ByteArray) :
    Except OsError FileTree := do
  match ← tree.resolveNew path with
  | (_, none) => .error .isDirectory
  | (directory, some name) =>
    if path.getLast? == some '/' || tree.isDirectoryAt (directory ++ [name]) then
      .error .isDirectory
    else
      let executable := match tree.get? (directory ++ [name]) with
        | some (.file _ executable) => executable
        | _ => false
      .ok (tree.put (directory ++ [name]) (.file content executable))

def writeText (tree : FileTree) (path : Path) (text : Text) : Except OsError FileTree :=
  tree.writeBytes path (String.ofList text).toUTF8

def makeDirectory (tree : FileTree) (path : Path) : Except OsError FileTree := do
  match ← tree.resolveNew path with
  | (_, none) => .error .alreadyExists
  | (directory, some name) =>
    if (tree.get? (directory ++ [name])).isSome then .error .alreadyExists
    else .ok (tree.put (directory ++ [name]) .directory)

def makeDirectoriesWithin : Nat → FileTree → Path → FileTree × Except OsError Unit
  | 0, tree, _ => (tree, .ok ())
  | steps + 1, tree, path =>
    if path.isEmpty then (tree, .ok ())
    else match tree.makeDirectory path with
    | .ok made => (made, .ok ())
    | .error .notFound =>
      match Path.parent? path with
      | none => (tree, .error .notFound)
      | some parent =>
        match makeDirectoriesWithin steps tree parent with
        | (below, .error cause) => (below, .error cause)
        | (below, .ok ()) =>
          match below.makeDirectory path with
          | .ok made => (made, .ok ())
          | .error cause => (below, if below.isDirectory path then .ok () else .error cause)
    | .error cause => (tree, if tree.isDirectory path then .ok () else .error cause)

/-- Makes a directory and those on the way to it, as far as they are not there. Directories that
were made before an error stay. -/
def makeDirectories (tree : FileTree) (path : Path) : FileTree × Except OsError Unit :=
  makeDirectoriesWithin (path.length + 1) tree path

def list (tree : FileTree) (path : Path) : Except OsError (List Text) := do
  let location ← tree.resolve path
  if tree.isDirectoryAt location then .ok (tree.namesAt location) else .error .notDirectory

def filesBelow (tree : FileTree) : List (Path × ByteArray) :=
  tree.nodes.filterMap fun n =>
    match n.2 with
    | .file content _ =>
      if tree.cwd.isPrefixOf n.1 then
        some (Text.joinWith ['/'] (n.1.drop tree.cwd.length), content)
      else none
    | .directory => none

def install (tree : FileTree) (path : Path) (node : FileNode) : FileTree :=
  let steps := Path.pieces path
  let inner := (List.range steps.length).tail.map steps.take
  let made := inner.foldl (fun t l =>
    let location := t.origin path ++ l
    if (t.get? location).isSome then t else t.put location .directory) tree
  made.put (tree.origin path ++ steps) node

def uninstall (tree : FileTree) (path : Path) : FileTree :=
  tree.erase (tree.origin path ++ Path.pieces path)

end FileTree
end ShaderReflection
