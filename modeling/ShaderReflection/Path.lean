import ShaderReflection.Stage
/-!
File paths: names between slashes. A path is taken apart into components, in which repeated slashes,
a slash at the end and single dots count for nothing, except for a dot at the very beginning.
-/
namespace ShaderReflection

abbrev Path := Text

namespace Path

inductive Component where
  | root
  | current
  | parent
  | named (name : Text)
  deriving DecidableEq, Repr

def isAbsolute (path : Path) : Bool := path.head? == some '/'

def pieces (path : Path) : List Text := (Text.splitOn '/' path).filter fun piece => !piece.isEmpty

def componentOf? (piece : Text) : Option Component :=
  if piece = ['.'] then none
  else if piece = ['.', '.'] then some .parent
  else some (.named piece)

def components (path : Path) : List Component :=
  let steps := (pieces path).filterMap componentOf?
  if isAbsolute path then .root :: steps
  else if (pieces path).head? = some ['.'] then .current :: steps
  else steps

def fileName? (path : Path) : Option Text :=
  match (components path).getLast? with
  | some (.named name) => some name
  | _ => none

def extension? (path : Path) : Option Text :=
  (fileName? path).bind fun name =>
    let extension := Text.afterLast '.' name
    if extension.length + 1 < name.length then some extension else none

def join (outer inner : Path) : Path :=
  if isAbsolute inner then inner
  else if outer.isEmpty || outer.getLast? == some '/' then outer ++ inner
  else outer ++ '/' :: inner

def joinAll (start : Path) (segments : List Path) : Path := segments.foldl join start

/-- The file in a directory that is named like the file of `path` with a suffix. A path that ends
in no name is taken as a whole. -/
def besides (directory path : Path) (suffix : Text) : Path :=
  join directory ((fileName? path).getD path ++ suffix)

def Component.toText : Component → Text
  | root => ['/']
  | current => ['.']
  | parent => ['.', '.']
  | named n => n

def ofComponents : List Component → Path
  | .root :: steps => '/' :: Text.joinWith ['/'] (steps.map Component.toText)
  | steps => Text.joinWith ['/'] (steps.map Component.toText)

def leadsOn (piece : Text) : Bool := !piece.isEmpty && piece != ['.']

def piecesBehind? : List Text → List Text → Option (List Text)
  | [], pieces => some pieces
  | step :: steps, pieces =>
    match pieces.dropWhile (!leadsOn ·) with
    | [] => none
    | piece :: rest => if piece = step then piecesBehind? steps rest else none

def below? (directory path : Path) : Option Path :=
  if isAbsolute directory && isAbsolute path then
    (piecesBehind? ((Text.splitOn '/' directory).filter leadsOn) (Text.splitOn '/' path)).map
      fun pieces => Text.joinWith ['/']
        ((pieces.dropWhile (!leadsOn ·)).reverse.dropWhile (!leadsOn ·)).reverse
  else none

example : below? "/a/b".toList "/a//b/./c/./d/.".toList = some "c/./d".toList := by decide
example : below? "/a/b".toList "/a/bc".toList = none := by decide

def parent? (path : Path) : Option Path :=
  match components path with
  | [] | [.root] => none
  | steps => some (ofComponents steps.dropLast)

end Path

def Stage.ofPath (path : Path) : Stage :=
  match Path.extension? path with
  | some extension => ofExtension extension
  | none => unknown

end ShaderReflection
