import ShaderReflection.Shell.Condition
import ShaderReflection.Shell.Applet
/-!
Which program a name or a path stands for. A file that can be run names its interpreter in its first
line, perhaps with one argument, and is handed to that; the interpreter may be such a file itself.
-/
namespace ShaderReflection.Shell

inductive Ending where
  | exited (code : Nat)
  | killed (signal : Nat)
  deriving DecidableEq, Repr

inductive Image where
  | shell (echoesEscapes : Bool)
  | environment
  | job (run : Applet)

def testJob : Applet := fun name arguments => do
  match Condition.holds (← get).tree arguments with
  | .ok holds => return if holds then 0 else 1
  | .error message =>
    Job.complainAs name message
    return 2

def Image.named? (name : Text) : Option Image :=
  match String.ofList name with
  | "sh" | "dash" => some (.shell true)
  | "bash" => some (.shell false)
  | "env" => some .environment
  | "test" => some (.job testJob)
  | _ => (Applet.named? name).map .job

def systemDirectories : List Location := [["bin"], ["usr", "bin"]].map (·.map String.toList)

def plainLocation (path : Path) : Location :=
  (Path.pieces path).foldl (fun location name =>
    if name = ['.'] then location
    else if name = ['.', '.'] then location.dropLast
    else location ++ [name]) []

def systemImage? (path : Path) : Option (Except OsError Image) :=
  if !Path.isAbsolute path then none
  else
    let location := plainLocation path
    if systemDirectories.any (· == location) then some (.error .permissionDenied)
    else
      (systemDirectories.find? (·.isPrefixOf location)).map fun directory =>
        match location.drop directory.length with
        | name :: rest =>
          match Image.named? name with
          | some image =>
            if rest.isEmpty && path.getLast? != some '/' then .ok image
            else .error .notDirectory
          | none => .error .notFound
        | [] => .error .permissionDenied

structure Launch where
  image : Image
  name : Text
  arguments : List Text

namespace Launch

def headLength : Nat := 255

def interpreter? (content : List UInt8) : Option (Path × Option Text) :=
  let isGap := fun b : UInt8 => b == 32 || b == 9
  match content.take headLength with
  | 35 :: 33 :: rest =>
    let line := rest.takeWhile (· != 10)
    let isEnded := line.length < rest.length
    let line := line.dropWhile isGap
    let name := line.takeWhile fun b => !isGap b && b != 0
    let behind := line.drop name.length
    -- without a line feed the line goes on to a zero byte, unless it is cut off
    if (isEnded && line.isEmpty) || (!isEnded && behind.isEmpty && headLength ≤ content.length) then
      none
    else
      let argument := if behind.head? == some 0 then [] else
        (((behind.reverse.dropWhile isGap).reverse).dropWhile isGap).takeWhile (· != 0)
      some (Text.ofUtf8Lossy name,
        if argument.isEmpty then none else some (Text.ofUtf8Lossy argument))
  | _ => none

def mostInterpreters : Nat := 6

/-- The program at a path. The number bounds how many interpreters follow each other. -/
def atPathWithin : Nat → FileTree → Path → Text → List Text → Except OsError Launch
  | 0, _, _, _, _ => .error .tooManyLinks
  | fuel + 1, tree, path, name, arguments =>
    match systemImage? path with
    | some image => image.map fun image => ⟨image, name, arguments⟩
    | none => do
      let location ← tree.resolve path
      match tree.get? location with
      | some (.file content true) =>
        match interpreter? (content.extract 0 headLength).toList with
        | some ([], _) => .error .permissionDenied
        | some (interpreter, argument) =>
          atPathWithin fuel tree interpreter interpreter (argument.toList ++ path :: arguments)
        | none => .error .noProgram
      | _ => .error .permissionDenied

def atPath (tree : FileTree) (path : Path) (arguments : List Text) : Except OsError Launch :=
  atPathWithin mostInterpreters tree path path arguments

def ofName (tree : FileTree) (name : Text) (arguments : List Text) : Except OsError Launch :=
  if name.contains '/' then atPath tree name arguments
  else if name = ['.'] || name = ['.', '.'] then .error .permissionDenied
  else match Image.named? name with
    | some image => .ok ⟨image, name, arguments⟩
    | none => .error .notFound

example : interpreter? (Text.toUtf8 "#! /bin/sh  -e -x \nexit".toList) =
    some ("/bin/sh".toList, some "-e -x".toList) := by decide +kernel

end Launch
end ShaderReflection.Shell
