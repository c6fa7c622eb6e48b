import ShaderReflection.FileTree
import ShaderReflection.Text.Utf8
/-!
What a running program sees of the world: the files, the bytes that it can read and those that it
has written, and the numbered streams that lead to them. The shell and its programs stand in for the
processes that tools are; no result is about them.
-/
namespace ShaderReflection.Shell

inductive Channel where
  | input (index : Nat)
  | output (index : Nat)
  | file (location : Location)
  | nowhere
  deriving DecidableEq, Repr

structure World where
  tree : FileTree := {}
  inputs : List (List UInt8) := [[]]
  outputs : List (List UInt8) := [[], []]
  streams : List (Nat × Channel) := [(0, .input 0), (1, .output 0), (2, .output 1)]

namespace World

def standardInput : Nat := 0

def standardOutput : Nat := 1

def standardError : Nat := 2

def channel? (w : World) (stream : Nat) : Option Channel :=
  (w.streams.find? (·.1 == stream)).map (·.2)

def connect (w : World) (stream : Nat) (channel : Option Channel) : World :=
  let others := w.streams.filter (·.1 != stream)
  { w with streams := match channel with
    | some c => (stream, c) :: others
    | none => others }

def extendFile (tree : FileTree) (location : Location) (bytes : List UInt8) : FileTree :=
  match tree.get? location with
  | some (.file content executable) =>
    tree.put location (.file (content ++ ⟨bytes.toArray⟩) executable)
  | some .directory => tree
  | none => tree.put location (.file ⟨bytes.toArray⟩)

def writeTo (w : World) (bytes : List UInt8) : Option Channel → World
  | some (.output index) => { w with outputs := w.outputs.modify index (· ++ bytes) }
  | some (.file location) => { w with tree := extendFile w.tree location bytes }
  | _ => w

def write (w : World) (stream : Nat) (bytes : List UInt8) : World :=
  w.writeTo bytes (w.channel? stream)

def waiting (w : World) (stream : Nat) : List UInt8 :=
  match w.channel? stream with
  | some (.input index) => w.inputs[index]?.getD []
  | _ => []

def leave (w : World) (stream : Nat) (bytes : List UInt8) : World :=
  match w.channel? stream with
  | some (.input index) => { w with inputs := w.inputs.set index bytes }
  | _ => w

def feed (w : World) (stream : Nat) (bytes : List UInt8) : World :=
  { w with inputs := w.inputs ++ [bytes] }.connect stream (some (.input w.inputs.length))

def gather (w : World) (stream : Nat) : World :=
  { w with outputs := w.outputs ++ [[]] }.connect stream (some (.output w.outputs.length))

end World

def nullDevice : Path := "/dev/null".toList

def refusal (e : OsError) : Text := e.wording.1.toList

def refusalOr (e : OsError) (absence : String) : Text :=
  if e.isAbsence then absence.toList else refusal e

abbrev Job := StateM World Nat

abbrev JobStep := StateM World Unit

namespace Job

def print (text : Text) : JobStep :=
  modify fun w => w.write World.standardOutput (Text.toUtf8 text)

def printBytes (bytes : List UInt8) : JobStep :=
  modify fun w => w.write World.standardOutput bytes

def complain (message : Text) : JobStep :=
  modify fun w => w.write World.standardError (Text.toUtf8 (message ++ ['\n']))

def takeInput : StateM World (List UInt8) :=
  modifyGet fun w => (w.waiting World.standardInput, w.leave World.standardInput [])

end Job
end ShaderReflection.Shell
