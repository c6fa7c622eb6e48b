import ShaderReflection.FileTree
import ShaderReflection.Notice
/-!
What changes while shaders are handled: the file tree, the calls of tools made so far and the
notices given so far.
-/
namespace ShaderReflection

structure Call where
  program : Path
  arguments : List Text
  deriving DecidableEq, Repr

structure Session where
  tree : FileTree := {}
  calls : List Call := []
  notices : List Notice := []

namespace Session

def note (s : Session) (notice : Notice) : Session := { s with notices := s.notices ++ [notice] }

def noteAll (s : Session) (notices : List Notice) : Session :=
  { s with notices := s.notices ++ notices }

def called (s : Session) (call : Call) : Session := { s with calls := s.calls ++ [call] }

end Session

/-- A computation in a session that can end with an error; what it did before the error stays. -/
abbrev Step (ε α : Type) := EStateM ε Session α

namespace Step

def note {ε : Type} (notices : List Notice) : Step ε Unit := modify fun s => s.noteAll notices

def adapt {ε δ α : Type} (f : δ → ε) (x : Step δ α) : Step ε α := fun s =>
  match x s with
  | .ok a s => .ok a s
  | .error e s => .error (f e) s

def ofExcept {ε α : Type} : Except ε α → Step ε α
  | .ok a => pure a
  | .error e => throw e

end Step
end ShaderReflection
