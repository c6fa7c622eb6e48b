import ShaderReflection.Interface.Basic
/-!
The metadata of one shader: what the tool that decided about it printed, and the interface if the
tool accepted the shader.
-/
namespace ShaderReflection

structure Diagnostics where
  stdout : Text := []
  stderr : Text := []
  exitCode : Int32 := 0
  deriving DecidableEq

structure Metadata where
  diagnostics : Diagnostics
  interface? : Option Interface
  deriving DecidableEq

namespace Metadata

def failed (diagnostics : Diagnostics) : Metadata := ⟨diagnostics, none⟩

def extracted (diagnostics : Diagnostics) (interface : Interface) : Metadata :=
  if diagnostics.exitCode = 0 then ⟨diagnostics, some interface⟩ else failed diagnostics

def isSuccess (m : Metadata) : Bool := m.diagnostics.exitCode == 0

def interface (m : Metadata) : Interface := m.interface?.getD {}

end Metadata
end ShaderReflection
