import ShaderReflection.TypeName
/-!
The interface of a shader: its uniforms, its `in` and `out` variables and its struct table, each
in the order in which they were met. A name that is declared again is kept and can be reported.
-/
namespace ShaderReflection

structure Attribute where
  typeName : TypeName
  name : Text
  location : Option UInt32 := none
  deriving DecidableEq, Repr

structure Uniform where
  typeName : TypeName
  name : Text
  count : UInt32 := 1
  binding : Option Int32 := none
  pushConstant : Bool := false
  deriving DecidableEq

structure StructMember where
  typeName : TypeName
  name : Text
  deriving DecidableEq, Repr

structure StructDef where
  name : Text
  members : List StructMember
  size : Option UInt32 := none
  alignment : Option UInt32 := none
  deriving DecidableEq, Repr

structure Interface where
  uniforms : List Uniform := []
  inputs : List Attribute := []
  outputs : List Attribute := []
  structs : List StructDef := []
  deriving DecidableEq

namespace Interface

def isEmpty (i : Interface) : Bool :=
  i.uniforms.isEmpty && i.inputs.isEmpty && i.outputs.isEmpty && i.structs.isEmpty

inductive Listing where
  | uniforms
  | inputs
  | outputs
  deriving DecidableEq, Repr

def Listing.label : Listing → String
  | uniforms => "uniforms"
  | inputs => "in_attributes"
  | outputs => "out_attributes"

def names (i : Interface) : Listing → List Text
  | .uniforms => i.uniforms.map (·.name)
  | .inputs => i.inputs.map (·.name)
  | .outputs => i.outputs.map (·.name)

/-- The names that come again among those still to be seen, each where it first comes again:
`seen` are the names before, `reported` those already listed. -/
def repeats (seen reported : List Text) : List Text → List Text
  | [] => []
  | name :: rest =>
    if name ∈ seen then
      if name ∈ reported then repeats seen reported rest
      else name :: repeats seen (name :: reported) rest
    else repeats (name :: seen) reported rest

def duplicates (i : Interface) : List (Listing × Text) :=
  [Listing.uniforms, .inputs, .outputs].flatMap fun l => (repeats [] [] (i.names l)).map (l, ·)

end Interface
end ShaderReflection
