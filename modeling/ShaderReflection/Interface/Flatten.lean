import ShaderReflection.Interface.Basic
/-!
Uniforms of a struct type stand for one uniform per member. `flatten` replaces them, so that the
program can set every value by a name of its own; the plain uniforms come first and keep their
order. A struct that contains itself ends at a fixed depth.
-/
namespace ShaderReflection

/-- How many struct members on one path are opened below the first struct. -/
def maxNesting : Nat := 8

def StructDef.find? (structs : List StructDef) : TypeName → Option StructDef
  | .custom name => structs.reverse.find? (·.name == name)
  | _ => none

/-- The uniforms for the members of a struct: a member of a struct type is opened in its place
while `depth` lasts, any other member becomes a uniform named by its path. -/
def StructDef.leaves (structs : List StructDef) : Nat → Text → List StructMember → List Uniform
  | 0, path, members => members.map fun m => ⟨m.typeName, path ++ '.' :: m.name, 1, none, false⟩
  | depth + 1, path, members => members.flatMap fun m =>
    match StructDef.find? structs m.typeName with
    | some nested => leaves structs depth (path ++ '.' :: m.name) nested.members
    | none => [⟨m.typeName, path ++ '.' :: m.name, 1, none, false⟩]

def Uniform.leaves (structs : List StructDef) (u : Uniform) : List Uniform :=
  match StructDef.find? structs u.typeName with
  | some d => StructDef.leaves structs maxNesting u.name d.members
  | none => []

def flatten (uniforms : List Uniform) (structs : List StructDef) : List Uniform :=
  uniforms.filter (fun u => (StructDef.find? structs u.typeName).isNone) ++
    uniforms.flatMap (Uniform.leaves structs)

end ShaderReflection
