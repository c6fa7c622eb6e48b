import ShaderReflection.Glsl.Clause
import ShaderReflection.Stage
/-!
Completing a reflected interface from source. Reflected entries stay as they are; the source adds
the variables that reflection left out and, for vertex inputs, the explicit locations.
-/
namespace ShaderReflection
open Glsl (InterfaceDeclaration)

def addMissing (attributes : List Attribute) (entry : Attribute) : List Attribute :=
  if attributes.any (·.name == entry.name) then attributes else attributes ++ [entry]

def fillLocation (entry : Attribute) : List Attribute → List Attribute
  | [] => []
  | a :: rest =>
    if a.name == entry.name then { a with location := a.location.or entry.location } :: rest
    else a :: fillLocation entry rest

def mergeVertexInput (attributes : List Attribute) (entry : Attribute) : List Attribute :=
  if attributes.any (·.name == entry.name) then fillLocation entry attributes
  else attributes ++ [entry]

namespace Interface

/-- Merges one declared variable into an interface. Only vertex inputs have locations of their
own, and the outputs of fragment shaders are left to reflection. -/
def merge (stage : Stage) (i : Interface) (d : InterfaceDeclaration) : Interface :=
  let unlocated := { d.entry with location := none }
  match d.qualifier with
  | .input =>
    if stage == .vertex then { i with inputs := mergeVertexInput i.inputs d.entry }
    else { i with inputs := addMissing i.inputs unlocated }
  | .output =>
    if stage == .fragment then i else { i with outputs := addMissing i.outputs unlocated }

def backfill (i : Interface) (source : Text) (stage : Stage) : Interface :=
  if stage.hasAttributes then (Glsl.interfaceDeclarations source).foldl (merge stage) i else i

end Interface

def backfillRemarks (source : Text) (stage : Stage) : List Glsl.Remark :=
  if stage.hasAttributes then (Glsl.interfaceClauses source).filterMap Glsl.clauseRemark? else []

end ShaderReflection
