import ShaderReflection.Text.Basic
/-!
The pipeline stage that a shader belongs to. The extension of its file decides it, and it decides
whether the shader has interface variables at all.
-/
namespace ShaderReflection

inductive Stage where
  | vertex
  | fragment
  | compute
  | rayGen
  | rayMiss
  | rayClosestHit
  | rayIntersection
  | rayAnyHit
  | rayCallable
  | unknown
  deriving DecidableEq, Repr

namespace Stage

def ofExtension (extension : Text) : Stage :=
  if extension = "vert".toList then vertex
  else if extension = "frag".toList then fragment
  else if extension = "comp".toList then compute
  else if extension = "rgen".toList then rayGen
  else if extension = "rmiss".toList then rayMiss
  else if extension = "rchit".toList then rayClosestHit
  else if extension = "rint".toList then rayIntersection
  else if extension = "rahit".toList then rayAnyHit
  else if extension = "rcall".toList then rayCallable
  else unknown

def label : Stage → String
  | vertex => "vertex"
  | fragment => "fragment"
  | compute => "compute"
  | rayGen => "ray generation"
  | rayMiss => "ray miss"
  | rayClosestHit => "ray closest-hit"
  | rayIntersection => "ray intersection"
  | rayAnyHit => "ray any-hit"
  | rayCallable => "ray callable"
  | unknown => "unknown"

def isRaytracing : Stage → Bool
  | rayGen | rayMiss | rayClosestHit | rayIntersection | rayAnyHit | rayCallable => true
  | vertex | fragment | compute | unknown => false

def hasAttributes (stage : Stage) : Bool := !(stage == compute || stage.isRaytracing)

end Stage
end ShaderReflection
