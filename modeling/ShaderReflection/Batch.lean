import ShaderReflection.Document.Write
import ShaderReflection.Extraction
/-!
Writing the metadata of all shaders in a directory. Every shader is handled by itself: one that
fails is reported and leaves the others alone.
-/
namespace ShaderReflection

structure Batch where
  backend : Backend
  sourceDirectory : Path
  metadataDirectory : Path

structure Written where
  shader : Path
  document? : Option Path
  success : Bool
  deriving DecidableEq, Repr

def metadataPath (metadataDirectory shader : Path) : Path :=
  Path.besides metadataDirectory shader ".meta.json".toList

def textLe (a b : Text) : Bool := !(decide (b < a))

namespace Batch

def writeFile (path : Path) (text : Text) : Step ShaderFailure Unit := fun s =>
  match s.tree.writeText path text with
  | .ok tree => .ok () { s with tree := tree }
  | .error cause => .error (.system cause) s

def writeOne (b : Batch) (x : Extractor) (shader : Path) : Step ShaderFailure Written := do
  let metadata ← Step.adapt .extraction (x.extract shader b.backend)
  if !metadata.isSuccess then
    Step.note [.rejected shader metadata.diagnostics.exitCode metadata.diagnostics.stderr]
  let path := metadataPath b.metadataDirectory shader
  writeFile path (Document.pretty metadata)
  Step.note [.wrote path]
  return ⟨shader, some path, metadata.isSuccess⟩

def shaders (b : Batch) (tree : FileTree) : Except OsError (List Path) := do
  let names ← tree.list b.sourceDirectory
  let paths := (names.mergeSort textLe).map (Path.join b.sourceDirectory)
  return paths.filter fun path => tree.isFile path && Stage.ofPath path != .unknown

def writeListed (b : Batch) (x : Extractor) (shader : Path) (s : Session) : Written × Session :=
  match b.writeOne x shader s with
  | .ok written s => (written, s)
  | .error e s => (⟨shader, none, false⟩, s.note (.failed shader e))

def writeEach (b : Batch) (x : Extractor) : List Path → Session → List Written × Session
  | [], s => ([], s)
  | shader :: rest, s =>
    let (written, s) := b.writeListed x shader s
    let (others, s) := b.writeEach x rest s
    (written :: others, s)

def makeMetadataDirectory (b : Batch) : Step OsError Unit := fun s =>
  match s.tree.makeDirectories b.metadataDirectory with
  | (tree, .ok ()) => .ok () { s with tree := tree }
  | (tree, .error cause) => .error cause { s with tree := tree }

def writeAll (b : Batch) (x : Extractor) : Step OsError (List Written) := do
  let shaders ← Step.ofExcept (b.shaders (← get).tree)
  b.makeMetadataDirectory
  let (written, s) := b.writeEach x shaders (← get)
  set s
  Step.note [.summary written.length (written.filter (!·.success)).length]
  return written

end Batch
end ShaderReflection
