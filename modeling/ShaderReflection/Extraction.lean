import ShaderReflection.Session
import ShaderReflection.Tool
/-!
Extracting the metadata of one shader. Each backend runs its tools in order, stops at the first one
that rejects the shader, and takes the interface from the source, from a linker's dump or from an
analyzer's document.
-/
namespace ShaderReflection

structure Extractor where
  tools : ToolPaths := {}
  runner : ToolRunner
  artifactDirectory : Path

namespace Extractor

def artifactPath (x : Extractor) (path : Path) : Path :=
  Path.besides x.artifactDirectory path ".spv".toList

def run (x : Extractor) (program : Path) (arguments : List Text) :
    Step ExtractError Diagnostics := fun s =>
  let called := s.called ⟨program, arguments⟩
  match x.runner program arguments s.tree with
  | (.ok diagnostics, tree) => .ok diagnostics { called with tree := tree }
  | (.error cause, tree) => .error (.launchTool program cause) { called with tree := tree }

def unsupported (path : Path) (e : UnsupportedStage) : Step ExtractError Metadata := do
  Step.note [.unsupported path e]
  return Metadata.failed ⟨[], e.message.toList, 1⟩

def extractSource (x : Extractor) (path : Path) (source : Text) (stage : Stage) :
    Step ExtractError Metadata := do
  Step.note ((Glsl.scanRemarks source stage).map .source)
  match Glsl.scan source stage with
  | .error e => unsupported path e
  | .ok interface =>
    let diagnostics ← x.run x.tools.compiler [path]
    return Metadata.extracted diagnostics interface

def extractLinked (x : Extractor) (path : Path) (source : Text) (stage : Stage) :
    Step ExtractError Metadata := do
  if stage.isRaytracing then unsupported path ⟨stage, .linker⟩
  else
    let diagnostics ← x.run x.tools.linker ["-l".toList, "-q".toList, path]
    if diagnostics.exitCode ≠ 0 then return Metadata.failed diagnostics
    else
      Step.note ((Dump.reflectionRemarks diagnostics.stdout source stage).map .reflection)
      match Dump.reflection diagnostics.stdout source stage with
      | .error e => unsupported path e
      | .ok interface => return Metadata.extracted diagnostics interface

def appendStderr (first second : Text) : Text :=
  if second.isEmpty then first
  else if first.isEmpty || first.getLast? == some '\n' then first ++ second
  else first ++ '\n' :: second

def makeArtifactDirectory (x : Extractor) : Step ExtractError Unit := fun s =>
  match s.tree.makeDirectories x.artifactDirectory with
  | (tree, .ok ()) => .ok () { s with tree := tree }
  | (tree, .error cause) =>
    .error (.artifactDirectory x.artifactDirectory cause) { s with tree := tree }

def extractAnalyzed (x : Extractor) (path : Path) (stage : Stage) :
    Step ExtractError Metadata := do
  x.makeArtifactDirectory
  let artifact := x.artifactPath path
  let diagnostics ← x.run x.tools.compiler ["-V".toList, path, "-o".toList, artifact]
  if diagnostics.exitCode ≠ 0 then return Metadata.failed diagnostics
  else
    let analysis ← x.run x.tools.analyzer [artifact]
    if analysis.exitCode ≠ 0 then return Metadata.failed analysis
    else
      match Document.readAnalyzer analysis.stdout with
      | .error fault => throw (.reflectionDocument fault analysis.stdout)
      | .ok interface =>
        Step.note [.reflected path stage interface.uniforms.length]
        return Metadata.extracted
          { diagnostics with stderr := appendStderr diagnostics.stderr analysis.stderr } interface

def duplicateNotices (path : Path) (m : Metadata) : List Notice :=
  m.interface.duplicates.map fun d => .duplicate path d.1 d.2

def extractText (x : Extractor) (path : Path) (source : Text) (backend : Backend) :
    Step ExtractError Metadata := do
  let stage := Stage.ofPath path
  if stage = .unknown then throw (.unknownStage path)
  else
    Step.note [.extracting path stage backend]
    let metadata ← match backend with
      | .source => x.extractSource path source stage
      | .linker => x.extractLinked path source stage
      | .spirv => x.extractAnalyzed path stage
    Step.note (duplicateNotices path metadata)
    return metadata

def extract (x : Extractor) (path : Path) (backend : Backend) :
    Step ExtractError Metadata := do
  match (← get).tree.readText path with
  | .error cause => throw (.readSource path cause)
  | .ok source => x.extractText path source backend

end Extractor
end ShaderReflection
