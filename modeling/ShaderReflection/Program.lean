import ShaderReflection.Shell.Run
import ShaderReflection.Tool
/-!
Running programs of the system and scripts on a file tree. `Program.run` only stands in for the
processes that the system would start, so that the program can be run on files as a value. No result
is about it: what is proved of extractions and batches holds for any `ToolRunner`, or says what it
asks of one.
-/
namespace ShaderReflection.Program

def diagnostics (ending : Shell.Ending) (world : Shell.World) : Diagnostics where
  stdout := Text.ofUtf8Lossy (world.outputs[0]?.getD [])
  stderr := Text.ofUtf8Lossy (world.outputs[1]?.getD [])
  exitCode := match ending with
    | .exited code => Int32.ofNat code
    | .killed _ => -1

def run (settings : Settings) : ToolRunner := fun program arguments tree =>
  if program.contains '\x00' || arguments.any (·.contains '\x00') then
    (.error .zeroInArgument, tree)
  else match Shell.Launch.ofName tree program arguments with
    | .error cause => (.error cause, tree)
    | .ok launch =>
      let bindings := settings.map fun s => (⟨s.1.toList, s.2, true⟩ : Shell.Variable)
      let (ending, world) :=
        Shell.start (Shell.runner Shell.mostDepth) ⟨bindings, 1⟩ launch { tree := tree }
      (.ok (diagnostics ending world), { world.tree with cwd := tree.cwd })

end ShaderReflection.Program
