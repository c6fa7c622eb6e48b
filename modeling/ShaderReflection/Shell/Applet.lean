import ShaderReflection.Shell.Applet.Files
import ShaderReflection.Shell.Applet.Lines
/-!
The programs of the system that are known here, by name. They only stand in for those that a script
of a tool would start; no result is about them.
-/
namespace ShaderReflection.Shell.Applet

def named? (name : Text) : Option Applet :=
  match String.ofList name with
  | "basename" => some basename
  | "cat" => some cat
  | "chmod" => some chmod
  | "cp" => some cp
  | "dirname" => some dirname
  | "echo" => some echo
  | "false" => some fun _ _ => return 1
  | "grep" => some grep
  | "head" => some head
  | "ls" => some ls
  | "mkdir" => some mkdir
  | "mv" => some mv
  | "printf" => some printf
  | "rm" => some rm
  | "rmdir" => some rmdir
  | "seq" => some seq
  | "sleep" => some fun _ _ => return 0
  | "sort" => some sort
  | "tail" => some tail
  | "tee" => some tee
  | "touch" => some touch
  | "tr" => some tr
  | "true" => some fun _ _ => return 0
  | "wc" => some wc
  | _ => none

end ShaderReflection.Shell.Applet
