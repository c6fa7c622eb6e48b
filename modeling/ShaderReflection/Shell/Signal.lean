import ShaderReflection.Text.Numeral
/-!
Signals: their names and numbers, and what is told of a program that one of them has killed.
-/
namespace ShaderReflection.Shell

def killSignal : Nat := 9

def signals : List (Text × Nat) :=
  [("HUP", 1), ("INT", 2), ("QUIT", 3), ("ILL", 4), ("TRAP", 5), ("ABRT", 6), ("BUS", 7),
    ("FPE", 8), ("KILL", 9), ("USR1", 10), ("SEGV", 11), ("USR2", 12), ("PIPE", 13), ("ALRM", 14),
    ("TERM", 15), ("CHLD", 17), ("CONT", 18), ("URG", 23), ("WINCH", 28)].map fun p => (p.1.toList, p.2)

def harmlessSignals : List Nat := [17, 18, 23, 28]

def signal? (t : Text) : Option Nat :=
  match Text.natural? 10 t with
  | some n => some n
  | none => (signals.find? (·.1 == t)).map (·.2)

def signalMessage? : Nat → Option String
  | 1 => some "Hangup"
  | 3 => some "Quit"
  | 4 => some "Illegal instruction"
  | 5 => some "Trace/breakpoint trap"
  | 6 => some "Aborted"
  | 7 => some "Bus error"
  | 8 => some "Floating point exception"
  | 9 => some "Killed"
  | 10 => some "User defined signal 1"
  | 11 => some "Segmentation fault"
  | 12 => some "User defined signal 2"
  | 14 => some "Alarm clock"
  | 15 => some "Terminated"
  | _ => none

end ShaderReflection.Shell
