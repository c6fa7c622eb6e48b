/-!
The causes for which the operating system refuses to read or write a file or to start a program.
-/
namespace ShaderReflection

inductive OsError where
  | notFound
  | permissionDenied
  | alreadyExists
  | notDirectory
  | isDirectory
  | nameTooLong
  | noProgram
  | tooManyLinks
  | notText
  | zeroInPath
  | zeroInArgument
  | other (text : String)
  deriving DecidableEq, Repr

namespace OsError

def wording : OsError → String × Option Nat
  | notFound => ("No such file or directory", some 2)
  | permissionDenied => ("Permission denied", some 13)
  | alreadyExists => ("File exists", some 17)
  | notDirectory => ("Not a directory", some 20)
  | isDirectory => ("Is a directory", some 21)
  | nameTooLong => ("File name too long", some 36)
  | noProgram => ("Exec format error", some 8)
  | tooManyLinks => ("Too many levels of symbolic links", some 40)
  | notText => ("stream did not contain valid UTF-8", none)
  | zeroInPath => ("file name contained an unexpected NUL byte", none)
  | zeroInArgument => ("nul byte found in provided data", none)
  | other text => (text, none)

def message (e : OsError) : String :=
  match e.wording with
  | (text, some number) => s!"{text} (os error {number})"
  | (text, none) => text

def isAbsence (e : OsError) : Bool := e = notFound || e = notDirectory

end OsError
end ShaderReflection
