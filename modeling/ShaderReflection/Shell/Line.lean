import ShaderReflection.Shell.Script
/-!
A line as a script reads it: without the backslashes that free characters, and split into fields for
some variables.
-/
namespace ShaderReflection.Shell.Line

def take (raw : Bool) : Text → List (Char × Bool) × Text × Bool
  | [] => ([], [], false)
  | '\n' :: rest => ([], rest, true)
  | '\\' :: c :: rest =>
    if raw then
      let (line, after, complete) := take raw (c :: rest)
      (('\\', false) :: line, after, complete)
    else
      let (line, after, complete) := take raw rest
      (if c == '\n' then line else (c, true) :: line, after, complete)
  | c :: rest =>
    let (line, after, complete) := take raw rest
    ((c, false) :: line, after, complete)

def fields (separators : Text) : Nat → List (Char × Bool) → List Text
  | 0, _ => []
  | count, line =>
    let isGap := fun p : Char × Bool => !p.2 && separators.contains p.1
    let isBlank := fun p : Char × Bool => isGap p && (isSpace p.1 || p.1 == '\n')
    let line := line.dropWhile isBlank
    match count with
    | count + 2 =>
      let field := line.takeWhile (!isGap ·)
      let rest := (line.drop field.length).dropWhile isBlank
      let rest := match rest with
        | p :: more => if isGap p then more else rest
        | [] => []
      field.map (·.1) :: fields separators (count + 1) rest
    | _ => [((line.reverse.dropWhile isBlank).reverse).map (·.1)]

end ShaderReflection.Shell.Line
