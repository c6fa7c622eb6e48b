import ShaderReflection.Text.Basic
/-!
The options of a shell and how they are given: by letters behind a sign, or by names.
-/
namespace ShaderReflection.Shell

def optionNames : List (Text × Char) :=
  [("allexport", 'a'), ("noclobber", 'C'), ("errexit", 'e'), ("noglob", 'f'), ("ignoreeof", 'I'),
    ("interactive", 'i'), ("monitor", 'm'), ("noexec", 'n'), ("stdin", 's'), ("notify", 'b'),
    ("login", 'l'), ("nounset", 'u'), ("verbose", 'v'), ("xtrace", 'x')].map fun p => (p.1.toList, p.2)

def withOption? (options : List Char) (wanted : Bool) (letter : Char) : Option (List Char) :=
  if !optionNames.any (·.2 == letter) then none
  else
    let others := options.filter (· != letter)
    some (if wanted then others ++ [letter] else others)

def withLetters (starting wanted : Bool) : List Char → Text → Except Text (List Char)
  | options, [] => .ok options
  | options, letter :: rest =>
    if starting && letter == 'c' then withLetters starting wanted options rest
    else match withOption? options wanted letter with
      | some options => withLetters starting wanted options rest
      | none => .error ("Illegal option -".toList ++ [letter])

structure OptionList where
  options : List Char
  rest : List Text := []
  replaces : Bool := false
  isScript : Bool := false

namespace OptionList

def readWithin (starting : Bool) : Nat → List Char → List Text → Except Text OptionList
  | 0, options, _ => .ok { options := options }
  | _, options, [] => .ok { options := options }
  | _, options, ['-', '-'] :: rest => .ok { options := options, rest := rest, replaces := true }
  | _, options, ['-'] :: rest => .ok { options := options, rest := rest, replaces := !rest.isEmpty }
  | fuel + 1, options, (sign :: letters) :: rest =>
    if sign != '-' && sign != '+' || letters.isEmpty then
      .ok { options := options, rest := (sign :: letters) :: rest, replaces := true }
    else do
      let wanted := sign == '-'
      let script := starting && letters.contains 'c'
      if letters.getLast? == some 'o' then
        let options ← withLetters starting wanted options letters.dropLast
        match rest with
        | [] => return { options := options }
        | name :: rest =>
          match optionNames.find? (·.1 == name) with
          | none => .error ("Illegal option -o ".toList ++ name)
          | some (_, letter) =>
            let options ← withLetters starting wanted options [letter]
            let settings ← readWithin starting fuel options rest
            return { settings with isScript := script || settings.isScript }
      else
        let options ← withLetters starting wanted options letters
        let settings ← readWithin starting fuel options rest
        return { settings with isScript := script || settings.isScript }
  | _, options, rest => .ok { options := options, rest := rest, replaces := true }

def read (starting : Bool) (options : List Char) (arguments : List Text) : Except Text OptionList :=
  readWithin starting (arguments.length + 1) options arguments

end OptionList
end ShaderReflection.Shell
