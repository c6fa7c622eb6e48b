import ShaderReflection.Text.Basic
/-!
Shell patterns: an asterisk stands for any text, a question mark for a character, brackets for one
of some characters. Quoted characters stand for themselves.
-/
namespace ShaderReflection.Shell

inductive Pattern where
  | any
  | one
  | oneOf (negated : Bool) (ranges : List (Char × Char))
  | exactly (c : Char)
  deriving DecidableEq, Repr

namespace Pattern

def classRanges : Text → List (Char × Char)
  | ['d', 'i', 'g', 'i', 't'] => [('0', '9')]
  | ['l', 'o', 'w', 'e', 'r'] => [('a', 'z')]
  | ['u', 'p', 'p', 'e', 'r'] => [('A', 'Z')]
  | ['a', 'l', 'p', 'h', 'a'] => [('a', 'z'), ('A', 'Z')]
  | ['a', 'l', 'n', 'u', 'm'] => [('a', 'z'), ('A', 'Z'), ('0', '9')]
  | ['s', 'p', 'a', 'c', 'e'] => [(' ', ' '), ('\t', '\r')]
  | ['b', 'l', 'a', 'n', 'k'] => [(' ', ' '), ('\t', '\t')]
  | _ => []

def bracket : Nat → Bool → List (Char × Bool) → Option (List (Char × Char) × List (Char × Bool))
  | 0, _, _ => none
  | _, _, [] => none
  | fuel + 1, first, (c, quoted) :: rest =>
    if c == ']' && !quoted && !first then some ([], rest)
    else match c, rest with
      | '[', (':', _) :: named =>
        let name := (named.map (·.1)).takeWhile (· != ':')
        (bracket fuel false (named.drop (name.length + 2))).map fun p =>
          (classRanges name ++ p.1, p.2)
      | _, ('-', false) :: (d, dQuoted) :: after =>
        if d == ']' && !dQuoted then
          (bracket fuel false rest).map fun p => ((c, c) :: p.1, p.2)
        else (bracket fuel false after).map fun p => ((c, d) :: p.1, p.2)
      | _, _ => (bracket fuel false rest).map fun p => ((c, c) :: p.1, p.2)

def ofMarked : Nat → List (Char × Bool) → List Pattern
  | 0, _ => []
  | _, [] => []
  | fuel + 1, (c, quoted) :: rest =>
    if quoted then .exactly c :: ofMarked fuel rest
    else if c == '*' then .any :: ofMarked fuel rest
    else if c == '?' then .one :: ofMarked fuel rest
    else if c == '[' then
      let (negated, inner) := match rest with
        | ('!', false) :: inner | ('^', false) :: inner => (true, inner)
        | inner => (false, inner)
      match bracket (inner.length + 1) true inner with
      | some (ranges, after) => .oneOf negated ranges :: ofMarked fuel after
      | none => .exactly c :: ofMarked fuel rest
    else .exactly c :: ofMarked fuel rest

def covers : Pattern → Char → Bool
  | any, _ | one, _ => true
  | oneOf negated ranges, c => ranges.any (fun r => r.1 ≤ c && c ≤ r.2) != negated
  | exactly d, c => c == d

def fits : List Pattern → Text → Bool
  | [], t => t.isEmpty
  | .any :: rest, [] => fits rest []
  | .any :: rest, c :: t => fits rest (c :: t) || fits (.any :: rest) t
  | _ :: _, [] => false
  | p :: rest, c :: t => p.covers c && fits rest t
termination_by pattern text => pattern.length + text.length

def dropStart (pattern : List Pattern) (longest : Bool) (t : Text) : Text :=
  let lengths := List.range (t.length + 1)
  match (if longest then lengths.reverse else lengths).find? fun n => fits pattern (t.take n) with
  | some n => t.drop n
  | none => t

def dropEnd (pattern : List Pattern) (longest : Bool) (t : Text) : Text :=
  let lengths := List.range (t.length + 1)
  match (if longest then lengths else lengths.reverse).find? fun n => fits pattern (t.drop n) with
  | some n => t.take n
  | none => t

end Pattern
end ShaderReflection.Shell
