import ShaderReflection.Shell.Pattern
/-!
Basic regular expressions: characters, dots and brackets, each perhaps repeated by an asterisk, and
anchors at both ends.
-/
namespace ShaderReflection.Shell

structure RegexPiece where
  pattern : Pattern
  repeated : Bool := false

structure Regex where
  fromStart : Bool
  toEnd : Bool
  pieces : List RegexPiece

namespace Regex

def readPattern? (first : Bool) : Char → Text → Option Pattern × Text
  | '.', rest => (some .one, rest)
  | '\\', c :: rest => (some (.exactly c), rest)
  | '*', rest => (if first then some (.exactly '*') else none, rest)
  | '[', rest =>
    let (negated, inner) := match rest with
      | '^' :: inner => (true, inner)
      | inner => (false, inner)
    match Pattern.bracket (inner.length + 1) true (inner.map fun c => (c, false)) with
    | some (ranges, after) => (some (.oneOf negated ranges), after.map (·.1))
    | none => (none, rest)
  | c, rest => (some (.exactly c), rest)

def readPieces : Nat → Bool → Text → List RegexPiece × Bool
  | 0, _, _ | _, _, [] => ([], false)
  | _, _, ['$'] => ([], true)
  | fuel + 1, first, c :: rest =>
    match readPattern? first c rest with
    | (none, rest) => readPieces fuel false rest
    | (some pattern, rest) =>
      let repeated := rest.head? == some '*'
      let (more, toEnd) := readPieces fuel false (if repeated then rest.tail else rest)
      (⟨pattern, repeated⟩ :: more, toEnd)

def ofText (t : Text) : Regex :=
  let (fromStart, t) := match t with
    | '^' :: r => (true, r)
    | t => (false, t)
  let (pieces, toEnd) := readPieces (t.length + 1) true t
  ⟨fromStart, toEnd, pieces⟩

def exactly (t : Text) : Regex := ⟨false, false, t.map fun c => ⟨.exactly c, false⟩⟩

def covers (anyCase : Bool) (p : Pattern) (c : Char) : Bool :=
  p.covers c || (anyCase && (p.covers c.toLower || p.covers c.toUpper))

def matchesHere (anyCase toEnd : Bool) : List RegexPiece → Text → Bool
  | [], t => !toEnd || t.isEmpty
  | p :: rest, [] => p.repeated && matchesHere anyCase toEnd rest []
  | p :: rest, c :: t =>
    if p.repeated then
      matchesHere anyCase toEnd rest (c :: t) ||
        (covers anyCase p.pattern c && matchesHere anyCase toEnd (p :: rest) t)
    else covers anyCase p.pattern c && matchesHere anyCase toEnd rest t
termination_by pieces t => pieces.length + t.length

def matchesSomewhere (anyCase toEnd : Bool) (pieces : List RegexPiece) : Text → Bool
  | [] => matchesHere anyCase toEnd pieces []
  | c :: t =>
    matchesHere anyCase toEnd pieces (c :: t) || matchesSomewhere anyCase toEnd pieces t

def matchesIn (r : Regex) (anyCase : Bool) (t : Text) : Bool :=
  if r.fromStart then matchesHere anyCase r.toEnd r.pieces t
  else matchesSomewhere anyCase r.toEnd r.pieces t

example : (ofText "^a[b-d]*.$".toList).matchesIn false "abcdx".toList = true := by decide +kernel
example : (ofText "b*c".toList).matchesIn false "xcx".toList = true := by decide +kernel
example : (ofText "x\\.y".toList).matchesIn true "axzy".toList = false := by decide +kernel

end Regex
end ShaderReflection.Shell
