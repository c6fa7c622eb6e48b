import ShaderReflection.Shell.Arithmetic
import ShaderReflection.Shell.Pattern
/-!
Expansion: the fields that words stand for. Values are put in place of parameters, scripts and
expressions; what is not quoted of them is split into fields, and fields that are patterns of paths
become the paths that there are.
-/
namespace ShaderReflection.Shell.Expansion

inductive Glyph where
  | plain (c : Char)
  | quoted (c : Char)
  | loose (c : Char)
  | void
  | cut
  deriving DecidableEq, Repr

namespace Glyph

def marked? : Glyph → Option (Char × Bool)
  | plain c | loose c => some (c, false)
  | quoted c => some (c, true)
  | void => none
  | cut => some (' ', true)

def loosen : Glyph → Glyph
  | plain c => loose c
  | g => g

end Glyph

def glyphsOf (isQuoted : Bool) (kind : Char → Glyph) (text : Text) : List Glyph :=
  if isQuoted && text.isEmpty then [.void] else text.map (if isQuoted then .quoted else kind)

def withCuts : List (List Glyph) → List Glyph
  | [] => []
  | [l] => l
  | l :: rest => l ++ .cut :: withCuts rest

def textOf (glyphs : List Glyph) : Text := (glyphs.filterMap Glyph.marked?).map (·.1)

def patternOf (glyphs : List Glyph) : List Pattern :=
  Pattern.ofMarked (glyphs.length + 1) (glyphs.filterMap Glyph.marked?)

def argumentGlyphs (s : State) (star isQuoted : Bool) : List Glyph :=
  if star && isQuoted then
    let separator := match s.value? "IFS".toList with
      | some separators => separators.take 1
      | none => [' ']
    glyphsOf true .loose (Text.joinWith separator s.arguments)
  else withCuts (s.arguments.map (glyphsOf isQuoted .loose))

def failUnset {α : Type} (name message : Text) : Run α :=
  Run.fail (name ++ ": ".toList ++ message)

mutual

def part (output : Nat → Text → Run Text) : Part → Run (List Glyph)
  | .literal text isQuoted => return glyphsOf isQuoted .plain text
  | .output script line isQuoted => do
    let text ← output line script
    return if isQuoted then text.map .quoted else text.map .loose
  | .arithmetic expression isQuoted => do
    let glyphs ← parts output expression
    let value ← Arithmetic.evaluate (textOf glyphs)
    return glyphsOf isQuoted .loose (Text.signedDecimal value)
  | .parameter name treatment argument isQuoted => do
    let s ← get
    let listing := name = ['@'] || name = ['*']
    let value? := if listing then
        (if s.arguments.isEmpty then none else some (Text.joinWith [' '] s.arguments))
      else s.parameter? name
    let own : List Glyph :=
      if listing then argumentGlyphs s (name = ['*']) isQuoted
      else (value?.getD []).map (if isQuoted then .quoted else .loose)
    let hasValue := fun orEmpty => match value? with
      | some value => !(orEmpty && value.isEmpty)
      | none => false
    let refuse := value?.isNone && s.has 'u' && !listing
    match treatment with
    | .unknown => Run.fail "Bad substitution".toList
    | .plain =>
      if refuse then failUnset name "parameter not set".toList else return own
    | .length =>
      if refuse then failUnset name "parameter not set".toList
      else
        return glyphsOf isQuoted .loose (Text.decimal (Text.utf8Length (value?.getD [])))
    | .default orEmpty =>
      if hasValue orEmpty then return own
      else return (← parts output argument).map .loosen
    | .assign orEmpty =>
      if hasValue orEmpty then return own
      else
        let text := textOf (← parts output argument)
        modify fun s => s.assign name text
        return text.map (if isQuoted then .quoted else .loose)
    | .demand orEmpty =>
      if hasValue orEmpty then return own
      else
        let text := textOf (← parts output argument)
        failUnset name <|
          if !text.isEmpty then text
          else "parameter not set".toList ++ (if orEmpty then " or null".toList else [])
    | .replace orEmpty =>
      if hasValue orEmpty then return (← parts output argument).map .loosen else return []
    | .dropStart longest =>
      if refuse then failUnset name "parameter not set".toList
      else
        let pattern := patternOf (← parts output argument)
        let text := Pattern.dropStart pattern longest (value?.getD [])
        return text.map (if isQuoted then .quoted else .loose)
    | .dropEnd longest =>
      if refuse then failUnset name "parameter not set".toList
      else
        let pattern := patternOf (← parts output argument)
        let text := Pattern.dropEnd pattern longest (value?.getD [])
        return text.map (if isQuoted then .quoted else .loose)

def parts (output : Nat → Text → Run Text) : List Part → Run (List Glyph)
  | [] => return []
  | p :: rest => do
    let first ← part output p
    return first ++ (← parts output rest)

end

structure Splitting where
  done : List (List Glyph) := []
  current : List Glyph := []
  started : Bool := false
  ended : Bool := false

namespace Splitting

def finish (p : Splitting) : Splitting :=
  { done := p.done ++ [p.current], current := [], started := false, ended := false }

def feed (separators : Text) (p : Splitting) : Glyph → Splitting
  | .cut => if p.started then p.finish else p
  | .loose c =>
    if !separators.contains c then
      { p with current := p.current ++ [.loose c], started := true, ended := false }
    else if isSpace c || c == '\n' then
      if p.started then { p.finish with ended := true } else p
    else if p.started || !p.ended then p.finish
    else { p with ended := false }
  | g => { p with current := p.current ++ [g], started := true, ended := false }

def fields (p : Splitting) : List (List Glyph) := if p.started then p.finish.done else p.done

end Splitting

def split (separators : Text) (glyphs : List Glyph) : List (List Glyph) :=
  (glyphs.foldl (Splitting.feed separators) {}).fields

def isPattern (name : List (Char × Bool)) : Bool :=
  name.any fun p => !p.2 && (p.1 == '*' || p.1 == '?' || p.1 == '[')

def pathNames : List (Char × Bool) → List (List (Char × Bool))
  | [] => [[]]
  | p :: rest =>
    if p.1 == '/' then [] :: pathNames rest
    else match pathNames rest with
      | [] => [[p]]
      | name :: more => (p :: name) :: more

def fittingPaths (tree : FileTree) : Location → Path → List (List (Char × Bool)) → List Path
  | _, path, [] => [path]
  | location, path, name :: rest =>
    let go (below : Location) (text : Text) : List Path :=
      if rest.isEmpty then [path ++ text]
      else fittingPaths tree below (path ++ text ++ ['/']) rest
    if isPattern name then
      let pattern := Pattern.ofMarked (name.length + 1) name
      let names := ((tree.namesAt location).mergeSort fun a b => !decide (b < a)).filter fun n =>
        Pattern.fits pattern n && (n.head? != some '.' || (name.head?.map (·.1)) == some '.')
      names.flatMap fun n =>
        if rest.isEmpty || tree.isDirectoryAt (location ++ [n]) then go (location ++ [n]) n else []
    else
      let text := name.map (·.1)
      if text.isEmpty then go (if path.isEmpty then [] else location) []
      else match tree.walk location [text] with
        | .ok below => go below text
        | .error _ => []

def paths (s : State) (field : List Glyph) : List Text :=
  let marked := field.filterMap Glyph.marked?
  let found := if isPattern marked && !s.has 'f' then
      fittingPaths s.world.tree s.world.tree.cwd [] (pathNames marked)
    else []
  if found.isEmpty then [marked.map (·.1)] else found

def fields (output : Nat → Text → Run Text) : List Word → Run (List Text)
  | [] => return []
  | word :: rest => do
    let glyphs ← parts output word
    let s ← get
    let first := (split s.separators glyphs).flatMap (paths s)
    return first ++ (← fields output rest)

def single (output : Nat → Text → Run Text) (word : Word) : Run Text :=
  return textOf (← parts output word)

end ShaderReflection.Shell.Expansion
