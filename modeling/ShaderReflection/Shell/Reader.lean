import ShaderReflection.Shell.Script
/-!
Reading words of a script: quotes, and the expansions behind a dollar sign or between backquotes.
-/
namespace ShaderReflection.Shell

structure Source where
  rest : Text
  line : Nat := 1
  hidden : Nat := 0

abbrev Reader := EStateM Misplaced Source

namespace Reader

def fail {α : Type} (message : Text) : Reader α := do
  throw ⟨(← get).line, message⟩

def failAtEnd {α : Type} (message : Text) : Reader α := do
  let s ← get
  throw ⟨s.line + (s.rest.filter (· == '\n')).length, message⟩

def peek : Reader (Option Char) := return (← get).rest.head?

def skip : Reader Unit := modify fun s =>
  match s.rest with
  | [] => s
  | '\n' :: r => ⟨r, s.line + 1 + s.hidden, 0⟩
  | _ :: r => { s with rest := r }

def skipMany : Nat → Reader Unit
  | 0 => return ()
  | n + 1 => do skip; skipMany n

def takeWhile (p : Char → Bool) : Reader Text := do
  let taken := (← get).rest.takeWhile p
  skipMany taken.length
  return taken

def startsWith (text : Text) : Reader Bool := return text.isPrefixOf (← get).rest

def unterminated {α : Type} : Reader α := fail "Unterminated quoted string".toList

def takeThrough (stop : Char) : Reader Text := do
  let taken ← takeWhile (· != stop)
  if (← peek).isNone then unterminated else skip; return taken

end Reader

def consLiteral (text : Text) (quoted : Bool) : Word → Word
  | .literal more q :: rest =>
    if q == quoted then .literal (text ++ more) quoted :: rest
    else .literal text quoted :: .literal more q :: rest
  | word => .literal text quoted :: word

def backquoted (quoted : Bool) : Text → Text
  | '\\' :: c :: r =>
    if c == '\\' || c == '$' || c == '\x60' || (quoted && c == '"') then c :: backquoted quoted r
    else '\\' :: c :: backquoted quoted r
  | c :: r => c :: backquoted quoted r
  | [] => []

def backquoteAt : Text → Option Nat
  | [] => none
  | '\x60' :: _ => some 0
  | '\\' :: _ :: r => (backquoteAt r).map (· + 2)
  | _ :: r => (backquoteAt r).map (· + 1)

inductive Frame where
  | parenthesis
  | choice
  | quotes
  | braces
  deriving DecidableEq, Repr

def commandWords : List Text :=
  ["then", "do", "else", "elif", "if", "while", "until", "\x7b", "!"].map String.toList

/-- How many characters of a script stand in front of the parenthesis that ends it, with those that
are open. `start` tells whether a command can begin, `fresh` whether a word. -/
def closingAt : Nat → List Frame → (start fresh : Bool) → Text → Option Nat
  | 0, _, _, _, _ => none
  | _, [], _, _, _ => some 0
  | _, _, _, _, [] => none
  | fuel + 1, top :: below, start, fresh, c :: r =>
    let go (n : Nat) (frames : List Frame) (start fresh : Bool) : Option Nat :=
      (closingAt fuel frames start fresh ((c :: r).drop n)).map (· + n)
    if c == '\\' then go 2 (top :: below) false false
    else if c == '\x60' then
      match backquoteAt r with
      | some n => go (n + 2) (top :: below) false false
      | none => none
    else if c == '$' && r.head? == some '(' then
      go 2 (.parenthesis :: top :: below) true true
    else if c == '$' && r.head? == some '{' then go 2 (.braces :: top :: below) false false
    else if c == '"' then
      if top = .quotes then go 1 below false false else go 1 (.quotes :: top :: below) false false
    else if top = .quotes then go 1 (top :: below) false false
    else if c == '\'' then
      go ((Text.upTo '\'' r).length + 2) (top :: below) false false
    else if top = .braces then
      if c == '}' then go 1 below false false else go 1 (top :: below) false false
    else if c == '#' && fresh then go (Text.upTo '\n' (c :: r)).length (top :: below) start true
    else if c == '(' then go 1 (.parenthesis :: top :: below) true true
    else if c == ')' then
      if top = .choice then go 1 (top :: below) true true
      else if below.isEmpty then some 0
      else go 1 below false true
    else if isSpace c then go 1 (top :: below) start true
    else if endsWord c then go 1 (top :: below) (start || c != '<' && c != '>') true
    else
      let word := (c :: r).takeWhile isNameChar
      let n := max word.length 1
      if start && word = "case".toList then go n (.choice :: top :: below) false false
      else if start && top = .choice && word = "esac".toList then go n below false false
      else go n (top :: below) (start && commandWords.any fun w => w == word || w == [c]) false

def arithmeticEndAt : (depth : Nat) → Text → Option Nat
  | _, [] => none
  | depth, c :: r =>
    if c == '(' then (arithmeticEndAt (depth + 1) r).map (· + 1)
    else if c == ')' then
      if depth = 0 && r.head? == some ')' then some 0
      else (arithmeticEndAt (depth - 1) r).map (· + 1)
    else (arithmeticEndAt depth r).map (· + 1)

def isSpecialParameter (c : Char) : Bool :=
  isDigit c || c == '@' || c == '*' || c == '#' || c == '?' || c == '$' || c == '!' || c == '-'

def treatmentOf? : Text → Option (Treatment × Nat)
  | ':' :: '-' :: _ => some (.default true, 2)
  | '-' :: _ => some (.default false, 1)
  | ':' :: '=' :: _ => some (.assign true, 2)
  | '=' :: _ => some (.assign false, 1)
  | ':' :: '?' :: _ => some (.demand true, 2)
  | '?' :: _ => some (.demand false, 1)
  | ':' :: '+' :: _ => some (.replace true, 2)
  | '+' :: _ => some (.replace false, 1)
  | '#' :: '#' :: _ => some (.dropStart true, 2)
  | '#' :: _ => some (.dropStart false, 1)
  | '%' :: '%' :: _ => some (.dropEnd true, 2)
  | '%' :: _ => some (.dropEnd false, 1)
  | _ => none

def parameterName : Reader Text := do
  match ← Reader.peek with
  | some c =>
    if isLetter c || c == '_' then Reader.takeWhile isNameChar
    else if isDigit c then Reader.takeWhile isDigit
    else if isSpecialParameter c then Reader.skip; return [c]
    else return []
  | none => return []

inductive Stop where
  | wordEnd
  | brace
  deriving DecidableEq, Repr

def Stop.holds : Stop → Char → Bool
  | wordEnd, c => endsWord c
  | brace, c => c == '}' || c == '\n'

mutual

def quotedParts : Nat → Option Char → Reader Word
  | 0, _ => Reader.unterminated
  | fuel + 1, stop => do
    match ← Reader.peek with
    | none => if stop.isNone then return [] else Reader.unterminated
    | some c =>
      if some c == stop then return []
      else if c == '\\' then
        Reader.skip
        match ← Reader.peek with
        | none => return [.literal ['\\'] true]
        | some d =>
          Reader.skip
          let rest ← quotedParts fuel stop
          if d == '\n' then return rest
          else if d == '\\' || d == '$' || d == '\x60' || some d == stop ||
              (d == '"' && stop.isSome) then
            return consLiteral [d] true rest
          else return consLiteral ['\\', d] true rest
      else if c == '$' || c == '\x60' then
        let part ← expansion fuel true
        return part :: (← quotedParts fuel stop)
      else if c == '"' && stop.isSome then
        -- a quote between braces inside quotes
        Reader.skip
        quotedParts fuel stop
      else
        let plain ← Reader.takeWhile fun d =>
          d != '\\' && d != '$' && d != '\x60' && (d != '"' || stop.isNone) && some d != stop
        return consLiteral plain true (← quotedParts fuel stop)

def plainParts : Nat → Stop → Reader Word
  | 0, _ => Reader.unterminated
  | fuel + 1, stop => do
    match ← Reader.peek with
    | none => return []
    | some c =>
      if stop.holds c then return []
      else if c == '\'' then
        Reader.skip
        let text ← Reader.takeThrough '\''
        return consLiteral text true (← plainParts fuel stop)
      else if c == '"' then
        Reader.skip
        let inner ← quotedParts fuel (some '"')
        Reader.skip
        let rest ← plainParts fuel stop
        -- empty quotes make a word, the list of all arguments need not
        let listing := inner.any fun
          | .parameter ['@'] .plain _ _ => true
          | _ => false
        return (if listing then inner else consLiteral [] true inner) ++ rest
      else if c == '\\' then
        Reader.skip
        match ← Reader.peek with
        | none => return [.literal ['\\'] true]
        | some d =>
          Reader.skip
          let rest ← plainParts fuel stop
          return if d == '\n' then rest else consLiteral [d] true rest
      else if c == '$' || c == '\x60' then
        let part ← expansion fuel false
        return part :: (← plainParts fuel stop)
      else
        Reader.skip
        return consLiteral [c] false (← plainParts fuel stop)

def expansion : Nat → Bool → Reader Part
  | 0, _ => Reader.unterminated
  | fuel + 1, quoted => do
    let first ← Reader.peek
    Reader.skip
    if first == some '\x60' then
      match backquoteAt (← get).rest with
      | none => Reader.failAtEnd "EOF in backquote substitution".toList
      | some n =>
        let script := (← get).rest.take n
        Reader.skipMany (n + 1)
        return .output (backquoted quoted script) 1 quoted
    else
      match (← get).rest with
      | '(' :: '(' :: r =>
        match arithmeticEndAt 0 r with
        | some n =>
          Reader.skipMany 2
          let after := (← get).rest.drop n
          modify fun s => { s with rest := r.take n }
          let inner ← quotedParts fuel none
          modify fun s => { s with rest := after }
          Reader.skipMany 2
          return .arithmetic inner quoted
        | none => Reader.failAtEnd "Missing '))'".toList
      | '(' :: _ => scriptOutput quoted
      | '{' :: r =>
        Reader.skip
        match r with
        | '#' :: d :: _ =>
          if d == '}' then Reader.skipMany 2; return .parameter ['#'] .plain [] quoted
          else
            Reader.skip
            let name ← parameterName
            if name.isEmpty || (← Reader.peek) != some '}' then unknownParameter name quoted
            else
              Reader.skip
              return .parameter name .length [] quoted
        | _ =>
          let name ← parameterName
          if name.isEmpty then unknownParameter name quoted
          else match treatmentOf? (← get).rest with
            | none =>
              if (← Reader.peek) == some '}' then
                Reader.skip
                return .parameter name .plain [] quoted
              else unknownParameter name quoted
            | some (treatment, n) =>
              Reader.skipMany n
              let argument ← if quoted && !treatment.takesPattern then
                  quotedParts fuel (some '}')
                else plainParts fuel .brace
              if (← Reader.peek) != some '}' then Reader.fail "Missing '\x7d'".toList
              else
                Reader.skip
                return .parameter name treatment argument quoted
      | c :: _ =>
        if isLetter c || c == '_' then
          return .parameter (← Reader.takeWhile isNameChar) .plain [] quoted
        else if isSpecialParameter c then
          Reader.skip
          return .parameter [c] .plain [] quoted
        else return .literal ['$'] quoted
      | [] => return .literal ['$'] quoted
where
  unknownParameter (name : Text) (quoted : Bool) : Reader Part := do
    let _ ← Reader.takeWhile fun c => c != '}' && (quoted || c != '\n')
    if (← Reader.peek) != some '}' then Reader.fail "Missing '\x7d'".toList
    else
      Reader.skip
      return .parameter name .unknown [] quoted
  scriptOutput (quoted : Bool) : Reader Part := do
    Reader.skip
    let line := (← get).line
    let rest := (← get).rest
    match closingAt (rest.length + 1) [.parenthesis] true true rest with
    | none => Reader.failAtEnd "end of file unexpected (expecting \")\")".toList
    | some n =>
      Reader.skipMany (n + 1)
      return .output (rest.take n) line quoted

end

def readWord : Reader Word := do plainParts (2 * (← get).rest.length + 2) .wordEnd

def quotedText (text : Text) (line : Nat) : Except Misplaced Word :=
  match quotedParts (2 * text.length + 2) none ⟨text, line, 0⟩ with
  | .ok word _ => .ok word
  | .error e _ => .error e

end ShaderReflection.Shell
