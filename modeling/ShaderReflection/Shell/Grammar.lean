import ShaderReflection.Shell.Reader
/-!
Reading the commands of a script. A script is read command by command, so that what stands before a
misplaced word can still be run.
-/
namespace ShaderReflection.Shell

def reservedWords : List Text :=
  ["if", "then", "else", "elif", "fi", "do", "done", "case", "esac", "while", "until", "for",
    "\x7b", "\x7d", "!"].map String.toList

def closingWords : List Text :=
  ["then", "else", "elif", "fi", "do", "done", "esac", "\x7d"].map String.toList

def operators : List Text :=
  ["&&", "||", ";;", "&", "|", ";", "(", ")"].map String.toList

def tokenName (token : Text) : Text := '"' :: token ++ ['"']

namespace Reader

def skipBlanks : Nat → Reader Unit
  | 0 => return ()
  | fuel + 1 => do
    match (← get).rest with
    | '\\' :: '\n' :: _ => skipMany 2; skipBlanks fuel
    | '#' :: _ => let _ ← takeWhile (· != '\n')
    | c :: _ => if isSpace c then skip; skipBlanks fuel
    | [] => return ()

def blanks : Reader Unit := do skipBlanks ((← get).rest.length + 1)

def skipLines : Nat → Reader Unit
  | 0 => return ()
  | fuel + 1 => do
    blanks
    if (← peek) == some '\n' then skip; skipLines fuel

def newlines : Reader Unit := do skipLines ((← get).rest.length + 1)

def plainWord : Reader Text := do
  let special := fun c : Char => c == '\'' || c == '"' || c == '\\' || c == '$' || c == '\x60'
  let rest := (← get).rest
  let word := rest.takeWhile fun c => !endsWord c && !special c
  return if (rest.drop word.length).head?.any special then [] else word

def atWord (word : String) : Reader Bool := return (← plainWord) == word.toList

def operator? : Reader (Option Text) := do
  let rest := (← get).rest
  return operators.find? (·.isPrefixOf rest)

def atOperator (operator : String) : Reader Bool := return (← operator?) == some operator.toList

def atRedirect : Reader Bool := do
  let c := ((← get).rest.dropWhile isDigit).head?
  return c == some '<' || c == some '>'

def nextName : Reader Text := do
  blanks
  match ← peek with
  | none => return "end of file".toList
  | some '\n' => return "newline".toList
  | some _ =>
    match ← operator? with
    | some operator => return tokenName operator
    | none =>
      if ← atRedirect then return "redirection".toList
      else
        let word ← plainWord
        return if reservedWords.any (· == word) then tokenName word else "word".toList

def failAtNext {α : Type} (told : Text) : Reader α := do
  let name ← nextName
  if (← peek) == some '\n' then skip
  fail (name ++ told)

def unexpected {α : Type} : Reader α := failAtNext " unexpected".toList

def expecting {α : Type} (token : Text) : Reader α :=
  failAtNext (" unexpected (expecting ".toList ++ tokenName token ++ [')'])

def expectWord (word : String) : Reader Unit := do
  newlines
  if ← atWord word then skipMany word.length else expecting word.toList

end Reader

def hereLines (tabs : Bool) (delimiter : Text) : Nat → Text → Text × Nat × Text
  | 0, t => ([], 0, t)
  | fuel + 1, t =>
    let line := Text.upTo '\n' t
    let rest := t.drop (line.length + 1)
    let shown := if tabs then line.dropWhile (· == '\t') else line
    if t.isEmpty then ([], 0, [])
    else if shown == delimiter then ([], 1, rest)
    else if line.length = t.length then (shown, 1, [])
    else
      let (more, count, after) := hereLines tabs delimiter fuel rest
      (shown ++ '\n' :: more, count + 1, after)

def wordText (word : Word) : Text :=
  word.flatMap fun
    | .literal text _ => text
    | _ => []

def isQuoted (word : Word) : Bool :=
  word.any fun
    | .literal _ quoted => quoted
    | _ => false

def hereDocument (tabs : Bool) (delimiter : Word) : Reader Word := do
  let s ← get
  let line := Text.upTo '\n' s.rest
  let below := s.rest.drop (line.length + 1)
  let (body, count, after) := hereLines tabs (wordText delimiter) (below.length + 1) below
  set { s with rest := line ++ '\n' :: after, hidden := s.hidden + count }
  if isQuoted delimiter then return [.literal body true]
  else match quotedText body (s.line + s.hidden + 1) with
    | .ok word => return word
    | .error e => throw e

def redirect : Reader Redirect := do
  let digits ← Reader.takeWhile isDigit
  let stream (standard : Nat) := (Text.natural? 10 digits).getD standard
  let target : Reader Word := do
    Reader.blanks
    let word ← readWord
    if word.isEmpty then Reader.unexpected else return word
  match (← get).rest with
  | '<' :: '<' :: '-' :: _ =>
    Reader.skipMany 3
    return .here (stream 0) (← hereDocument true (← target))
  | '<' :: '<' :: _ =>
    Reader.skipMany 2
    return .here (stream 0) (← hereDocument false (← target))
  | '<' :: '&' :: _ => Reader.skipMany 2; return .duplicate (stream 0) (← target)
  | '<' :: _ => Reader.skip; return .read (stream 0) (← target)
  | '>' :: '>' :: _ => Reader.skipMany 2; return .append (stream 1) (← target)
  | '>' :: '&' :: _ => Reader.skipMany 2; return .duplicate (stream 1) (← target)
  | '>' :: '|' :: _ => Reader.skipMany 2; return .write (stream 1) (← target)
  | _ => Reader.skip; return .write (stream 1) (← target)

def redirects : Nat → Reader (List Redirect)
  | 0 => return []
  | fuel + 1 => do
    Reader.blanks
    if ← Reader.atRedirect then
      let first ← redirect
      return first :: (← redirects fuel)
    else return []

def assignment? : Word → Option (Text × Word)
  | .literal text false :: rest =>
    (Text.splitFirst? '=' text).bind fun p =>
      if isName p.1 then some (p.1, if p.2.isEmpty then rest else .literal p.2 false :: rest)
      else none
  | _ => none

def simpleParts : Nat → Bool → Reader (List (Text × Word) × List Word × List Redirect)
  | 0, _ => return ([], [], [])
  | fuel + 1, assigning => do
    Reader.blanks
    if ← Reader.atRedirect then
      let first ← redirect
      let (assignments, words, rest) ← simpleParts fuel assigning
      return (assignments, words, first :: rest)
    else
      let word ← readWord
      if word.isEmpty then return ([], [], [])
      else
        match if assigning then assignment? word else none with
        | some assignment =>
          let (assignments, words, rest) ← simpleParts fuel true
          return (assignment :: assignments, words, rest)
        | none =>
          let (assignments, words, rest) ← simpleParts fuel false
          return (assignments, word :: words, rest)

def loopWords : Nat → Reader (List Word)
  | 0 => return []
  | fuel + 1 => do
    Reader.blanks
    let word ← readWord
    if word.isEmpty then return [] else return word :: (← loopWords fuel)

def patterns : Nat → Reader (List Word)
  | 0 => Reader.unexpected
  | fuel + 1 => do
    Reader.blanks
    let word ← readWord
    if word.isEmpty then Reader.unexpected
    else
      Reader.blanks
      match ← Reader.peek with
      | some '|' => Reader.skip; return word :: (← patterns fuel)
      | some ')' => Reader.skip; return [word]
      | _ => Reader.expecting [')']

def Command.ofList : List Command → Command
  | [command] => command
  | commands => .sequence commands

mutual

def commandList : Nat → Reader (List Command)
  | 0 => Reader.unexpected
  | fuel + 1 => do
    Reader.newlines
    let word ← Reader.plainWord
    if (← Reader.peek).isNone || closingWords.any (· == word) ||
        (← Reader.atOperator ")") || (← Reader.atOperator ";;") then return []
    else
      let first ← andOr fuel
      Reader.blanks
      if (← Reader.atOperator ";") || (← Reader.atOperator "&") then Reader.skip
      else if !((← Reader.peek).isNone || (← Reader.peek) == some '\n') then
        let word ← Reader.plainWord
        if !(closingWords.any (· == word) || (← Reader.atOperator ")") ||
            (← Reader.atOperator ";;")) then Reader.unexpected
      return first :: (← commandList fuel)

def body : Nat → Reader Command
  | 0 => Reader.unexpected
  | fuel + 1 => do
    match ← commandList fuel with
    | [] => Reader.unexpected
    | commands => return .ofList commands

def andOr : Nat → Reader Command
  | 0 => Reader.unexpected
  | fuel + 1 => do
    let first ← pipeline fuel
    andOrAfter fuel first

def andOrAfter : Nat → Command → Reader Command
  | 0, _ => Reader.unexpected
  | fuel + 1, first => do
    Reader.blanks
    if ← Reader.atOperator "&&" then
      Reader.skipMany 2
      Reader.newlines
      let second ← pipeline fuel
      andOrAfter fuel (.both first second)
    else if ← Reader.atOperator "||" then
      Reader.skipMany 2
      Reader.newlines
      let second ← pipeline fuel
      andOrAfter fuel (.either first second)
    else return first

def pipeline : Nat → Reader Command
  | 0 => Reader.unexpected
  | fuel + 1 => do
    Reader.blanks
    if ← Reader.atWord "!" then
      Reader.skip
      Reader.blanks
      if ← Reader.atWord "!" then Reader.unexpected
      return .negated (← pipeline fuel)
    else
      match ← piped fuel with
      | [command] => return command
      | commands => return .pipeline commands

def piped : Nat → Reader (List Command)
  | 0 => Reader.unexpected
  | fuel + 1 => do
    let first ← command fuel
    Reader.blanks
    if ← Reader.atOperator "|" then
      Reader.skip
      Reader.newlines
      return first :: (← piped fuel)
    else return [first]

def command : Nat → Reader Command
  | 0 => Reader.unexpected
  | fuel + 1 => do
    Reader.blanks
    let line := (← get).line
    let word ← Reader.plainWord
    let compound (inner : Command) : Reader Command := do
      match ← redirects ((← get).rest.length + 1) with
      | [] => return inner
      | changes => return .redirected line inner changes
    if word = ['{'] then
      Reader.skip
      let inner ← body fuel
      Reader.expectWord "\x7d"
      compound inner
    else if ← Reader.atOperator "(" then
      Reader.skip
      let inner ← body fuel
      Reader.newlines
      if ← Reader.atOperator ")" then Reader.skip; compound (.subshell inner)
      else Reader.expecting [')']
    else if word = "if".toList then
      Reader.skipMany 2
      compound (← branches fuel)
    else if word = "while".toList || word = "until".toList then
      Reader.skipMany 5
      let condition ← body fuel
      Reader.expectWord "do"
      let inner ← body fuel
      Reader.expectWord "done"
      compound (.loop (word = "while".toList) condition inner)
    else if word = "for".toList then
      Reader.skipMany 3
      Reader.blanks
      let name ← Reader.plainWord
      if !isName name then Reader.fail "Bad for loop variable".toList
      Reader.skipMany name.length
      Reader.newlines
      let words ← if ← Reader.atWord "in" then
          Reader.skipMany 2
          let words ← loopWords ((← get).rest.length + 1)
          pure (some words)
        else pure none
      Reader.blanks
      if ← Reader.atOperator ";" then Reader.skip
      Reader.expectWord "do"
      let inner ← body fuel
      Reader.expectWord "done"
      compound (.each name words inner)
    else if word = "case".toList then
      Reader.skipMany 4
      Reader.blanks
      let subject ← readWord
      if subject.isEmpty then Reader.unexpected
      Reader.expectWord "in"
      let arms ← arms fuel
      Reader.expectWord "esac"
      compound (.choice subject arms)
    else if reservedWords.any (· == word) then Reader.unexpected
    else
      let rest := ((← get).rest.drop word.length).dropWhile isSpace
      if isName word && rest.head? == some '(' then
        Reader.skipMany word.length
        Reader.blanks
        Reader.skip
        Reader.blanks
        if !(← Reader.atOperator ")") then
          if !(← Reader.plainWord).isEmpty then Reader.fail "word unexpected (expecting \")\")".toList
          else Reader.expecting [')']
        Reader.skip
        Reader.newlines
        return .define word (← command fuel)
      else
        let (assignments, words, changes) ← simpleParts ((← get).rest.length + 1) true
        if assignments.isEmpty && words.isEmpty && changes.isEmpty then Reader.unexpected
        else
          let inner := Command.simple line assignments words
          return if changes.isEmpty then inner else .redirected line inner changes

def branches : Nat → Reader Command
  | 0 => Reader.unexpected
  | fuel + 1 => do
    let condition ← body fuel
    Reader.expectWord "then"
    let success ← body fuel
    Reader.newlines
    if ← Reader.atWord "elif" then
      Reader.skipMany 4
      return .branch condition success (some (← branches fuel))
    else if ← Reader.atWord "else" then
      Reader.skipMany 4
      let failure ← body fuel
      Reader.expectWord "fi"
      return .branch condition success (some failure)
    else
      Reader.expectWord "fi"
      return .branch condition success none

def arms : Nat → Reader (List (List Word × Command))
  | 0 => Reader.unexpected
  | fuel + 1 => do
    Reader.newlines
    if (← Reader.peek).isNone then Reader.expecting [')']
    else if ← Reader.atWord "esac" then return []
    else
      if ← Reader.atOperator "(" then Reader.skip
      let patterns ← patterns ((← get).rest.length + 1)
      let inner ← commandList fuel
      Reader.newlines
      if ← Reader.atOperator ";;" then
        Reader.skipMany 2
        return (patterns, .ofList inner) :: (← arms fuel)
      else if ← Reader.atWord "esac" then return [(patterns, .ofList inner)]
      else Reader.expecting [';', ';']

end

def lineOfCommands : Nat → Reader (List Command)
  | 0 => Reader.unexpected
  | fuel + 1 => do
    Reader.blanks
    if (← Reader.peek).isNone || (← Reader.peek) == some '\n' then return []
    else
      let first ← andOr ((← get).rest.length * 12 + 12)
      Reader.blanks
      if (← Reader.atOperator ";") || (← Reader.atOperator "&") then
        Reader.skip
        return first :: (← lineOfCommands fuel)
      else if (← Reader.peek).isNone || (← Reader.peek) == some '\n' then return [first]
      else Reader.unexpected

def scriptLines : Nat → Source → List Command × Option Misplaced
  | 0, _ => ([], none)
  | fuel + 1, source =>
    match (do Reader.newlines; lineOfCommands ((← get).rest.length + 1) : Reader _) source with
    | .error e _ => ([], some e)
    | .ok [] _ => ([], none)
    | .ok commands next =>
      let (more, misplaced) := scriptLines fuel next
      (commands ++ more, misplaced)

def commandsOf (line : Nat) (script : Text) : List Command × Option Misplaced :=
  scriptLines (script.length + 1) ⟨script, line, 0⟩

end ShaderReflection.Shell
