import ShaderReflection.Json.Numeral
/-!
JSON text as a tree that keeps what a reader can stumble over: places, numbers out of range,
strings that are no text, and holes where the text breaks off. `Node.parse` never fails; whether
and how a fault matters is decided by the one who reads the tree, from left to right.
-/
namespace ShaderReflection.Json

inductive Gap where
  | unclosed
  | stray
  | afterComma
  | commaEnd
  | noKey
  | badKey (read skip : Fault)

inductive Close where
  | closed (stop : Nat)
  | cut (gap : Gap) (place : Nat)

/-- The key of a member and the place that a reader comes to who stops behind it: blanks and a
closing brace are passed over. -/
structure Key where
  name : Except Fault Text
  stop : Nat

/-- A JSON value. Places are numbers of bytes before: `start` for the value itself, `stop`
for what follows it. -/
inductive Node where
  | null (start stop : Nat)
  | boolean (value : Bool) (start stop : Nat)
  | number (value : Except Fault Number) (start stop : Nat)
  | string (value : Except Fault Text) (start stop : Nat)
  | array (items : List Node) (close : Close) (start : Nat)
  | object (members : List (Key × Node)) (close : Close) (start : Nat)
  | broken (read skip : Fault) (start : Nat)

namespace Node

def start : Node → Nat
  | null s _ | boolean _ s _ | number _ s _ | string _ s _ | array _ _ s | object _ _ s
  | broken _ _ s => s

end Node

def isSpace (c : Char) : Bool := c == ' ' || c == '\n' || c == '\t' || c == '\r'

def Cursor.skipSpace (c : Cursor) : Cursor :=
  ⟨c.place + (c.rest.takeWhile isSpace).length, c.rest.dropWhile isSpace⟩

def Cursor.finish (c : Cursor) : Cursor := ⟨c.place + Text.utf8Length c.rest, []⟩

def brokenAt (fault : Fault) (c : Cursor) : Node × Cursor :=
  (.broken fault fault c.place, c.finish)

def afterLetters : Text → Cursor → Except Fault Cursor
  | [], c => .ok c
  | letter :: more, c =>
    match c.rest with
    | [] => .error ⟨.endInValue, c.place, false⟩
    | d :: r =>
      if d == letter then afterLetters more ⟨c.place + 1, r⟩
      else .error ⟨.expectedIdent, c.place + 1, false⟩

def literal (letters : Text) (node : Nat → Node) (c : Cursor) : Node × Cursor :=
  match afterLetters letters c with
  | .ok next => (node next.place, next)
  | .error fault => brokenAt fault c

def numberNode (c : Cursor) : Node × Cursor :=
  let negative := c.rest.head? == some '-'
  match numeral negative (if negative then ⟨c.place + 1, c.rest.drop 1⟩ else c) with
  | .error b => (.broken b.read b.skip c.place, c.finish)
  | .ok (x, next) =>
    match x.value? with
    | some value => (.number (.ok value) c.place next.place, next)
    | none =>
      let fault := ⟨.numberOutOfRange, next.place - x.unreadDigits, false⟩
      (.number (.error fault) c.place next.place, next)

def stringNode (c : Cursor) : Node × Cursor :=
  let body := stringBody c
  match body.after with
  | .ok next => (.string body.read (c.place - 1) next.place, next)
  | .error skip =>
    let read := match body.read with
      | .error fault => fault
      | .ok _ => skip
    (.broken read skip (c.place - 1), c.finish)

def scalar (c : Cursor) : Node × Cursor :=
  match c.rest with
  | [] => brokenAt ⟨.endInValue, c.place, true⟩ c
  | d :: r =>
    if d == '"' then stringNode ⟨c.place + 1, r⟩
    else if d == '-' || isDigit d then numberNode c
    else if d == 'n' then literal "null".toList (.null c.place) c
    else if d == 't' then literal "true".toList (.boolean true c.place) c
    else if d == 'f' then literal "false".toList (.boolean false c.place) c
    else brokenAt ⟨.expectedValue, c.place, true⟩ c

inductive Next where
  | done (close : Close) (after : Cursor)
  | more (after : Cursor)

def nextAfter (bracket : Char) (c : Cursor) : Next :=
  let c := c.skipSpace
  match c.rest with
  | [] => .done (.cut .unclosed c.place) c
  | d :: r =>
    if d == bracket then .done (.closed (c.place + 1)) ⟨c.place + 1, r⟩
    else if d == ',' then
      let after := Cursor.skipSpace ⟨c.place + 1, r⟩
      match after.rest with
      | [] => .done (.cut .afterComma after.place) after
      | e :: _ =>
        if e == bracket then .done (.cut .commaEnd after.place) after.finish else .more after
    else .done (.cut .stray c.place) c.finish

def keyAt (c : Cursor) : Except Gap (Key × Except Fault Cursor) :=
  match c.rest with
  | '"' :: r =>
    let body := stringBody ⟨c.place + 1, r⟩
    match body.after with
    | .error skip =>
      let read := match body.read with
        | .error fault => fault
        | .ok _ => skip
      .error (.badKey read skip)
    | .ok next =>
      let next := next.skipSpace
      let stop := if next.rest.head? == some '}' then next.place + 1 else next.place
      .ok (⟨body.read, stop⟩, match next.rest with
        | [] => .error ⟨.endInObject, next.place, true⟩
        | d :: rest =>
          if d == ':' then .ok ⟨next.place + 1, rest⟩
          else .error ⟨.expectedColon, next.place, true⟩)
  | _ => .error .noKey

mutual

def value : Nat → Cursor → Node × Cursor
  | 0, c => brokenAt ⟨.endInValue, c.place, true⟩ c
  | fuel + 1, c =>
    let c := c.skipSpace
    match c.rest with
    | '[' :: r =>
      let inner := Cursor.skipSpace ⟨c.place + 1, r⟩
      match inner.rest with
      | [] => (.array [] (.cut .unclosed inner.place) c.place, inner)
      | d :: rest =>
        if d == ']' then
          (.array [] (.closed (inner.place + 1)) c.place, ⟨inner.place + 1, rest⟩)
        else
          let (items, close, after) := items fuel inner
          (.array items close c.place, after)
    | '{' :: r =>
      let inner := Cursor.skipSpace ⟨c.place + 1, r⟩
      match inner.rest with
      | [] => (.object [] (.cut .unclosed inner.place) c.place, inner)
      | d :: rest =>
        if d == '}' then
          (.object [] (.closed (inner.place + 1)) c.place, ⟨inner.place + 1, rest⟩)
        else
          let (members, close, after) := members fuel inner
          (.object members close c.place, after)
    | _ => scalar c

def items : Nat → Cursor → List Node × Close × Cursor
  | 0, c => ([], .cut .unclosed c.place, c.finish)
  | fuel + 1, c =>
    let (item, after) := value fuel c
    match nextAfter ']' after with
    | .done close next => ([item], close, next)
    | .more next =>
      let (rest, close, last) := items fuel next
      (item :: rest, close, last)

def members : Nat → Cursor → List (Key × Node) × Close × Cursor
  | 0, c => ([], .cut .unclosed c.place, c.finish)
  | fuel + 1, c =>
    match keyAt c with
    | .error gap => ([], .cut gap c.place, c.finish)
    | .ok (key, .error fault) =>
      ([(key, .broken fault fault fault.place)], .cut .unclosed fault.place, c.finish)
    | .ok (key, .ok colon) =>
      let (node, after) := value fuel colon
      match nextAfter '}' after with
      | .done close next => ([(key, node)], close, next)
      | .more next =>
        let (rest, close, last) := members fuel next
        ((key, node) :: rest, close, last)

end

def Node.parse (text : Text) : Node × Cursor := value (2 * text.length + 2) ⟨0, text⟩

end ShaderReflection.Json
