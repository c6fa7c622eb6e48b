import ShaderReflection.Json.Fault
/-!
The inside of a JSON string. It is first cut into pieces, one for each character, escape or code
unit, up to the closing quote; reading then joins code units into characters. A reader that only
passes over a string does the first step and so accepts code units that make no character.
-/
namespace ShaderReflection.Json

structure Cursor where
  place : Nat
  rest : Text

inductive Piece where
  | plain (c : Char) (stop : Nat)
  | escaped (c : Char) (stop : Nat)
  | unit (n : Nat) (stop : Nat)

def simpleEscape? : Char → Option Char
  | '"' => some '"'
  | '\\' => some '\\'
  | '/' => some '/'
  | 'b' => some (Char.ofNat 8)
  | 'f' => some (Char.ofNat 12)
  | 'n' => some '\n'
  | 'r' => some '\r'
  | 't' => some '\t'
  | _ => none

inductive Ending where
  | closed (after : Cursor)
  | cut (place : Nat)
  | badUnit (place : Nat)
  | badEscape (place : Nat)
  | control (place : Nat)

def Ending.readFault? : Ending → Option Fault
  | closed _ => none
  | cut place => some ⟨.endInString, place, false⟩
  | badUnit place | badEscape place => some ⟨.invalidEscape, place, false⟩
  | control place => some ⟨.controlCharacter, place + 1, false⟩

def Ending.skip : Ending → Except Fault Cursor
  | closed after => .ok after
  | cut place => .error ⟨.endInString, place, false⟩
  | badUnit place | badEscape place => .error ⟨.invalidEscape, place, false⟩
  | control place => .error ⟨.controlCharacter, place, false⟩

def pieces : Nat → Text → List Piece × Ending
  | place, [] => ([], .cut place)
  | place, '"' :: r => ([], .closed ⟨place + 1, r⟩)
  | place, '\\' :: 'u' :: a :: b :: c :: d :: r =>
    match Text.natural? 16 [a, b, c, d] with
    | none => ([], .badUnit (place + 6))
    | some n => ((.unit n (place + 6)) :: (pieces (place + 6) r).1, (pieces (place + 6) r).2)
  | place, '\\' :: 'u' :: r =>
    if 4 ≤ Text.utf8Length r then ([], .badUnit (place + 6))
    else ([], .cut (place + 2 + Text.utf8Length r))
  | place, ['\\'] => ([], .cut (place + 1))
  | place, '\\' :: e :: r =>
    match simpleEscape? e with
    | none => ([], .badEscape (place + 2))
    | some c => (.escaped c (place + 2) :: (pieces (place + 2) r).1, (pieces (place + 2) r).2)
  | place, c :: r =>
    if c.toNat < 32 then ([], .control place)
    else
      let next := place + c.utf8Size
      (.plain c next :: (pieces next r).1, (pieces next r).2)

def isHighSurrogate (n : Nat) : Bool := 0xD800 ≤ n && n ≤ 0xDBFF

def isLowSurrogate (n : Nat) : Bool := 0xDC00 ≤ n && n ≤ 0xDFFF

def pairedChar (high low : Nat) : Char :=
  Char.ofNat ((high - 0xD800) * 0x400 + (low - 0xDC00) + 0x10000)

def Ending.unpaired (stop : Nat) : Ending → Fault
  | closed _ | control _ => ⟨.unpairedSurrogate, stop + 1, false⟩
  | badEscape _ => ⟨.unpairedSurrogate, stop + 2, false⟩
  | cut place => ⟨.endInString, place, false⟩
  | badUnit place => ⟨.invalidEscape, place, false⟩

def joinPieces (ending : Ending) : List Piece → Except Fault Text
  | [] => match ending.readFault? with
    | none => .ok []
    | some fault => .error fault
  | .plain c _ :: rest => (joinPieces ending rest).map (c :: ·)
  | .escaped c _ :: rest => (joinPieces ending rest).map (c :: ·)
  | .unit n stop :: rest =>
    if isLowSurrogate n then .error ⟨.loneSurrogate, stop, false⟩
    else if isHighSurrogate n then
      match rest with
      | .unit m next :: rest =>
        if isLowSurrogate m then (joinPieces ending rest).map (pairedChar n m :: ·)
        else .error ⟨.loneSurrogate, next, false⟩
      | .plain _ _ :: _ => .error ⟨.unpairedSurrogate, stop + 1, false⟩
      | .escaped _ _ :: _ => .error ⟨.unpairedSurrogate, stop + 2, false⟩
      | [] => .error (ending.unpaired stop)
    else (joinPieces ending rest).map (Char.ofNat n :: ·)

structure StringBody where
  read : Except Fault Text
  after : Except Fault Cursor

def stringBody (c : Cursor) : StringBody :=
  let p := pieces c.place c.rest
  ⟨joinPieces p.2 p.1, p.2.skip⟩

end ShaderReflection.Json
