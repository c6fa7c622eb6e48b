import ShaderReflection.Json.StringBody
/-!
JSON numerals. The digits are collected exactly as long as they fit a word of 64 bits; a numeral
with fraction or exponent, a longer one and minus zero are binary64 numbers.
-/
namespace ShaderReflection.Json

def isDigit (c : Char) : Bool := 48 ≤ c.toNat && c.toNat ≤ 57

structure Numeral where
  negative : Bool
  whole : Text
  fraction : Option Text
  exponent : Option (Bool × Text)

def longLimit : Nat := 18446744073709551616

def absorb : Nat → Text → Nat × Nat
  | n, [] => (n, 0)
  | n, c :: r =>
    let next := n * 10 + (c.toNat - 48)
    if next < longLimit then absorb next r else (n, r.length + 1)

def digitsValue (digits : Text) : Nat := (Text.natural? 10 digits).getD 0

def exponentLimit : Nat := 2147483648

/-- How many digits stand behind the one with which an exponent, whose value so far is `n`, becomes
too great. -/
def digitsPastLimit : Nat → Text → Nat
  | _, [] => 0
  | n, c :: r =>
    let next := n * 10 + (c.toNat - 48)
    if next < exponentLimit then digitsPastLimit next r else r.length

def Numeral.unreadDigits (x : Numeral) : Nat :=
  match x.exponent with
  | none => 0
  | some (_, digits) => digitsPastLimit 0 digits

def Numeral.float? (x : Numeral) : Option Number :=
  let (significand, dropped) := absorb 0 x.whole
  let fraction := x.fraction.getD []
  let (digits, unread) := absorb significand fraction
  let shift : Int := dropped - (fraction.length - unread : Nat)
  let magnitude :=
    match x.exponent with
    | none => Binary64.ofDecimal digits shift
    | some (negative, exponent) =>
      let e := digitsValue exponent
      if exponentLimit ≤ e then (if digits = 0 ∨ negative then some Binary64.zero else none)
      else Binary64.ofDecimal digits (if negative then shift - e else shift + e)
  magnitude.map (Number.float x.negative)

def Numeral.value? (x : Numeral) : Option Number :=
  let n := digitsValue x.whole
  match x.fraction, x.exponent with
  | none, none =>
    if x.negative then
      if 0 < n ∧ n ≤ 9223372036854775808 then some (.integer (-n)) else x.float?
    else if n < longLimit then some (.integer n) else x.float?
  | _, _ => x.float?

structure Broken where
  read : Fault
  skip : Fault

def malformedNumber (place : Nat) (ahead : Bool) : Broken :=
  ⟨⟨.invalidNumber, place, ahead⟩, ⟨.invalidNumber, place, ahead⟩⟩

def endedNumber (place : Nat) : Broken :=
  ⟨⟨.endInValue, place, false⟩, ⟨.invalidNumber, place, true⟩⟩

def Cursor.pastDigits (c : Cursor) : Text × Cursor :=
  let digits := c.rest.takeWhile isDigit
  (digits, ⟨c.place + digits.length, c.rest.dropWhile isDigit⟩)

def wholePart (c : Cursor) : Except Broken (Text × Cursor) :=
  match c.rest with
  | [] => .error (endedNumber c.place)
  | '0' :: r =>
    if r.head?.any isDigit then .error (malformedNumber (c.place + 1) true)
    else .ok (['0'], ⟨c.place + 1, r⟩)
  | d :: _ => if isDigit d then .ok c.pastDigits else .error (malformedNumber (c.place + 1) false)

def fractionPart (c : Cursor) : Except Broken (Option Text × Cursor) :=
  match c.rest with
  | '.' :: r =>
    let after : Cursor := ⟨c.place + 1, r⟩
    let (digits, next) := after.pastDigits
    if !digits.isEmpty then .ok (some digits, next)
    else if r.isEmpty then .error (endedNumber after.place)
    else .error (malformedNumber after.place true)
  | _ => .ok (none, c)

def exponentSign (c : Cursor) : Bool × Cursor :=
  match c.rest with
  | '+' :: r => (false, ⟨c.place + 1, r⟩)
  | '-' :: r => (true, ⟨c.place + 1, r⟩)
  | _ => (false, c)

def exponentPart (c : Cursor) : Except Broken (Option (Bool × Text) × Cursor) :=
  match c.rest with
  | [] => .ok (none, c)
  | e :: r =>
    if e == 'e' || e == 'E' then
      let (negative, after) := exponentSign ⟨c.place + 1, r⟩
      let (digits, next) := after.pastDigits
      if !digits.isEmpty then .ok (some (negative, digits), next)
      else if after.rest.isEmpty then .error (endedNumber after.place)
      else .error (malformedNumber (after.place + 1) false)
    else .ok (none, c)

def numeral (negative : Bool) (c : Cursor) : Except Broken (Numeral × Cursor) := do
  let (whole, c) ← wholePart c
  let (fraction, c) ← fractionPart c
  let (exponent, c) ← exponentPart c
  return (⟨negative, whole, fraction, exponent⟩, c)

end ShaderReflection.Json
