import ShaderReflection.Text.Basic
/-!
Numerals: the value of a run of digits, unsigned words of 32 bits read with an optional plus sign,
and the decimal and hexadecimal numerals that are written.
-/
namespace ShaderReflection.Text

def digit? (base : Nat) (c : Char) : Option Nat :=
  let n := c.toNat
  let value :=
    if 48 ≤ n ∧ n ≤ 57 then n - 48
    else if 97 ≤ n ∧ n ≤ 122 then n - 87
    else if 65 ≤ n ∧ n ≤ 90 then n - 55
    else base
  if value < base then some value else none

def readDigits (base : Nat) : Nat → Text → Option Nat
  | acc, [] => some acc
  | acc, c :: r => (digit? base c).bind fun d => readDigits base (acc * base + d) r

def natural? (base : Nat) (t : Text) : Option Nat :=
  if t.isEmpty then none else readDigits base 0 t

def dropPlus : Text → Text
  | '+' :: r => r
  | t => t

def wordLimit : Nat := 4294967296

/-- Reads a word of 32 bits. A numeral whose value does not fit is refused, never reduced. -/
def word32? (base : Nat) (t : Text) : Option UInt32 :=
  (natural? base (dropPlus t)).bind fun n =>
    if n < wordLimit then some (UInt32.ofNat n) else none

def decimal (n : Nat) : Text := Nat.toDigits 10 n

def signedDecimal (n : Int) : Text := if n < 0 then '-' :: decimal n.natAbs else decimal n.natAbs

def hexadecimal (n : Nat) : Text := Nat.toDigits 16 n

example : word32? 10 "+007".toList = some 7 := by decide
example : word32? 10 "4294967296".toList = none := by decide
example : word32? 16 "8b5C".toList = some 0x8b5c := by decide

end ShaderReflection.Text
