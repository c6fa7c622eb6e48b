/-!
Finite binary64 numbers without sign, as exact values `mantissa * 2 ^ exponent`, with correct
rounding: to the nearest number, a tie going to the even mantissa. Everything is computed in
natural numbers.
-/
namespace ShaderReflection

structure Binary64 where
  mantissa : Nat
  exponent : Int
  deriving DecidableEq, Repr

namespace Binary64

def zero : Binary64 := ⟨0, -1074⟩

def roundDiv (num den : Nat) : Nat :=
  let q := num / den
  let r := num % den
  if 2 * r < den then q
  else if den < 2 * r then q + 1
  else if q % 2 = 0 then q else q + 1

def scale (n d : Nat) (e : Int) : Nat × Nat :=
  if 0 ≤ e then (n * Nat.pow 2 e.toNat, d) else (n, d * Nat.pow 2 (-e).toNat)

def logTwo (num den : Nat) : Int :=
  let e : Int := (Nat.log2 num : Int) - Nat.log2 den
  let (n, d) := scale num den (-e)
  if n < d then e - 1 else e

def ofRatio (num den : Nat) : Option Binary64 :=
  if num = 0 then some zero
  else
    let e := max (logTwo num den - 52) (-1074)
    let (n, d) := scale num den (-e)
    let m := roundDiv n d
    let rounded : Binary64 := if m = 9007199254740992 then ⟨4503599627370496, e + 1⟩ else ⟨m, e⟩
    if rounded.exponent ≤ 971 then some rounded else none

def num (x : Binary64) : Nat := (scale x.mantissa 1 x.exponent).1

def den (x : Binary64) : Nat := (scale x.mantissa 1 x.exponent).2

def ofNat? (n : Nat) : Option Binary64 := ofRatio n 1

def mul (x y : Binary64) : Option Binary64 := ofRatio (x.num * y.num) (x.den * y.den)

def div (x y : Binary64) : Option Binary64 := ofRatio (x.num * y.den) (x.den * y.num)

/-- `digits * 10 ^ e`, rounded twice: first the digits, then the product with the power of ten or
the quotient by it. Nothing if the result is beyond the greatest number. A power below the least
one in range is taken in two steps. -/
def ofDecimal (digits : Nat) (e : Int) : Option Binary64 :=
  (ofNat? digits).bind fun x =>
    if 308 < e then (if x.mantissa = 0 then some zero else none)
    else if 0 ≤ e then (ofNat? (Nat.pow 10 e.toNat)).bind x.mul
    else if -308 ≤ e then (ofNat? (Nat.pow 10 (-e).toNat)).bind x.div
    else if -616 ≤ e then
      ((ofNat? (Nat.pow 10 308)).bind x.div).bind fun y =>
        (ofNat? (Nat.pow 10 (-e - 308).toNat)).bind y.div
    else some zero

end Binary64
end ShaderReflection
