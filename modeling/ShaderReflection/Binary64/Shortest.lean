import ShaderReflection.Binary64.Basic
import ShaderReflection.Text.Numeral
/-!
The shortest decimal text that reads back as a given binary64 number. On the grids of 1, 2, … 17
significant digits the two neighbours of the number are tried; the first grid with one that rounds
to the number wins, and of two such the nearer.
-/
namespace ShaderReflection.Binary64

structure Digits where
  digits : Nat
  exponent : Int

def quarterInterval (x : Binary64) : Nat × Nat × Nat :=
  let v := 4 * x.mantissa
  let below := if x.mantissa = 4503599627370496 ∧ -1074 < x.exponent then 1 else 2
  (v - below, v, v + 2)

def logTen (num den : Nat) : Nat → Int → Int
  | 0, p => p
  | fuel + 1, p =>
    let q := p + 1
    let reached :=
      if 0 ≤ q then Nat.pow 10 q.toNat * den ≤ num else den ≤ num * Nat.pow 10 (-q).toNat
    if reached then logTen num den fuel q else p

def compareDecimal (d : Nat) (g : Int) (n : Nat) (e : Int) : Ordering :=
  let left := d * (if 0 ≤ g then Nat.pow 10 g.toNat else 1) *
    (if 0 ≤ e then 1 else Nat.pow 2 (-e).toNat)
  let right := n * (if 0 ≤ g then 1 else Nat.pow 10 (-g).toNat) *
    (if 0 ≤ e then Nat.pow 2 e.toNat else 1)
  compare left right

def roundsTo (x : Binary64) (d : Nat) (g : Int) : Bool :=
  let (lo, _, hi) := x.quarterInterval
  let even := x.mantissa % 2 = 0
  let above := compareDecimal d g lo (x.exponent - 2)
  let below := compareDecimal d g hi (x.exponent - 2)
  (above == .gt || (above == .eq && even)) && (below == .lt || (below == .eq && even))

def onGrid? (x : Binary64) (g : Int) : Option Nat :=
  let n := x.num * (if 0 ≤ g then 1 else Nat.pow 10 (-g).toNat)
  let d := x.den * (if 0 ≤ g then Nat.pow 10 g.toNat else 1)
  let q := n / d
  match x.roundsTo q g, x.roundsTo (q + 1) g with
  | true, true => some (roundDiv n d)
  | true, false => some q
  | false, true => some (q + 1)
  | false, false => none

def dropZeros : Nat → Digits → Digits
  | 0, x => x
  | fuel + 1, x =>
    if x.digits ≠ 0 ∧ x.digits % 10 = 0 then dropZeros fuel ⟨x.digits / 10, x.exponent + 1⟩ else x

def searchGrids (x : Binary64) (top : Int) : Nat → Int → Digits
  | 0, n => ⟨(x.onGrid? (top + 1 - n)).getD 0, top + 1 - n⟩
  | fuel + 1, n =>
    match x.onGrid? (top + 1 - n) with
    | some d => ⟨d, top + 1 - n⟩
    | none => searchGrids x top fuel (n + 1)

def shortest (x : Binary64) : Digits :=
  dropZeros 20 (searchGrids x (logTen x.num x.den 640 (-330)) 16 1)

def Digits.toText (x : Digits) : Text :=
  let digits := Text.decimal x.digits
  let length : Int := digits.length
  let point := length + x.exponent
  let zeros (n : Int) := List.replicate n.toNat '0'
  if 0 ≤ x.exponent ∧ point ≤ 16 then digits ++ zeros x.exponent ++ ['.', '0']
  else if 0 < point ∧ point ≤ 16 then digits.take point.toNat ++ '.' :: digits.drop point.toNat
  else if -5 < point ∧ point ≤ 0 then '0' :: '.' :: zeros (-point) ++ digits
  else
    let fraction := if digits.length = 1 then [] else '.' :: digits.drop 1
    let sign := if 0 < point then ['+'] else []
    digits.take 1 ++ fraction ++ 'e' :: sign ++ Text.signedDecimal (point - 1)

def toText (x : Binary64) : Text :=
  if x.mantissa = 0 then "0.0".toList else x.shortest.toText

end ShaderReflection.Binary64
