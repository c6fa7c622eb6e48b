import ShaderReflection.Proofs.Json.Focus
import ShaderReflection.Proofs.Binary64.Range
/-!
What a numeral stands for when an integer is asked for. A decoder of words takes the integer
literals of its range for what they are, and refuses every other numeral. An integer of any usual
length is a number, and only one beyond the numbers of binary64 is none.
-/
namespace ShaderReflection.Json
open Text (decimal signedDecimal)

def Numeral.ofInt (i : Int) : Numeral := ⟨decide (i < 0), decimal i.natAbs, none, none⟩

def Numeral.NoInteger (x : Numeral) : Prop :=
  x.fraction ≠ none ∨ x.exponent ≠ none ∨ x.negative = true ∧ x.whole = ['0']

section Characters
variable {i j : Int} {n : Nat} {c : Char}

theorem decimalInjective {m : Nat} (same : decimal m = decimal n) : m = n := by
  have read := Text.decimalRead m
  rw [same, Text.decimalRead] at read
  exact (Option.some.inj read).symm

theorem decimalLacks (other : isDigit c = false) : c ∉ decimal n := by
  intro member
  rw [(decimalWhole n).2.1 c member] at other
  cases other

theorem signedInjective (same : signedDecimal i = signedDecimal j) : i = j := by
  have digit {n m : Nat} : decimal n ≠ '-' :: decimal m := fun same =>
    decimalLacks (by decide : isDigit '-' = false) (same ▸ List.mem_cons_self)
  unfold signedDecimal at same
  split at same <;> split at same
  · have size := decimalInjective (List.cons.inj same).2
    omega
  · exact absurd same.symm digit
  · exact absurd same digit
  · have size := decimalInjective same
    omega

theorem signedLacks (other : isDigit c = false) (sign : c ≠ '-') : c ∉ signedDecimal i := by
  unfold signedDecimal
  split
  · rw [List.mem_cons, not_or]
    exact ⟨sign, decimalLacks other⟩
  · exact decimalLacks other

end Characters

section Numerals
variable {x : Numeral} {text : Text}

theorem integerFree (written : NumeralText x text) (free : x.NoInteger) (i : Int) :
    signed x.negative text ≠ signedDecimal i := by
  obtain ⟨fraction, exponent, rfl, whole, fractional, exponential⟩ := written
  obtain ⟨negative, digits, f, e⟩ := x
  intro same
  have among {c : Char} (member : c ∈ fraction ++ exponent) : c ∈ signedDecimal i := by
    rw [← same, signed]
    split <;> simp [List.mem_append.mp member]
  cases fractional with
  | digits some' all =>
    exact signedLacks (by decide) (by decide) (among (List.mem_append_left _ List.mem_cons_self))
  | none =>
    cases exponential with
    | @digits mark negative' sign digits' marks =>
      have letter : isDigit mark = false ∧ mark ≠ '-' := by
        rcases List.mem_pair.mp marks with rfl | rfl <;> decide
      exact signedLacks letter.1 letter.2 (among (List.mem_append_right _ List.mem_cons_self))
    | none =>
      -- Minus zero is left, and no integer is written so.
      obtain ⟨rfl, rfl⟩ : negative = true ∧ digits = ['0'] := by
        simpa [Numeral.NoInteger] using free
      have zero : decimal 0 = ['0'] := by decide
      unfold signedDecimal at same
      split at same
      · have size := decimalInjective (zero.trans (List.cons.inj same).2)
        omega
      · have sign : '-' ∈ decimal i.natAbs := same ▸ List.mem_cons_self
        exact decimalLacks (by decide) sign

theorem saysFloat (written : NumeralText x text) (free : x.NoInteger) :
    Says (signed x.negative text) (.number x.float?) :=
  .numeral written fun i _ => integerFree written free i

theorem literalWritten (i : Int) : NumeralText (Numeral.ofInt i) (decimal i.natAbs) :=
  ⟨[], [], by simp [Numeral.ofInt], decimalWhole i.natAbs, .none, .none⟩

theorem longOther {i : Int} (long : ¬Word64 i) (j : Int) (word : Word64 j) :
    signed (Numeral.ofInt i).negative (decimal i.natAbs) ≠ signedDecimal j := by
  intro same
  exact long (signedInjective ((signedWritten i).trans same) ▸ word)

theorem longFloat {i : Int} (long : ¬Word64 i) :
    (Numeral.ofInt i).value? = (Numeral.ofInt i).float? :=
  numeralFloat (literalWritten i) (longOther long)

theorem saysLiteral (i : Int) :
    Says (signedDecimal i) (.number (Numeral.ofInt i).value?) := by
  by_cases word : Word64 i
  · exact decimalValue word ▸ Says.integer word
  · have said := Says.numeral (literalWritten i) (longOther word)
    rwa [← longFloat word, Numeral.ofInt, ← signedWritten] at said

theorem floatNumber {value : Number} (found : x.float? = some value) :
    ∃ negative magnitude, value = .float negative magnitude := by
  obtain ⟨magnitude, -, rfl⟩ := Option.map_eq_some_iff.mp found
  exact ⟨_, magnitude, rfl⟩

end Numerals

section Words
variable {α : Type} {name : String} {least greatest : Int} {convert : Int → α} {i : Int}

theorem wordTaken (range : least ≤ i ∧ i ≤ greatest) (word : Word64 i) :
    (Decoder.word name least greatest convert).Takes (.number (Numeral.ofInt i).value?)
      (convert i) := by
  rw [Numeral.ofInt, decimalValue word]
  exact Decoder.takesWord name convert range

theorem refusesFloat (x : Numeral) :
    (Decoder.word name least greatest convert).Refuses (.number x.float?) := by
  intro node means
  obtain ⟨value, start, stop, rfl, same⟩ := nodeForm means
  cases value with
  | error fault => simp [Decoder.word]
  | ok value =>
    obtain ⟨negative, magnitude, rfl⟩ := floatNumber same.symm
    simp [Decoder.word]

theorem wordRefused (outside : ¬(least ≤ i ∧ i ≤ greatest)) :
    (Decoder.word name least greatest convert).Refuses (.number (Numeral.ofInt i).value?) := by
  by_cases word : Word64 i
  · rw [Numeral.ofInt, decimalValue word]
    intro node means
    obtain ⟨value, start, stop, rfl, same⟩ := nodeForm means
    obtain rfl := valueOfOption same
    simp [Decoder.word, outside]
  · exact longFloat word ▸ refusesFloat _

theorem refusesNullable {d : Decoder α} {tree : Tree} (refuses : d.Refuses tree)
    (some' : tree ≠ .null) : d.nullable.Refuses tree := by
  intro node means
  cases node with
  | null start stop =>
    cases means
    exact absurd rfl some'
  | _ => exact refuses _ means

end Words

section Magnitudes
variable {digits : Text} {acc v : Nat} {i : Int}

theorem digitTen {c : Char} {d : Nat} (digit : Text.digit? 10 c = some d) :
    c.toNat - 48 = d ∧ d < 10 := by
  simp only [Text.digit?, Option.ite_none_right_eq_some, Option.some.injEq] at digit
  obtain ⟨small, rfl⟩ := digit
  refine ⟨?_, small⟩
  split_ifs at small ⊢ <;> omega

theorem digitsSpan (read : Text.readDigits 10 acc digits = some v) :
    acc * 10 ^ digits.length ≤ v ∧ v < (acc + 1) * 10 ^ digits.length := by
  induction digits generalizing acc with
  | nil =>
    obtain rfl := Option.some.inj read
    simp
  | cons c rest ih =>
    obtain ⟨d, digit, more⟩ := Option.bind_eq_some_iff.mp read
    have small := (digitTen digit).2
    obtain ⟨least, greatest⟩ := ih more
    rw [List.length_cons, Nat.pow_succ']
    constructor
    · calc acc * (10 * 10 ^ rest.length) = acc * 10 * 10 ^ rest.length := (Nat.mul_assoc ..).symm
        _ ≤ (acc * 10 + d) * 10 ^ rest.length := Nat.mul_le_mul_right _ (Nat.le_add_right ..)
        _ ≤ v := least
    · calc v < (acc * 10 + d + 1) * 10 ^ rest.length := greatest
        _ ≤ ((acc + 1) * 10) * 10 ^ rest.length := Nat.mul_le_mul_right _ (by omega)
        _ = (acc + 1) * (10 * 10 ^ rest.length) := Nat.mul_assoc ..

theorem absorbSpan (read : Text.readDigits 10 acc digits = some v) :
    (absorb acc digits).1 * 10 ^ (absorb acc digits).2 ≤ v ∧
      v < ((absorb acc digits).1 + 1) * 10 ^ (absorb acc digits).2 ∧
      (0 < v → 0 < (absorb acc digits).1) := by
  induction digits generalizing acc with
  | nil =>
    obtain rfl := Option.some.inj read
    simp [absorb]
  | cons c rest ih =>
    obtain ⟨d, digit, more⟩ := Option.bind_eq_some_iff.mp read
    obtain ⟨value, small⟩ := digitTen digit
    simp only [absorb, value]
    split
    · exact ih more
    · rename_i full
      obtain ⟨least, greatest⟩ := digitsSpan read
      refine ⟨least, greatest, fun _ => ?_⟩
      simp only [longLimit] at full
      omega

theorem longDecimal (i : Int) :
    (Numeral.ofInt i).float? =
      (Binary64.ofDecimal (absorb 0 (decimal i.natAbs)).1 (absorb 0 (decimal i.natAbs)).2).map
        (.float (decide (i < 0))) := by
  simp [Numeral.float?, Numeral.ofInt, absorb]

theorem decimalSpan (i : Int) :
    (absorb 0 (decimal i.natAbs)).1 * 10 ^ (absorb 0 (decimal i.natAbs)).2 ≤ i.natAbs ∧
      i.natAbs < ((absorb 0 (decimal i.natAbs)).1 + 1) * 10 ^ (absorb 0 (decimal i.natAbs)).2 ∧
      (0 < i.natAbs → 0 < (absorb 0 (decimal i.natAbs)).1) :=
  absorbSpan (Text.readDigitsWritten (by decide) (by decide) i.natAbs)

theorem integerNumber (small : i.natAbs < 10 ^ 307) :
    ∃ number, (Numeral.ofInt i).value? = some number := by
  by_cases word : Word64 i
  · exact ⟨.integer i, decimalValue word⟩
  · obtain ⟨least, -, some'⟩ := decimalSpan i
    have positive : 0 < i.natAbs := by
      simp only [Word64, longLimit] at word
      omega
    obtain ⟨x, found⟩ := Binary64.ofDecimalFound (some' positive)
      ⟨(by decide : 307 ≤ 308), by decide +kernel⟩ (least.trans_lt small)
    exact ⟨_, by rw [longFloat word, longDecimal, found, Option.map_some]⟩

theorem integerTooGreat (great : 2 * 10 ^ 309 ≤ i.natAbs) : (Numeral.ofInt i).value? = none := by
  have limit : longLimit < 2 * 10 ^ 309 := by decide +kernel
  have long : ¬Word64 i := by
    simp only [Word64, longLimit] at limit ⊢
    omega
  have positive : 0 < i.natAbs := Nat.lt_of_lt_of_le (Nat.zero_lt_of_lt limit) great
  obtain ⟨-, greatest, some'⟩ := decimalSpan i
  rw [longFloat long, longDecimal]
  generalize absorb 0 (decimal i.natAbs) = kept at greatest some' ⊢
  have double : i.natAbs < 2 * (kept.1 * 10 ^ kept.2) := calc
    i.natAbs < (kept.1 + 1) * 10 ^ kept.2 := greatest
    _ ≤ (2 * kept.1) * 10 ^ kept.2 := Nat.mul_le_mul_right _ (by omega)
    _ = 2 * (kept.1 * 10 ^ kept.2) := Nat.mul_assoc ..
  have large : 10 ^ 309 ≤ kept.1 * 10 ^ kept.2 :=
    Nat.le_of_lt (Nat.lt_of_mul_lt_mul_left (Nat.lt_of_le_of_lt great double))
  rw [Binary64.ofDecimalLost (by decide +kernel) large, Option.map_none]

end Magnitudes

end ShaderReflection.Json
