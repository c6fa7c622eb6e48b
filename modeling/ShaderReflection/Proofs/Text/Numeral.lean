import Mathlib.Data.List.Induction
import ShaderReflection.Proofs.Text.Splitting
import ShaderReflection.Text.Numeral
/-!
Numerals that are written are read back: `Nat.toDigits` against the digit reader, in every base up
to sixteen, also with other digits of the same value.
-/
namespace ShaderReflection.Text

theorem digitRead {base d : Nat} (small : base ≤ 16) (below : d < base) :
    digit? base d.digitChar = some d := by
  have all : ∀ base ≤ 16, ∀ d < base, digit? base (Nat.digitChar d) = some d := by decide
  exact all base small d below

theorem readDigitsAppend (base acc : Nat) (front back : Text) :
    readDigits base acc (front ++ back) =
      (readDigits base acc front).bind fun n => readDigits base n back := by
  induction front generalizing acc with
  | nil => rfl
  | cons c rest ih => cases h : digit? base c <;> simp [readDigits, h, ih]

theorem readDigitsWritten {base : Nat} (large : 1 < base) (small : base ≤ 16) (n : Nat) :
    readDigits base 0 (Nat.toDigits base n) = some n := by
  induction n using Nat.strongRecOn with
  | ind n ih =>
    rw [Nat.toDigits_eq_if large]
    split
    · rename_i below
      simp [readDigits, digitRead small below]
    · have last := digitRead small (Nat.mod_lt n (by omega : 0 < base))
      have front := ih (n / base) (Nat.div_lt_self (by omega) large)
      have whole : n / base * base + n % base = n := Nat.div_add_mod' n base
      simp [readDigitsAppend, front, readDigits, last, whole]

theorem naturalWritten {base : Nat} (large : 1 < base) (small : base ≤ 16) (n : Nat) :
    natural? base (Nat.toDigits base n) = some n := by
  simp [natural?, readDigitsWritten large small]

theorem decimalRead (n : Nat) : natural? 10 (decimal n) = some n :=
  naturalWritten (by decide) (by decide) n

theorem decimalDigits {n : Nat} {c : Char} (member : c ∈ decimal n) :
    48 ≤ c.toNat ∧ c.toNat ≤ 57 := by
  have digit := Nat.isDigit_of_mem_toDigits (by decide) (by decide) member
  simp only [Char.isDigit, ge_iff_le, Bool.and_eq_true, decide_eq_true_eq] at digit
  exact digit

theorem decimalHead {n : Nat} (positive : 0 < n) : (decimal n).head? ≠ some '0' := by
  induction n using Nat.strongRecOn with
  | ind n ih =>
    rw [decimal, Nat.toDigits_eq_if (by decide)]
    split
    · simp only [List.head?_cons, ne_eq, Option.some.injEq, Nat.digitChar_eq_zero]
      omega
    · have front := ih (n / 10) (Nat.div_lt_self positive (by decide)) (by omega)
      have some' : Nat.toDigits 10 (n / 10) ≠ [] := Nat.toDigits_ne_nil
      obtain ⟨d, rest, digits⟩ := List.exists_cons_of_ne_nil some'
      simpa [decimal, digits] using front

def Numeral (base n : Nat) (t : Text) : Prop :=
  ∃ zeros, t.map Char.toLower = List.replicate zeros '0' ++ Nat.toDigits base n

theorem lowerCapital {c : Char} (first : 65 ≤ c.toNat) (last : c.toNat ≤ 90) :
    c.toLower.toNat = c.toNat + 32 := by
  have capital : c.val ≥ 'A'.val ∧ c.val ≤ 'Z'.val := ⟨first, last⟩
  have sum : (c.val + ('a'.val - 'A'.val)).toNat = c.val.toNat + 32 := by
    have small : c.val.toNat ≤ 90 := last
    rw [UInt32.toNat_add]
    exact Nat.mod_eq_of_lt (by change c.val.toNat + 32 < 4294967296; omega)
  unfold Char.toLower
  rw [dif_pos capital]
  exact sum

theorem digitLower (base : Nat) (c : Char) : digit? base c.toLower = digit? base c := by
  by_cases capital : 65 ≤ c.toNat ∧ c.toNat ≤ 90
  · have lower := lowerCapital capital.1 capital.2
    have value : c.toNat + 32 - 87 = c.toNat - 55 := by omega
    have digit : ¬(48 ≤ c.toNat ∧ c.toNat ≤ 57) := by omega
    have digit' : ¬(48 ≤ c.toNat + 32 ∧ c.toNat + 32 ≤ 57) := by omega
    have letter : ¬(97 ≤ c.toNat ∧ c.toNat ≤ 122) := by omega
    have letter' : 97 ≤ c.toNat + 32 ∧ c.toNat + 32 ≤ 122 := by omega
    simp only [digit?, lower, digit, digit', letter, letter', capital, value, if_true, if_false,
      and_self]
  · have same : c.toLower = c := dif_neg capital
    rw [same]

theorem readDigitsLower (base acc : Nat) (t : Text) :
    readDigits base acc (t.map Char.toLower) = readDigits base acc t := by
  induction t generalizing acc with
  | nil => rfl
  | cons c r ih => simp only [List.map_cons, readDigits, digitLower, ih]

theorem readZeros {base : Nat} (some' : 0 < base) (zeros : Nat) (t : Text) :
    readDigits base 0 (List.replicate zeros '0' ++ t) = readDigits base 0 t := by
  have zero : digit? base '0' = some 0 := by simp [digit?, some']
  induction zeros with
  | zero => rfl
  | succ zeros ih =>
    rw [List.replicate_succ, List.cons_append, readDigits, zero, Option.bind_some, Nat.zero_mul, ih]

def Alphanumeric (c : Char) : Prop :=
  48 ≤ c.toNat ∧ c.toNat ≤ 57 ∨ 97 ≤ c.toNat ∧ c.toNat ≤ 122 ∨ 65 ≤ c.toNat ∧ c.toNat ≤ 90
instance (c : Char) : Decidable (Alphanumeric c) := by
  unfold Alphanumeric
  infer_instance

theorem digitAlphanumeric {base d : Nat} {c : Char} (digit : digit? base c = some d) :
    Alphanumeric c := by
  unfold Alphanumeric
  simp only [digit?] at digit
  split at digit
  · exact .inl ‹_›
  split at digit
  · exact .inr (.inl ‹_›)
  split at digit
  · exact .inr (.inr ‹_›)
  · simp at digit

theorem digitsAlphanumeric {base acc n : Nat} {t : Text} (read : readDigits base acc t = some n) :
    ∀ c ∈ t, Alphanumeric c := by
  induction t generalizing acc with
  | nil => exact List.forall_mem_nil _
  | cons c r ih =>
    obtain ⟨d, digit, rest⟩ := Option.bind_eq_some_iff.mp read
    exact List.forall_mem_cons.mpr ⟨digitAlphanumeric digit, ih rest⟩

theorem alphanumericSolid {c : Char} (digit : Alphanumeric c) : isBlank c = false := by
  unfold Alphanumeric at digit
  simp only [isBlank, Bool.or_eq_false_iff, Bool.and_eq_false_iff, decide_eq_false_iff_not,
    beq_eq_false_iff_ne]
  omega

theorem writtenNumeral {base : Nat} (large : 1 < base) (small : base ≤ 16) (n : Nat) :
    Numeral base n (Nat.toDigits base n) := by
  have lower : ∀ d < 16, (Nat.digitChar d).toLower = Nat.digitChar d := by decide
  refine ⟨0, ?_⟩
  rw [List.replicate_zero, List.nil_append]
  induction n using Nat.strongRecOn with
  | ind n ih =>
    rw [Nat.toDigits_eq_if large]
    split
    · rename_i below
      rw [List.map_singleton, lower n (by omega)]
    · have bound := Nat.mod_lt n (by omega : 0 < base)
      rw [List.map_append, ih (n / base) (Nat.div_lt_self (by omega) large), List.map_singleton,
        lower (n % base) (by omega)]

section Numerals
variable {base n : Nat} {t : Text}

theorem numeralNonempty (numeral : Numeral base n t) : t ≠ [] := by
  obtain ⟨zeros, shape⟩ := numeral
  rintro rfl
  simp at shape

theorem numeralDigits (large : 1 < base) (small : base ≤ 16) (numeral : Numeral base n t) :
    readDigits base 0 t = some n := by
  obtain ⟨zeros, shape⟩ := numeral
  rw [← readDigitsLower, shape, readZeros (by omega), readDigitsWritten large small]

theorem numeralChars (large : 1 < base) (small : base ≤ 16) (numeral : Numeral base n t) :
    ∀ c ∈ t, Alphanumeric c := digitsAlphanumeric (numeralDigits large small numeral)

theorem numeralLacks (large : 1 < base) (small : base ≤ 16) (numeral : Numeral base n t)
    {mark : Char} (other : ¬Alphanumeric mark) : mark ∉ t :=
  fun inside => other (numeralChars large small numeral mark inside)

theorem numeralSolid (large : 1 < base) (small : base ≤ 16) (numeral : Numeral base n t) :
    Solid t where
  nonempty := numeralNonempty numeral
  plain c member := alphanumericSolid (numeralChars large small numeral c member)

theorem numeralWord (large : 1 < base) (small : base ≤ 16) (numeral : Numeral base n t) :
    word32? base t = if n < wordLimit then some (UInt32.ofNat n) else none := by
  have unsigned : dropPlus t = t := by
    cases t with
    | nil => rfl
    | cons c r =>
      have first := numeralChars large small numeral c List.mem_cons_self
      rw [dropPlus]
      intro rest plus
      obtain ⟨rfl, -⟩ := List.cons.inj plus
      exact absurd first (by decide)
  have some' := numeralNonempty numeral
  rw [word32?, unsigned, natural?, if_neg (by simp [some']), numeralDigits large small numeral,
    Option.bind_some]

end Numerals

theorem digitSpelled {base d : Nat} (small : base ≤ 16) {c : Char} (digit : digit? base c = some d) :
    c.toLower = d.digitChar ∧ d < base := by
  have below : d < base ∧ digit? 16 c = some d := by
    simp only [digit?] at digit ⊢
    grind
  have all : ∀ n < 128, ∀ d ∈ digit? 16 (Char.ofNat n), (Char.ofNat n).toLower = d.digitChar := by
    decide
  have ascii : c.toNat < 128 := by
    have char := digitAlphanumeric digit
    unfold Alphanumeric at char
    omega
  have spelled := all c.toNat ascii d
  rw [Char.ofNat_toNat] at spelled
  exact ⟨spelled below.2, below.1⟩

theorem numeralRead {base n : Nat} (large : 1 < base) (small : base ≤ 16) {t : Text}
    (some' : t ≠ []) (read : readDigits base 0 t = some n) : Numeral base n t := by
  -- Digits come from the front, so the last one is taken off: it is the remainder of the number.
  induction t using List.reverseRecOn generalizing n with
  | nil => exact absurd rfl some'
  | append_singleton front c ih =>
    rw [readDigitsAppend, Option.bind_eq_some_iff] at read
    obtain ⟨k, before, last⟩ := read
    obtain ⟨d, digit, same⟩ := Option.bind_eq_some_iff.mp last
    obtain rfl : k * base + d = n := by simpa [readDigits] using same
    obtain ⟨spelled, below⟩ := digitSpelled small digit
    cases front with
    | nil =>
      cases before
      exact ⟨0, by simp [spelled, Nat.toDigits_of_lt_base below]⟩
    | cons first rest =>
      obtain ⟨zeros, shape⟩ := ih (List.cons_ne_nil first rest) before
      rcases Nat.eq_zero_or_pos k with rfl | positive
      · refine ⟨zeros + 1, ?_⟩
        rw [List.map_append, shape]
        simp [spelled, Nat.toDigits_of_lt_base below, List.replicate_succ']
      · refine ⟨zeros, ?_⟩
        have more : base ≤ k * base := Nat.le_mul_of_pos_left base positive
        have large' : ¬k * base + d < base := by omega
        have front : (k * base + d) / base = k := by
          rw [Nat.mul_comm, Nat.mul_add_div (by omega), Nat.div_eq_of_lt below, Nat.add_zero]
        have last : (k * base + d) % base = d := by
          rw [Nat.mul_comm, Nat.mul_add_mod, Nat.mod_eq_of_lt below]
        have written : base.toDigits (k * base + d) = base.toDigits k ++ [d.digitChar] := by
          rw [Nat.toDigits_eq_if large, if_neg large', front, last]
        rw [List.map_append, shape, written, List.append_assoc, List.map_singleton, spelled]

theorem wordExact {base : Nat} (large : 1 < base) (small : base ≤ 16) {t : Text} {n : UInt32} :
    word32? base t = some n ↔ Numeral base n.toNat (dropPlus t) := by
  constructor
  · intro found
    obtain ⟨value, digits, fits⟩ := Option.bind_eq_some_iff.mp found
    obtain ⟨below, same⟩ := Option.ite_none_right_eq_some.mp fits
    obtain rfl := Option.some.inj same
    rw [natural?] at digits
    split at digits
    · cases digits
    · rename_i some'
      rw [UInt32.toNat_ofNat_of_lt' below]
      exact numeralRead large small (fun none => some' (List.isEmpty_iff.mpr none)) digits
  · intro numeral
    have some' := numeralNonempty numeral
    have fits : n.toNat < wordLimit := n.toNat_lt
    rw [word32?, natural?, if_neg (by simp [some']), numeralDigits large small numeral,
      Option.bind_some, if_pos fits, UInt32.ofNat_toNat]

end ShaderReflection.Text
