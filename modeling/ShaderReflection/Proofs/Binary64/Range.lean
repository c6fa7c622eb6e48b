import Mathlib.Tactic.Ring
import ShaderReflection.Binary64.Basic
/-!
Which natural decimals have a binary64 number. Rounding changes a number by a factor of two at most,
and a decimal is rounded twice before the product, so one with 307 digits has a number, and one with
310 has none.
-/
namespace ShaderReflection.Binary64

theorem scaleUp (n d e : Nat) : scale n d e = (n * 2 ^ e, d) := by
  rw [scale, if_pos (Int.natCast_nonneg e)]
  rfl

theorem scaleDown (n d e : Nat) : scale n d (-e) = (n, d * 2 ^ e) := by
  rcases Nat.eq_zero_or_pos e with rfl | positive
  · simpa using scaleUp n d 0
  · have negative : ¬0 ≤ -(e : Int) := by omega
    rw [scale, if_neg negative, Int.neg_neg]
    rfl

section Ratio
variable {num den k : Nat}

theorem logTwoBelow (positive : 0 < num) (small : num < 2 ^ k * den) : logTwo num den ≤ k := by
  have power : 2 ^ num.log2 < 2 ^ (k + (den.log2 + 1)) := calc
    2 ^ num.log2 ≤ num := Nat.log2_self_le positive.ne'
    _ < 2 ^ k * den := small
    _ ≤ 2 ^ k * 2 ^ (den.log2 + 1) := Nat.mul_le_mul_left _ Nat.lt_log2_self.le
    _ = 2 ^ (k + (den.log2 + 1)) := (Nat.pow_add ..).symm
  have logs := (Nat.pow_lt_pow_iff_right (by decide)).mp power
  simp only [logTwo]
  split <;> omega

theorem logTwoAbove (positive : 0 < den) (large : 2 ^ k * den ≤ num) : k ≤ logTwo num den := by
  have power : 2 ^ (k + den.log2) ≤ num := calc
    2 ^ (k + den.log2) = 2 ^ k * 2 ^ den.log2 := Nat.pow_add ..
    _ ≤ 2 ^ k * den := Nat.mul_le_mul_left _ (Nat.log2_self_le positive.ne')
    _ ≤ num := large
  have some' : num ≠ 0 := (Nat.lt_of_lt_of_le (Nat.two_pow_pos _) power).ne'
  have logs := (Nat.le_log2 some').mpr power
  simp only [logTwo]
  split
  · rename_i below
    -- The difference of the logarithms is not the bound itself, for it would not be too great then.
    have other : (num.log2 : Int) - den.log2 ≠ k := by
      intro same
      rw [same, scaleDown, Nat.mul_comm] at below
      exact absurd large (Nat.not_le.mpr below)
    omega
  · omega

theorem ofRatioFound (positive : 0 < num) (small : num < 2 ^ 1022 * den) :
    ∃ x, ofRatio num den = some x := by
  have log := logTwoBelow positive small
  simp only [ofRatio, if_neg positive.ne']
  split <;> split <;> first | exact ⟨_, rfl⟩ | (simp only at *; omega)

theorem ofRatioLost (positive : 0 < den) (large : 2 ^ 1024 * den ≤ num) :
    ofRatio num den = none := by
  have log := logTwoAbove positive large
  have some' : num ≠ 0 := (Nat.lt_of_lt_of_le (Nat.mul_pos (Nat.two_pow_pos _) positive) large).ne'
  simp only [ofRatio, if_neg some']
  refine if_neg ?_
  split <;> simp only <;> omega

end Ratio

theorem roundDivNear (num den : Nat) :
    num / den ≤ roundDiv num den ∧ roundDiv num den ≤ num / den + 1 := by
  simp only [roundDiv]
  split_ifs <;> omega

theorem denPositive (x : Binary64) : 0 < x.den := by
  simp only [den, scale]
  split
  · exact Nat.one_pos
  · exact Nat.mul_pos Nat.one_pos (Nat.two_pow_pos _)

theorem numUp (m e : Nat) : num ⟨m, e⟩ = m * 2 ^ e ∧ den ⟨m, e⟩ = 1 := by
  simp [num, den, scaleUp]

theorem numDown (m e : Nat) : num ⟨m, -e⟩ = m ∧ den ⟨m, -e⟩ = 2 ^ e := by
  simp [num, den, scaleDown]

section Whole
variable {n : Nat} {x : Binary64} (positive : 0 < n)
include positive

theorem logTwoWhole : logTwo n 1 = n.log2 := by
  have log : Nat.log2 1 = 0 := by decide
  simp only [logTwo, log, Int.natCast_zero, Int.sub_zero, scaleDown, Nat.one_mul]
  exact if_neg (Nat.not_lt.mpr (Nat.log2_self_le positive.ne'))

theorem ofNatShort {down : Nat} (short : 52 = n.log2 + down) :
    ofNat? n = some ⟨n * 2 ^ down, -down⟩ := by
  have place : max ((n.log2 : Int) - 52) (-1074) = -down := by omega
  have small : n * 2 ^ down < 9007199254740992 := calc
    n * 2 ^ down < 2 ^ (n.log2 + 1) * 2 ^ down :=
      Nat.mul_lt_mul_of_pos_right Nat.lt_log2_self (Nat.two_pow_pos _)
    _ = 2 ^ 53 := by rw [← Nat.pow_add, (by omega : n.log2 + 1 + down = 53)]
  have kept : roundDiv (n * 2 ^ down) 1 = n * 2 ^ down := by simp [roundDiv, Nat.mod_one]
  have range : -(down : Int) ≤ 971 := by omega
  simp only [ofNat?, ofRatio, if_neg positive.ne', logTwoWhole positive, place, Int.neg_neg,
    scaleUp, kept, if_neg small.ne, if_pos range]

theorem ofNatLong {up : Nat} (long : n.log2 = 52 + up) (found : ofNat? n = some x) :
    ∃ m, n / 2 ^ up ≤ m ∧ m ≤ n / 2 ^ up + 1 ∧ x.num = m * 2 ^ up ∧ x.den = 1 := by
  have place : max ((n.log2 : Int) - 52) (-1074) = up := by omega
  obtain ⟨least, greatest⟩ := roundDivNear n (2 ^ up)
  refine ⟨roundDiv n (2 ^ up), least, greatest, ?_⟩
  simp only [ofNat?, ofRatio, if_neg positive.ne', logTwoWhole positive, place, scaleDown,
    Nat.one_mul, Option.ite_none_right_eq_some, Option.some.injEq] at found
  obtain ⟨-, rfl⟩ := found
  split
  · rename_i carried
    have value := numUp 4503599627370496 (up + 1)
    refine ⟨value.1.trans ?_, value.2⟩
    rw [carried, Nat.pow_succ']
    exact (Nat.mul_assoc 4503599627370496 2 (2 ^ up)).symm
  · exact numUp _ up

theorem ofNatNear (found : ofNat? n = some x) :
    x.num ≤ 2 * n * x.den ∧ n * x.den ≤ 2 * x.num := by
  rcases Nat.le_total n.log2 52 with low | high
  · obtain ⟨down, short⟩ := Nat.exists_eq_add_of_le low
    obtain rfl := Option.some.inj ((ofNatShort positive short).symm.trans found)
    obtain ⟨num', den'⟩ := numDown (n * 2 ^ down) down
    rw [num', den', Nat.mul_assoc]
    omega
  · obtain ⟨up, long⟩ := Nat.exists_eq_add_of_le high
    obtain ⟨m, least, greatest, num', den'⟩ := ofNatLong positive long found
    have one : 1 ≤ n / 2 ^ up := by
      refine (Nat.one_le_div_iff (Nat.two_pow_pos up)).mpr ?_
      exact (Nat.pow_le_pow_right (by decide) (by omega)).trans (Nat.log2_self_le positive.ne')
    have quotient := Nat.div_mul_le_self n (2 ^ up)
    have remainder := Nat.lt_div_mul_add (a := n) (Nat.two_pow_pos up)
    rw [num', den', Nat.mul_one, Nat.mul_one]
    constructor
    · calc m * 2 ^ up ≤ (2 * (n / 2 ^ up)) * 2 ^ up := Nat.mul_le_mul_right _ (by omega)
        _ = 2 * (n / 2 ^ up * 2 ^ up) := Nat.mul_assoc ..
        _ ≤ 2 * n := Nat.mul_le_mul_left _ quotient
    · calc n ≤ (n / 2 ^ up + 1) * 2 ^ up := by rw [Nat.add_one_mul]; exact remainder.le
        _ ≤ (2 * m) * 2 ^ up := Nat.mul_le_mul_right _ (by omega)
        _ = 2 * (m * 2 ^ up) := Nat.mul_assoc ..

end Whole

section Decimals
variable {d s k : Nat}

theorem ofDecimalProduct (small : s ≤ 308) :
    ofDecimal d s = (ofNat? d).bind fun x => (ofNat? (10 ^ s)).bind x.mul := by
  have short : ¬308 < (s : Int) := by omega
  simp only [ofDecimal, if_neg short, Int.natCast_nonneg, if_true, Int.toNat_natCast]
  rfl

theorem ofDecimalFound (positive : 0 < d) (limit : k ≤ 308 ∧ 4 * 10 ^ k ≤ 2 ^ 1022)
    (small : d * 10 ^ s < 10 ^ k) : ∃ x, ofDecimal d s = some x := by
  have power : 0 < 10 ^ s := Nat.pow_pos (by decide)
  have short : s < k :=
    (Nat.pow_lt_pow_iff_right (by decide)).mp ((Nat.le_mul_of_pos_left _ positive).trans_lt small)
  have within {n : Nat} (below : n ≤ d * 10 ^ s) : n < 2 ^ 1022 * 1 := by omega
  obtain ⟨x, found⟩ := ofRatioFound positive (within (Nat.le_mul_of_pos_right _ power))
  obtain ⟨y, found'⟩ := ofRatioFound power (within (Nat.le_mul_of_pos_left _ positive))
  have near := ofNatNear positive found
  have near' := ofNatNear power found'
  have first : 0 < x.num := by
    have some' := Nat.mul_pos positive x.denPositive
    omega
  have second : 0 < y.num := by
    have some' := Nat.mul_pos power y.denPositive
    omega
  have product : x.num * y.num < 2 ^ 1022 * (x.den * y.den) := calc
    x.num * y.num ≤ (2 * d * x.den) * (2 * 10 ^ s * y.den) := Nat.mul_le_mul near.1 near'.1
    _ = 4 * (d * 10 ^ s) * (x.den * y.den) := by ring
    _ < 2 ^ 1022 * (x.den * y.den) :=
      Nat.mul_lt_mul_of_pos_right (by omega) (Nat.mul_pos x.denPositive y.denPositive)
  obtain ⟨z, whole⟩ := ofRatioFound (Nat.mul_pos first second) product
  refine ⟨z, ?_⟩
  rw [ofDecimalProduct (by omega), ofNat?, found, Option.bind_some, ofNat?, found',
    Option.bind_some, mul, whole]

theorem ofDecimalLost (limit : 4 * 2 ^ 1024 ≤ 10 ^ k) (large : 10 ^ k ≤ d * 10 ^ s) :
    ofDecimal d s = none := by
  have some' : 0 < d := by
    refine Nat.pos_of_ne_zero fun zero => ?_
    rw [zero, Nat.zero_mul] at large
    exact absurd large (Nat.not_le.mpr (Nat.pow_pos (by decide)))
  rcases Nat.lt_or_ge 308 s with long | short
  · cases found : ofNat? d with
    | none => simp [ofDecimal, found]
    | some x =>
      have near := (ofNatNear some' found).2
      have mantissa : x.mantissa ≠ 0 := by
        intro zero
        have value : x.num = 0 := by
          simp only [num, scale, zero]
          split <;> simp
        have product := Nat.mul_pos some' x.denPositive
        omega
      have far : 308 < (s : Int) := by omega
      simp only [ofDecimal, found, Option.bind_some, if_pos far, if_neg mantissa]
  · rw [ofDecimalProduct short, Option.bind_eq_none_iff]
    intro x found
    rw [Option.bind_eq_none_iff]
    intro y found'
    have near := ofNatNear some' found
    have near' := ofNatNear (Nat.pow_pos (by decide)) found'
    refine ofRatioLost (Nat.mul_pos x.denPositive y.denPositive) ?_
    have product : 4 * 2 ^ 1024 * (x.den * y.den) ≤ 4 * (x.num * y.num) := calc
      4 * 2 ^ 1024 * (x.den * y.den) ≤ d * 10 ^ s * (x.den * y.den) :=
        Nat.mul_le_mul_right _ (limit.trans large)
      _ = (d * x.den) * (10 ^ s * y.den) := by ring
      _ ≤ (2 * x.num) * (2 * y.num) := Nat.mul_le_mul near.2 near'.2
      _ = 4 * (x.num * y.num) := by ring
    rw [Nat.mul_assoc] at product
    exact Nat.le_of_mul_le_mul_left product (by decide)

end Decimals

end ShaderReflection.Binary64
