import Mathlib.Order.Bounds.Basic
import ShaderReflection.Proofs.Glsl.Word
import ShaderReflection.Proofs.Text.Bytes
/-!
Where the search for a whole word finds it, counted in bytes. The search examines occurrences that
do not overlap, from left to right, and still misses no whole one: what begins within an occurrence,
or directly behind it, is touched by one of its characters.
-/
namespace ShaderReflection.Glsl
open Text

structure WholeAt (word t : Text) (n : Nat) : Prop where
  occurs : OccursAt word t n
  before : ∀ c m, BeginsAt c t m → m + c.utf8Size = n → isWordChar c = false
  behind : ∀ c, BeginsAt c t (n + (toUtf8 word).length) → isWordChar c = false

/-- A search from a byte on examines the first occurrence there. If that one is not whole, the
search goes on at its end. -/
inductive Searches (word t : Text) : Nat → Option Nat → Prop where
  | absent {start} (never : ∀ n, start ≤ n → ¬OccursAt word t n) : Searches word t start none
  | whole {start n} (first : IsLeast {m | start ≤ m ∧ OccursAt word t m} n)
      (whole : WholeAt word t n) : Searches word t start (some n)
  | touched {start n found} (first : IsLeast {m | start ≤ m ∧ OccursAt word t m} n)
      (touched : ¬WholeAt word t n) (next : Searches word t (n + (toUtf8 word).length) found) :
      Searches word t start found

theorem wordCharSize {c : Char} (char : isWordChar c = true) : c.utf8Size = 1 := by
  have small : c.toNat ≤ 127 := by
    simp only [isWordChar, isLetter, isDigit, Bool.or_eq_true, Bool.and_eq_true, decide_eq_true_eq,
      beq_iff_eq] at char
    rcases char with (letter | digit) | rfl
    · omega
    · omega
    · decide
  rw [Char.utf8Size_eq_one_iff, UInt32.le_iff_toNat_le]
  exact small

theorem wordCharsCount {w : Text} (chars : ∀ c ∈ w, isWordChar c = true) :
    (toUtf8 w).length = w.length := by
  induction w with
  | nil => rfl
  | cons c r ih =>
    rw [List.forall_mem_cons] at chars
    rw [countNext, wordCharSize chars.1, ih chars.2, List.length_cons, Nat.add_comm]

theorem wholeBetween {word : Text} (some' : word ≠ []) (a b : Text) :
    WholeAt word (a ++ (word ++ b)) (toUtf8 a).length ↔
      isBoundary a.getLast? = true ∧ isBoundary b.head? = true := by
  constructor
  · rintro ⟨-, before, behind⟩
    constructor
    · rcases List.eq_nil_or_concat a with rfl | ⟨front, c, rfl⟩
      · rfl
      · rw [List.concat_eq_append] at before ⊢
        have char := before c _ ⟨front, word ++ b, by simp, rfl⟩ (concatCount front c).symm
        simp [isBoundary, char]
    · cases b with
      | nil => rfl
      | cons c r =>
        have char := behind c ⟨a ++ word, r, by simp, joinedCount a word⟩
        simp [isBoundary, char]
  · rintro ⟨before, behind⟩
    refine ⟨(occursExactly some').mpr ⟨a, b, rfl, rfl⟩, ?_, ?_⟩
    · rintro c m ⟨x, y, shape, rfl⟩ ends
      rw [List.append_cons] at shape
      obtain ⟨rfl, -⟩ := placeOnce shape (by rw [concatCount, ends])
      simpa [isBoundary] using before
    · rintro c ⟨x, y, shape, count⟩
      rw [← List.append_assoc] at shape
      obtain ⟨rfl, rfl⟩ := placeOnce shape (by rw [joinedCount, count])
      simpa [isBoundary] using behind

section Search
variable {word t : Text} {start : Nat} {found : Option Nat}

theorem searchSound (search : Searches word t start found) :
    ∀ n ∈ found, start ≤ n ∧ WholeAt word t n := by
  induction search with
  | absent never => exact fun _ member => nomatch member
  | whole first whole =>
    intro m member
    obtain rfl := Option.mem_some.mp member
    exact ⟨first.1.1, whole⟩
  | @touched start n found first touched next ih =>
    intro m member
    obtain ⟨behind, whole⟩ := ih m member
    have before : start ≤ n := first.1.1
    exact ⟨by omega, whole⟩

theorem searchesEarlier {later : Nat} (order : start ≤ later)
    (never : ∀ n, start ≤ n → OccursAt word t n → later ≤ n)
    (search : Searches word t later found) : Searches word t start found := by
  have earlier {n : Nat} (first : IsLeast {m | later ≤ m ∧ OccursAt word t m} n) :
      IsLeast {m | start ≤ m ∧ OccursAt word t m} n :=
    ⟨⟨order.trans first.1.1, first.1.2⟩, fun m here => first.2 ⟨never m here.1 here.2, here.2⟩⟩
  cases search with
  | absent absent => exact .absent fun n behind occurs => absent n (never n behind occurs) occurs
  | whole first whole => exact .whole (earlier first) whole
  | touched first touched next => exact .touched (earlier first) touched next

end Search

section Word
variable {word : Text} (word' : WordText word)
include word'

theorem letterBegins {k : Nat} (here : k < word.length) (a b : Text) :
    BeginsAt word[k] (a ++ (word ++ b)) ((toUtf8 a).length + k) := by
  have parts : word.take k ++ word[k] :: word.drop (k + 1) = word := by
    rw [← List.drop_eq_getElem_cons here, List.take_append_drop]
  have front : (toUtf8 (word.take k)).length = k := by
    rw [wordCharsCount fun c member => word'.chars c (List.mem_of_mem_take member),
      List.length_take_of_le here.le]
  refine ⟨a ++ word.take k, word.drop (k + 1) ++ b, ?_, by rw [joinedCount, front]⟩
  rw [List.append_assoc, ← List.cons_append, ← List.append_assoc (word.take k), parts]

theorem overlapTouched {t : Text} {m n : Nat} (occurs : OccursAt word t m) (later : m < n)
    (within : n ≤ m + (toUtf8 word).length) : ¬WholeAt word t n := by
  intro whole
  obtain ⟨a, b, rfl, rfl⟩ := (occursExactly word'.nonempty).mp occurs
  rw [wordCharsCount word'.chars] at within
  obtain ⟨k, rfl⟩ := Nat.exists_eq_add_of_lt later
  have here : k < word.length := by omega
  have char : isWordChar word[k] = true := word'.chars _ (List.getElem_mem here)
  have other : isWordChar word[k] = false :=
    whole.before _ _ (letterBegins word' here a b) (by rw [wordCharSize char])
  rw [char] at other
  cases other

theorem searchComplete {t : Text} {start m : Nat} {found : Option Nat}
    (search : Searches word t start found) (behind : start ≤ m) (whole : WholeAt word t m) :
    ∃ n ∈ found, n ≤ m := by
  induction search with
  | absent never => exact absurd whole.occurs (never m behind)
  | whole first _ => exact ⟨_, rfl, first.2 ⟨behind, whole.occurs⟩⟩
  | @touched start n found first touched next ih =>
    have least : n ≤ m := first.2 ⟨behind, whole.occurs⟩
    have other : n ≠ m := fun same => touched (same ▸ whole)
    refine ih (Nat.le_of_not_lt fun overlaps => ?_)
    exact overlapTouched word' first.1.2 (by omega) (by omega) whole

theorem occurrenceSearched {front after : Text} {found : Option Nat}
    (next : Searches word (front ++ (word ++ after))
      ((toUtf8 front).length + (toUtf8 word).length) found) :
    Searches word (front ++ (word ++ after)) (toUtf8 front).length
      (if isBoundary front.getLast? && isBoundary after.head? then some (toUtf8 front).length
        else found) := by
  have whole := wholeBetween word'.nonempty front after
  have occurs := (occursExactly word'.nonempty).mpr ⟨front, after, rfl, rfl⟩
  have first : IsLeast {m | (toUtf8 front).length ≤ m ∧ OccursAt word (front ++ (word ++ after)) m}
      (toUtf8 front).length := ⟨⟨Nat.le_refl _, occurs⟩, fun _ => And.left⟩
  rw [← Bool.and_eq_true] at whole
  split
  · rename_i boundaries
    exact .whole first (whole.mpr boundaries)
  · rename_i other
    exact .touched first (mt whole.mp other) next

theorem wordSearched (front t : Text) (skip : Nat)
    (passed : ∀ c ∈ t.take skip, isWordChar c = true) :
    Searches word (front ++ t) ((toUtf8 front).length + skip)
      ((splitAtWordAfter word front.getLast? skip t).map fun p =>
        (toUtf8 (front ++ p.1)).length) := by
  have some' := word'.nonempty
  have size := wordCharsCount word'.chars
  have long := List.length_pos_iff.mpr some'
  induction t generalizing front skip with
  | nil =>
    have nothing : splitAtWordAfter word front.getLast? skip [] = none := by
      simp [splitAtWordAfter, some']
    rw [nothing, List.append_nil]
    refine .absent fun n behind occurs => ?_
    have within := occursWithin some' occurs
    omega
  | cons c r ih =>
    have further (next : Nat) (inside : ∀ c ∈ r.take next, isWordChar c = true) :
        Searches word (front ++ c :: r) ((toUtf8 (front ++ [c])).length + next)
          (((splitAtWordAfter word (some c) next r).map fun p => (c :: p.1, p.2)).map fun p =>
            (toUtf8 (front ++ p.1)).length) := by
      have later := ih (front ++ [c]) next inside
      rw [List.getLast?_concat, ← List.append_cons] at later
      simpa [Function.comp_def] using later
    cases skip with
    | succ skip =>
      -- An identifier character is one byte, so the search still goes on at the same place.
      rw [List.take_succ_cons, List.forall_mem_cons] at passed
      have step := further skip passed.2
      rwa [concatCount, wordCharSize passed.1, Nat.add_assoc, Nat.add_comm 1] at step
    | zero =>
      rw [Nat.add_zero]
      simp only [splitAtWordAfter]
      split
      · rename_i begins
        obtain ⟨after, whole⟩ := List.isPrefixOf_iff_prefix.mp begins
        obtain ⟨w, ws, rfl⟩ := List.exists_cons_of_ne_nil some'
        rw [List.cons_append] at whole
        obtain ⟨rfl, rfl⟩ := List.cons.inj whole
        have chars := List.forall_mem_cons.mp word'.chars
        have rest : (w :: (ws ++ after)).drop (w :: ws).length = after := List.drop_left
        -- If the occurrence is not whole, what is left of the word is passed over.
        have step := further ws.length (by rw [List.take_left]; exact chars.2)
        rw [concatCount, wordCharSize chars.1, Nat.add_assoc, Nat.add_comm 1, ← List.length_cons,
          ← size] at step
        rw [rest, apply_ite (Option.map _), Option.map_some, List.append_nil]
        exact occurrenceSearched word' step
      · rename_i other
        rw [List.isPrefixOf_iff_prefix] at other
        have step := further 0 (List.forall_mem_nil _)
        refine searchesEarlier ?_ (fun n => occursLater some' other) step
        rw [concatCount]
        omega

theorem offsetSearched (t : Text) : Searches word t 0 (wordOffset? word t) := by
  have search := wordSearched word' [] t 0 (List.forall_mem_nil _)
  simp only [List.nil_append, bytesCounted] at search
  exact search

end Word

theorem wordOffsetExact {word : Text} (word' : WordText word) (t : Text) :
    Searches word t 0 (wordOffset? word t) ∧
    (∀ n, wordOffset? word t = some n ↔ IsLeast {m | WholeAt word t m} n) ∧
    (wordOffset? word t = none ↔ ∀ n, ¬WholeAt word t n) ∧
    ∀ n, wordOffset? word t = some n →
      OnBoundary t n ∧ n + (toUtf8 word).length ≤ (toUtf8 t).length := by
  have search := offsetSearched word' t
  have sound := searchSound search
  have complete {m : Nat} := searchComplete word' search (Nat.zero_le m)
  refine ⟨search, fun n => ⟨fun found => ⟨(sound n found).2, fun m whole => ?_⟩, fun least => ?_⟩,
    ⟨fun absent m whole => ?_, fun never => ?_⟩, fun n found => ?_⟩
  · obtain ⟨k, found', order⟩ := complete whole
    rwa [Option.some.inj (found.symm.trans found')]
  · obtain ⟨k, found, order⟩ := complete least.1
    rwa [Nat.le_antisymm (least.2 (sound k found).2) order]
  · obtain ⟨k, found, -⟩ := complete whole
    exact nomatch absent.symm.trans found
  · exact Option.eq_none_iff_forall_not_mem.mpr fun n found => never n (sound n found).2
  · have occurs := (sound n found).2.occurs
    exact ⟨occursBoundary word'.nonempty occurs, occursWithin word'.nonempty occurs⟩

theorem wordOffsetExactOverlapped :
    let word := "aba".toList
    let t := "ababaéaba".toList
    WordText word ∧ OccursAt word t 2 ∧ wordOffset? word t = some 7 ∧ Searches word t 0 (some 7) ∧
      IsLeast {m | WholeAt word t m} 7 ∧ OnBoundary t 7 ∧
      7 + (toUtf8 word).length ≤ (toUtf8 t).length := by
  intro word t
  have word' : WordText word := ⟨by decide, eachChar (by decide)⟩
  have found : wordOffset? word t = some 7 := by decide
  obtain ⟨search, exact', -, within⟩ := wordOffsetExact word' t
  exact ⟨word', by decide, found, found ▸ search, (exact' 7).mp found, within 7 found⟩

end ShaderReflection.Glsl
