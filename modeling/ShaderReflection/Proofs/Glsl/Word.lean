import ShaderReflection.Glsl.StructSpan
import ShaderReflection.Proofs.Text.Splitting
/-!
Whole words in shader source: what the search for one gives, and that it is one of the runs of
identifier characters between the others.
-/
namespace ShaderReflection.Glsl
open Text

theorem splitAtWordSound {word t a b : Text} {previous : Option Char} {skip : Nat}
    (found : splitAtWordAfter word previous skip t = some (a, b)) :
    t = a ++ (word ++ b) ∧ isBoundary (a.getLast?.or previous) = true ∧
      isBoundary b.head? = true := by
  induction t generalizing previous skip a with
  | nil =>
    simp only [splitAtWordAfter] at found
    split at found
    · rename_i ends
      cases found
      obtain ⟨-, rfl, boundary⟩ := ends
      exact ⟨rfl, boundary, rfl⟩
    · cases found
  | cons c r ih =>
    -- Behind a character that is passed over, the rest of the text has been searched.
    have passed {next : Nat} (later :
        (splitAtWordAfter word (some c) next r).map (fun p => (c :: p.1, p.2)) = some (a, b)) :
        c :: r = a ++ (word ++ b) ∧ isBoundary (a.getLast?.or previous) = true ∧
          isBoundary b.head? = true := by
      obtain ⟨⟨front, back⟩, inner, same⟩ := Option.map_eq_some_iff.mp later
      obtain ⟨rfl, rfl⟩ := Prod.mk.inj same
      obtain ⟨whole, before, behind⟩ := ih inner
      refine ⟨by rw [whole, List.cons_append], ?_, behind⟩
      rw [List.getLast?_cons, Option.some_or]
      cases last : front.getLast? <;> simpa [last] using before
    cases skip with
    | succ skip => exact passed found
    | zero =>
      simp only [splitAtWordAfter] at found
      split at found
      · rename_i begins
        split at found
        · rename_i boundaries
          obtain ⟨rfl, rfl⟩ := Prod.mk.inj (Option.some.inj found)
          rw [Bool.and_eq_true] at boundaries
          have whole := List.prefix_iff_eq_append.mp (List.isPrefixOf_iff_prefix.mp begins)
          exact ⟨whole.symm, boundaries.1, boundaries.2⟩
        · exact passed found
      · exact passed found

theorem splitAtStart {word rest : Text} (some' : word ≠ [])
    (boundary : isBoundary rest.head? = true) :
    splitAtWord? word (word ++ rest) = some ([], rest) := by
  cases word with
  | nil => exact absurd rfl some'
  | cons c r =>
    have begins : (c :: r).isPrefixOf (c :: (r ++ rest)) = true :=
      List.isPrefixOf_iff_prefix.mpr (List.prefix_append (c :: r) rest)
    have behind : (c :: (r ++ rest)).drop (c :: r).length = rest := List.drop_left
    have start : isBoundary none = true := rfl
    rw [splitAtWord?, List.cons_append, splitAtWordAfter, if_pos begins, behind, start]
    simp [boundary]

def wordRuns (t : Text) : List Text := splitWhere (fun c => !isWordChar c) t

theorem runsSeparator {c : Char} (mark : isWordChar c = false) (a b : Text) :
    wordRuns (a ++ c :: b) = wordRuns a ++ wordRuns b :=
  splitSeparator (by simp [mark]) a b

theorem runsWord {w : Text} (chars : ∀ c ∈ w, isWordChar c = true) : wordRuns w = [w] :=
  splitRun fun c member => by simp [chars c member]

theorem runChars {t w : Text} (member : w ∈ wordRuns t) : ∀ c ∈ w, isWordChar c = true :=
  fun c inside => by simpa using pieceUnparted member c inside

theorem joinedRuns {word : Text} (some' : word ≠ []) (ws : List Text) :
    word ∈ wordRuns (joinWith [' '] ws) ↔ ∃ w ∈ ws, word ∈ wordRuns w := by
  induction ws with
  | nil => simp [joinWith, wordRuns, splitWhere, some']
  | cons w rest ih =>
    cases rest with
    | nil => simp [joinWith]
    | cons next more =>
      rw [joinCons, List.singleton_append, runsSeparator rfl, List.mem_append, ih]
      simp

theorem runsWithout {t : Text} (lacks : 's' ∉ t) : structKeyword ∉ wordRuns t :=
  fun member => lacks ((pieceInfix member).subset (by decide : 's' ∈ structKeyword))

structure WordText (w : Text) : Prop where
  nonempty : w ≠ []
  chars : ∀ c ∈ w, isWordChar c = true

def Stands (w t : Text) : Prop := ∃ before after, t = before ++ (w ++ after) ∧
  isBoundary before.getLast? = true ∧ isBoundary after.head? = true

theorem boundaryAll (neighbour : Option Char) :
    isBoundary neighbour = neighbour.all fun c => !isWordChar c := by
  cases neighbour <;> rfl

theorem standsWithin {s t left right : Text} (stands : Stands s t)
    (before : isBoundary left.getLast? = true) (behind : isBoundary right.head? = true) :
    Stands s (left ++ (t ++ right)) := by
  obtain ⟨a, b, rfl, first, last⟩ := stands
  refine ⟨left ++ a, b ++ right, by simp, ?_, ?_⟩
  · rw [List.getLast?_append]
    cases same : a.getLast? with
    | none => exact before
    | some c => rwa [same] at first
  · rw [List.head?_append]
    cases same : b.head? with
    | none => exact behind
    | some c => rwa [same] at last

theorem standsRun {w t : Text} (chars : ∀ c ∈ w, isWordChar c = true) (stands : Stands w t) :
    w ∈ wordRuns t := by
  obtain ⟨a, b, rfl, before, behind⟩ := stands
  have back : w ∈ wordRuns (w ++ b) := by
    cases b with
    | nil => simp [runsWord chars]
    | cons c r =>
      have mark : isWordChar c = false := by simpa [isBoundary] using behind
      simp [runsSeparator mark, runsWord chars]
  rcases List.eq_nil_or_concat a with rfl | ⟨front, c, rfl⟩
  · exact back
  · have mark : isWordChar c = false := by simpa [isBoundary] using before
    rw [List.concat_eq_append, List.append_assoc, List.singleton_append, runsSeparator mark]
    exact List.mem_append_right _ back

theorem runStands {t w : Text} (run : w ∈ wordRuns t) : Stands w t := by
  obtain ⟨a, b, shape, before, behind⟩ := piecePlaced run
  exact ⟨a, b, shape, by rwa [boundaryAll], by rwa [boundaryAll]⟩

theorem standsExactly {w t : Text} (chars : ∀ c ∈ w, isWordChar c = true) :
    Stands w t ↔ w ∈ wordRuns t := ⟨standsRun chars, runStands⟩

theorem wordIsRun {word t : Text} (chars : ∀ c ∈ word, isWordChar c = true)
    (found : (splitAtWord? word t).isSome = true) : word ∈ wordRuns t := by
  obtain ⟨⟨a, b⟩, split⟩ := Option.isSome_iff_exists.mp found
  obtain ⟨shape, before, behind⟩ := splitAtWordSound split
  rw [Option.or_none] at before
  exact standsRun chars ⟨a, b, shape, before, behind⟩

theorem boundaryBreak {a b : Text} {c : Char} (mark : isWordChar c = false) :
    isBoundary (a ++ c :: b).head? = isBoundary a.head? := by
  cases a with
  | nil => simp [isBoundary, mark]
  | cons d r => rfl

theorem searchBehind {c : Char} (mark : isWordChar c = false) (word b : Text) :
    splitAtWordAfter word (some c) 0 b = splitAtWordAfter word none 0 b := by
  have same : isBoundary (some c) = isBoundary none := by simp [isBoundary, mark]
  cases b with
  | nil => simp only [splitAtWordAfter, same]
  | cons d r => simp only [splitAtWordAfter, same]

section Break
variable {word : Text} (word' : WordText word) {c : Char} (mark : isWordChar c = false)
include word' mark

theorem markAbsent : c ∉ word := fun member => by
  rw [word'.chars c member] at mark
  cases mark

theorem searchBreak (a b : Text) (previous : Option Char) (skip : Nat) (within : skip ≤ a.length) :
    splitAtWordAfter word previous skip (a ++ c :: b) =
      ((splitAtWordAfter word previous skip a).map fun p => (p.1, p.2 ++ c :: b)).or
        ((splitAtWord? word b).map fun p => (a ++ c :: p.1, p.2)) := by
  have absent := markAbsent word' mark
  induction a generalizing previous skip with
  | nil =>
    obtain rfl : skip = 0 := Nat.le_zero.mp within
    have other : word.isPrefixOf (c :: b) = false := by
      rw [Bool.eq_false_iff, ne_eq, List.isPrefixOf_iff_prefix, ← List.nil_append (c :: b),
        prefixBreak absent, List.prefix_nil]
      exact word'.nonempty
    simp [splitAtWordAfter, other, word'.nonempty, searchBehind mark, splitAtWord?]
  | cons d r ih =>
    cases skip with
    | succ skip =>
      have later := ih (some d) skip (by simpa using within)
      simp only [List.cons_append, splitAtWordAfter, later]
      cases splitAtWordAfter word (some d) skip r <;> cases splitAtWord? word b <;> rfl
    | zero =>
      have passed {next : Nat} (bound : next ≤ r.length) :
          (splitAtWordAfter word (some d) next (r ++ c :: b)).map (fun p => (d :: p.1, p.2)) =
            (((splitAtWordAfter word (some d) next r).map fun p => (d :: p.1, p.2)).map
              fun p => (p.1, p.2 ++ c :: b)).or
                ((splitAtWord? word b).map fun p => (d :: r ++ c :: p.1, p.2)) := by
        rw [ih (some d) next bound]
        cases splitAtWordAfter word (some d) next r <;> cases splitAtWord? word b <;> rfl
      have begins : word.isPrefixOf (d :: (r ++ c :: b)) = word.isPrefixOf (d :: r) := by
        rw [Bool.eq_iff_iff, List.isPrefixOf_iff_prefix, List.isPrefixOf_iff_prefix,
          ← List.cons_append, prefixBreak absent]
      simp only [List.cons_append, splitAtWordAfter, begins]
      split
      · rename_i starts
        have short := (List.isPrefixOf_iff_prefix.mp starts).length_le
        have after : (d :: (r ++ c :: b)).drop word.length =
            (d :: r).drop word.length ++ c :: b := by
          rw [← List.cons_append, List.drop_append_of_le_length short]
        rw [after, boundaryBreak mark]
        split
        · rfl
        · exact passed (by simp at short; omega)
      · exact passed (Nat.zero_le _)

end Break

section Found
variable {word : Text} (word' : WordText word)
include word'

theorem foundAlone {piece : Text} (chars : ∀ c ∈ piece, isWordChar c = true) :
    (splitAtWord? word piece).isSome = true ↔ word ∈ wordRuns piece := by
  constructor
  · exact wordIsRun word'.chars
  · intro run
    rw [runsWord chars, List.mem_singleton] at run
    have start : splitAtWord? word (word ++ []) = some ([], []) :=
      splitAtStart word'.nonempty rfl
    rw [List.append_nil] at start
    rw [← run, start]
    rfl

theorem runFound (t : Text) : (splitAtWord? word t).isSome = true ↔ word ∈ wordRuns t := by
  induction t using byPieces (p := fun c => !isWordChar c) with
  | last piece solid => exact foundAlone word' fun c member => by simpa using solid c member
  | next piece c rest solid other ih =>
    have mark : isWordChar c = false := by simpa using other
    have first := foundAlone word' fun c member => by simpa using solid c member
    have search : splitAtWord? word (piece ++ c :: rest) = _ :=
      searchBreak word' mark piece rest none 0 (Nat.zero_le _)
    rw [search, Option.isSome_or, Option.isSome_map, Option.isSome_map, Bool.or_eq_true,
      ← splitAtWord?, first, ih, runsSeparator mark, List.mem_append]

theorem wordFound (t : Text) : (splitAtWord? word t).isSome = true ↔ Stands word t :=
  (runFound word' t).trans (standsExactly word'.chars).symm

end Found
end ShaderReflection.Glsl
