import ShaderReflection.Proofs.Text.Trimming
/-!
The lines around a place in a text. What stands in front ends some lines and leaves one open; what
stands behind goes on with the open line, or ends it, and adds further lines.
-/
namespace ShaderReflection.Text

def wholeRows (before : Text) : List Text := lines (trimEnd (· != '\n') before)

def lastRow (before : Text) : Text := dropReturn (afterLast '\n' before)

def rowsBehind (after : Text) : Text × List Text :=
  match splitFirst? '\n' after with
  | none => (after, [])
  | some (row, rest) => (dropReturn row, lines rest)

theorem placeParts (before : Text) :
    before = trimEnd (· != '\n') before ++ afterLast '\n' before := by
  rw [trimEnd, afterLast, ← List.reverse_append, List.takeWhile_append_dropWhile,
    List.reverse_reverse]

theorem lastInfix (before : Text) : afterLast '\n' before <:+: before :=
  ⟨trimEnd (· != '\n') before, [], by rw [List.append_nil, ← placeParts]⟩

theorem behindInfix (after : Text) : (rowsBehind after).1 <:+: after := by
  rw [rowsBehind]
  split
  · exact List.infix_rfl
  · rename_i row rest split
    obtain ⟨rfl, -⟩ := splitFirstExact.mp split
    exact ((returnedPrefix row).trans (List.prefix_append row _)).isInfix

theorem openRow (before : Text) : '\n' ∉ afterLast '\n' before := by
  intro member
  have passes := List.mem_takeWhile_imp (List.mem_reverse.mp member)
  exact bne_iff_ne.mp passes rfl

theorem linesFrom (before t : Text) :
    lines (before ++ t) = wholeRows before ++ lines (afterLast '\n' before ++ t) := by
  have open' {w : Text} (lacks : '\n' ∉ w) : trimEnd (· != '\n') w = [] := by
    have nothing := trimEndBehind (otherMark lacks) []
    rwa [List.nil_append] at nothing
  by_cases ended : '\n' ∈ before
  · obtain ⟨front, row, rfl, lacks⟩ := lastMark ended
    have whole : trimEnd (· != '\n') (front ++ '\n' :: row) = front ++ ['\n'] := by
      rw [trimEndAt (by decide), open' lacks]
    rw [wholeRows, whole, afterLastAt lacks, List.append_assoc, List.cons_append, linesAppend]
  · rw [wholeRows, open' ended, afterLastNone ended]
    rfl

theorem linesWithin {row : Text} (whole : '\n' ∉ row) {c : Char} (plain : c ≠ '\n')
    (other : c ≠ '\r') (after : Text) :
    lines (row ++ c :: after) = (row ++ c :: (rowsBehind after).1) :: (rowsBehind after).2 := by
  by_cases ended : '\n' ∈ after
  · obtain ⟨first, rest, rfl, lacks⟩ := List.eq_append_cons_of_mem ended
    have line : '\n' ∉ row ++ c :: first := by simp [whole, plain.symm, lacks]
    rw [rowsBehind, splitFirstAt lacks, ← List.cons_append, ← List.append_assoc, lineEnded line,
      returnedMark other]
  · have line : '\n' ∉ row ++ c :: after := by simp [whole, plain.symm, ended]
    rw [rowsBehind, splitFirstNone ended, lineLast line (by simp)]

theorem linesBroken {row : Text} (whole : '\n' ∉ row) (after : Text) :
    lines (row ++ '\n' :: after) = dropReturn row ::
      if after = [] then [] else (rowsBehind after).1 :: (rowsBehind after).2 := by
  rw [lineEnded whole]
  split
  · rename_i none
    rw [none]
    rfl
  · rename_i some'
    by_cases ended : '\n' ∈ after
    · obtain ⟨first, rest, rfl, lacks⟩ := List.eq_append_cons_of_mem ended
      rw [rowsBehind, splitFirstAt lacks, lineEnded lacks]
    · rw [rowsBehind, splitFirstNone ended, lineLast ended some']

end ShaderReflection.Text
