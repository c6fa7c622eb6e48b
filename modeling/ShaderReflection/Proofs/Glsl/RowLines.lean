import ShaderReflection.Proofs.Glsl.DeclarationRow
import ShaderReflection.Proofs.Glsl.StructRow
/-!
The rows of an interface as the lines of a text. A line loses the carriage return at its end, which
is a blank or part of a comment, so the lines are rows of the same interface.
-/
namespace ShaderReflection.Glsl
open Text

theorem tailReturned {tail : Text} (blank : Tail tail) : Tail (dropReturn tail) := by
  rcases returnedCases tail with same | ⟨front, rfl, same⟩
  · rwa [same]
  · rw [same]
    refine ⟨fun feed => blank.oneRow (List.mem_append_left _ feed), fun c member => ?_⟩
    have code := blank.blank
    rcases stripEnd (by decide : '\r' ≠ '/') front with short | long
    · exact code c (short ▸ member)
    · exact code c (long ▸ List.mem_append_left _ member)

theorem codeLacks {ws : List Text} (code : ∀ w ∈ ws, CodeWord w) {c : Char}
    (blank : isBlank c = true) (other : c ≠ ' ') : c ∉ joinWith [' '] ws := by
  refine joinedLacks (fun same => other (List.mem_singleton.mp same)) fun w member inside => ?_
  rw [(code w member).solid.plain c inside] at blank
  cases blank

theorem rowReturned {ws : List Text} (code : ∀ w ∈ ws, CodeWord w) (tail : Text) :
    dropReturn (row ws tail) = row ws (dropReturn tail) := by
  unfold row
  cases tail with
  | nil =>
    have last : (joinWith [' '] ws ++ []).getLast? ≠ some '\r' := by
      rw [List.append_nil]
      exact fun same => codeLacks code rfl (by decide) (List.mem_of_getLast? same)
    rw [dropReturn, if_neg last]
    rfl
  | cons c r =>
    have some' : c :: r ≠ [] := List.cons_ne_nil c r
    have last : (joinWith [' '] ws ++ c :: r).getLast? = (c :: r).getLast? := by
      rw [List.getLast?_append, List.getLast?_eq_some_getLast some', Option.some_or]
    unfold dropReturn
    rw [last]
    split
    · rw [List.dropLast_append_of_ne_nil some']
    · rfl

inductive Returned : List Text → List Text → Prop where
  | nil : Returned [] []
  | kept {r rows lines} (more : Returned rows lines) : Returned (r :: rows) (r :: lines)
  | lost {r rows lines} (more : Returned rows lines) : Returned (r :: rows) (dropReturn r :: lines)

theorem returnedAppend {front rows lines : List Text} (returned : Returned (front ++ rows) lines) :
    ∃ first rest, lines = first ++ rest ∧ Returned front first ∧ Returned rows rest := by
  induction front generalizing lines with
  | nil => exact ⟨[], lines, rfl, .nil, returned⟩
  | cons r more ih =>
    cases returned with
    | kept returned =>
      obtain ⟨first, rest, rfl, begun, left⟩ := ih returned
      exact ⟨r :: first, rest, rfl, .kept begun, left⟩
    | lost returned =>
      obtain ⟨first, rest, rfl, begun, left⟩ := ih returned
      exact ⟨dropReturn r :: first, rest, rfl, .lost begun, left⟩

theorem brokenReturned {ws rows lines : List Text} (broken : Broken ws rows)
    (code : ∀ w ∈ ws, CodeWord w) (returned : Returned rows lines) : Broken ws lines := by
  induction broken generalizing lines with
  | done =>
    cases returned
    exact .done
  | empty blank broken ih =>
    cases returned with
    | kept returned => exact .empty blank (ih code returned)
    | lost returned => exact .empty (tailReturned blank) (ih code returned)
  | row some' blank broken ih =>
    obtain ⟨here, others⟩ := List.forall_mem_append.mp code
    cases returned with
    | kept returned => exact .row some' blank (ih others returned)
    | lost returned =>
      rw [rowReturned here]
      exact .row some' (tailReturned blank) (ih others returned)

theorem laidReturned {items : List Item} {rows lines : List Text} (laid : Laid items rows)
    (returned : Returned rows lines) : Laid items lines := by
  -- Each row is replaced by one of the same form, with another tail.
  induction laid generalizing lines with
  | nil =>
    cases returned
    exact .nil
  | empty blank more ih =>
    cases returned with
    | kept returned => exact .empty blank (ih returned)
    | lost returned => exact .empty (tailReturned blank) (ih returned)
  | definition named members' broken more ih =>
    obtain ⟨first, rest, rfl, begun, left⟩ := returnedAppend returned
    exact .definition named members'
      (brokenReturned broken (definitionCode named members') begun) (ih left)
  | declaration specified typed named blank more ih =>
    cases returned with
    | kept returned => exact .declaration specified typed named blank (ih returned)
    | lost returned =>
      rw [rowReturned (declarationCode specified typed named _)]
      exact .declaration specified typed named (tailReturned blank) (ih returned)

theorem rowWhole {ws : List Text} {tail : Text} (code : ∀ w ∈ ws, CodeWord w) (blank : Tail tail) :
    '\n' ∉ row ws tail := by
  rw [row, List.mem_append, not_or]
  exact ⟨codeLacks code rfl (by decide), blank.oneRow⟩

theorem brokenWhole {ws rows : List Text} (broken : Broken ws rows)
    (code : ∀ w ∈ ws, CodeWord w) : ∀ r ∈ rows, '\n' ∉ r := by
  induction broken with
  | done => exact List.forall_mem_nil _
  | empty blank broken ih => exact List.forall_mem_cons.mpr ⟨blank.oneRow, ih code⟩
  | row some' blank broken ih =>
    obtain ⟨here, others⟩ := List.forall_mem_append.mp code
    exact List.forall_mem_cons.mpr ⟨rowWhole here blank, ih others⟩

theorem laidWhole {items : List Item} {rows : List Text} (laid : Laid items rows) :
    ∀ r ∈ rows, '\n' ∉ r := by
  induction laid with
  | nil => exact List.forall_mem_nil _
  | empty blank more ih => exact List.forall_mem_cons.mpr ⟨blank.oneRow, ih⟩
  | definition named members' broken more ih =>
    exact List.forall_mem_append.mpr ⟨brokenWhole broken (definitionCode named members'), ih⟩
  | declaration specified typed named blank more ih =>
    refine List.forall_mem_cons.mpr ⟨rowWhole ?_ blank, ih⟩
    exact declarationCode specified typed named _

end ShaderReflection.Glsl
