import Mathlib.Data.List.TakeWhile
import ShaderReflection.Proofs.Text.Splitting
/-!
Texts without the blanks at their ends. What stands between the blanks is kept as it is, so a text
that is put between blanks is found again.
-/
namespace ShaderReflection.Text

section Ends
variable {p : Char → Bool}

theorem dropKept {w : Text} (first : ∀ c, w.head? = some c → p c = false) : w.dropWhile p = w := by
  cases w with
  | nil => rfl
  | cons c r => rw [List.dropWhile_cons_of_neg (by simp [first c rfl])]

theorem dropNothing {w : Text} (lacks : ∀ c ∈ w, p c = false) : w.dropWhile p = w :=
  dropKept fun c head => lacks c (List.mem_of_head? head)

theorem trimEndNothing {w : Text} (lacks : ∀ c ∈ w, p c = false) : trimEnd p w = w := by
  have backward := dropNothing (w := w.reverse) fun c member => lacks c (List.mem_reverse.mp member)
  rw [trimEnd, backward, List.reverse_reverse]

theorem trimEndPrefix (p : Char → Bool) (t : Text) : trimEnd p t <+: t := by
  have suffix := List.dropWhile_suffix p (l := t.reverse)
  have reversed := List.reverse_prefix.mpr suffix
  rwa [List.reverse_reverse] at reversed

theorem trimBothInfix (p : Char → Bool) (t : Text) : trimBoth p t <:+: t :=
  (trimEndPrefix p (t.dropWhile p)).isInfix.trans (List.dropWhile_suffix p).isInfix

theorem trimEndBehind {gap : Text} (all : ∀ c ∈ gap, p c = true) (t : Text) :
    trimEnd p (t ++ gap) = trimEnd p t := by
  rw [trimEnd, List.reverse_append, List.dropWhile_append_of_pos, trimEnd]
  exact fun c member => all c (List.mem_reverse.mp member)

theorem trimEndAt {c : Char} (kept : p c = false) (front back : Text) :
    trimEnd p (front ++ c :: back) = front ++ c :: trimEnd p back := by
  rw [trimEnd, List.reverse_append, List.reverse_cons, List.append_assoc, List.dropWhile_append]
  split
  · rename_i gone
    rw [List.isEmpty_iff] at gone
    simp [trimEnd, gone, kept]
  · simp [trimEnd]

theorem trimEndExtends (p : Char → Bool) (w rest : Text) : trimEnd p w <+: trimEnd p (w ++ rest) := by
  rw [trimEnd, trimEnd, List.reverse_append, List.dropWhile_append]
  split
  · exact List.prefix_rfl
  · rw [List.reverse_append, List.reverse_reverse]
    exact (trimEndPrefix p w).trans (List.prefix_append w _)

theorem trimBothInFront {gap : Text} (all : ∀ c ∈ gap, p c = true) (t : Text) :
    trimBoth p (gap ++ t) = trimBoth p t := by
  rw [trimBoth, List.dropWhile_append_of_pos all]
  rfl

theorem trimBothBehind {gap : Text} (all : ∀ c ∈ gap, p c = true) (t : Text) :
    trimBoth p (t ++ gap) = trimBoth p t := by
  rw [trimBoth, List.dropWhile_append]
  split
  · rename_i gone
    have nothing : gap.dropWhile p = [] := List.dropWhile_eq_nil_iff.mpr all
    rw [nothing, trimBoth, List.isEmpty_iff.mp gone]
  · rw [trimEndBehind all]
    rfl

theorem trimEndParts (p : Char → Bool) (t : Text) :
    ∃ back, t = trimEnd p t ++ back ∧ ∀ c ∈ back, p c = true := by
  have parts := List.takeWhile_append_dropWhile (p := p) (l := t.reverse)
  rw [← List.reverse_inj, List.reverse_append, List.reverse_reverse] at parts
  exact ⟨_, parts.symm, fun c member => List.mem_takeWhile_imp (List.mem_reverse.mp member)⟩

theorem trimBothParts (p : Char → Bool) (t : Text) : ∃ front back,
    t = front ++ (trimBoth p t ++ back) ∧ (∀ c ∈ front, p c = true) ∧ ∀ c ∈ back, p c = true := by
  obtain ⟨back, ending, all⟩ := trimEndParts p (t.dropWhile p)
  have start := List.takeWhile_append_dropWhile (p := p) (l := t)
  rw [ending] at start
  exact ⟨t.takeWhile p, back, start.symm, fun c member => List.mem_takeWhile_imp member, all⟩

theorem trimEndLast {t : Text} {c : Char} (last : (trimEnd p t).getLast? = some c) :
    p c = false := by
  rw [trimEnd, List.getLast?_reverse] at last
  have stops := List.head?_dropWhile_not p t.reverse
  rw [last] at stops
  exact stops

theorem trimBothFirst {t : Text} {c : Char} (first : (trimBoth p t).head? = some c) :
    p c = false := by
  obtain ⟨rest, shape⟩ := trimEndPrefix p (t.dropWhile p)
  have begins : (t.dropWhile p).head? = some c := by
    rw [← shape, List.head?_append]
    simp only [trimBoth] at first
    rw [first]
    rfl
  have stops := List.head?_dropWhile_not p t
  rw [begins] at stops
  exact stops

theorem trimBothLast {t : Text} {c : Char} (last : (trimBoth p t).getLast? = some c) :
    p c = false := trimEndLast last

theorem trimBothKept {w : Text} (first : ∀ c, w.head? = some c → p c = false)
    (last : ∀ c, w.getLast? = some c → p c = false) : trimBoth p w = w := by
  have backward : w.reverse.dropWhile p = w.reverse :=
    dropKept fun c head => last c (by rwa [List.head?_reverse] at head)
  rw [trimBoth, dropKept first, trimEnd, backward, List.reverse_reverse]

end Ends

theorem keptPart (kept : Char → Bool) (t : Text) : ∃ lead stretch trail, t = lead ++ (stretch ++ trail) ∧
    lead.filter kept = [] ∧ trail.filter kept = [] ∧
    (∀ c, stretch.head? = some c → kept c = true) ∧ ∀ c, stretch.getLast? = some c → kept c = true := by
  obtain ⟨lead, trail, shape, leading, trailing⟩ := trimBothParts (fun c => !kept c) t
  have gone {g : Text} (passed : ∀ c ∈ g, (!kept c) = true) : g.filter kept = [] :=
    List.filter_eq_nil_iff.mpr fun c member => by simpa using passed c member
  exact ⟨lead, _, trail, shape, gone leading, gone trailing,
    fun c first => by simpa using trimBothFirst first, fun c last => by simpa using trimBothLast last⟩

theorem trimInFront {gap : Text} (blank : Blank gap) (t : Text) : trim (gap ++ t) = trim t :=
  trimBothInFront blank t

theorem trimBehind {gap : Text} (blank : Blank gap) (t : Text) : trim (t ++ gap) = trim t :=
  trimBothBehind blank t

theorem trimBlank {gap : Text} (blank : Blank gap) : trim gap = [] := trimBehind blank []

theorem trimStart {c : Char} (solid : isBlank c = false) (r : Text) :
    trim (c :: r) = c :: trimEnd isBlank r := by
  rw [trim, trimBoth, List.dropWhile_cons_of_neg (by simp [solid])]
  exact trimEndAt solid [] r

theorem trimSolid {w : Text} (solid : Solid w) : trim w = w := by
  rw [trim, trimBoth, dropNothing solid.plain, trimEndNothing solid.plain]

theorem trimLength (t : Text) : (trim t).length ≤ t.length := (trimBothInfix isBlank t).length_le

theorem trimmedStart {c : Char} {r : Text} (trimmed : trim (c :: r) = c :: r) :
    isBlank c = false := by
  rw [Bool.eq_false_iff]
  intro blank
  have shorter := trimLength r
  have same : trim (c :: r) = trim r := trimInFront (List.forall_mem_singleton.mpr blank) r
  rw [trimmed] at same
  rw [← same, List.length_cons] at shorter
  omega

theorem trimmedExtends {w : Text} (trimmed : trim w = w) (rest : Text) : w <+: trim (w ++ rest) := by
  cases w with
  | nil => exact List.nil_prefix
  | cons c r =>
    have solid := trimmedStart trimmed
    rw [trimStart solid] at trimmed
    have behind := trimEndExtends isBlank r rest
    rw [List.cons.inj trimmed |>.2] at behind
    rw [List.cons_append, trimStart solid]
    exact (List.prefix_cons_inj c).mpr behind

theorem trimmedAt {w : Text} (some' : w ≠ []) (trimmed : trim w = w) {c : Char}
    (solid : isBlank c = false) (back : Text) :
    trim (w ++ c :: back) = w ++ c :: trimEnd isBlank back := by
  cases w with
  | nil => exact absurd rfl some'
  | cons d r =>
    rw [List.cons_append, trimStart (trimmedStart trimmed), trimEndAt solid]
    rfl

theorem trimEndSolid {w : Text} (solid : Solid w) (front : Text) :
    trimEnd isBlank (front ++ w) = front ++ w := by
  obtain ⟨c, r, rfl⟩ := List.exists_cons_of_ne_nil solid.nonempty
  obtain ⟨here, others⟩ := List.forall_mem_cons.mp solid.plain
  rw [trimEndAt here, trimEndNothing others]

theorem joinedTrimEnd {ws : List Text} (some' : ws ≠ []) (solid : ∀ w ∈ ws, Solid w) (front : Text) :
    trimEnd isBlank (front ++ joinWith [' '] ws) = front ++ joinWith [' '] ws := by
  induction ws generalizing front with
  | nil => exact absurd rfl some'
  | cons w rest ih =>
    obtain ⟨first, others⟩ := List.forall_mem_cons.mp solid
    cases rest with
    | nil => exact trimEndSolid first front
    | cons next more =>
      rw [joinCons, ← List.append_assoc, ← List.append_assoc, ih (List.cons_ne_nil next more) others]

theorem joinedTrim {ws : List Text} (solid : ∀ w ∈ ws, Solid w) :
    trim (joinWith [' '] ws) = joinWith [' '] ws := by
  cases ws with
  | nil => rfl
  | cons w rest =>
    have kept := joinedTrimEnd (List.cons_ne_nil w rest) solid []
    obtain ⟨first, -⟩ := List.forall_mem_cons.mp solid
    obtain ⟨c, r, rfl⟩ := List.exists_cons_of_ne_nil first.nonempty
    have begins : isBlank c = false := first.plain c List.mem_cons_self
    obtain ⟨more, shape⟩ := joinedBegins [' '] c r rest
    rw [List.nil_append, shape] at kept
    rw [shape, trim, trimBoth, List.dropWhile_cons_of_neg (by simp [begins]), kept]

end ShaderReflection.Text
