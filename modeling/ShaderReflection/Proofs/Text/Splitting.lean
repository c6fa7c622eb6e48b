import Mathlib.Data.List.TakeWhile
import ShaderReflection.Text.Basic
/-!
Texts taken apart at separators, at blanks and into lines. What happens to a text that is put
together from two others follows from what happens to each of them.
-/
namespace ShaderReflection.Text

theorem eachChar {P : Char → Prop} [DecidablePred P] {t : Text}
    (all : (t.all fun c => decide (P c)) = true) : ∀ c ∈ t, P c :=
  fun c member => of_decide_eq_true (List.all_eq_true.mp all c member)

section Pieces
variable {p : Char → Bool}

theorem splitNonempty (t : Text) : ∃ first rest, splitWhere p t = first :: rest := by
  induction t with
  | nil => exact ⟨[], [], rfl⟩
  | cons c r ih =>
    obtain ⟨first, rest, same⟩ := ih
    by_cases separates : p c = true
    · exact ⟨[], splitWhere p r, by simp [splitWhere, separates]⟩
    · exact ⟨c :: first, rest, by simp [splitWhere, separates, same, consHead]⟩

theorem splitLast (t : Text) : ∃ front last, splitWhere p t = front ++ [last] := by
  obtain ⟨first, rest, same⟩ := splitNonempty (p := p) t
  obtain ⟨front, last, shape⟩ :=
    List.eq_nil_or_concat (splitWhere p t) |>.resolve_left (by simp [same])
  exact ⟨front, last, by simpa using shape⟩

theorem splitAppend {a b last first : Text} {front rest : List Text}
    (before : splitWhere p a = front ++ [last]) (behind : splitWhere p b = first :: rest) :
    splitWhere p (a ++ b) = front ++ (last ++ first) :: rest := by
  -- Where the texts meet, the last piece of `a` and the first of `b` are one piece.
  induction a generalizing front last with
  | nil =>
    cases front with
    | nil =>
      obtain ⟨rfl, -⟩ := List.cons.inj before
      simpa using behind
    | cons f more => cases more <;> cases before
  | cons c r ih =>
    obtain ⟨x, xs, shape⟩ := splitNonempty (p := p) r
    by_cases separates : p c = true
    · simp only [splitWhere, separates, if_true] at before
      cases front with
      | nil =>
        rw [shape] at before
        cases before
      | cons f more =>
        obtain ⟨rfl, others⟩ := List.cons.inj before
        simp [splitWhere, separates, ih others]
    · simp only [splitWhere, separates, shape, consHead] at before
      cases front with
      | nil =>
        obtain ⟨rfl, rfl⟩ := List.cons.inj before
        have alone : splitWhere p r = [] ++ [x] := shape
        simp [splitWhere, separates, ih alone, consHead]
      | cons f more =>
        obtain ⟨rfl, rfl⟩ := List.cons.inj before
        have several : splitWhere p r = (x :: more) ++ [last] := shape
        simp [splitWhere, separates, ih several, consHead]

theorem splitSeparator {s : Char} (separates : p s = true) (a b : Text) :
    splitWhere p (a ++ s :: b) = splitWhere p a ++ splitWhere p b := by
  obtain ⟨front, last, before⟩ := splitLast (p := p) a
  have behind : splitWhere p (s :: b) = [] :: splitWhere p b := by simp [splitWhere, separates]
  rw [splitAppend before behind, before, List.append_nil, List.append_assoc, List.singleton_append]

theorem splitRun {w : Text} (solid : ∀ c ∈ w, p c = false) : splitWhere p w = [w] := by
  induction w with
  | nil => rfl
  | cons c r ih =>
    rw [List.forall_mem_cons] at solid
    simp [splitWhere, solid.1, ih solid.2, consHead]

theorem pieceInfix {t w : Text} (member : w ∈ splitWhere p t) : w <:+: t := by
  -- Only a first piece can grow on its left, so it is kept as a prefix until a separator closes it.
  suffices general : ∀ first rest, splitWhere p t = first :: rest →
      first <+: t ∧ ∀ w ∈ rest, w <:+: t by
    obtain ⟨first, rest, shape⟩ := splitNonempty (p := p) t
    obtain ⟨head, tail⟩ := general first rest shape
    rw [shape] at member
    rcases List.mem_cons.mp member with rfl | inside
    · exact head.isInfix
    · exact tail w inside
  clear member w
  induction t with
  | nil =>
    rintro first rest ⟨⟩
    exact ⟨List.nil_prefix, List.forall_mem_nil _⟩
  | cons c r ih =>
    intro first rest shape
    obtain ⟨x, xs, inner⟩ := splitNonempty (p := p) r
    obtain ⟨head, tail⟩ := ih x xs inner
    have within {w : Text} (part : w <:+: r) : w <:+: c :: r :=
      part.trans (List.suffix_cons c r).isInfix
    by_cases separates : p c = true
    · simp only [splitWhere, separates, if_true, inner] at shape
      obtain ⟨rfl, rfl⟩ := List.cons.inj shape
      refine ⟨List.nil_prefix, List.forall_mem_cons.mpr ⟨within head.isInfix, ?_⟩⟩
      exact fun w member => within (tail w member)
    · simp only [splitWhere, separates, inner, consHead] at shape
      obtain ⟨rfl, rfl⟩ := List.cons.inj shape
      exact ⟨(List.prefix_cons_inj c).mpr head, fun w member => within (tail w member)⟩

theorem pieceUnparted {t w : Text} (member : w ∈ splitWhere p t) : ∀ c ∈ w, p c = false := by
  induction t generalizing w with
  | nil =>
    obtain rfl := List.mem_singleton.mp member
    exact List.forall_mem_nil _
  | cons c r ih =>
    obtain ⟨first, rest, shape⟩ := splitNonempty (p := p) r
    have before {v : Text} (there : v ∈ first :: rest) : ∀ c ∈ v, p c = false :=
      ih (by rwa [shape])
    rw [splitWhere] at member
    split at member
    · rcases List.mem_cons.mp member with rfl | there
      · exact List.forall_mem_nil _
      · exact before (shape ▸ there)
    · rename_i other
      rw [shape, consHead] at member
      rcases List.mem_cons.mp member with rfl | there
      · exact List.forall_mem_cons.mpr
          ⟨Bool.eq_false_iff.mpr other, before List.mem_cons_self⟩
      · exact before (List.mem_cons_of_mem first there)

@[elab_as_elim]
theorem byPieces {P : Text → Prop} (last : ∀ w, (∀ c ∈ w, p c = false) → P w)
    (next : ∀ w s rest, (∀ c ∈ w, p c = false) → p s = true → P rest → P (w ++ s :: rest))
    (t : Text) : P t := by
  suffices general : ∀ w, (∀ c ∈ w, p c = false) → P (w ++ t) from
    general [] (List.forall_mem_nil _)
  induction t with
  | nil =>
    intro w plain
    rw [List.append_nil]
    exact last w plain
  | cons c r ih =>
    intro w plain
    cases separates : p c with
    | true => exact next w c r plain separates (ih [] (List.forall_mem_nil _))
    | false =>
      have longer := ih (w ++ [c])
        (List.forall_mem_append.mpr ⟨plain, List.forall_mem_singleton.mpr separates⟩)
      rwa [List.append_assoc, List.singleton_append] at longer

theorem splitCongr {q : Char → Bool} {t : Text} (same : ∀ c ∈ t, p c = q c) :
    splitWhere p t = splitWhere q t := by
  induction t with
  | nil => rfl
  | cons c r ih =>
    obtain ⟨here, others⟩ := List.forall_mem_cons.mp same
    rw [splitWhere, splitWhere, here, ih others]

theorem splitTwice (p q : Char → Bool) (t : Text) :
    splitWhere (fun c => p c || q c) t = (splitWhere p t).flatMap (splitWhere q) := by
  induction t using byPieces (p := p) with
  | last w plain =>
    rw [splitRun plain, List.flatMap_singleton]
    exact splitCongr fun c member => by rw [plain c member, Bool.false_or]
  | next w s rest plain separates ih =>
    have either : (p s || q s) = true := by rw [separates, Bool.true_or]
    have first : splitWhere (fun c => p c || q c) w = splitWhere q w :=
      splitCongr fun c member => by rw [plain c member, Bool.false_or]
    rw [splitSeparator either, splitSeparator separates, List.flatMap_append, splitRun plain,
      List.flatMap_singleton, first, ih]

theorem piecePlaced {t w : Text} (member : w ∈ splitWhere p t) :
    ∃ a b, t = a ++ (w ++ b) ∧ a.getLast?.all p = true ∧ b.head?.all p = true := by
  induction t using byPieces (p := p) with
  | last piece plain =>
    rw [splitRun plain] at member
    obtain rfl := List.mem_singleton.mp member
    exact ⟨[], [], by simp, rfl, rfl⟩
  | next piece s rest plain separates ih =>
    rw [splitSeparator separates, splitRun plain] at member
    rcases List.mem_cons.mp member with rfl | inside
    · exact ⟨[], s :: rest, rfl, rfl, separates⟩
    · obtain ⟨a, b, rfl, before, behind⟩ := ih inside
      refine ⟨piece ++ s :: a, b, by simp, ?_, behind⟩
      rw [List.getLast?_append, List.getLast?_cons]
      cases last : a.getLast? with
      | none => exact separates
      | some c => rw [last] at before; exact before

theorem firstPieceBegins {t first : Text} {rest : List Text}
    (split : splitWhere p t = first :: rest) : first = [] ∨ first.head? = t.head? := by
  cases t with
  | nil =>
    obtain ⟨rfl, -⟩ := List.cons.inj split
    exact .inl rfl
  | cons c r =>
    obtain ⟨next, more, shape⟩ := splitNonempty (p := p) r
    rw [splitWhere, shape, consHead] at split
    split at split
    · obtain ⟨rfl, -⟩ := List.cons.inj split
      exact .inl rfl
    · obtain ⟨rfl, -⟩ := List.cons.inj split
      exact .inr rfl

theorem lastPieceEnds {t last : Text} {front : List Text}
    (split : splitWhere p t = front ++ [last]) : last = [] ∨ last.getLast? = t.getLast? := by
  induction t using byPieces (p := p) generalizing front last with
  | last w plain =>
    rw [splitRun plain] at split
    have shape : [] ++ [w] = front ++ [last] := split
    obtain ⟨-, same⟩ := List.append_inj' shape rfl
    exact .inr (by rw [List.singleton_inj.mp same])
  | next w s rest plain separates ih =>
    obtain ⟨init, final, shape⟩ := splitLast (p := p) rest
    rw [splitSeparator separates, shape, ← List.append_assoc] at split
    obtain ⟨-, same⟩ := List.append_inj' split rfl
    obtain rfl := List.singleton_inj.mp same
    rcases ih shape with none | ends
    · exact .inl none
    · rw [List.getLast?_append, List.getLast?_cons]
      cases behind : rest.getLast? with
      | none => exact .inl (List.getLast?_eq_none_iff.mp (ends.trans behind))
      | some c => exact .inr (ends.trans behind)

end Pieces

theorem otherChars {w : Text} {mark : Char} (lacks : mark ∉ w) : ∀ c ∈ w, (c == mark) = false :=
  fun _ member => beq_false_of_ne fun same => lacks (same ▸ member)

theorem splitFirstAt {mark : Char} {front : Text} (lacks : mark ∉ front) (back : Text) :
    splitFirst? mark (front ++ mark :: back) = some (front, back) := by
  induction front with
  | nil => simp [splitFirst?]
  | cons c r ih =>
    rw [List.mem_cons, not_or] at lacks
    have other : (c == mark) = false := beq_false_of_ne fun same => lacks.1 same.symm
    simp [splitFirst?, other, ih lacks.2]

theorem splitFirstNone {mark : Char} {t : Text} (lacks : mark ∉ t) : splitFirst? mark t = none := by
  induction t with
  | nil => rfl
  | cons c r ih =>
    rw [List.mem_cons, not_or] at lacks
    have other : (c == mark) = false := beq_false_of_ne fun same => lacks.1 same.symm
    simp [splitFirst?, other, ih lacks.2]

theorem splitFirstExact {mark : Char} {t a b : Text} :
    splitFirst? mark t = some (a, b) ↔ t = a ++ mark :: b ∧ mark ∉ a := by
  constructor
  · intro found
    by_cases member : mark ∈ t
    · obtain ⟨front, back, rfl, lacks⟩ := List.eq_append_cons_of_mem member
      rw [splitFirstAt lacks] at found
      obtain ⟨rfl, rfl⟩ := Prod.mk.inj (Option.some.inj found)
      exact ⟨rfl, lacks⟩
    · rw [splitFirstNone member] at found
      cases found
  · rintro ⟨rfl, lacks⟩
    exact splitFirstAt lacks b

theorem splitOnNone {mark : Char} {t : Text} (lacks : mark ∉ t) : splitOn mark t = [t] :=
  splitRun (otherChars lacks)

theorem splitOnAt {mark : Char} {front : Text} (lacks : mark ∉ front) (back : Text) :
    splitOn mark (front ++ mark :: back) = front :: splitOn mark back := by
  have pieces : splitOn mark (front ++ mark :: back) = splitOn mark front ++ splitOn mark back :=
    splitSeparator (p := (· == mark)) (beq_self_eq_true mark) front back
  rw [pieces, splitOnNone lacks, List.singleton_append]

theorem otherMark {mark : Char} {t : Text} (lacks : mark ∉ t) : ∀ c ∈ t, (c != mark) = true :=
  fun _ member => bne_iff_ne.mpr fun same => lacks (same ▸ member)

theorem splitFirstUpTo (mark : Char) (front back : Text) :
    ∃ rest, splitFirst? mark (front ++ mark :: back) = some (upTo mark front, rest) := by
  by_cases member : mark ∈ front
  · obtain ⟨first, more, rfl, lacks⟩ := List.eq_append_cons_of_mem member
    have cut : upTo mark (first ++ mark :: more) = first := by
      rw [upTo, List.takeWhile_append_of_pos (otherMark lacks), List.takeWhile_cons_of_neg (by simp),
        List.append_nil]
    rw [cut, List.append_assoc, List.cons_append]
    exact ⟨_, splitFirstAt lacks _⟩
  · have all : upTo mark front = front := List.takeWhile_eq_self_iff.mpr (otherMark member)
    rw [all]
    exact ⟨back, splitFirstAt member back⟩

theorem afterLastAt {mark : Char} {back : Text} (lacks : mark ∉ back) (front : Text) :
    afterLast mark (front ++ mark :: back) = back := by
  have all := otherMark fun inside => lacks (List.mem_reverse.mp inside)
  rw [afterLast, List.reverse_append, List.reverse_cons, List.append_assoc,
    List.takeWhile_append_of_pos all]
  simp

theorem afterLastNone {mark : Char} {t : Text} (lacks : mark ∉ t) : afterLast mark t = t := by
  have all := otherMark fun inside => lacks (List.mem_reverse.mp inside)
  have whole := @List.takeWhile_append_of_pos _ _ t.reverse [] all
  rw [List.append_nil, List.takeWhile_nil, List.append_nil] at whole
  rw [afterLast, whole, List.reverse_reverse]

theorem lastMark {mark : Char} {t : Text} (member : mark ∈ t) :
    ∃ front back, t = front ++ mark :: back ∧ mark ∉ back := by
  obtain ⟨later, before, shape, lacks⟩ := List.eq_append_cons_of_mem (List.mem_reverse.mpr member)
  refine ⟨before.reverse, later.reverse, ?_, fun inside => lacks (List.mem_reverse.mp inside)⟩
  rw [← List.reverse_reverse t, shape]
  simp

theorem afterLastAppend {mark : Char} {back : Text} (inside : mark ∈ back) (front : Text) :
    afterLast mark (front ++ back) = afterLast mark back := by
  obtain ⟨before, later, rfl, lacks⟩ := lastMark inside
  rw [← List.append_assoc, afterLastAt lacks, afterLastAt lacks]

def Blank (t : Text) : Prop := ∀ c ∈ t, isBlank c = true

instance (t : Text) : Decidable (Blank t) :=
  decidable_of_iff (t.all isBlank = true) List.all_eq_true

structure Solid (w : Text) : Prop where
  nonempty : w ≠ []
  plain : ∀ c ∈ w, isBlank c = false

theorem blankAppend {front back : Text} (first : Blank front) (second : Blank back) :
    Blank (front ++ back) := List.forall_mem_append.mpr ⟨first, second⟩

theorem blankSpace {gap : Text} (blank : Blank gap) : Blank (' ' :: gap) :=
  List.forall_mem_cons.mpr ⟨rfl, blank⟩

theorem blankLacks {gap : Text} (blank : Blank gap) {c : Char} (solid : isBlank c = false) :
    c ∉ gap := by
  intro member
  rw [blank c member] at solid
  cases solid

theorem wordsSeparator {s : Char} (blank : isBlank s = true) (a b : Text) :
    words (a ++ s :: b) = words a ++ words b := by
  rw [words, splitSeparator blank, List.filter_append, words, words]

theorem wordsBehind {a gap : Text} (blank : Blank gap) : words (a ++ gap) = words a := by
  induction gap generalizing a with
  | nil => rw [List.append_nil]
  | cons c r ih =>
    obtain ⟨here, more⟩ := List.forall_mem_cons.mp blank
    have rest : words r = [] := by
      have none := ih (a := []) more
      rwa [List.nil_append] at none
    rw [wordsSeparator here, rest, List.append_nil]

theorem wordsBlank {gap : Text} (blank : Blank gap) : words gap = [] := by
  have none := wordsBehind (a := []) blank
  rwa [List.nil_append] at none

theorem wordsInFront {a gap : Text} (blank : Blank gap) : words (gap ++ a) = words a := by
  induction gap with
  | nil => rfl
  | cons c r ih =>
    obtain ⟨here, more⟩ := List.forall_mem_cons.mp blank
    have drop := wordsSeparator here [] (r ++ a)
    rw [ih more] at drop
    exact drop

theorem wordsSolid {w : Text} (solid : Solid w) : words w = [w] := by
  simp [words, splitRun solid.plain, solid.nonempty]

theorem wordSolid {t w : Text} (member : w ∈ words t) : Solid w := by
  obtain ⟨inside, some'⟩ := List.mem_filter.mp member
  exact ⟨by simpa using some', pieceUnparted inside⟩

theorem wordsPair {v w : Text} (first : Solid v) (second : Solid w) :
    words (v ++ ' ' :: w) = [v, w] := by
  rw [wordsSeparator rfl, wordsSolid first, wordsSolid second, List.singleton_append]

theorem wordsLoose {a b : Text} (loose : a.getLast?.all isBlank = true ∨ b.head?.all isBlank = true) :
    words (a ++ b) = words a ++ words b := by
  rcases loose with ends | begins
  · rcases List.eq_nil_or_concat a with rfl | ⟨front, c, rfl⟩
    · rfl
    · rw [List.concat_eq_append, List.getLast?_concat] at ends
      have behind := wordsSeparator ends front []
      have none : words [] = [] := rfl
      rw [List.concat_eq_append, List.append_assoc, List.singleton_append, wordsSeparator ends,
        behind, none, List.append_nil]
  · cases b with
    | nil =>
      have none : words [] = [] := rfl
      rw [List.append_nil, none, List.append_nil]
    | cons c r =>
      have more := wordsSeparator begins [] r
      have none : words [] = [] := rfl
      rw [List.nil_append, none, List.nil_append] at more
      rw [wordsSeparator begins, more]

theorem joinCons (separator w next : Text) (more : List Text) :
    joinWith separator (w :: next :: more) =
      w ++ (separator ++ joinWith separator (next :: more)) := by
  rw [joinWith, List.append_assoc]
  exact List.cons_ne_nil next more

theorem joinedBegins (separator : Text) (c : Char) (w : Text) (more : List Text) :
    ∃ rest, joinWith separator ((c :: w) :: more) = c :: rest := by
  cases more with
  | nil => exact ⟨w, rfl⟩
  | cons next others => exact ⟨_, joinCons _ _ _ _⟩

theorem joinedAppend {front back : List Text} (first : front ≠ []) (second : back ≠ [])
    (separator : Text) : joinWith separator (front ++ back) =
      joinWith separator front ++ (separator ++ joinWith separator back) := by
  induction front with
  | nil => exact absurd rfl first
  | cons w rest ih =>
    cases rest with
    | nil =>
      obtain ⟨next, more, rfl⟩ := List.exists_cons_of_ne_nil second
      exact joinCons separator w next more
    | cons next more =>
      rw [List.cons_append, List.cons_append, joinCons, ← List.cons_append, ih (List.cons_ne_nil _ _),
        joinCons, List.append_assoc, List.append_assoc]

theorem joinedLast (separator : Text) (front : List Text) (w back : Text) :
    joinWith separator (front ++ [w ++ back]) = joinWith separator (front ++ [w]) ++ back := by
  by_cases none : front = []
  · subst none
    rfl
  · rw [joinedAppend none (List.cons_ne_nil _ _), joinedAppend none (List.cons_ne_nil _ _)]
    simp [joinWith]

theorem wordsJoined {ws : List Text} (solid : ∀ w ∈ ws, Solid w) :
    words (joinWith [' '] ws) = ws := by
  induction ws with
  | nil => rfl
  | cons w rest ih =>
    obtain ⟨first, others⟩ := List.forall_mem_cons.mp solid
    cases rest with
    | nil => exact wordsSolid first
    | cons next more =>
      rw [joinCons, List.singleton_append, wordsSeparator rfl, wordsSolid first, ih others,
        List.singleton_append]

theorem joinedInfix {ws : List Text} {w : Text} (member : w ∈ ws) : w <:+: joinWith [' '] ws := by
  induction ws with
  | nil => cases member
  | cons first rest ih =>
    cases rest with
    | nil =>
      obtain rfl := List.mem_singleton.mp member
      exact List.infix_rfl
    | cons next more =>
      rw [joinCons]
      rcases List.mem_cons.mp member with rfl | inside
      · exact (List.prefix_append w _).isInfix
      · rw [← List.append_assoc]
        exact (ih inside).trans (List.suffix_append _ _).isInfix

theorem joinedLacks {ws : List Text} {separator : Text} {mark : Char} (outside : mark ∉ separator)
    (lacks : ∀ w ∈ ws, mark ∉ w) : mark ∉ joinWith separator ws := by
  induction ws with
  | nil => exact List.not_mem_nil
  | cons w rest ih =>
    obtain ⟨first, others⟩ := List.forall_mem_cons.mp lacks
    cases rest with
    | nil => exact first
    | cons next more =>
      rw [joinCons, List.mem_append, List.mem_append, not_or, not_or]
      exact ⟨first, outside, ih others⟩

theorem infixFound {part t : Text} : hasInfix part t = true ↔ part <:+: t := by
  induction t with
  | nil => rw [hasInfix, List.isEmpty_iff, List.infix_nil]
  | cons c r ih =>
    rw [hasInfix, Bool.or_eq_true, List.isPrefixOf_iff_prefix, ih, List.infix_cons_iff]

theorem infixAbsent {part t : Text} : hasInfix part t = false ↔ ¬part <:+: t := by
  rw [Bool.eq_false_iff, ne_eq, infixFound]

theorem prefixBreak {word a b : Text} {c : Char} (absent : c ∉ word) :
    word <+: a ++ c :: b ↔ word <+: a := by
  constructor
  · intro begins
    have through : a ++ [c] <+: a ++ c :: b := ⟨b, by simp⟩
    rcases Nat.lt_or_ge a.length word.length with longer | within
    · have inside := List.prefix_of_prefix_length_le through begins (by rwa [List.length_append])
      exact absurd (inside.subset (by simp)) absent
    · exact List.prefix_of_prefix_length_le begins (List.prefix_append a (c :: b)) within
  · exact fun begins => begins.trans (List.prefix_append a (c :: b))

theorem infixBreak {part a b : Text} {c : Char} (absent : c ∉ part) (some' : part ≠ []) :
    part <:+: a ++ c :: b ↔ part <:+: a ∨ part <:+: b := by
  induction a with
  | nil =>
    have other : ¬part <+: c :: b := by
      rw [← List.nil_append (c :: b), prefixBreak absent, List.prefix_nil]
      exact some'
    rw [List.nil_append, List.infix_cons_iff, List.infix_nil]
    simp only [other, some', false_or]
  | cons d r ih =>
    rw [List.cons_append, List.infix_cons_iff, List.infix_cons_iff, ih, ← List.cons_append,
      prefixBreak absent, or_assoc]

theorem joinedPart {part : Text} (absent : ' ' ∉ part) (some' : part ≠ []) (ws : List Text) :
    part <:+: joinWith [' '] ws ↔ ∃ w ∈ ws, part <:+: w := by
  induction ws with
  | nil => simp [joinWith, some']
  | cons w rest ih =>
    cases rest with
    | nil => simp [joinWith]
    | cons next more =>
      rw [joinCons, List.singleton_append, infixBreak absent some', ih]
      simp

/-! Lines. -/

def dropReturn (line : Text) : Text :=
  if line.getLast? = some '\r' then line.dropLast else line

theorem dropReturnCons {c d : Char} {r : Text} :
    dropReturn (c :: d :: r) = c :: dropReturn (d :: r) := by
  unfold dropReturn
  rw [List.getLast?_cons_cons]
  split <;> rfl

theorem returnedCases (line : Text) :
    dropReturn line = line ∨ ∃ front, line = front ++ ['\r'] ∧ dropReturn line = front := by
  unfold dropReturn
  split
  · rename_i last
    obtain ⟨front, rfl⟩ := List.getLast?_eq_some_iff.mp last
    exact .inr ⟨front, rfl, List.dropLast_concat⟩
  · exact .inl rfl

theorem returnedPrefix (line : Text) : dropReturn line <+: line := by
  rcases returnedCases line with same | ⟨front, rfl, same⟩
  · exact ⟨[], by rw [same, List.append_nil]⟩
  · rw [same]
    exact List.prefix_append front ['\r']

theorem returnedKeeps {w : Text} (last : w.getLast? ≠ some '\r') (rest : Text) :
    w <+: dropReturn (w ++ rest) := by
  rcases returnedCases (w ++ rest) with same | ⟨front, shape, same⟩
  · rw [same]
    exact List.prefix_append w rest
  · have begun : w <+: front ++ ['\r'] := shape ▸ List.prefix_append w rest
    rw [same]
    rcases List.prefix_concat_iff.mp begun with rfl | inside
    · exact absurd List.getLast?_concat last
    · exact inside

theorem returnedLast (front : Text) (c : Char) :
    dropReturn (front ++ [c]) = if c = '\r' then front else front ++ [c] := by
  simp only [dropReturn, List.getLast?_concat, List.dropLast_concat, Option.some_inj]

theorem returnedMark {c : Char} (other : c ≠ '\r') (row rest : Text) :
    dropReturn (row ++ c :: rest) = row ++ c :: dropReturn rest := by
  rcases List.eq_nil_or_concat rest with rfl | ⟨front, d, rfl⟩
  · exact (returnedLast row c).trans (if_neg other)
  · rw [List.concat_eq_append, ← List.cons_append, ← List.append_assoc, returnedLast, returnedLast]
    split <;> simp

theorem lineEnded {line : Text} (whole : '\n' ∉ line) (rest : Text) :
    lines (line ++ '\n' :: rest) = dropReturn line :: lines rest := by
  induction line with
  | nil => simp [lines, dropReturn]
  | cons c r ih =>
    rw [List.mem_cons, not_or] at whole
    have inner := ih whole.2
    have other : (c == '\n') = false := beq_false_of_ne fun same => whole.1 same.symm
    cases r with
    | nil =>
      by_cases back : c = '\r'
      · subst back
        simp [lines, dropReturn]
      · simp [lines, dropReturn, other, back, consHead]
    | cons d s =>
      rw [List.cons_append, lines]
      · simp only [other, inner, dropReturnCons]
        rfl
      · rintro rest' rfl same
        rw [List.cons_append] at same
        obtain ⟨rfl, -⟩ := List.cons.inj same
        exact whole.2 List.mem_cons_self

theorem lineLast {line : Text} (whole : '\n' ∉ line) (some' : line ≠ []) : lines line = [line] := by
  induction line with
  | nil => exact absurd rfl some'
  | cons c r ih =>
    rw [List.mem_cons, not_or] at whole
    have other : (c == '\n') = false := beq_false_of_ne fun same => whole.1 same.symm
    rw [lines]
    · cases r with
      | nil => simp [lines, other, consHead]
      | cons d s => simp [other, ih whole.2 (List.cons_ne_nil d s), consHead]
    · rintro rest rfl rfl
      exact whole.2 List.mem_cons_self

theorem linesWhole (t : Text) : ∀ line ∈ lines t, '\n' ∉ line := by
  fun_induction lines t with
  | case1 => exact List.forall_mem_nil _
  | case2 r ih => exact List.forall_mem_cons.mpr ⟨List.not_mem_nil, ih⟩
  | case3 c r _ ended ih => exact List.forall_mem_cons.mpr ⟨List.not_mem_nil, ih⟩
  | case4 c r _ other ih =>
    have differ : '\n' ≠ c := fun same => other (beq_iff_eq.mpr same.symm)
    cases found : lines r with
    | nil => exact List.forall_mem_singleton.mpr (by simp [differ])
    | cons piece rest =>
      rw [found] at ih
      obtain ⟨here, others⟩ := List.forall_mem_cons.mp ih
      exact List.forall_mem_cons.mpr ⟨List.not_mem_cons_of_ne_of_not_mem differ here, others⟩

theorem linesAppend (front back : Text) :
    lines (front ++ '\n' :: back) = lines (front ++ ['\n']) ++ lines back := by
  induction front using byPieces (p := (· == '\n')) with
  | last w plain =>
    have whole : '\n' ∉ w := fun member => nomatch plain '\n' member
    rw [lineEnded whole, lineEnded whole]
    rfl
  | next w s rest plain separates ih =>
    obtain rfl := beq_iff_eq.mp separates
    have whole : '\n' ∉ w := fun member => nomatch plain '\n' member
    rw [List.append_assoc, List.append_assoc, List.cons_append, List.cons_append, lineEnded whole,
      lineEnded whole, ih, List.cons_append]

theorem linesJoined {front : List Text} {last : Text} (whole : ∀ line ∈ front, '\n' ∉ line) :
    lines (joinWith ['\n'] (front ++ [last])) = front.map dropReturn ++ lines last := by
  induction front with
  | nil => rfl
  | cons line rest ih =>
    obtain ⟨first, others⟩ := List.forall_mem_cons.mp whole
    rw [List.cons_append, joinWith, List.append_assoc, List.singleton_append, lineEnded first,
      ih others]
    · rfl
    · simp

end ShaderReflection.Text
