import ShaderReflection.Proofs.Glsl.Rendering
/-!
Tokens with blanks around them. Two tokens may touch unless they would grow into one word, so a
text of this shape comes apart at its marks and at its blanks as its tokens do.
-/
namespace ShaderReflection.Glsl
open Text

inductive Token (marks : List Char) : Text → Prop where
  | word {w} (some' : w ≠ []) (chars : ∀ c ∈ w, isWordChar c = true) : Token marks w
  | mark {m} (member : m ∈ marks) (solid : isBlank m = false) : Token marks [m]

def Apart (w text : Text) : Prop := isBoundary w.getLast? = true ∨ isBoundary text.head? = true

inductive Spaced : List Text → Text → Prop where
  | blank {gap} (blank : Blank gap) : Spaced [] gap
  | token {gap w ws text} (blank : Blank gap) (apart : Apart w text) (more : Spaced ws text) :
      Spaced (w :: ws) (gap ++ (w ++ text))

section Tokens
variable {marks : List Char} {w : Text}

theorem identifierToken (identifier : isIdentifier w = true) : Token marks w :=
  .word (identifierNonempty identifier) (identifierChars identifier)

theorem tokenSolid (token : Token marks w) : Solid w := by
  cases token with
  | word some' chars => exact ⟨some', fun c member => wordCharSolid (chars c member)⟩
  | mark member solid => exact ⟨List.cons_ne_nil _ _, List.forall_mem_singleton.mpr solid⟩

theorem tokenLacks (token : Token marks w) {c : Char} (mark : isWordChar c = false)
    (other : c ∉ marks) : c ∉ w := by
  intro inside
  cases token with
  | word some' chars =>
    rw [chars c inside] at mark
    cases mark
  | mark member solid => exact other (List.mem_singleton.mp inside ▸ member)

theorem tokenAmong {others : List Char} (within : marks ⊆ others) (token : Token marks w) :
    Token others w := by
  cases token with
  | word some' chars => exact .word some' chars
  | mark member solid => exact .mark (within member) solid

end Tokens

theorem apartFront {w front back : Text} (apart : Apart w (front ++ back)) : Apart w front := by
  rcases apart with closed | opened
  · exact .inl closed
  · cases front with
    | nil => exact .inr rfl
    | cons c r => exact .inr opened

theorem apartBehind {w front back : Text} (boundary : isBoundary back.head? = true)
    (apart : Apart w front) : Apart w (front ++ back) := by
  rcases apart with closed | opened
  · exact .inl closed
  · cases front with
    | nil => exact .inr boundary
    | cons c r => exact .inr opened

theorem wordOpen {w text : Text} (chars : ∀ c ∈ w, isWordChar c = true)
    (some' : w ≠ []) (apart : Apart w text) : isBoundary text.head? = true := by
  rcases apart with closed | opened
  · obtain ⟨front, c, rfl⟩ := (List.eq_nil_or_concat w).resolve_left some'
    simp [isBoundary, chars c] at closed
  · exact opened

section Texts
variable {ws : List Text} {t : Text}

theorem spacedInFront {gap : Text} (blank : Blank gap) (spaced : Spaced ws t) :
    Spaced ws (gap ++ t) := by
  cases spaced with
  | blank rest => exact .blank (blankAppend blank rest)
  | token rest apart more =>
    rw [← List.append_assoc]
    exact .token (blankAppend blank rest) apart more

theorem spacedAppend {others : List Text} {u : Text} (first : Spaced ws t)
    (second : Spaced others u) : Spaced (ws ++ others) (t ++ ' ' :: u) := by
  induction first with
  | blank gap =>
    have behind : Spaced others ([' '] ++ u) := spacedInFront (by decide) second
    exact spacedInFront gap behind
  | token gap apart more ih =>
    rw [List.append_assoc, List.append_assoc]
    exact .token gap (apartBehind rfl apart) ih

theorem spacedSplit {front back : List Text} {w : Text} (spaced : Spaced (front ++ w :: back) t) :
    ∃ before behind, t = before ++ (w ++ behind) ∧ Spaced front before ∧ Spaced back behind := by
  induction front generalizing t with
  | nil =>
    cases spaced with
    | token gap apart more => exact ⟨_, _, rfl, .blank gap, more⟩
  | cons v rest ih =>
    cases spaced with
    | token gap apart more =>
      obtain ⟨before, behind, rfl, first, second⟩ := ih more
      refine ⟨_ ++ (v ++ before), behind, ?_, .token gap (apartFront apart) first, second⟩
      simp only [List.append_assoc]

theorem spacedLacks {c : Char} (solid : isBlank c = false) (lacks : ∀ w ∈ ws, c ∉ w)
    (spaced : Spaced ws t) : c ∉ t := by
  induction spaced with
  | blank gap => exact blankLacks gap solid
  | token gap apart more ih =>
    obtain ⟨here, others⟩ := List.forall_mem_cons.mp lacks
    rw [List.mem_append, List.mem_append, not_or, not_or]
    exact ⟨blankLacks gap solid, here, ih others⟩

theorem spacedWithout {marks : List Char} (token : ∀ w ∈ ws, Token marks w) {c : Char}
    (mark : isWordChar c = false) (solid : isBlank c = false) (other : c ∉ marks)
    (spaced : Spaced ws t) : c ∉ t :=
  spacedLacks solid (fun w member => tokenLacks (token w member) mark other) spaced

theorem spacedNonempty (some' : ws ≠ []) (solid : ∀ w ∈ ws, Solid w) (spaced : Spaced ws t) :
    t ≠ [] := by
  cases spaced with
  | blank gap => exact absurd rfl some'
  | @token gap w ws text blank apart more =>
    intro empty
    have inside := (List.append_eq_nil_iff.mp empty).2
    exact (solid w List.mem_cons_self).nonempty (List.append_eq_nil_iff.mp inside).1

theorem spacedTrimEnd (solid : ∀ w ∈ ws, Solid w) (spaced : Spaced ws t) :
    Spaced ws (trimEnd isBlank t) := by
  induction spaced with
  | blank gap =>
    have nothing := trimEndBehind gap []
    rw [List.nil_append] at nothing
    rw [nothing]
    exact .blank (List.forall_mem_nil _)
  | @token gap w ws text blank apart more ih =>
    obtain ⟨here, others⟩ := List.forall_mem_cons.mp solid
    obtain ⟨front, c, rfl⟩ := (List.eq_nil_or_concat w).resolve_left here.nonempty
    have kept : trimEnd isBlank (gap ++ (front.concat c ++ text)) =
        gap ++ (front.concat c ++ trimEnd isBlank text) := by
      have last := trimEndAt (here.plain c (by simp)) (gap ++ front) text
      simpa using last
    obtain ⟨rest, whole⟩ := trimEndPrefix isBlank text
    rw [kept]
    exact .token blank (apartFront (whole ▸ apart)) (ih others)

theorem spacedTrim (solid : ∀ w ∈ ws, Solid w) (spaced : Spaced ws t) : Spaced ws (trim t) := by
  refine spacedTrimEnd solid ?_
  cases spaced with
  | blank gap =>
    rw [List.dropWhile_eq_nil_iff.mpr gap]
    exact .blank (List.forall_mem_nil _)
  | @token gap w ws text blank apart more =>
    have here := solid w List.mem_cons_self
    obtain ⟨c, r, rfl⟩ := List.exists_cons_of_ne_nil here.nonempty
    have first := here.plain c List.mem_cons_self
    rw [List.dropWhile_append_of_pos blank, List.cons_append,
      List.dropWhile_cons_of_neg (by simp [first])]
    exact .token (List.forall_mem_nil _) apart more

theorem spacedBlank (token : ∀ w ∈ ws, Token [] w) (spaced : Spaced ws t) {c : Char} {r : Text}
    (shape : t = c :: r) (boundary : isBoundary (some c) = true) : isBlank c = true := by
  cases spaced with
  | blank gap => exact gap c (shape ▸ List.mem_cons_self)
  | @token gap w ws text blank apart more =>
    cases gap with
    | cons d rest =>
      obtain ⟨rfl, -⟩ := List.cons.inj shape
      exact blank d List.mem_cons_self
    | nil =>
      cases token w List.mem_cons_self with
      | mark member => cases member
      | word some' chars =>
        obtain ⟨d, rest, rfl⟩ := List.exists_cons_of_ne_nil some'
        obtain ⟨rfl, -⟩ := List.cons.inj shape
        simp [isBoundary, chars d List.mem_cons_self] at boundary

theorem spacedWords (token : ∀ w ∈ ws, Token [] w) (spaced : Spaced ws t) : words t = ws := by
  induction spaced with
  | blank gap => exact wordsBlank gap
  | @token gap w ws text blank apart more ih =>
    obtain ⟨here, others⟩ := List.forall_mem_cons.mp token
    have rest := ih others
    have first := wordsSolid (tokenSolid here)
    rw [wordsInFront blank]
    cases here with
    | mark member => cases member
    | word some' chars =>
      have boundary := wordOpen chars some' apart
      cases shape : text with
      | nil =>
        rw [shape] at rest
        rw [List.append_nil, first, ← rest]
        rfl
      | cons c r =>
        rw [shape] at rest boundary
        have separates := spacedBlank others more shape boundary
        have behind : words (c :: r) = words r :=
          wordsInFront (List.forall_mem_singleton.mpr separates)
        rw [wordsSeparator separates, first, ← behind, rest, List.singleton_append]

theorem spacedOne {w : Text} (solid : Solid w) (spaced : Spaced [w] t) : trim t = w := by
  cases spaced with
  | token front apart more =>
    cases more with
    | blank back => rw [trimInFront front, trimBehind back, trimSolid solid]

end Texts

end ShaderReflection.Glsl
