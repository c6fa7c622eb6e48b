import ShaderReflection.Proofs.Glsl.Rendering
/-!
Where the tokens of a line stand. Apart from semicolons, a token begins at the start of the line or
behind a blank, and it ends in front of a blank, of a comment or at the end. Whatever stands so is
a token, and the tokens before and behind it are those of the text on either side.
-/
namespace ShaderReflection.Glsl
open Text

def Semicolons (t : Text) : Prop := ∀ c ∈ t, (c == ';') = true

theorem oneSemicolon : Semicolons [';'] := List.forall_mem_singleton.mpr rfl

def opens (front : Text) : Bool := (trimEnd (· == ';') front).getLast?.all isBlank

def closes (back : Text) : Bool :=
  let rest := back.dropWhile (· == ';')
  rest.head?.all isBlank || opensComment rest

theorem tokensSeparator {b : Char} (blank : isBlank b = true) (x y : Text) :
    tokens (x ++ b :: y) = tokens x ++ tokens y := by
  rw [tokens, wordsSeparator blank, List.flatMap_append, List.map_append, List.filter_append,
    tokens, tokens]

theorem tokensPiece {w : Text} (clean : Uncommented w) (solid : ∀ c ∈ w, isBlank c = false) :
    tokens w = tokensOf [w] := by
  rw [tokensUncommented clean]
  by_cases none : w = []
  · rw [none]
    rfl
  · rw [wordsSolid ⟨none, solid⟩]

theorem pieceCases (w : Text) : tokensOf [w] = [] ∧ Semicolons w ∨
    ∃ front token back, w = front ++ (token ++ back) ∧ tokensOf [w] = [token] ∧
      Semicolons front ∧ Semicolons back := by
  obtain ⟨front, back, shape, before, behind⟩ := trimBothParts (· == ';') w
  by_cases none : trimBoth (· == ';') w = []
  · refine .inl ⟨by simp [tokensOf, none], ?_⟩
    rw [none, List.nil_append] at shape
    rw [shape]
    exact List.forall_mem_append.mpr ⟨before, behind⟩
  · exact .inr ⟨front, _, back, shape, by simp [tokensOf, none], before, behind⟩

section Semicolons
variable {s : Text} (only : Semicolons s)
include only

theorem semicolonsSolid : ∀ c ∈ s, isBlank c = false := fun c member => by
  rw [beq_iff_eq.mp (only c member)]
  rfl

theorem semicolonsLack {c : Char} (other : c ≠ ';') : c ∉ s :=
  fun member => other (beq_iff_eq.mp (only c member))

theorem semicolonsGone : tokens s = [] := by
  have clean := uncommentedWithout (semicolonsLack only (by decide : '/' ≠ ';'))
  have trimmed : trimBoth (· == ';') s = [] := by
    have gone := trimBothBehind only []
    rwa [List.nil_append] at gone
  rw [tokensPiece clean (semicolonsSolid only)]
  simp [tokensOf, trimmed]

theorem closesBehind (x : Text) : closes (s ++ x) = closes x := by
  unfold closes
  rw [List.dropWhile_append_of_pos only]

theorem opensOnly : opens s = true := by
  have gone := trimEndBehind only []
  rw [List.nil_append] at gone
  rw [opens, gone]
  rfl

theorem closesOnly : closes s = true := by
  have same := closesBehind only []
  rw [List.append_nil] at same
  rw [same]
  rfl

end Semicolons

theorem opensMark {m : Char} (mark : m ≠ ';') (x y : Text) : opens (x ++ m :: y) = opens (m :: y) := by
  have kept (front : Text) : trimEnd (· == ';') (front ++ m :: y) =
      front ++ m :: trimEnd (· == ';') y :=
    trimEndAt (p := (· == ';')) (beq_false_of_ne mark) front y
  have bare := kept []
  rw [List.nil_append, List.nil_append] at bare
  rw [opens, kept, opens, bare, List.getLast?_append, List.getLast?_cons, Option.some_or]

theorem blankMark {b : Char} (blank : isBlank b = true) : b ≠ ';' := by
  rintro rfl
  cases blank

theorem opensBlank {b : Char} (blank : isBlank b = true) (x y : Text) :
    opens (x ++ b :: y) = opens y := by
  have bare : trimEnd (· == ';') (b :: y) = b :: trimEnd (· == ';') y :=
    trimEndAt (p := (· == ';')) (beq_false_of_ne (blankMark blank)) [] y
  rw [opensMark (blankMark blank), opens, bare, List.getLast?_cons, opens]
  cases (trimEnd (· == ';') y).getLast? with
  | none => simp [blank]
  | some c => rfl

theorem opensCases {a : Text} (begins : opens a = true) :
    Semicolons a ∨ ∃ x b s, a = x ++ b :: s ∧ isBlank b = true ∧ Semicolons s := by
  obtain ⟨s, shape, only⟩ := trimEndParts (· == ';') a
  rcases List.eq_nil_or_concat (trimEnd (· == ';') a) with none | ⟨x, b, last⟩
  · rw [none, List.nil_append] at shape
    exact .inl (shape ▸ only)
  · rw [opens, last, List.concat_eq_append, List.getLast?_concat] at begins
    rw [last, List.concat_eq_append, List.append_assoc] at shape
    exact .inr ⟨x, b, s, shape, begins, only⟩

theorem closesBlank {b : Char} (blank : isBlank b = true) (y : Text) : closes (b :: y) = true := by
  have mark : (b == ';') = false := beq_false_of_ne (blankMark blank)
  simp [closes, mark, blank]

theorem closesCases {z : Text} (ends : closes z = true) : Semicolons z ∨
    (∃ s b y, z = s ++ b :: y ∧ Semicolons s ∧ isBlank b = true) ∨
    ∃ s y, z = s ++ '/' :: '/' :: y ∧ Semicolons s := by
  have shape := List.takeWhile_append_dropWhile (p := (· == ';')) (l := z)
  have only : Semicolons (z.takeWhile (· == ';')) := fun _ member =>
    List.mem_takeWhile_imp (p := (· == ';')) member
  rw [closes, Bool.or_eq_true] at ends
  rcases ends with blank | comment
  · cases rest : z.dropWhile (· == ';') with
    | nil =>
      rw [rest, List.append_nil] at shape
      exact .inl (shape ▸ only)
    | cons b y =>
      rw [rest] at blank shape
      exact .inr (.inl ⟨_, b, y, shape.symm, only, blank⟩)
  · obtain ⟨y, rest⟩ := List.isPrefixOf_iff_prefix.mp comment
    rw [← rest] at shape
    exact .inr (.inr ⟨_, y, shape.symm, only⟩)

theorem closesComment {s : Text} (only : Semicolons s) (y : Text) :
    closes (s ++ '/' :: '/' :: y) = true := by
  rw [closesBehind only]
  rfl

theorem tokenAlone {w s s' : Text} (clean : Uncommented (s ++ (w ++ s'))) (solid : Solid w)
    (whole : trimBoth (· == ';') w = w) (only : Semicolons s) (only' : Semicolons s') :
    tokens (s ++ (w ++ s')) = [w] := by
  have plain : ∀ c ∈ s ++ (w ++ s'), isBlank c = false :=
    List.forall_mem_append.mpr ⟨semicolonsSolid only,
      List.forall_mem_append.mpr ⟨solid.plain, semicolonsSolid only'⟩⟩
  rw [tokensPiece clean plain]
  simp [tokensOf, trimBothInFront only, trimBothBehind only', whole, solid.nonempty]

theorem tokenBehind {w s z : Text} (clean : Uncommented (s ++ (w ++ z))) (solid : Solid w)
    (whole : trimBoth (· == ';') w = w) (only : Semicolons s) (ends : closes z = true) :
    tokens (s ++ (w ++ z)) = w :: tokens z := by
  have later : Uncommented z := uncommentedPart clean
    ((List.suffix_append w z).trans (List.suffix_append s _)).isInfix
  rcases closesCases ends with only' | ⟨s', b, y, rfl, only', blank⟩ | ⟨s', y, rfl, -⟩
  · rw [tokenAlone clean solid whole only only', semicolonsGone only']
  · have front : s ++ (w ++ (s' ++ b :: y)) = (s ++ (w ++ s')) ++ b :: y := by simp
    rw [front] at clean ⊢
    rw [tokensSeparator blank, tokenAlone (uncommentedSides clean).1 solid whole only only',
      tokensSeparator blank, semicolonsGone only', List.singleton_append, List.nil_append]
  · exact absurd ((List.prefix_append ['/', '/'] y).isInfix.trans
      (List.suffix_append s' _).isInfix) later

theorem tokensJoined {a w z : Text} (clean : Uncommented (a ++ (w ++ z))) (solid : Solid w)
    (whole : trimBoth (· == ';') w = w) (begins : opens a = true) (ends : closes z = true) :
    tokens (a ++ (w ++ z)) = tokens a ++ w :: tokens z := by
  rcases opensCases begins with only | ⟨x, b, s, rfl, blank, only⟩
  · rw [tokenBehind clean solid whole only ends, semicolonsGone only, List.nil_append]
  · rw [List.append_assoc, List.cons_append] at clean ⊢
    rw [tokensSeparator blank, tokenBehind (uncommentedSides clean).2 solid whole only ends,
      tokensSeparator blank, semicolonsGone only, List.append_nil]

theorem tokensPlaced {t w : Text} {front back : List Text} (clean : Uncommented t)
    (shape : tokens t = front ++ w :: back) :
    ∃ a z, t = a ++ (w ++ z) ∧ opens a = true ∧ closes z = true ∧ tokens a = front ∧
      tokens z = back := by
  induction t using byPieces (p := isBlank) generalizing front with
  | last piece solid =>
    rw [tokensPiece clean solid] at shape
    rcases pieceCases piece with ⟨none, -⟩ | ⟨s, token, s', rfl, one, only, only'⟩
    · simp [none] at shape
    · rw [one] at shape
      rcases List.append_eq_singleton_iff.mp shape.symm with ⟨rfl, same⟩ | ⟨-, none⟩
      · obtain ⟨rfl, rfl⟩ := List.cons.inj same
        exact ⟨s, s', rfl, opensOnly only, closesOnly only', semicolonsGone only,
          semicolonsGone only'⟩
      · cases none
  | next piece b rest solid blank ih =>
    obtain ⟨first, later⟩ := uncommentedSides clean
    rw [tokensSeparator blank, tokensPiece first solid] at shape
    -- The token is the one of the first piece, or one of the rest.
    have further {front' : List Text} (inner : tokens rest = front' ++ w :: back)
        (before : tokens piece ++ front' = front) : ∃ a z, piece ++ b :: rest = a ++ (w ++ z) ∧
        opens a = true ∧ closes z = true ∧ tokens a = front ∧ tokens z = back := by
      obtain ⟨a, z, rfl, begins, ends, tokensBefore, tokensBehind⟩ := ih later inner
      refine ⟨piece ++ b :: a, z, by simp, ?_, ends, ?_, tokensBehind⟩
      · rw [opensBlank blank, begins]
      · rw [tokensSeparator blank, tokensBefore, before]
    rcases pieceCases piece with ⟨none, -⟩ | ⟨s, token, s', rfl, one, only, only'⟩
    · rw [none, List.nil_append] at shape
      exact further shape (by rw [tokensPiece first solid, none, List.nil_append])
    · rw [one, List.singleton_append] at shape
      rcases List.cons_eq_append_iff.mp shape with ⟨rfl, same⟩ | ⟨front', rfl, inner⟩
      · obtain ⟨rfl, behind⟩ := List.cons.inj same
        refine ⟨s, s' ++ b :: rest, by simp, opensOnly only, ?_, semicolonsGone only, ?_⟩
        · rw [closesBehind only', closesBlank blank]
        · rw [tokensSeparator blank, semicolonsGone only', List.nil_append, behind]
      · exact further inner (by rw [tokensPiece first solid, one, List.singleton_append])

def Filler (g : Text) : Prop := ∀ c ∈ g, isBlank c = true ∨ c = ';'

theorem fillerSemicolons {g : Text} (filler : Filler g) (solid : ∀ c ∈ g, isBlank c = false) :
    Semicolons g := fun c member => by
  have blank := filler c member
  rw [solid c member] at blank
  exact beq_iff_eq.mpr (blank.resolve_left nofun)

theorem fillerGone {g : Text} (filler : Filler g) : tokens g = [] := by
  induction g using byPieces (p := isBlank) with
  | last w solid => exact semicolonsGone (fillerSemicolons filler solid)
  | next w b rest solid blank ih =>
    obtain ⟨first, others⟩ := List.forall_mem_append.mp filler
    rw [tokensSeparator blank, semicolonsGone (fillerSemicolons first solid),
      ih (List.forall_mem_cons.mp others).2, List.append_nil]

theorem fillerBetween {t : Text} (clean : Uncommented t) (none : tokens t = []) : Filler t := by
  have piece {w : Text} (clean : Uncommented w) (solid : ∀ c ∈ w, isBlank c = false)
      (none : tokens w = []) : Filler w := by
    rw [tokensPiece clean solid] at none
    rcases pieceCases w with ⟨-, only⟩ | ⟨_, token, _, -, one, -⟩
    · exact fun c member => .inr (beq_iff_eq.mp (only c member))
    · rw [one] at none
      cases none
  induction t using byPieces (p := isBlank) with
  | last w solid => exact piece clean solid none
  | next w b rest solid blank ih =>
    rw [tokensSeparator blank, List.append_eq_nil_iff] at none
    obtain ⟨first, later⟩ := uncommentedSides clean
    exact List.forall_mem_append.mpr ⟨piece first solid none.1,
      List.forall_mem_cons.mpr ⟨.inl blank, ih later none.2⟩⟩

theorem fillerOpens {g : Text} (filler : Filler g) : opens g = true := by
  induction g using List.reverseRecOn with
  | nil => rfl
  | append_singleton front c ih =>
    obtain ⟨before, last⟩ := List.forall_mem_append.mp filler
    rcases List.forall_mem_singleton.mp last with blank | rfl
    · rw [opensBlank blank]
      rfl
    · rw [opens, trimEndBehind oneSemicolon]
      exact ih before

theorem fillerCloses {g : Text} (filler : Filler g) (parts : ∃ c ∈ g, isBlank c = true) (x : Text) :
    closes (g ++ x) = true := by
  induction g with
  | nil => simp at parts
  | cons c r ih =>
    obtain ⟨first, others⟩ := List.forall_mem_cons.mp filler
    by_cases blank : isBlank c = true
    · exact closesBlank blank (r ++ x)
    · obtain rfl := first.resolve_left blank
      obtain ⟨b, member, apart⟩ := parts
      have later : b ∈ r := (List.mem_cons.mp member).resolve_left fun same => blank (same ▸ apart)
      exact (closesBehind oneSemicolon (r ++ x)).trans (ih others ⟨b, later, apart⟩)

end ShaderReflection.Glsl
