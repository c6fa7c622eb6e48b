import ShaderReflection.Proofs.Json.Written
/-!
A reader that has come to the end of a value has looked at nothing behind it, unless the value is a
number. So a text that is followed by more is read as it is read alone.
-/
namespace ShaderReflection.Json

def Cursor.followed (c : Cursor) (more : Text) : Cursor := ⟨c.place, c.rest ++ more⟩

def Node.IsNumber : Node → Prop
  | .number _ _ _ => True
  | _ => False

theorem runFollowed {p : Char → Bool} {t : Text} (some' : t.dropWhile p ≠ []) (more : Text) :
    (t ++ more).takeWhile p = t.takeWhile p ∧ (t ++ more).dropWhile p = t.dropWhile p ++ more := by
  induction t with
  | nil => exact absurd rfl some'
  | cons c r ih =>
    rw [List.cons_append]
    cases within : p c with
    | true =>
      rw [List.dropWhile_cons_of_pos within] at some'
      obtain ⟨taken, left⟩ := ih some'
      rw [List.takeWhile_cons_of_pos within, List.takeWhile_cons_of_pos within,
        List.dropWhile_cons_of_pos within, List.dropWhile_cons_of_pos within, taken, left]
      exact ⟨rfl, rfl⟩
    | false => simp [within]

theorem skipFollowed {c : Cursor} (some' : c.skipSpace.rest ≠ []) (more : Text) :
    (c.followed more).skipSpace = c.skipSpace.followed more := by
  obtain ⟨taken, left⟩ := runFollowed some' more
  simp only [Cursor.skipSpace, Cursor.followed, taken, left]

theorem skipNonempty {c : Cursor} (some' : c.skipSpace.rest ≠ []) : c.rest ≠ [] := by
  intro empty
  exact some' (by simp [Cursor.skipSpace, empty])

theorem lettersFollowed {letters : Text} {c next : Cursor} (more : Text)
    (read : afterLetters letters c = .ok next) :
    afterLetters letters (c.followed more) = .ok (next.followed more) := by
  induction letters generalizing c with
  | nil =>
    cases read
    rfl
  | cons letter rest ih =>
    obtain ⟨place, text⟩ := c
    cases text with
    | nil => simp [afterLetters] at read
    | cons d r =>
      by_cases same : d = letter
      · simp only [afterLetters, same, beq_self_eq_true, if_true] at read
        simpa [afterLetters, same, Cursor.followed] using ih read
      · simp [afterLetters, same] at read

theorem digitsFollowed {c : Cursor} (some' : c.pastDigits.2.rest ≠ []) (more : Text) :
    (c.followed more).pastDigits = (c.pastDigits.1, c.pastDigits.2.followed more) := by
  obtain ⟨taken, left⟩ := runFollowed some' more
  simp only [Cursor.pastDigits, Cursor.followed, taken, left]

section Parts
variable {c next : Cursor} (more : Text)

theorem wholeFollowed {digits : Text} (read : wholePart c = .ok (digits, next))
    (some' : next.rest ≠ []) :
    wholePart (c.followed more) = .ok (digits, next.followed more) := by
  obtain ⟨place, text⟩ := c
  cases text with
  | nil => simp [wholePart] at read
  | cons d r =>
    by_cases zero : d = '0'
    · subst zero
      simp only [wholePart] at read
      split at read
      · cases read
      · rename_i single
        cases read
        obtain ⟨e, s, rfl⟩ := List.exists_cons_of_ne_nil some'
        have other : isDigit e = false := by simpa using single
        simp [wholePart, Cursor.followed, other]
    · by_cases digit : isDigit d = true
      · simp only [wholePart, digit, if_true, Except.ok.injEq] at read
        have past := digitsFollowed (c := ⟨place, d :: r⟩) (by rw [read]; exact some') more
        rw [read] at past
        simpa [wholePart, Cursor.followed, digit] using past
      · simp [wholePart, digit] at read

theorem fractionFollowed {digits : Option Text} (read : fractionPart c = .ok (digits, next))
    (some' : next.rest ≠ []) :
    fractionPart (c.followed more) = .ok (digits, next.followed more) := by
  obtain ⟨place, text⟩ := c
  cases text with
  | nil =>
    cases read
    exact absurd rfl some'
  | cons d r =>
    by_cases point : d = '.'
    · subst point
      simp only [fractionPart] at read
      split at read
      · rename_i digits'
        cases read
        have past := digitsFollowed (c := ⟨place + 1, r⟩) some' more
        simp only [Cursor.followed] at past
        simp [fractionPart, Cursor.followed, past, digits']
      · split at read <;> cases read
    · simp [fractionPart, point] at read
      obtain ⟨rfl, rfl⟩ := read
      simp [fractionPart, Cursor.followed, point]

theorem signFollowed (some' : (exponentSign c).2.rest ≠ []) :
    exponentSign (c.followed more) = ((exponentSign c).1, (exponentSign c).2.followed more) := by
  obtain ⟨place, text⟩ := c
  cases text with
  | nil => exact absurd rfl some'
  | cons d r =>
    by_cases plus : d = '+'
    · subst plus
      rfl
    · by_cases minus : d = '-'
      · subst minus
        rfl
      · simp [exponentSign, Cursor.followed, plus, minus]

theorem exponentFollowed {digits : Option (Bool × Text)} (read : exponentPart c = .ok (digits, next))
    (some' : next.rest ≠ []) :
    exponentPart (c.followed more) = .ok (digits, next.followed more) := by
  obtain ⟨place, text⟩ := c
  cases text with
  | nil =>
    cases read
    exact absurd rfl some'
  | cons d r =>
    by_cases mark : (d == 'e' || d == 'E') = true
    · simp only [exponentPart, mark, if_true] at read
      split at read
      · rename_i digits'
        cases read
        have behind : (exponentSign ⟨place + 1, r⟩).2.rest ≠ [] := by
          intro empty
          exact some' (by simp [Cursor.pastDigits, empty])
        have sign := signFollowed (c := ⟨place + 1, r⟩) more behind
        have past := digitsFollowed some' more
        simp only [Cursor.followed] at sign past
        simp [exponentPart, Cursor.followed, mark, sign, past, digits']
      · split at read <;> cases read
    · simp only [exponentPart, mark, Bool.false_eq_true, if_false, Except.ok.injEq,
        Prod.mk.injEq] at read
      obtain ⟨rfl, rfl⟩ := read
      simp [exponentPart, Cursor.followed, mark]

theorem fractionLeft {digits : Option Text} (read : fractionPart c = .ok (digits, next))
    (some' : next.rest ≠ []) : c.rest ≠ [] := by
  obtain ⟨place, text⟩ := c
  rintro rfl
  cases read
  exact some' rfl

theorem exponentLeft {digits : Option (Bool × Text)} (read : exponentPart c = .ok (digits, next))
    (some' : next.rest ≠ []) : c.rest ≠ [] := by
  obtain ⟨place, text⟩ := c
  rintro rfl
  cases read
  exact some' rfl

theorem numeralFollowed {negative : Bool} {x : Numeral} (read : numeral negative c = .ok (x, next))
    (some' : next.rest ≠ []) :
    numeral negative (c.followed more) = .ok (x, next.followed more) := by
  simp only [numeral, bind, Except.bind, pure, Except.pure] at read ⊢
  cases whole : wholePart c with
  | error b => simp [whole] at read
  | ok w =>
    obtain ⟨digits, first⟩ := w
    cases fraction : fractionPart first with
    | error b => simp [whole, fraction] at read
    | ok f =>
      obtain ⟨places, second⟩ := f
      cases exponent : exponentPart second with
      | error b => simp [whole, fraction, exponent] at read
      | ok e =>
        obtain ⟨power, last⟩ := e
        simp only [whole, fraction, exponent, Except.ok.injEq, Prod.mk.injEq] at read
        obtain ⟨rfl, rfl⟩ := read
        have before := exponentLeft exponent some'
        have start := fractionLeft fraction before
        simp [wholeFollowed more whole start, fractionFollowed more fraction before,
          exponentFollowed more exponent some']

end Parts

theorem numberFollowed {c next : Cursor} {node : Node} (read : numberNode c = (node, next))
    (means : node.tree?.isSome = true) (some' : next.rest ≠ []) (more : Text) :
    numberNode (c.followed more) = (node, next.followed more) := by
  obtain ⟨place, text⟩ := c
  cases text with
  | nil =>
    cases read
    simp [Node.tree?] at means
  | cons d r =>
    have sign : (Cursor.followed ⟨place, d :: r⟩ more).rest.head? = (d :: r).head? := rfl
    simp only [numberNode] at read ⊢
    rw [sign]
    generalize inside : (if ((d :: r).head? == some '-') = true then
      (⟨place + 1, (d :: r).drop 1⟩ : Cursor) else ⟨place, d :: r⟩) = c at read
    have same : (if ((d :: r).head? == some '-') = true then
        (⟨(Cursor.followed ⟨place, d :: r⟩ more).place + 1,
          (Cursor.followed ⟨place, d :: r⟩ more).rest.drop 1⟩ : Cursor)
        else Cursor.followed ⟨place, d :: r⟩ more) = c.followed more := by
      rw [← inside]
      split <;> rfl
    rw [same]
    cases found : numeral ((d :: r).head? == some '-') c with
    | error b =>
      rw [found] at read
      cases read
      simp [Node.tree?] at means
    | ok x =>
      obtain ⟨x, last⟩ := x
      rw [found] at read
      dsimp only at read
      cases value : x.value? with
      | none =>
        simp only [value, Prod.mk.injEq] at read
        obtain ⟨rfl, rfl⟩ := read
        rw [numeralFollowed more found some']
        simp [value, Cursor.followed]
      | some v =>
        simp only [value, Prod.mk.injEq] at read
        obtain ⟨rfl, rfl⟩ := read
        rw [numeralFollowed more found some']
        simp [value, Cursor.followed]

theorem piecesFollowed {place : Nat} {t : Text} {marks : List Piece} {next : Cursor}
    (read : pieces place t = (marks, .closed next)) (more : Text) :
    pieces place (t ++ more) = (marks, .closed (next.followed more)) := by
  fun_induction pieces place t generalizing marks with
  | case1 place => cases read
  | case2 place r =>
    cases read
    rfl
  | case3 place a b c d r bad => cases read
  | case4 place a b c d r n unit ih =>
    simp only [Prod.mk.injEq] at read
    have inner := ih (Prod.ext rfl read.2)
    simp [pieces, unit, inner, read.1]
  | case5 => cases read
  | case6 => cases read
  | case7 => cases read
  | case8 => cases read
  | case9 place e r short long c letter ih =>
    obtain ⟨rfl, closed⟩ := Prod.mk.inj read
    have inner := ih (Prod.ext rfl closed)
    rw [List.cons_append, List.cons_append, pieces]
    · simp [letter, inner]
    all_goals simp_all
  | case10 => cases read
  | case11 place c r quote short cut lone slash printing next' =>
    rename_i ih
    obtain ⟨rfl, closed⟩ := Prod.mk.inj read
    have inner := ih (Prod.ext rfl closed)
    have other : c ≠ '\\' := by
      rintro rfl
      cases r with
      | nil => exact lone rfl rfl
      | cons e s => exact slash e s rfl rfl
    rw [List.cons_append, pieces]
    · rw [if_neg printing]
      exact Prod.ext (congrArg (Piece.plain c next' :: ·.1) inner) (congrArg (·.2) inner)
    all_goals simp_all

theorem joinedClosed (a b : Cursor) (marks : List Piece) :
    joinPieces (.closed a) marks = joinPieces (.closed b) marks := by
  fun_induction joinPieces (.closed a) marks with
  | case1 => rfl
  | case2 fault found => cases found
  | case3 c stop rest ih | case4 c stop rest ih => rw [joinPieces, ih]
  | case5 n stop rest low =>
    cases rest with
    | nil => simp [joinPieces, low]
    | cons mark rest => cases mark <;> simp [joinPieces, low]
  | case6 n stop low high m next rest low' ih => simp [joinPieces, low, high, low', ih]
  | case7 n stop low high m next rest low' => simp [joinPieces, low, high, low']
  | case8 n stop low high c next rest | case9 n stop low high c next rest =>
    simp [joinPieces, low, high]
  | case10 n stop low high =>
    simp [joinPieces, low, high]
    rfl
  | case11 n stop rest low high ih => rw [joinUnit (by simpa using low) (by simpa using high), ih]

theorem bodyFollowed {c next : Cursor} (read : (stringBody c).after = .ok next) (more : Text) :
    stringBody (c.followed more) = ⟨(stringBody c).read, .ok (next.followed more)⟩ := by
  simp only [stringBody] at read ⊢
  cases cut : pieces c.place c.rest with
  | mk marks ending =>
    rw [cut] at read
    cases ending with
    | closed after =>
      cases read
      have whole := piecesFollowed cut more
      have same := joinedClosed (next.followed more) next marks
      simp only [Cursor.followed] at whole same ⊢
      simp [whole, Ending.skip, same]
    | _ => cases read

theorem stringFollowed {c next : Cursor} {node : Node} (read : stringNode c = (node, next))
    (means : node.tree?.isSome = true) (more : Text) :
    stringNode (c.followed more) = (node, next.followed more) := by
  simp only [stringNode] at read ⊢
  cases after : (stringBody c).after with
  | error skip =>
    rw [after] at read
    cases read
    simp [Node.tree?] at means
  | ok last =>
    simp only [after, Prod.mk.injEq] at read
    obtain ⟨rfl, rfl⟩ := read
    rw [bodyFollowed after more]
    rfl

theorem literalFollowed {letters : Text} {make : Nat → Node} {c next : Cursor} {node : Node}
    (read : literal letters make c = (node, next)) (means : node.tree?.isSome = true)
    (more : Text) : literal letters make (c.followed more) = (node, next.followed more) := by
  simp only [literal] at read ⊢
  cases found : afterLetters letters c with
  | error fault =>
    rw [found] at read
    cases read
    simp [Node.tree?] at means
  | ok last =>
    simp only [found, Prod.mk.injEq] at read
    obtain ⟨rfl, rfl⟩ := read
    rw [lettersFollowed more found]
    rfl

theorem numberOnly {c next : Cursor} {node : Node} (read : numberNode c = (node, next))
    (means : node.tree?.isSome = true) : node.IsNumber := by
  simp only [numberNode] at read
  split at read
  · cases read
    simp [Node.tree?] at means
  · split at read <;> cases read <;> trivial

theorem scalarFollowed {c next : Cursor} {node : Node} (read : scalar c = (node, next))
    (means : node.tree?.isSome = true) (ends : node.IsNumber → next.rest ≠ []) (more : Text) :
    scalar (c.followed more) = (node, next.followed more) := by
  obtain ⟨place, text⟩ := c
  cases text with
  | nil =>
    cases read
    simp [Node.tree?] at means
  | cons d r =>
    by_cases quote : d = '"'
    · simp only [scalar, quote, beq_self_eq_true, if_true] at read
      simpa [scalar, Cursor.followed, quote] using stringFollowed read means more
    by_cases number : d = '-' ∨ isDigit d = true
    · rw [scalarNumber number] at read
      rw [Cursor.followed, List.cons_append, scalarNumber number]
      exact numberFollowed read means (ends (numberOnly read means)) more
    by_cases letter : d ∈ ['n', 't', 'f']
    · simp only [List.mem_cons, List.not_mem_nil, or_false] at letter
      rcases letter with rfl | rfl | rfl
      · exact @literalFollowed "null".toList _ _ _ _ read means more
      · exact @literalFollowed "true".toList _ _ _ _ read means more
      · exact @literalFollowed "false".toList _ _ _ _ read means more
    · simp only [List.mem_cons, List.not_mem_nil, or_false, not_or] at letter number
      simp only [scalar, beq_false_of_ne quote, beq_false_of_ne number.1, number.2,
        beq_false_of_ne letter.1, beq_false_of_ne letter.2.1, beq_false_of_ne letter.2.2,
        Bool.or_self, Bool.false_eq_true, if_false, brokenAt, Prod.mk.injEq] at read
      obtain ⟨rfl, -⟩ := read
      simp [Node.tree?] at means

/-! Lists and objects. -/

def Next.followed (more : Text) : Next → Next
  | .done close after => .done close (after.followed more)
  | .more after => .more (after.followed more)

def Next.Found : Next → Prop
  | .done (.cut _ _) _ => False
  | _ => True

theorem nextFollowed {bracket : Char} {c : Cursor} (found : (nextAfter bracket c).Found)
    (more : Text) : c.rest ≠ [] ∧
      nextAfter bracket (c.followed more) = (nextAfter bracket c).followed more := by
  simp only [nextAfter] at found ⊢
  cases text : c.skipSpace.rest with
  | nil =>
    simp only [text] at found
    cases found
  | cons d r =>
    have left : c.skipSpace.rest ≠ [] := by simp [text]
    refine ⟨skipNonempty left, ?_⟩
    rw [skipFollowed left more]
    simp only [Cursor.followed, text, List.cons_append] at found ⊢
    by_cases closes : d = bracket
    · simp [closes, Next.followed, Cursor.followed]
    by_cases comma : d = ','
    · subst comma
      simp only [beq_false_of_ne closes, beq_self_eq_true, Bool.false_eq_true, if_false, if_true]
        at found ⊢
      cases behind : (Cursor.skipSpace ⟨c.skipSpace.place + 1, r⟩).rest with
      | nil =>
        simp only [behind] at found
        cases found
      | cons e s =>
        have follows := skipFollowed (c := ⟨c.skipSpace.place + 1, r⟩) (by simp [behind]) more
        simp only [Cursor.followed] at follows
        by_cases ended : e = bracket
        · simp only [behind, ended, beq_self_eq_true, if_true] at found
          cases found
        · simp [follows, behind, ended, Next.followed, Cursor.followed]
    · simp only [beq_false_of_ne closes, beq_false_of_ne comma, Bool.false_eq_true, if_false] at found
      cases found

theorem keyFollowed {c colon : Cursor} {key : Key} (read : keyAt c = .ok (key, .ok colon))
    (more : Text) : keyAt (c.followed more) = .ok (key, .ok (colon.followed more)) := by
  obtain ⟨place, text⟩ := c
  cases text with
  | nil => cases read
  | cons d r =>
    by_cases quote : d = '"'
    · subst quote
      simp only [keyAt] at read
      cases after : (stringBody ⟨place + 1, r⟩).after with
      | error skip =>
        rw [after] at read
        cases read
      | ok next =>
        have body := bodyFollowed after more
        simp only [after, Except.ok.injEq, Prod.mk.injEq] at read
        obtain ⟨rfl, read⟩ := read
        cases behind : next.skipSpace.rest with
        | nil =>
          simp only [behind] at read
          cases read
        | cons e s =>
          have follows := skipFollowed (c := next) (by simp [behind]) more
          simp only [Cursor.followed] at body follows ⊢
          simp only [behind] at read
          by_cases separates : e = ':'
          · simp only [separates, beq_self_eq_true, if_true, Except.ok.injEq] at read
            subst read
            simp [keyAt, body, follows, behind, separates]
          · simp [separates] at read
    · simp [keyAt, quote] at read

theorem closedArray {nodes : List Node} {close : Close} {start : Nat}
    (means : (Node.array nodes close start).tree?.isSome = true) :
    (∃ stop, close = .closed stop) ∧ (itemTrees? nodes).isSome = true := by
  obtain ⟨tree, means⟩ := Option.isSome_iff_exists.mp means
  obtain ⟨stop, trees, rfl, inner, -⟩ := arrayTree means
  exact ⟨⟨stop, rfl⟩, by simp [inner]⟩

theorem closedObject {nodes : List (Key × Node)} {close : Close} {start : Nat}
    (means : (Node.object nodes close start).tree?.isSome = true) :
    (∃ stop, close = .closed stop) ∧ (memberTrees? nodes).isSome = true := by
  obtain ⟨tree, means⟩ := Option.isSome_iff_exists.mp means
  obtain ⟨stop, trees, rfl, inner, -⟩ := objectTree means
  exact ⟨⟨stop, rfl⟩, by simp [inner]⟩

def enclosed {β : Type} (bracket : Char) (inside : Cursor → List β × Close × Cursor)
    (make : List β → Close → Node) (c : Cursor) : Node × Cursor :=
  match c.rest with
  | [] => (make [] (.cut .unclosed c.place), c)
  | d :: rest =>
    if d == bracket then (make [] (.closed (c.place + 1)), ⟨c.place + 1, rest⟩)
    else
      let (entries, close, after) := inside c
      (make entries close, after)

section Enclosed
variable {fuel : Nat} {c : Cursor} {r : Text}

theorem arrayEnclosed (text : c.skipSpace.rest = '[' :: r) : value (fuel + 1) c =
    enclosed ']' (items fuel) (fun nodes close => .array nodes close c.skipSpace.place)
      (Cursor.skipSpace ⟨c.skipSpace.place + 1, r⟩) := by
  rw [value]
  dsimp only
  rw [text]
  rfl

theorem objectEnclosed (text : c.skipSpace.rest = '{' :: r) : value (fuel + 1) c =
    enclosed '}' (members fuel) (fun nodes close => .object nodes close c.skipSpace.place)
      (Cursor.skipSpace ⟨c.skipSpace.place + 1, r⟩) := by
  rw [value]
  dsimp only
  rw [text]
  rfl

theorem scalarValue {d : Char} (text : c.skipSpace.rest = d :: r) (list : d ≠ '[')
    (object : d ≠ '{') : value (fuel + 1) c = scalar c.skipSpace := by
  simp [value, text, list, object]

end Enclosed

theorem enclosedFollowed {β : Type} {bracket : Char} {make : List β → Close → Node}
    {inside longer : Cursor → List β × Close × Cursor} {c next : Cursor} {node : Node}
    (read : enclosed bracket inside make c.skipSpace = (node, next))
    (means : node.tree?.isSome = true) (more : Text)
    (closed : ∀ entries close, (make entries close).tree?.isSome = true →
      ∃ stop, close = .closed stop)
    (inner : ∀ entries stop, (make entries (.closed stop)).tree?.isSome = true →
      inside c.skipSpace = (entries, .closed stop, next) →
        longer (c.skipSpace.followed more) = (entries, .closed stop, next.followed more)) :
    enclosed bracket longer make (c.followed more).skipSpace = (node, next.followed more) := by
  simp only [enclosed] at read ⊢
  cases within : c.skipSpace.rest with
  | nil =>
    simp only [within, Prod.mk.injEq] at read
    obtain ⟨rfl, -⟩ := read
    obtain ⟨stop, unclosed⟩ := closed _ _ means
    cases unclosed
  | cons e s =>
    rw [skipFollowed (by simp [within]) more]
    by_cases closes : e = bracket
    · simp only [within, closes, beq_self_eq_true, if_true, Prod.mk.injEq] at read
      obtain ⟨rfl, rfl⟩ := read
      simp [Cursor.followed, within, closes]
    · simp only [within, beq_false_of_ne closes, Bool.false_eq_true, if_false, Prod.mk.injEq] at read
      obtain ⟨rfl, rfl⟩ := read
      obtain ⟨stop, shape⟩ := closed _ _ means
      have all := inner _ stop (shape ▸ means) (by rw [← shape])
      simp only [Cursor.followed, within, List.cons_append] at all
      simp [Cursor.followed, within, closes, all, shape]

mutual

theorem valueFollowed : (fuel : Nat) → {c next : Cursor} → {node : Node} →
    value fuel c = (node, next) → node.tree?.isSome = true → (node.IsNumber → next.rest ≠ []) →
      (more : Text) → {extra : Nat} → fuel ≤ extra →
        value extra (c.followed more) = (node, next.followed more)
  | 0, _, _, _, read, means, _, _, _, _ => by
    cases read
    simp [Node.tree?] at means
  | fuel + 1, c, next, node, read, means, ends, more, extra, enough => by
    obtain ⟨extra, rfl⟩ : ∃ n, extra = n + 1 := ⟨extra - 1, by omega⟩
    have enough : fuel ≤ extra := by omega
    cases text : c.skipSpace.rest with
    | nil =>
      simp only [value, text, scalar] at read
      cases read
      simp [Node.tree?] at means
    | cons d r =>
      have start := skipFollowed (c := c) (by simp [text]) more
      have longer : (c.followed more).skipSpace.rest = d :: (r ++ more) := by
        rw [start, Cursor.followed, text, List.cons_append]
      have place : (c.followed more).skipSpace.place = c.skipSpace.place := by
        rw [start, Cursor.followed]
      by_cases list : d = '['
      · subst list
        rw [arrayEnclosed text] at read
        rw [arrayEnclosed longer, place]
        exact enclosedFollowed read means more (fun _ _ some' => (closedArray some').1)
          fun _ _ some' found => itemsFollowed fuel found (closedArray some').2 more enough
      by_cases object : d = '{'
      · subst object
        rw [objectEnclosed text] at read
        rw [objectEnclosed longer, place]
        exact enclosedFollowed read means more (fun _ _ some' => (closedObject some').1)
          fun _ _ some' found => membersFollowed fuel found (closedObject some').2 more enough
      · rw [scalarValue text list object] at read
        rw [scalarValue longer list object, start]
        exact scalarFollowed read means ends more

theorem itemsFollowed : (fuel : Nat) → {c next : Cursor} → {nodes : List Node} → {stop : Nat} →
    items fuel c = (nodes, .closed stop, next) → (itemTrees? nodes).isSome = true →
      (more : Text) → {extra : Nat} → fuel ≤ extra →
        items extra (c.followed more) = (nodes, .closed stop, next.followed more)
  | 0, _, _, _, _, read, _, _, _, _ => by cases read
  | fuel + 1, c, next, nodes, stop, read, means, more, extra, enough => by
    obtain ⟨extra, rfl⟩ : ∃ n, extra = n + 1 := ⟨extra - 1, by omega⟩
    have enough : fuel ≤ extra := by omega
    simp only [items] at read ⊢
    cases first : value fuel c with
    | mk node after =>
      simp only [first] at read
      cases follows : nextAfter ']' after with
      | done close last =>
        simp only [follows, Prod.mk.injEq] at read
        obtain ⟨rfl, rfl, rfl⟩ := read
        -- The bracket behind the item is still in its own text, so a numeral ends there, too.
        obtain ⟨left, behind⟩ := nextFollowed (by rw [follows]; trivial) more
        obtain ⟨tree, others, mean, -, -⟩ := itemTreesCons (Option.eq_some_of_isSome means)
        have head := valueFollowed fuel first (by simp [mean]) (fun _ => left) more enough
        simp [head, behind, follows, Next.followed]
      | more inside =>
        cases rest : items fuel inside with
        | mk others close =>
          obtain ⟨close, last⟩ := close
          simp only [follows, rest, Prod.mk.injEq] at read
          obtain ⟨rfl, rfl, rfl⟩ := read
          obtain ⟨left, behind⟩ := nextFollowed (by rw [follows]; trivial) more
          obtain ⟨tree, trees, mean, means', -⟩ := itemTreesCons (Option.eq_some_of_isSome means)
          have head := valueFollowed fuel first (by simp [mean]) (fun _ => left) more enough
          have tail := itemsFollowed fuel rest (by simp [means']) more enough
          simp [head, behind, follows, Next.followed, tail]

theorem membersFollowed : (fuel : Nat) → {c next : Cursor} → {nodes : List (Key × Node)} →
    {stop : Nat} → members fuel c = (nodes, .closed stop, next) →
      (memberTrees? nodes).isSome = true → (more : Text) → {extra : Nat} → fuel ≤ extra →
        members extra (c.followed more) = (nodes, .closed stop, next.followed more)
  | 0, _, _, _, _, read, _, _, _, _ => by cases read
  | fuel + 1, c, next, nodes, stop, read, means, more, extra, enough => by
    obtain ⟨extra, rfl⟩ : ∃ n, extra = n + 1 := ⟨extra - 1, by omega⟩
    have enough : fuel ≤ extra := by omega
    simp only [members] at read ⊢
    cases key : keyAt c with
    | error gap =>
      rw [key] at read
      cases read
    | ok found =>
      obtain ⟨name, colon⟩ := found
      cases colon with
      | error fault =>
        rw [key] at read
        cases read
      | ok colon =>
        simp only [key] at read
        rw [keyFollowed key more]
        cases first : value fuel colon with
        | mk node after =>
          simp only [first] at read
          cases follows : nextAfter '}' after with
          | done close last =>
            simp only [follows, Prod.mk.injEq] at read
            obtain ⟨rfl, rfl, rfl⟩ := read
            obtain ⟨left, behind⟩ := nextFollowed (by rw [follows]; trivial) more
            obtain ⟨tree, others, mean, -, -⟩ :=
              memberTreesCons (Option.eq_some_of_isSome means)
            have head := valueFollowed fuel first (by simp [mean]) (fun _ => left) more enough
            simp [head, behind, follows, Next.followed]
          | more inside =>
            cases rest : members fuel inside with
            | mk others close =>
              obtain ⟨close, last⟩ := close
              simp only [follows, rest, Prod.mk.injEq] at read
              obtain ⟨rfl, rfl, rfl⟩ := read
              obtain ⟨left, behind⟩ := nextFollowed (by rw [follows]; trivial) more
              obtain ⟨tree, trees, mean, means', -⟩ :=
                memberTreesCons (Option.eq_some_of_isSome means)
              have head := valueFollowed fuel first (by simp [mean]) (fun _ => left) more enough
              have tail := membersFollowed fuel rest (by simp [means']) more enough
              simp [head, behind, follows, Next.followed, tail]

end

theorem parseFollowed {text : Text} {node : Node} {after : Cursor}
    (read : Node.parse text = (node, after)) (means : node.tree?.isSome = true)
    (other : ¬node.IsNumber) (more : Text) :
    Node.parse (text ++ more) = (node, after.followed more) := by
  refine valueFollowed _ read means (fun number => absurd number other) more ?_
  rw [List.length_append]
  omega

end ShaderReflection.Json
