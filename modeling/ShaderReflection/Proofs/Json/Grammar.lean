import ShaderReflection.Proofs.Json.Reading
import ShaderReflection.Proofs.Text.Numeral
/-!
The grammar of JSON texts with what they say, in every layout and every spelling, and that a text
of the grammar is read as the tree that it says. Strings with surrogates that stand for no character
and numerals out of range are of the grammar and say no text and no number.
-/
namespace ShaderReflection.Json

def CodeUnit (digits : Text) (n : Nat) : Prop := digits.length = 4 ∧ Text.Numeral 16 n digits

def shortEscapes : List (Char × Char) := [
  ('"', '"'), ('\\', '\\'), ('/', '/'), ('b', Char.ofNat 8), ('t', '\t'), ('n', '\n'),
  ('f', Char.ofNat 12), ('r', '\r')]

inductive Spelling : Text → Option Text → Prop where
  | nil : Spelling [] (some [])
  | plain {c body text} (quote : c ≠ '"') (slash : c ≠ '\\') (printing : 32 ≤ c.toNat)
    (rest : Spelling body text) : Spelling (c :: body) (text.map (c :: ·))
  | short {e c body text} (escape : (e, c) ∈ shortEscapes) (rest : Spelling body text) :
    Spelling ('\\' :: e :: body) (text.map (c :: ·))
  | unit {digits c body text} (unit : CodeUnit digits c.toNat) (rest : Spelling body text) :
    Spelling ('\\' :: 'u' :: (digits ++ body)) (text.map (c :: ·))
  | pair {high low c body text} (wide : 0x10000 ≤ c.toNat)
    (first : CodeUnit high (0xD800 + (c.toNat - 0x10000) / 0x400))
    (second : CodeUnit low (0xDC00 + (c.toNat - 0x10000) % 0x400)) (rest : Spelling body text) :
    Spelling ('\\' :: 'u' :: (high ++ '\\' :: 'u' :: (low ++ body))) (text.map (c :: ·))
  | loneLow {digits n body text} (unit : CodeUnit digits n) (surrogate : 0xDC00 ≤ n ∧ n ≤ 0xDFFF)
    (rest : Spelling body text) : Spelling ('\\' :: 'u' :: (digits ++ body)) none
  | loneHigh {digits n body text} (unit : CodeUnit digits n)
    (surrogate : 0xD800 ≤ n ∧ n ≤ 0xDBFF)
    (alone : ∀ low m after, CodeUnit low m → 0xDC00 ≤ m ∧ m ≤ 0xDFFF →
      body ≠ '\\' :: 'u' :: (low ++ after))
    (rest : Spelling body text) : Spelling ('\\' :: 'u' :: (digits ++ body)) none

theorem insideNil : Inside [] (some []) := fun place _ => ⟨[], place + 1, rfl, rfl⟩

theorem optionOfMap (x : Except Fault Text) (c : Char) :
    (x.map (c :: ·)).toOption = x.toOption.map (c :: ·) := by
  cases x <;> rfl

theorem joinUnit {n : Nat} (low : isLowSurrogate n = false) (high : isHighSurrogate n = false)
    (ending : Ending) (stop : Nat) (marks : List Piece) :
    joinPieces ending (.unit n stop :: marks) =
      (joinPieces ending marks).map (Char.ofNat n :: ·) := by
  cases marks with
  | nil => simp [joinPieces, low, high]
  | cons mark rest => cases mark <;> simp [joinPieces, low, high]

theorem insidePlain {c : Char} (quote : c ≠ '"') (slash : c ≠ '\\') (printing : 32 ≤ c.toNat)
    {body : Text} {text : Option Text} (inside : Inside body text) :
    Inside (c :: body) (text.map (c :: ·)) := by
  intro place rest
  obtain ⟨marks, next, cut, joined⟩ := inside (place + c.utf8Size) rest
  refine ⟨.plain c (place + c.utf8Size) :: marks, next, ?_, ?_⟩
  · rw [List.cons_append, pieces]
    · simp [Nat.not_lt.mpr printing, cut]
    all_goals simp_all
  · rw [joinPieces, optionOfMap, joined]

theorem insideEscaped {e c : Char} (escape : simpleEscape? e = some c)
    {body : Text} {text : Option Text} (inside : Inside body text) :
    Inside ('\\' :: e :: body) (text.map (c :: ·)) := by
  intro place rest
  obtain ⟨marks, next, cut, joined⟩ := inside (place + 2) rest
  have letter : e ≠ 'u' := fun same => by simp [same, simpleEscape?] at escape
  refine ⟨.escaped c (place + 2) :: marks, next, ?_, ?_⟩
  · rw [List.cons_append, List.cons_append, pieces]
    · simp [escape, cut]
    all_goals simp_all
  · rw [joinPieces, optionOfMap, joined]

theorem insideUnit {a b c d : Char} {n : Nat} (digits : Text.natural? 16 [a, b, c, d] = some n)
    (low : isLowSurrogate n = false) (high : isHighSurrogate n = false)
    {body : Text} {text : Option Text} (inside : Inside body text) :
    Inside ('\\' :: 'u' :: a :: b :: c :: d :: body) (text.map (Char.ofNat n :: ·)) := by
  intro place rest
  obtain ⟨marks, next, cut, joined⟩ := inside (place + 6) rest
  refine ⟨.unit n (place + 6) :: marks, next, ?_, ?_⟩
  · simp [pieces, digits, cut]
  · rw [joinUnit low high, optionOfMap, joined]

theorem shortEscape {e c : Char} (escape : (e, c) ∈ shortEscapes) : simpleEscape? e = some c := by
  have all : ∀ p ∈ shortEscapes, simpleEscape? p.1 = some p.2 := by decide
  exact all (e, c) escape

theorem unitRead {digits : Text} {n : Nat} (unit : CodeUnit digits n) :
    ∃ a b c d, digits = [a, b, c, d] ∧ Text.natural? 16 [a, b, c, d] = some n := by
  obtain ⟨length, numeral⟩ := unit
  match digits, length with
  | [a, b, c, d], _ =>
    exact ⟨a, b, c, d, rfl, Text.numeralDigits (by decide) (by decide) numeral⟩

theorem readUnit {a b c d : Char} {n : Nat} (read : Text.natural? 16 [a, b, c, d] = some n) :
    CodeUnit [a, b, c, d] n :=
  ⟨rfl, Text.numeralRead (by decide) (by decide) (List.cons_ne_nil a _) read⟩

theorem unitAhead {digits body rest : Text} {n place : Nat} {marks : List Piece} {next : Cursor}
    (unit : CodeUnit digits n)
    (cut : pieces (place + 6) (body ++ '"' :: rest) = (marks, .closed next)) :
    pieces place ('\\' :: 'u' :: (digits ++ body) ++ '"' :: rest) =
      (.unit n (place + 6) :: marks, .closed next) := by
  obtain ⟨a, b, c, d, rfl, read⟩ := unitRead unit
  simp [pieces, read, cut]

theorem charUnit (c : Char) :
    isLowSurrogate c.toNat = false ∧ isHighSurrogate c.toNat = false := by
  have valid : c.toNat < 0xD800 ∨ 0xDFFF < c.toNat ∧ c.toNat < 0x110000 := c.valid
  simp only [isLowSurrogate, isHighSurrogate, Bool.and_eq_false_iff, decide_eq_false_iff_not]
  omega

theorem pairUnits {c : Char} (wide : 0x10000 ≤ c.toNat) :
    let high := 0xD800 + (c.toNat - 0x10000) / 0x400
    let low := 0xDC00 + (c.toNat - 0x10000) % 0x400
    isLowSurrogate high = false ∧ isHighSurrogate high = true ∧ isLowSurrogate low = true ∧
      pairedChar high low = c := by
  intro high low
  have valid : c.toNat < 0xD800 ∨ 0xDFFF < c.toNat ∧ c.toNat < 0x110000 := c.valid
  have joined : (high - 0xD800) * 0x400 + (low - 0xDC00) + 0x10000 = c.toNat := by omega
  refine ⟨?_, ?_, ?_, ?_⟩
  · simp only [isLowSurrogate, Bool.and_eq_false_iff, decide_eq_false_iff_not]
    omega
  · simp only [isHighSurrogate, Bool.and_eq_true, decide_eq_true_eq]
    omega
  · simp only [isLowSurrogate, Bool.and_eq_true, decide_eq_true_eq]
    omega
  · rw [pairedChar, joined, Char.ofNat_toNat]

theorem unitFirst {place stop n : Nat} {text : Text} {more : List Piece} {ending : Ending}
    (cut : pieces place text = (.unit n stop :: more, ending)) :
    ∃ digits after, CodeUnit digits n ∧ text = '\\' :: 'u' :: (digits ++ after) := by
  revert cut
  fun_cases pieces place text with
  | case4 place a b c d r m read =>
    intro cut
    cases cut
    exact ⟨[a, b, c, d], r, readUnit read, rfl⟩
  | _ => nofun

theorem unitInside {digits body rest after : Text} {n : Nat} (unit : CodeUnit digits n)
    (same : body ++ '"' :: rest = '\\' :: 'u' :: (digits ++ after)) :
    ∃ behind, body = '\\' :: 'u' :: (digits ++ behind) := by
  have lacks : '"' ∉ '\\' :: 'u' :: digits := by
    have digit := Text.numeralLacks (by decide) (by decide) unit.2 (by decide : ¬Text.Alphanumeric '"')
    simp [digit]
  rw [← List.cons_append, ← List.cons_append, List.append_eq_append_iff] at same
  rcases same with ⟨gap, front, back⟩ | ⟨behind, front, -⟩
  · cases gap with
    | nil => exact ⟨[], by simpa using front.symm⟩
    | cons c gap =>
      obtain ⟨rfl, -⟩ := List.cons.inj back
      exact absurd (front ▸ by simp) lacks
  · exact ⟨behind, front⟩

theorem spellingInside {body : Text} {text : Option Text} (spelling : Spelling body text) :
    Inside body text := by
  induction spelling with
  | nil => exact insideNil
  | plain quote slash printing _ ih => exact insidePlain quote slash printing ih
  | short escape _ ih => exact insideEscaped (shortEscape escape) ih
  | @unit digits c body text unit _ ih =>
    obtain ⟨a, b, d, e, rfl, read⟩ := unitRead unit
    obtain ⟨low, high⟩ := charUnit c
    have inside := insideUnit read low high ih
    rwa [Char.ofNat_toNat] at inside
  | @pair high low c body text wide first second _ ih =>
    intro place rest
    obtain ⟨marks, next, cut, joined⟩ := ih (place + 6 + 6) rest
    obtain ⟨notLow, isHigh, isLow, same⟩ := pairUnits wide
    refine ⟨_, next, unitAhead first (unitAhead second cut), ?_⟩
    simp [joinPieces, notLow, isHigh, isLow, same, optionOfMap, joined]
  | @loneLow digits n body text unit surrogate _ ih =>
    intro place rest
    obtain ⟨marks, next, cut, -⟩ := ih (place + 6) rest
    have isLow : isLowSurrogate n = true := by simpa [isLowSurrogate] using surrogate
    refine ⟨_, next, unitAhead unit cut, ?_⟩
    cases marks with
    | nil => simp [joinPieces, isLow, Except.toOption]
    | cons mark more => cases mark <;> simp [joinPieces, isLow, Except.toOption]
  | @loneHigh digits n body text unit surrogate alone _ ih =>
    intro place rest
    obtain ⟨marks, next, cut, -⟩ := ih (place + 6) rest
    have isHigh : isHighSurrogate n = true := by simpa [isHighSurrogate] using surrogate
    have notLow : isLowSurrogate n = false := by
      simp only [isLowSurrogate, Bool.and_eq_false_iff, decide_eq_false_iff_not]
      omega
    refine ⟨_, next, unitAhead unit cut, ?_⟩
    cases marks with
    | nil => simp [joinPieces, isHigh, notLow, Except.toOption]
    | cons mark more =>
      cases mark with
      | unit m stop =>
        -- A second unit that is a low surrogate would stand in the body and make a pair.
        have other : isLowSurrogate m = false := by
          obtain ⟨low, after, unit', text'⟩ := unitFirst cut
          obtain ⟨behind, shape⟩ := unitInside unit' text'
          by_contra paired
          have range : 0xDC00 ≤ m ∧ m ≤ 0xDFFF := by simpa [isLowSurrogate] using paired
          exact alone low m behind unit' range shape
        simp [joinPieces, isHigh, notLow, other, Except.toOption]
      | _ => simp [joinPieces, isHigh, notLow, Except.toOption]

def Word64 (i : Int) : Prop := -9223372036854775808 ≤ i ∧ i < longLimit

theorem digitsRead {digits : Text} (all : ∀ c ∈ digits, isDigit c = true) (acc : Nat) :
    ∃ n, Text.readDigits 10 acc digits = some n := by
  induction digits generalizing acc with
  | nil => exact ⟨acc, rfl⟩
  | cons c rest ih =>
    rw [List.forall_mem_cons] at all
    obtain ⟨first, others⟩ := all
    simp only [isDigit, Bool.and_eq_true, decide_eq_true_eq] at first
    have digit : Text.digit? 10 c = some (c.toNat - 48) := by
      have small : c.toNat - 48 < 10 := by omega
      simp [Text.digit?, first, small]
    obtain ⟨n, read⟩ := ih others (acc * 10 + (c.toNat - 48))
    exact ⟨n, by simp [Text.readDigits, digit, read]⟩

theorem digitKept {c : Char} (digit : isDigit c = true) : c.toLower = c := by
  simp only [isDigit, Bool.and_eq_true, decide_eq_true_eq] at digit
  refine dif_neg fun capital => ?_
  have first : 65 ≤ c.toNat := capital.1
  omega

theorem wholeDecimal {digits : Text} (whole : WholeDigits digits) :
    Text.decimal (digitsValue digits) = digits := by
  obtain ⟨some', all, zero⟩ := whole
  obtain ⟨n, read⟩ := digitsRead all 0
  have value : digitsValue digits = n := by simp [digitsValue, Text.natural?, some', read]
  obtain ⟨zeros, shape⟩ := Text.numeralRead (by decide) (by decide) some' read
  rw [List.map_congr_left fun c member => digitKept (all c member), List.map_id'] at shape
  cases zeros with
  | zero => rw [value, shape, Text.decimal, List.replicate_zero, List.nil_append]
  | succ zeros =>
    obtain rfl : digits = ['0'] := zero (by simp [shape, List.replicate_succ])
    decide

theorem signedNatural (n : Nat) : Text.signedDecimal n = Text.decimal n := by
  have sign : ¬(n : Int) < 0 := by omega
  simp [Text.signedDecimal, sign]

theorem signedNegative {n : Nat} (positive : 0 < n) :
    Text.signedDecimal (-n) = '-' :: Text.decimal n := by
  simp [Text.signedDecimal, positive]

theorem numeralFloat {x : Numeral} {text : Text} (written : NumeralText x text)
    (other : ∀ i, Word64 i → signed x.negative text ≠ Text.signedDecimal i) :
    x.value? = x.float? := by
  obtain ⟨fraction, exponent, rfl, whole, fractional, exponential⟩ := written
  obtain ⟨negative, digits, f, e⟩ := x
  cases fractional with
  | digits => rfl
  | none =>
    cases exponential with
    | digits => rfl
    | none =>
      have canonical := wholeDecimal whole
      simp only [List.append_nil, signed] at other canonical
      simp only [Numeral.value?]
      cases negative with
      | true =>
        rw [if_pos rfl]
        refine if_neg fun range => ?_
        have word : Word64 (-(digitsValue digits)) := by
          simp only [Word64, longLimit]
          omega
        exact other _ word (by rw [signedNegative range.1, canonical, if_pos rfl])
      | false =>
        rw [if_neg Bool.false_ne_true]
        refine if_neg fun range => ?_
        have word : Word64 (digitsValue digits) := by
          simp only [Word64, longLimit] at range ⊢
          omega
        exact other _ word (by rw [signedNatural, canonical]; rfl)

theorem decimalWhole (n : Nat) : WholeDigits (Text.decimal n) := by
  refine ⟨Nat.toDigits_ne_nil, fun c member => ?_, fun zero => ?_⟩
  · have range := Text.decimalDigits member
    simp [isDigit, range]
  · rcases Nat.eq_zero_or_pos n with rfl | positive
    · decide
    · exact absurd zero (Text.decimalHead positive)

theorem signedWritten (i : Int) :
    Text.signedDecimal i = signed (decide (i < 0)) (Text.decimal i.natAbs) := by
  by_cases negative : i < 0 <;> simp [Text.signedDecimal, signed, negative]

theorem decimalValue {i : Int} (range : Word64 i) :
    Numeral.value? ⟨decide (i < 0), Text.decimal i.natAbs, none, none⟩ = some (.integer i) := by
  have value : digitsValue (Text.decimal i.natAbs) = i.natAbs := by
    simp [digitsValue, Text.decimalRead]
  unfold Word64 at range
  by_cases negative : i < 0
  · have low : 0 < i.natAbs ∧ i.natAbs ≤ 9223372036854775808 := by omega
    have back : -(i.natAbs : Int) = i := by omega
    simp only [Numeral.value?, value, negative, decide_true, if_true, if_pos low, back]
  · have high : i.natAbs < longLimit := by
      simp only [longLimit] at range ⊢
      omega
    have back : (i.natAbs : Int) = i := by omega
    simp [Numeral.value?, value, negative, high, back]

theorem readsSigned {i : Int} (range : Word64 i) :
    Reads (Text.signedDecimal i) (.number (some (.integer i))) := by
  have read := readsInteger (decimalWhole i.natAbs) (decide (i < 0))
  rwa [decimalValue range, ← signedWritten] at read

mutual

inductive Says : Text → Tree → Prop where
  | null : Says "null".toList .null
  | trueWord : Says "true".toList (.boolean true)
  | falseWord : Says "false".toList (.boolean false)
  | integer {i : Int} (word : Word64 i) :
    Says (Text.signedDecimal i) (.number (some (.integer i)))
  | numeral {x : Numeral} {text : Text} (written : NumeralText x text)
    (other : ∀ i, Word64 i → signed x.negative text ≠ Text.signedDecimal i) :
    Says (signed x.negative text) (.number x.float?)
  | string {body : Text} {text : Option Text} (inside : Spelling body text) :
    Says ('"' :: (body ++ ['"'])) (.string text)
  | emptyList {blanks : Text} (blank : Blank blanks) : Says ('[' :: (blanks ++ [']'])) (.array [])
  | list {blanks body : Text} {trees : List Tree} (blank : Blank blanks)
    (items : SaysItems body trees) : Says ('[' :: (blanks ++ (body ++ [']']))) (.array trees)
  | emptyObject {blanks : Text} (blank : Blank blanks) :
    Says ('{' :: (blanks ++ ['}'])) (.object [])
  | object {blanks body : Text} {trees : List (Option Text × Tree)} (blank : Blank blanks)
    (members : SaysMembers body trees) : Says ('{' :: (blanks ++ (body ++ ['}']))) (.object trees)

inductive SaysItems : Text → List Tree → Prop where
  | last {text after : Text} {tree : Tree} (item : Says text tree) (blank : Blank after) :
    SaysItems (text ++ after) [tree]
  | more {text before behind body : Text} {tree : Tree} {trees : List Tree}
    (item : Says text tree) (front : Blank before) (back : Blank behind)
    (others : SaysItems body trees) :
    SaysItems (text ++ (before ++ ',' :: (behind ++ body))) (tree :: trees)

inductive SaysMembers : Text → List (Option Text × Tree) → Prop where
  | last {key before behind text after : Text} {name : Option Text} {tree : Tree}
    (inside : Spelling key name) (front : Blank before) (back : Blank behind)
    (item : Says text tree) (blank : Blank after) :
    SaysMembers (keyText key before behind ++ (text ++ after)) [(name, tree)]
  | more {key before behind text after gap body : Text} {name : Option Text} {tree : Tree}
    {trees : List (Option Text × Tree)} (inside : Spelling key name) (front : Blank before)
    (back : Blank behind) (item : Says text tree) (blank : Blank after) (space : Blank gap)
    (others : SaysMembers body trees) :
    SaysMembers (keyText key before behind ++ (text ++ (after ++ ',' :: (gap ++ body))))
      ((name, tree) :: trees)

end

theorem readsNull : Reads "null".toList .null := by
  change Reads ['n', 'u', 'l', 'l'] .null
  refine readsScalar (by decide) (by decide) fun place rest _ => ?_
  exact ⟨.null place (place + 4), place + 4,
    by simp [scalar, literal, afterLetters, isDigit], rfl⟩

mutual

theorem saysReads {text : Text} {tree : Tree} : Says text tree → Reads text tree
  | .null => readsNull
  | .trueWord => readsTrue
  | .falseWord => readsFalse
  | .integer word => readsSigned word
  | .numeral written other => numeralFloat written other ▸ readsNumeral written
  | .string inside => readsString (spellingInside inside)
  | .emptyList blank => readsEmptyList blank
  | .list blank items => readsList blank (itemsReads items)
  | .emptyObject blank => readsEmptyObject blank
  | .object blank members => readsObject blank (membersReads members)

theorem itemsReads {body : Text} {trees : List Tree} :
    SaysItems body trees → ReadsItems body trees
  | .last item blank => readsLastItem (saysReads item) blank
  | .more item front back others => readsItem (saysReads item) front back (itemsReads others)

theorem membersReads {body : Text} {trees : List (Option Text × Tree)} :
    SaysMembers body trees → ReadsMembers body trees
  | .last inside front back item blank =>
    readsLastMember (spellingInside inside) front back (saysReads item) blank
  | .more inside front back item blank space others =>
    readsMember (spellingInside inside) front back (saysReads item) blank space
      (membersReads others)

end

theorem membersSay {body : Text} {trees : List (Option Text × Tree)} :
    SaysMembers body trees → ∀ m ∈ trees, ∃ text, Says text m.2
  | .last _ _ _ item _ => List.forall_mem_singleton.mpr ⟨_, item⟩
  | .more _ _ _ item _ _ others => List.forall_mem_cons.mpr ⟨⟨_, item⟩, membersSay others⟩

theorem memberSays {text : Text} {trees : List (Option Text × Tree)}
    (said : Says text (.object trees)) : ∀ m ∈ trees, ∃ inner, Says inner m.2 := by
  cases said with
  | emptyObject => exact List.forall_mem_nil _
  | object _ members => exact membersSay members

end ShaderReflection.Json
