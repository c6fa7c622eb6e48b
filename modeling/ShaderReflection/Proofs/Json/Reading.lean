import ShaderReflection.Proofs.Json.Tree
import ShaderReflection.Proofs.Text.Splitting
/-!
Which texts are read as which trees, one rule for each form of JSON. The rules speak about a text
in front of anything that may follow a value, so they compose in the way in which the grammar does.
-/
namespace ShaderReflection.Json

def Blank (t : Text) : Prop := ∀ c ∈ t, isSpace c = true

def Stops (rest : Text) : Prop :=
  ∀ c, rest.head? = some c → c ∈ [' ', '\n', '\t', '\r', ',', ']', '}']

def Opens (text : Text) : Prop :=
  ∃ c rest, text = c :: rest ∧ isSpace c = false ∧ c ≠ ']' ∧ c ≠ '}'

structure Reads (text : Text) (tree : Tree) : Prop where
  opens : Opens text
  read : ∀ fuel place rest, text.length < fuel → Stops rest →
    ∃ node next, value fuel ⟨place, text ++ rest⟩ = (node, ⟨next, rest⟩) ∧ node.tree? = some tree

structure ReadsItems (body : Text) (trees : List Tree) : Prop where
  opens : Opens body
  read : ∀ fuel place rest, body.length + 1 < fuel →
    ∃ nodes stop next, items fuel ⟨place, body ++ ']' :: rest⟩ =
      (nodes, .closed stop, ⟨next, rest⟩) ∧ itemTrees? nodes = some trees

structure ReadsMembers (body : Text) (trees : List (Option Text × Tree)) : Prop where
  opens : Opens body
  read : ∀ fuel place rest, body.length + 1 < fuel →
    ∃ nodes stop next, members fuel ⟨place, body ++ '}' :: rest⟩ =
      (nodes, .closed stop, ⟨next, rest⟩) ∧ memberTrees? nodes = some trees

def Inside (body : Text) (text : Option Text) : Prop :=
  ∀ place rest, ∃ marks next, pieces place (body ++ '"' :: rest) = (marks, .closed ⟨next, rest⟩) ∧
    (joinPieces (.closed ⟨next, rest⟩) marks).toOption = text

theorem opensAppend {text : Text} (opens : Opens text) (rest : Text) : Opens (text ++ rest) := by
  obtain ⟨c, tail, rfl, facts⟩ := opens
  exact ⟨c, tail ++ rest, rfl, facts⟩

theorem skipBlanks {blanks : Text} (blank : Blank blanks) {c : Char} (solid : isSpace c = false)
    (place : Nat) (rest : Text) :
    Cursor.skipSpace ⟨place, blanks ++ c :: rest⟩ = ⟨place + blanks.length, c :: rest⟩ := by
  simp [Cursor.skipSpace, List.takeWhile_append_of_pos blank, List.dropWhile_append_of_pos blank,
    solid]

theorem blankNil : Blank [] := fun _ member => nomatch member

theorem skipNothing {c : Char} (solid : isSpace c = false) (place : Nat) (rest : Text) :
    Cursor.skipSpace ⟨place, c :: rest⟩ = ⟨place, c :: rest⟩ :=
  skipBlanks blankNil solid place rest

theorem valueBehind {blanks text : Text} (blank : Blank blanks) (opens : Opens text)
    (fuel place : Nat) :
    value (fuel + 1) ⟨place, blanks ++ text⟩ = value (fuel + 1) ⟨place + blanks.length, text⟩ := by
  obtain ⟨c, rest, rfl, solid, -⟩ := opens
  simp only [value, skipBlanks blank solid, skipNothing solid]

theorem nextClosed {blanks : Text} (blank : Blank blanks) {bracket : Char}
    (solid : isSpace bracket = false) (place : Nat) (rest : Text) :
    nextAfter bracket ⟨place, blanks ++ bracket :: rest⟩ =
      .done (.closed (place + blanks.length + 1)) ⟨place + blanks.length + 1, rest⟩ := by
  simp [nextAfter, skipBlanks blank solid]

theorem nextComma {before behind body : Text} (front : Blank before) (back : Blank behind)
    (opens : Opens body) {bracket : Char} (closing : bracket = ']' ∨ bracket = '}')
    (place : Nat) :
    nextAfter bracket ⟨place, before ++ ',' :: (behind ++ body)⟩ =
      .more ⟨place + before.length + 1 + behind.length, body⟩ := by
  obtain ⟨c, rest, rfl, solid, list, object⟩ := opens
  have comma : isSpace ',' = false := by decide
  have open' : (c == bracket) = false := by rcases closing with rfl | rfl <;> simpa
  have other : (',' == bracket) = false := by rcases closing with rfl | rfl <;> decide
  simp [nextAfter, skipBlanks front comma, skipBlanks back solid, open', other]

theorem valueScalar {c : Char} (solid : isSpace c = false) (list : c ≠ '[') (object : c ≠ '{')
    (fuel place : Nat) (rest : Text) :
    value (fuel + 1) ⟨place, c :: rest⟩ = scalar ⟨place, c :: rest⟩ := by
  simp only [value, skipNothing solid]
  split <;> simp_all

theorem readsScalar {c : Char} {tail : Text} {tree : Tree} (solid : isSpace c = false)
    (bracket : c ∉ ['[', ']', '{', '}'])
    (read : ∀ place rest, Stops rest → ∃ node next,
      scalar ⟨place, c :: (tail ++ rest)⟩ = (node, ⟨next, rest⟩) ∧ node.tree? = some tree) :
    Reads (c :: tail) tree := by
  simp only [List.mem_cons, List.not_mem_nil, or_false, not_or] at bracket
  obtain ⟨list, listEnd, object, objectEnd⟩ := bracket
  refine ⟨⟨c, tail, rfl, solid, listEnd, objectEnd⟩, ?_⟩
  intro fuel place rest enough stops
  obtain ⟨fuel, rfl⟩ : ∃ f, fuel = f + 1 := ⟨fuel - 1, by omega⟩
  rw [List.cons_append, valueScalar solid list object]
  exact read place rest stops

theorem readsTrue : Reads "true".toList (.boolean true) := by
  change Reads ['t', 'r', 'u', 'e'] (.boolean true)
  refine readsScalar (by decide) (by decide) fun place rest _ => ?_
  exact ⟨.boolean true place (place + 4), place + 4,
    by simp [scalar, literal, afterLetters, isDigit], rfl⟩

theorem readsFalse : Reads "false".toList (.boolean false) := by
  change Reads ['f', 'a', 'l', 's', 'e'] (.boolean false)
  refine readsScalar (by decide) (by decide) fun place rest _ => ?_
  exact ⟨.boolean false place (place + 5), place + 5,
    by simp [scalar, literal, afterLetters, isDigit], rfl⟩

def WholeDigits (digits : Text) : Prop :=
  digits ≠ [] ∧ (∀ c ∈ digits, isDigit c = true) ∧ (digits.head? = some '0' → digits = ['0'])

theorem stopsNumeral {c : Char} {tail : Text} (stops : Stops (c :: tail)) :
    isDigit c = false ∧ c ≠ '.' ∧ c ≠ 'e' ∧ c ≠ 'E' := by
  have all : ∀ c ∈ [' ', '\n', '\t', '\r', ',', ']', '}'],
      isDigit c = false ∧ c ≠ '.' ∧ c ≠ 'e' ∧ c ≠ 'E' := Text.eachChar (by decide)
  exact all c (stops c rfl)

def NoDigit (rest : Text) : Prop := ∀ c, rest.head? = some c → isDigit c = false

theorem stopsDigits {rest : Text} (stops : Stops rest) : NoDigit rest := by
  intro c head
  cases rest with
  | nil => cases head
  | cons d tail =>
    cases head
    exact (stopsNumeral stops).1

theorem pastWhole {digits rest : Text} (all : ∀ c ∈ digits, isDigit c = true)
    (ends : NoDigit rest) (place : Nat) :
    Cursor.pastDigits ⟨place, digits ++ rest⟩ = (digits, ⟨place + digits.length, rest⟩) := by
  have after : rest.takeWhile isDigit = [] ∧ rest.dropWhile isDigit = rest := by
    cases rest with
    | nil => exact ⟨rfl, rfl⟩
    | cons c tail => simp [ends c rfl]
  simp [Cursor.pastDigits, List.takeWhile_append_of_pos all, List.dropWhile_append_of_pos all, after]

theorem wholeAt {digits rest : Text} (whole : WholeDigits digits) (ends : NoDigit rest)
    (place : Nat) :
    wholePart ⟨place, digits ++ rest⟩ = .ok (digits, ⟨place + digits.length, rest⟩) := by
  obtain ⟨nonempty, all, zero⟩ := whole
  obtain ⟨d, tail, rfl⟩ := List.exists_cons_of_ne_nil nonempty
  -- A leading zero is the whole numeral; the reader refuses a digit behind it.
  by_cases lead : d = '0'
  · obtain ⟨rfl, rfl⟩ : d = '0' ∧ tail = [] := by simpa using zero (by simp [lead])
    have next : rest.head?.any isDigit = false := by
      cases rest with
      | nil => rfl
      | cons c tail => exact ends c rfl
    simp [wholePart, next]
  · have first : isDigit d = true := all d List.mem_cons_self
    have run := pastWhole all ends place
    simp only [List.cons_append] at run
    simp [wholePart, first, run]

inductive FractionText : Option Text → Text → Prop where
  | none : FractionText none []
  | digits {digits : Text} (some' : digits ≠ []) (all : ∀ c ∈ digits, isDigit c = true) :
    FractionText (some digits) ('.' :: digits)

inductive ExponentText : Option (Bool × Text) → Text → Prop where
  | none : ExponentText none []
  | digits {mark : Char} {negative : Bool} {sign digits : Text} (marks : mark ∈ ['e', 'E'])
    (signs : (negative, sign) ∈ [(false, []), (false, ['+']), (true, ['-'])])
    (some' : digits ≠ []) (all : ∀ c ∈ digits, isDigit c = true) :
    ExponentText (some (negative, digits)) (mark :: (sign ++ digits))

def NumeralText (x : Numeral) (text : Text) : Prop :=
  ∃ fraction exponent, text = x.whole ++ (fraction ++ exponent) ∧ WholeDigits x.whole ∧
    FractionText x.fraction fraction ∧ ExponentText x.exponent exponent

theorem exponentAt {exponent : Option (Bool × Text)} {text rest : Text}
    (written : ExponentText exponent text) (stops : Stops rest) (place : Nat) :
    exponentPart ⟨place, text ++ rest⟩ = .ok (exponent, ⟨place + text.length, rest⟩) := by
  cases written with
  | none =>
    cases rest with
    | nil => rfl
    | cons c tail =>
      obtain ⟨-, -, lower, upper⟩ := stopsNumeral stops
      simp [exponentPart, lower, upper]
  | @digits mark negative sign digits marks signs some' all =>
    have run := pastWhole all (stopsDigits stops) (place + 1 + sign.length)
    have isMark : (mark == 'e' || mark == 'E') = true := by simpa using marks
    obtain ⟨d, tail, rfl⟩ := List.exists_cons_of_ne_nil some'
    have sign' : exponentSign ⟨place + 1, sign ++ (d :: (tail ++ rest))⟩ =
        (negative, ⟨place + 1 + sign.length, d :: (tail ++ rest)⟩) := by
      have first : isDigit d = true := all d List.mem_cons_self
      have plus : d ≠ '+' := by
        rintro rfl
        simp [isDigit] at first
      have minus : d ≠ '-' := by
        rintro rfl
        simp [isDigit] at first
      simp only [List.mem_cons, Prod.mk.injEq, List.not_mem_nil, or_false] at signs
      rcases signs with ⟨rfl, rfl⟩ | ⟨rfl, rfl⟩ | ⟨rfl, rfl⟩ <;> simp [exponentSign, plus, minus]
    simp only [List.cons_append] at run
    simp [exponentPart, isMark, sign', run]
    omega

theorem exponentHead {exponent : Option (Bool × Text)} {text rest : Text}
    (written : ExponentText exponent text) (stops : Stops rest) :
    NoDigit (text ++ rest) ∧ (text ++ rest).head? ≠ some '.' := by
  cases written with
  | none =>
    refine ⟨stopsDigits stops, fun point => ?_⟩
    exact absurd (stops '.' point) (by decide)
  | digits marks =>
    have all : ∀ c ∈ ['e', 'E'], isDigit c = false ∧ c ≠ '.' := Text.eachChar (by decide)
    refine ⟨fun c head => ?_, fun point => ?_⟩
    · cases head
      exact (all _ marks).1
    · cases point
      exact (all _ marks).2 rfl

theorem fractionAt {fraction : Option Text} {text rest : Text}
    (written : FractionText fraction text) (ends : NoDigit rest) (point : rest.head? ≠ some '.')
    (place : Nat) :
    fractionPart ⟨place, text ++ rest⟩ = .ok (fraction, ⟨place + text.length, rest⟩) := by
  cases written with
  | none =>
    cases rest with
    | nil => rfl
    | cons c tail =>
      have other : c ≠ '.' := fun same => point (by simp [same])
      simp [fractionPart, other]
  | digits some' all =>
    have run := pastWhole all ends (place + 1)
    simp [fractionPart, run, some']
    omega

theorem fractionHead {fraction : Option Text} {text rest : Text}
    (written : FractionText fraction text) (ends : NoDigit rest) : NoDigit (text ++ rest) := by
  cases written with
  | none => exact ends
  | digits some' all =>
    intro c head
    cases head
    decide

theorem numeralAt {x : Numeral} {text rest : Text} (written : NumeralText x text)
    (stops : Stops rest) (place : Nat) :
    numeral x.negative ⟨place, text ++ rest⟩ = .ok (x, ⟨place + text.length, rest⟩) := by
  obtain ⟨fraction, exponent, rfl, whole, fractional, exponential⟩ := written
  obtain ⟨ends, point⟩ := exponentHead exponential stops
  have first := wholeAt whole (fractionHead fractional ends) place
  have second := fractionAt fractional ends point (place + x.whole.length)
  have third := exponentAt exponential stops (place + x.whole.length + fraction.length)
  simp [numeral, bind, Except.bind, pure, Except.pure, first, second, third]
  omega

theorem numberAt {c : Cursor} {x : Numeral} {next : Cursor}
    (found : numeral (c.rest.head? == some '-')
      (if c.rest.head? == some '-' then ⟨c.place + 1, c.rest.drop 1⟩ else c) = .ok (x, next)) :
    ∃ node, numberNode c = (node, next) ∧ node.tree? = some (.number x.value?) := by
  simp only [numberNode, found]
  cases value : x.value? with
  | none => exact ⟨_, rfl, rfl⟩
  | some number => exact ⟨_, rfl, rfl⟩

theorem scalarNumber {c : Char} (first : c = '-' ∨ isDigit c = true) (place : Nat) (rest : Text) :
    scalar ⟨place, c :: rest⟩ = numberNode ⟨place, c :: rest⟩ := by
  have text : (c == '"') = false := by
    rcases first with rfl | digit
    · decide
    · exact beq_false_of_ne fun same => by simp [same, isDigit] at digit
  rcases first with rfl | digit <;> simp_all [scalar]

theorem digitSolid {d : Char} (digit : isDigit d = true) :
    isSpace d = false ∧ d ∉ ['[', ']', '{', '}'] ∧ d ≠ '-' := by
  have none : ∀ e ∈ [' ', '\n', '\t', '\r', '[', ']', '{', '}', '-'], isDigit e = false :=
    Text.eachChar (by decide)
  have other : d ∉ [' ', '\n', '\t', '\r', '[', ']', '{', '}', '-'] := fun member => by
    simp [none d member] at digit
  simp only [List.mem_cons, List.not_mem_nil, or_false, not_or] at other
  simp [isSpace, other]

def signed (negative : Bool) (digits : Text) : Text := if negative then '-' :: digits else digits

theorem readsNumeral {x : Numeral} {text : Text} (written : NumeralText x text) :
    Reads (signed x.negative text) (.number x.value?) := by
  obtain ⟨negative, whole, fraction, exponent⟩ := x
  cases negative with
  | true =>
    refine readsScalar (by decide) (by decide) fun place rest stops => ?_
    have found := numeralAt written stops (place + 1)
    obtain ⟨node, read, means⟩ := numberAt (c := ⟨place, '-' :: (text ++ rest)⟩) (by simpa using found)
    exact ⟨node, _, by rw [scalarNumber (.inl rfl), read], means⟩
  | false =>
    obtain ⟨d, tail, rfl, first⟩ : ∃ d tail, text = d :: tail ∧ isDigit d = true := by
      obtain ⟨fraction, exponent, rfl, ⟨nonempty, all, -⟩, -⟩ := written
      obtain ⟨d, tail, rfl⟩ := List.exists_cons_of_ne_nil nonempty
      exact ⟨d, _, rfl, all d List.mem_cons_self⟩
    obtain ⟨solid, bracket, minus⟩ := digitSolid first
    refine readsScalar solid bracket fun place rest stops => ?_
    have plus : (some d == some '-') = false := by simpa using minus
    have found := numeralAt written stops place
    rw [List.cons_append] at found
    obtain ⟨node, read, means⟩ := numberAt (c := ⟨place, d :: (tail ++ rest)⟩)
      (by simpa only [List.head?_cons, plus, Bool.false_eq_true, if_false] using found)
    exact ⟨node, _, by rw [scalarNumber (.inr first), read], means⟩

theorem readsInteger {digits : Text} (whole : WholeDigits digits) (negative : Bool) :
    Reads (signed negative digits) (.number (Numeral.value? ⟨negative, digits, none, none⟩)) :=
  readsNumeral (x := ⟨negative, digits, none, none⟩) ⟨[], [], by simp, whole, .none, .none⟩

theorem stringBodyAt {body : Text} {text : Option Text} (inside : Inside body text) (place : Nat)
    (rest : Text) : ∃ read next, stringBody ⟨place, body ++ '"' :: rest⟩ = ⟨read, .ok ⟨next, rest⟩⟩ ∧
      read.toOption = text := by
  obtain ⟨marks, next, cut, joined⟩ := inside place rest
  exact ⟨joinPieces (.closed ⟨next, rest⟩) marks, next, by simp [stringBody, cut, Ending.skip], joined⟩

theorem readsString {body : Text} {text : Option Text} (inside : Inside body text) :
    Reads ('"' :: (body ++ ['"'])) (.string text) := by
  refine readsScalar (by decide) (by decide) fun place rest _ => ?_
  obtain ⟨read, next, found, same⟩ := stringBodyAt inside (place + 1) rest
  refine ⟨.string read place next, next, ?_, by simp [Node.tree?, same]⟩
  simp [scalar, stringNode, found]

theorem valueEmptyList {blanks : Text} (blank : Blank blanks) (fuel place : Nat) (rest : Text) :
    value (fuel + 1) ⟨place, '[' :: (blanks ++ ']' :: rest)⟩ =
      (.array [] (.closed (place + 1 + blanks.length + 1)) place,
        ⟨place + 1 + blanks.length + 1, rest⟩) := by
  simp [value, skipNothing (by decide : isSpace '[' = false),
    skipBlanks blank (by decide : isSpace ']' = false)]

theorem valueList {blanks body : Text} (blank : Blank blanks) (opens : Opens body)
    (fuel place : Nat) :
    value (fuel + 1) ⟨place, '[' :: (blanks ++ body)⟩ =
      let inner := items fuel ⟨place + 1 + blanks.length, body⟩
      (.array inner.1 inner.2.1 place, inner.2.2) := by
  obtain ⟨c, rest, rfl, solid, close, -⟩ := opens
  simp [value, skipNothing (by decide : isSpace '[' = false), skipBlanks blank solid, close]

theorem valueEmptyObject {blanks : Text} (blank : Blank blanks) (fuel place : Nat) (rest : Text) :
    value (fuel + 1) ⟨place, '{' :: (blanks ++ '}' :: rest)⟩ =
      (.object [] (.closed (place + 1 + blanks.length + 1)) place,
        ⟨place + 1 + blanks.length + 1, rest⟩) := by
  simp [value, skipNothing (by decide : isSpace '{' = false),
    skipBlanks blank (by decide : isSpace '}' = false)]

theorem valueObject {blanks body : Text} (blank : Blank blanks) (opens : Opens body)
    (fuel place : Nat) :
    value (fuel + 1) ⟨place, '{' :: (blanks ++ body)⟩ =
      let inner := members fuel ⟨place + 1 + blanks.length, body⟩
      (.object inner.1 inner.2.1 place, inner.2.2) := by
  obtain ⟨c, rest, rfl, solid, -, close⟩ := opens
  simp [value, skipNothing (by decide : isSpace '{' = false), skipBlanks blank solid, close]

theorem readsEmptyList {blanks : Text} (blank : Blank blanks) :
    Reads ('[' :: (blanks ++ [']'])) (.array []) := by
  refine ⟨⟨'[', _, rfl, by decide⟩, fun fuel place rest enough _ => ?_⟩
  obtain ⟨fuel, rfl⟩ : ∃ f, fuel = f + 1 := ⟨fuel - 1, by omega⟩
  have read := valueEmptyList blank fuel place rest
  exact ⟨_, _, by simpa using read, rfl⟩

theorem readsList {blanks body : Text} {trees : List Tree} (blank : Blank blanks)
    (inside : ReadsItems body trees) : Reads ('[' :: (blanks ++ (body ++ [']']))) (.array trees) := by
  refine ⟨⟨'[', _, rfl, by decide⟩, fun fuel place rest enough _ => ?_⟩
  obtain ⟨fuel, rfl⟩ : ∃ f, fuel = f + 1 := ⟨fuel - 1, by omega⟩
  simp only [List.length_cons, List.length_append, List.length_nil] at enough
  have read := valueList blank (opensAppend inside.opens (']' :: rest)) fuel place
  obtain ⟨nodes, stop, next, found, means⟩ :=
    inside.read fuel (place + 1 + blanks.length) rest (by omega)
  rw [found] at read
  exact ⟨_, _, by simpa using read, by simp [Node.tree?, means]⟩

theorem readsEmptyObject {blanks : Text} (blank : Blank blanks) :
    Reads ('{' :: (blanks ++ ['}'])) (.object []) := by
  refine ⟨⟨'{', _, rfl, by decide⟩, fun fuel place rest enough _ => ?_⟩
  obtain ⟨fuel, rfl⟩ : ∃ f, fuel = f + 1 := ⟨fuel - 1, by omega⟩
  have read := valueEmptyObject blank fuel place rest
  exact ⟨_, _, by simpa using read, rfl⟩

theorem readsObject {blanks body : Text} {trees : List (Option Text × Tree)}
    (blank : Blank blanks) (inside : ReadsMembers body trees) :
    Reads ('{' :: (blanks ++ (body ++ ['}']))) (.object trees) := by
  refine ⟨⟨'{', _, rfl, by decide⟩, fun fuel place rest enough _ => ?_⟩
  obtain ⟨fuel, rfl⟩ : ∃ f, fuel = f + 1 := ⟨fuel - 1, by omega⟩
  simp only [List.length_cons, List.length_append, List.length_nil] at enough
  have read := valueObject blank (opensAppend inside.opens ('}' :: rest)) fuel place
  obtain ⟨nodes, stop, next, found, means⟩ :=
    inside.read fuel (place + 1 + blanks.length) rest (by omega)
  rw [found] at read
  exact ⟨_, _, by simpa using read, by simp [Node.tree?, means]⟩

theorem spaceStops {c : Char} (space : isSpace c = true) :
    c ∈ [' ', '\n', '\t', '\r', ',', ']', '}'] := by
  have blank : c ∈ [' ', '\n', '\t', '\r'] := by simpa [isSpace, or_assoc] using space
  exact List.mem_append_left [',', ']', '}'] blank

theorem stopsBlank {blanks : Text} (blank : Blank blanks) {c : Char} (rest : Text)
    (mark : c ∈ [',', ']', '}']) : Stops (blanks ++ c :: rest) := by
  intro d head
  cases blanks with
  | nil =>
    obtain rfl : c = d := by simpa using head
    have all : ∀ m ∈ [',', ']', '}'], m ∈ [' ', '\n', '\t', '\r', ',', ']', '}'] :=
      Text.eachChar (by decide)
    exact all c mark
  | cons b more =>
    obtain rfl : b = d := by simpa using head
    exact spaceStops (blank b List.mem_cons_self)

theorem readsLastItem {text after : Text} {tree : Tree} (item : Reads text tree)
    (blank : Blank after) : ReadsItems (text ++ after) [tree] := by
  refine ⟨opensAppend item.opens after, fun fuel place rest enough => ?_⟩
  obtain ⟨fuel, rfl⟩ : ∃ f, fuel = f + 1 := ⟨fuel - 1, by omega⟩
  rw [List.length_append] at enough
  obtain ⟨node, next, found, means⟩ := item.read fuel place (after ++ ']' :: rest) (by omega)
    (stopsBlank blank rest (by decide))
  have close := nextClosed blank (by decide : isSpace ']' = false) next rest
  refine ⟨[node], next + after.length + 1, next + after.length + 1, ?_, by simp [itemTrees?, means]⟩
  simp only [items, List.append_assoc, found, close]

theorem readsItem {text before behind body : Text} {tree : Tree} {trees : List Tree}
    (item : Reads text tree) (front : Blank before) (back : Blank behind)
    (more : ReadsItems body trees) :
    ReadsItems (text ++ (before ++ ',' :: (behind ++ body))) (tree :: trees) := by
  refine ⟨opensAppend item.opens _, fun fuel place rest enough => ?_⟩
  obtain ⟨fuel, rfl⟩ : ∃ f, fuel = f + 1 := ⟨fuel - 1, by omega⟩
  simp only [List.length_append, List.length_cons] at enough
  obtain ⟨node, next, found, means⟩ := item.read fuel place
    (before ++ ',' :: (behind ++ (body ++ ']' :: rest))) (by omega)
    (stopsBlank front _ (by decide))
  obtain ⟨nodes, stop, last, others, mean⟩ :=
    more.read fuel (next + before.length + 1 + behind.length) rest (by omega)
  refine ⟨node :: nodes, stop, last, ?_, by simp [itemTrees?, means, mean]⟩
  have comma := nextComma front back (opensAppend more.opens (']' :: rest)) (.inl rfl) next
  simp only [items, List.append_assoc, List.cons_append, found, comma, others]

def keyText (key before behind : Text) : Text := '"' :: (key ++ '"' :: (before ++ ':' :: behind))

theorem keyFound {key before : Text} {name : Option Text} (inside : Inside key name)
    (front : Blank before) (behind : Text) (place : Nat) (rest : Text) :
    ∃ k next, keyAt ⟨place, keyText key before behind ++ rest⟩ =
      .ok (k, .ok ⟨next, behind ++ rest⟩) ∧ k.name.toOption = name := by
  obtain ⟨read, next, found, same⟩ :=
    stringBodyAt inside (place + 1) (before ++ ':' :: (behind ++ rest))
  have colon := skipBlanks front (by decide : isSpace ':' = false) next (behind ++ rest)
  refine ⟨⟨read, next + before.length⟩, next + before.length + 1, ?_, same⟩
  simp [keyAt, keyText, found, colon]

theorem memberStart {key before behind text : Text} {name : Option Text} {tree : Tree}
    (inside : Inside key name) (front : Blank before) (back : Blank behind)
    (item : Reads text tree) (fuel place : Nat) {rest : Text}
    (enough : text.length < fuel) (stops : Stops rest) :
    ∃ k colon node next,
      keyAt ⟨place, keyText key before behind ++ (text ++ rest)⟩ = .ok (k, .ok colon) ∧
      k.name.toOption = name ∧ value fuel colon = (node, ⟨next, rest⟩) ∧
      node.tree? = some tree := by
  obtain ⟨k, colon, found, same⟩ := keyFound inside front behind place (text ++ rest)
  obtain ⟨fuel, rfl⟩ : ∃ f, fuel = f + 1 := ⟨fuel - 1, by omega⟩
  obtain ⟨node, next, read, means⟩ :=
    item.read (fuel + 1) (colon + behind.length) rest enough stops
  refine ⟨k, _, node, next, found, same, ?_, means⟩
  rw [valueBehind back (opensAppend item.opens rest), read]

theorem opensKey (key before behind rest : Text) : Opens (keyText key before behind ++ rest) :=
  ⟨'"', _, rfl, by decide⟩

theorem readsLastMember {key before behind text after : Text} {name : Option Text} {tree : Tree}
    (inside : Inside key name) (front : Blank before) (back : Blank behind)
    (item : Reads text tree) (blank : Blank after) :
    ReadsMembers (keyText key before behind ++ (text ++ after)) [(name, tree)] := by
  refine ⟨opensKey key before behind _, fun fuel place rest enough => ?_⟩
  obtain ⟨fuel, rfl⟩ : ∃ f, fuel = f + 1 := ⟨fuel - 1, by omega⟩
  simp only [List.length_append] at enough
  obtain ⟨k, colon, node, next, found, rfl, read, means⟩ := memberStart inside front back item
    fuel place (by omega) (stopsBlank blank rest (c := '}') (by decide))
  have close := nextClosed blank (by decide : isSpace '}' = false) next rest
  refine ⟨[(k, node)], next + after.length + 1, next + after.length + 1, ?_,
    by simp [memberTrees?, means]⟩
  simp only [members, List.append_assoc, found, read, close]

theorem readsMember {key before behind text after gap body : Text} {name : Option Text}
    {tree : Tree} {trees : List (Option Text × Tree)}
    (inside : Inside key name) (front : Blank before) (back : Blank behind)
    (item : Reads text tree) (blank : Blank after) (space : Blank gap)
    (more : ReadsMembers body trees) :
    ReadsMembers (keyText key before behind ++ (text ++ (after ++ ',' :: (gap ++ body))))
      ((name, tree) :: trees) := by
  refine ⟨opensKey key before behind _, fun fuel place rest enough => ?_⟩
  obtain ⟨fuel, rfl⟩ : ∃ f, fuel = f + 1 := ⟨fuel - 1, by omega⟩
  simp only [List.length_append, List.length_cons] at enough
  obtain ⟨k, colon, node, next, found, rfl, read, means⟩ := memberStart inside front back item
    fuel place (by omega)
    (stopsBlank blank (gap ++ (body ++ '}' :: rest)) (c := ',') (by decide))
  have comma := nextComma blank space (opensAppend more.opens ('}' :: rest)) (.inr rfl) next
  obtain ⟨nodes, stop, last, others, mean⟩ :=
    more.read fuel (next + after.length + 1 + gap.length) rest (by omega)
  refine ⟨(k, node) :: nodes, stop, last, ?_, by simp [memberTrees?, means, mean]⟩
  simp only [members, List.append_assoc, List.cons_append, found, read, comma, others]

end ShaderReflection.Json
