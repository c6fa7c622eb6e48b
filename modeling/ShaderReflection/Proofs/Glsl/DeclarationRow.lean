import ShaderReflection.Proofs.Glsl.Rendering
/-!
Rows that declare a variable. The words in front of the qualifier are no qualifiers, so the scan
finds the one qualifier, type and name of the row, and no struct begins there.
-/
namespace ShaderReflection.Glsl
open Text

structure FrontWord (w : Text) : Prop where
  code : CodeWord w
  unended : ';' ∉ w
  free : w ∉ qualifiers
  structless : structKeyword ∉ wordRuns w

theorem nameStructless {w : Text} (name : Name w) : structKeyword ∉ wordRuns w := by
  rw [runsWord (nameChars name), List.mem_singleton]
  rintro rfl
  exact name.free List.mem_cons_self

theorem nameFront {w : Text} (name : Name w) : FrontWord w :=
  ⟨nameCode name, nameLacks name rfl, nameFree name, nameStructless name⟩

theorem markedFree {w : Text} {c : Char} (member : c ∈ w) (mark : isWordChar c = false) :
    w ∉ qualifiers := by
  intro qualifies
  rw [qualifierChars w qualifies c member] at mark
  cases mark

theorem markedFront {w : Text} {c : Char} (member : c ∈ w) (mark : isWordChar c = false)
    (chars : ∀ c ∈ w, isBlank c = false ∧ c ∉ ['/', ';', 's']) : FrontWord w where
  code := ⟨⟨List.ne_nil_of_mem member, fun c inside => (chars c inside).1⟩,
    fun slash => (chars '/' slash).2 (by decide)⟩
  unended := fun ended => (chars ';' ended).2 (by decide)
  free := markedFree member mark
  structless := runsWithout fun letter => (chars 's' letter).2 (by decide)

theorem decimalDigit {n : Nat} {c : Char} (member : c ∈ decimal n) : isDigit c = true := by
  simp [isDigit, decimalDigits member]

theorem decimalChars {n : Nat} : ∀ c ∈ decimal n, isBlank c = false ∧ c ∉ ['/', ';', 's'] := by
  intro c member
  have digit := decimalDigit member
  refine ⟨wordCharSolid (by simp [isWordChar, digit]), fun mark => ?_⟩
  have none : ∀ c ∈ ['/', ';', 's'], isDigit c = false := eachChar (by decide)
  rw [none c mark] at digit
  cases digit

theorem numeralChars {n : Int} :
    ∀ c ∈ signedDecimal n, isBlank c = false ∧ c ∉ ['/', ';', 's'] := by
  unfold signedDecimal
  split
  · exact List.forall_mem_cons.mpr ⟨by decide, decimalChars⟩
  · exact decimalChars

theorem keyFront {opening key : Text} (begins : opening = [] ∨ opening = "layout(".toList)
    (name : Name key) : FrontWord (opening ++ key) := by
  rcases begins with rfl | rfl
  · exact nameFront name
  -- The bracket parts the word into two runs, neither of which is the keyword of a struct.
  have bracket : '(' ∈ "layout(".toList ++ key := List.mem_append_left _ (by decide)
  refine ⟨?_, ?_, markedFree bracket rfl, ?_⟩
  · have layout : CodeWord "layout(".toList := ⟨⟨by decide, eachChar (by decide)⟩, by decide⟩
    refine codeAppend layout fun c member => ?_
    have word := nameChars name c member
    refine ⟨wordCharSolid word, fun same => ?_⟩
    rw [same] at word
    cases word
  · rw [List.mem_append, not_or]
    exact ⟨by decide, nameLacks name rfl⟩
  · have layout : wordRuns "layout".toList = ["layout".toList] := by decide
    have runs : wordRuns ("layout".toList ++ '(' :: key) = ["layout".toList, key] := by
      rw [runsSeparator rfl, runsWord (nameChars name), layout]
      rfl
    change structKeyword ∉ wordRuns ("layout".toList ++ '(' :: key)
    rw [runs, List.mem_cons, List.mem_singleton, not_or]
    refine ⟨by decide, ?_⟩
    rintro rfl
    exact name.free List.mem_cons_self

theorem listFront {opening : Text} (begins : opening = [] ∨ opening = "layout(".toList)
    {items : List (Text × Int)} (named : ∀ item ∈ items, Name item.1) :
    ∀ w ∈ Specifier.listWords opening items, FrontWord w := by
  have equals : FrontWord ['='] := markedFront List.mem_cons_self rfl (eachChar (by decide))
  have number (value : Int) {c : Char} (mark : isWordChar c = false)
      (plain : isBlank c = false ∧ c ∉ ['/', ';', 's']) : FrontWord (signedDecimal value ++ [c]) := by
    refine markedFront (List.mem_append_right _ List.mem_cons_self) mark ?_
    rw [List.forall_mem_append, List.forall_mem_singleton]
    exact ⟨numeralChars, plain⟩
  induction items generalizing opening with
  | nil =>
    rw [Specifier.listWords, List.forall_mem_singleton]
    refine markedFront (List.mem_append_right _ List.mem_cons_self) rfl ?_
    rcases begins with rfl | rfl <;> exact eachChar (by decide)
  | cons item rest ih =>
    obtain ⟨key, value⟩ := item
    obtain ⟨first, others⟩ := List.forall_mem_cons.mp named
    have head := keyFront begins first
    cases rest with
    | nil =>
      simp only [Specifier.listWords, List.forall_mem_cons]
      exact ⟨head, equals, number value rfl (by decide), List.forall_mem_nil _⟩
    | cons next more =>
      rw [Specifier.listWords, List.forall_mem_append]
      · simp only [List.forall_mem_cons]
        exact ⟨⟨head, equals, number value rfl (by decide), List.forall_mem_nil _⟩,
          ih (.inl rfl) others⟩
      · exact List.cons_ne_nil next more

theorem specifierFront {s : Specifier} (named : s.Named) : ∀ w ∈ s.words, FrontWord w := by
  cases s with
  | word w => exact List.forall_mem_singleton.mpr (nameFront named)
  | layout items => exact listFront (.inr rfl) named

section Row
variable {specifiers : List Specifier} {role : Role} {type name : Text}

theorem frontWords (specified : ∀ s ∈ specifiers, s.Named) :
    ∀ w ∈ specifiers.flatMap Specifier.words, FrontWord w := by
  intro w member
  obtain ⟨s, inside, word⟩ := List.mem_flatMap.mp member
  exact specifierFront (specified s inside) w word

theorem suffixChars (count : Option Nat) :
    ∀ c ∈ arraySuffix count, isBlank c = false ∧ c ∉ ['/', ';', 's'] := by
  cases count with
  | none => exact List.forall_mem_nil _
  | some n =>
    refine List.forall_mem_cons.mpr ⟨by decide, ?_⟩
    rw [List.forall_mem_append, List.forall_mem_singleton]
    exact ⟨decimalChars, by decide⟩

theorem suffixLacks {c : Char} (other : isDigit c = false) (plain : c ∉ ['[', ']'])
    (count : Option Nat) : c ∉ arraySuffix count := by
  cases count with
  | none => exact List.not_mem_nil
  | some n =>
    rw [List.mem_cons, List.mem_singleton, not_or] at plain
    rw [arraySuffix, List.mem_cons, List.mem_append, List.mem_singleton, not_or, not_or]
    refine ⟨plain.1, fun digit => ?_, plain.2⟩
    rw [decimalDigit digit] at other
    cases other

theorem declarationCode (specified : ∀ s ∈ specifiers, s.Named) (typed : Name type)
    (named : Name name) (count : Option Nat) :
    ∀ w ∈ declarationWords specifiers role type name count, CodeWord w := by
  rw [declarationWords, List.forall_mem_append]
  refine ⟨fun w member => (frontWords specified w member).code, ?_⟩
  simp only [List.forall_mem_cons]
  refine ⟨qualifierCode (keywordQualifies role), nameCode typed, ?_, List.forall_mem_nil _⟩
  refine codeAppend (nameCode named) ?_
  rw [List.forall_mem_append, List.forall_mem_singleton]
  refine ⟨fun c member => ?_, by decide⟩
  obtain ⟨solid, plain⟩ := suffixChars count c member
  exact ⟨solid, fun same => plain (by simp [same])⟩

theorem suffixUnended (named : Name name) (count : Option Nat) : ';' ∉ name ++ arraySuffix count := by
  rw [List.mem_append, not_or]
  exact ⟨nameLacks named rfl, fun ended => (suffixChars count ';' ended).2 (by decide)⟩

theorem declarationTokens (specified : ∀ s ∈ specifiers, s.Named) (typed : Name type)
    (named : Name name) (count : Option Nat) :
    tokensOf (declarationWords specifiers role type name count) =
      specifiers.flatMap Specifier.words ++ [role.keyword, type, name ++ arraySuffix count] := by
  have front := tokensUnended fun w member =>
    have word := frontWords specified w member
    ⟨word.code.solid.nonempty, word.unended⟩
  have keyword := keywordQualifies role
  have middle : tokensOf [role.keyword, type] = [role.keyword, type] := by
    refine tokensUnended (List.forall_mem_cons.mpr ⟨⟨?_, ?_⟩, List.forall_mem_singleton.mpr ⟨?_, ?_⟩⟩)
    · exact (qualifierCode keyword).solid.nonempty
    · exact fun ended => nomatch qualifierChars _ keyword ';' ended
    · exact nameNonempty typed
    · exact nameLacks typed rfl
  have some' : name ++ arraySuffix count ≠ [] := by
    intro empty
    exact nameNonempty named (List.append_eq_nil_iff.mp empty).1
  have last := tokenEnded some' (suffixUnended named count)
  rw [List.append_assoc] at last
  have shape : declarationWords specifiers role type name count =
      specifiers.flatMap Specifier.words ++
        ([role.keyword, type] ++ [name ++ (arraySuffix count ++ [';'])]) := rfl
  rw [shape, tokensOfAppend, tokensOfAppend, front, middle, last]
  rfl

theorem declaredNameSuffix (named : Name name) (count : Option Nat) :
    declaredName (name ++ arraySuffix count) = name := by
  have comma : ',' ∉ name ++ arraySuffix count := by
    rw [List.mem_append, not_or]
    exact ⟨nameLacks named rfl, suffixLacks rfl (by decide) count⟩
  have before : ∀ c ∈ name, (c != '[') = true := fun c member =>
    bne_iff_ne.mpr fun same => nameLacks named (c := '[') rfl (same ▸ member)
  rw [declaredName, trimEndNothing (otherChars comma), upTo, List.takeWhile_append_of_pos before]
  cases count with
  | none => exact List.append_nil name
  | some n => exact List.append_nil name

theorem declarationDeclares {tail : Text} (specified : ∀ s ∈ specifiers, s.Named)
    (typed : Name type) (named : Name name) (count : Option Nat) (blank : Tail tail) :
    (Line.ofText (row (declarationWords specifiers role type name count) tail)).declared
      role.keyword = .named type name := by
  have suffix := declaredNameSuffix named count
  have declared := rowDeclares (declarationCode specified typed named count) blank
    (by cases role <;> rfl) (declarationTokens specified typed named count)
    (fun member => (frontWords specified _ member).free (keywordQualifies role)) typed.identifier
    (by rw [suffix]; exact named.identifier)
  rwa [suffix] at declared

theorem declarationOthers {other : Role} {tail : Text} (differ : other ≠ role)
    (specified : ∀ s ∈ specifiers, s.Named) (typed : Name type) (named : Name name)
    (count : Option Nat) (blank : Tail tail) :
    (Line.ofText (row (declarationWords specifiers role type name count) tail)).declared
      other.keyword = .absent := by
  refine rowAbsent (declarationCode specified typed named count) blank
    (by cases other <;> rfl) ?_
  have keyword := keywordQualifies other
  rw [declarationTokens specified typed named count, List.mem_append, not_or]
  refine ⟨fun member => (frontWords specified _ member).free keyword, ?_⟩
  simp only [List.mem_cons, List.not_mem_nil, or_false, not_or]
  refine ⟨?_, ?_, ?_⟩
  · revert differ
    cases other <;> cases role <;> decide
  · exact fun same => nameFree typed (same ▸ keyword)
  · cases count with
    | none =>
      rw [arraySuffix, List.append_nil]
      exact fun same => nameFree named (same ▸ keyword)
    | some n =>
      have bracket : '[' ∈ name ++ arraySuffix (some n) :=
        List.mem_append_right _ List.mem_cons_self
      exact fun same => markedFree bracket rfl (same ▸ keyword)

theorem lastStructless (named : Name name) (count : Option Nat) :
    structKeyword ∉ wordRuns (name ++ (arraySuffix count ++ [';'])) := by
  have bracketed {mark : Char} {rest : Text} (separates : isWordChar mark = false)
      (lacks : 's' ∉ rest) : structKeyword ∉ wordRuns (name ++ mark :: rest) := by
    rw [runsSeparator separates, List.mem_append, not_or]
    exact ⟨nameStructless named, runsWithout lacks⟩
  cases count with
  | none => exact bracketed rfl List.not_mem_nil
  | some n =>
    have lacks : 's' ∉ decimal n ++ [']'] ++ [';'] := by
      simp only [List.mem_append, List.mem_singleton, not_or]
      exact ⟨⟨fun digit => (decimalChars 's' digit).2 (by decide), by decide⟩, by decide⟩
    exact bracketed rfl lacks

theorem declarationIdle {tail : Text} (specified : ∀ s ∈ specifiers, s.Named)
    (typed : Name type) (named : Name name) (count : Option Nat) (blank : Tail tail) :
    Scanner.idle.feed (row (declarationWords specifiers role type name count) tail) =
      (.idle, none) := by
  have keywords : ∀ k ∈ qualifiers, structKeyword ∉ wordRuns k := by decide
  have structless : ∀ w ∈ declarationWords specifiers role type name count,
      structKeyword ∉ wordRuns w := by
    rw [declarationWords, List.forall_mem_append]
    refine ⟨fun w member => (frontWords specified w member).structless, ?_⟩
    simp only [List.forall_mem_cons]
    exact ⟨keywords _ (keywordQualifies role), nameStructless typed, lastStructless named count,
      List.forall_mem_nil _⟩
  exact rowIdle (declarationCode specified typed named count) structless blank

end Row

end ShaderReflection.Glsl
