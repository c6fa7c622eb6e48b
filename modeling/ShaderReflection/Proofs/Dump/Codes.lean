import ShaderReflection.Proofs.Dump.Entry
/-!
Type codes in every spelling. A code stands for the number that its digits spell, never for a
remainder of it, and what spells no number stands for no known type.
-/
namespace ShaderReflection.Dump
open Text

def hexDigits : Text := "0123456789abcdefABCDEF".toList

structure HexDigits (t : Text) : Prop where
  nonempty : t ≠ []
  digits : ∀ c ∈ t, c ∈ hexDigits

/-- The code spells the number: blanks may stand around it, marks and a plus sign in front of the
digits. -/
inductive Spells (n : Nat) : Text → Prop where
  | code {front sign digits back : Text} (marks : Nat) (before : Blank front)
      (signed : sign = [] ∨ sign = ['+']) (numeral : Numeral 16 n digits) (behind : Blank back) :
      Spells n (front ++ ((List.replicate marks "0x".toList).flatten ++ (sign ++ digits) ++ back))

theorem digitHex {c : Char} : (digit? 16 c).isSome = true ↔ c ∈ hexDigits := by
  have small : ∀ n < 128, (digit? 16 (Char.ofNat n)).isSome = true ↔ Char.ofNat n ∈ hexDigits := by
    decide +kernel
  have ascii {m : Nat} (below : c.toNat < m) (within : m ≤ 128) :
      (digit? 16 c).isSome = true ↔ c ∈ hexDigits := by
    have same := small c.toNat (by omega)
    rwa [Char.ofNat_toNat] at same
  constructor
  · intro some'
    obtain ⟨d, digit⟩ := Option.isSome_iff_exists.mp some'
    have char := digitAlphanumeric digit
    unfold Alphanumeric at char
    exact (ascii (m := 123) (by omega) (by decide)).mp some'
  · intro member
    have below : ∀ d ∈ hexDigits, d.toNat < 103 := eachChar (by decide)
    exact (ascii (below c member) (by decide)).mpr member

theorem hexRead {t : Text} (all : ∀ c ∈ t, c ∈ hexDigits) (acc : Nat) :
    ∃ n, readDigits 16 acc t = some n := by
  induction t generalizing acc with
  | nil => exact ⟨acc, rfl⟩
  | cons c rest ih =>
    rw [List.forall_mem_cons] at all
    obtain ⟨d, digit⟩ := Option.isSome_iff_exists.mp (digitHex.mpr all.1)
    obtain ⟨n, read⟩ := ih all.2 (acc * 16 + d)
    exact ⟨n, by rw [readDigits, digit, Option.bind_some, read]⟩

theorem readHex {t : Text} {acc n : Nat} (read : readDigits 16 acc t = some n) :
    ∀ c ∈ t, c ∈ hexDigits := by
  induction t generalizing acc with
  | nil => exact List.forall_mem_nil _
  | cons c rest ih =>
    obtain ⟨d, digit, more⟩ := Option.bind_eq_some_iff.mp read
    exact List.forall_mem_cons.mpr ⟨digitHex.mp (by rw [digit]; rfl), ih more⟩

theorem hexSpelled {t : Text} : HexDigits t ↔ ∃ n, Numeral 16 n t := by
  constructor
  · rintro ⟨some', all⟩
    obtain ⟨n, read⟩ := hexRead all 0
    exact ⟨n, numeralRead (by decide) (by decide) some' read⟩
  · rintro ⟨n, numeral⟩
    exact ⟨numeralNonempty numeral, readHex (numeralDigits (by decide) (by decide) numeral)⟩

theorem marksDropped (marks : Nat) {t : Text} (unmarked : dropHexMarks t = t) :
    dropHexMarks ((List.replicate marks "0x".toList).flatten ++ t) = t := by
  induction marks with
  | zero => exact unmarked
  | succ marks ih =>
    rw [List.replicate_succ, List.flatten_cons, List.append_assoc]
    exact ih

theorem marksParts (t : Text) :
    ∃ marks, t = (List.replicate marks "0x".toList).flatten ++ dropHexMarks t := by
  fun_induction dropHexMarks t with
  | case1 r ih =>
    obtain ⟨marks, shape⟩ := ih
    refine ⟨marks + 1, ?_⟩
    rw [List.replicate_succ, List.flatten_cons, List.append_assoc, ← shape]
    rfl
  | case2 t other => exact ⟨0, rfl⟩

theorem signParts (t : Text) : ∃ sign, (sign = [] ∨ sign = ['+']) ∧ t = sign ++ dropPlus t := by
  unfold dropPlus
  split
  · exact ⟨['+'], .inr rfl, rfl⟩
  · exact ⟨[], .inl rfl, rfl⟩

theorem numeralUnsigned {n : Nat} {digits : Text} (numeral : Numeral 16 n digits) :
    dropPlus digits = digits := by
  rw [dropPlus]
  rintro rest rfl
  have plus := numeralChars (by decide) (by decide) numeral '+' List.mem_cons_self
  exact absurd plus (by decide)

theorem signDropped {sign digits : Text} {n : Nat} (signed : sign = [] ∨ sign = ['+'])
    (numeral : Numeral 16 n digits) :
    dropHexMarks (sign ++ digits) = sign ++ digits ∧ dropPlus (sign ++ digits) = digits := by
  rcases signed with rfl | rfl
  · exact ⟨hexUnmarked (numeralDigits (by decide) (by decide) numeral), numeralUnsigned numeral⟩
  · exact ⟨rfl, rfl⟩

theorem codeSolid {sign digits : Text} {n : Nat} (marks : Nat) (signed : sign = [] ∨ sign = ['+'])
    (numeral : Numeral 16 n digits) :
    Solid ((List.replicate marks "0x".toList).flatten ++ (sign ++ digits)) where
  nonempty := by simp [numeralNonempty numeral]
  plain := by
    have marked : ∀ c ∈ (List.replicate marks "0x".toList).flatten, isBlank c = false := by
      intro c member
      obtain ⟨mark, repeated, inside⟩ := List.mem_flatten.mp member
      obtain rfl := List.eq_of_mem_replicate repeated
      have solid : ∀ d ∈ "0x".toList, isBlank d = false := eachChar (by decide)
      exact solid c inside
    have plus : ∀ c ∈ sign, isBlank c = false := by
      rcases signed with rfl | rfl
      · exact List.forall_mem_nil _
      · exact List.forall_mem_singleton.mpr (by decide)
    have digit := (numeralSolid (by decide) (by decide) numeral).plain
    simp only [List.forall_mem_append]
    exact ⟨marked, plus, digit⟩

theorem spellsExact {n : Nat} {code : Text} :
    Spells n code ↔ Numeral 16 n (dropPlus (dropHexMarks (trim code))) := by
  constructor
  · rintro ⟨marks, before, signed, numeral, behind⟩
    obtain ⟨unmarked, unsigned⟩ := signDropped signed numeral
    rw [trimInFront before, trimBehind behind, trimSolid (codeSolid marks signed numeral),
      marksDropped marks unmarked, unsigned]
    exact numeral
  · intro numeral
    obtain ⟨front, back, shape, before, behind⟩ := trimBothParts isBlank code
    obtain ⟨marks, marked⟩ := marksParts (trim code)
    obtain ⟨sign, signed, rest⟩ := signParts (dropHexMarks (trim code))
    rw [rest] at marked
    have spelled := Spells.code marks before signed numeral behind
    rw [← marked] at spelled
    exact shape ▸ spelled

theorem spelledWord {code : Text} {value : UInt32} :
    codeValue? code = some value ↔ Spells value.toNat code := by
  rw [spellsExact]
  exact wordExact (by decide) (by decide)

theorem spelledOnce {n m : Nat} {code : Text} (one : Spells n code) (other : Spells m code) :
    n = m := by
  have first := numeralDigits (by decide) (by decide) (spellsExact.mp one)
  have second := numeralDigits (by decide) (by decide) (spellsExact.mp other)
  exact Option.some.inj (first.symm.trans second)

theorem lookupByValue (table : List (UInt32 × TypeName)) (value : UInt32) :
    table.lookup value = (table.map fun p => (p.1.toNat, p.2)).lookup value.toNat := by
  induction table with
  | nil => rfl
  | cons p rest ih =>
    rw [List.map_cons, List.lookup_cons, List.lookup_cons, ih]
    by_cases same : value = p.1
    · rw [same, beq_self_eq_true, beq_self_eq_true]
    · have other : value.toNat ≠ p.1.toNat := fun equal => same (UInt32.toNat_inj.mp equal)
      rw [beq_false_of_ne same, beq_false_of_ne other]

theorem lookupLarge {n : Nat} (large : wordLimit ≤ n) (table : List (UInt32 × TypeName)) :
    (table.map fun p => (p.1.toNat, p.2)).lookup n = none := by
  rw [List.lookup_eq_none_iff]
  intro entry member
  obtain ⟨p, -, rfl⟩ := List.mem_map.mp member
  have below : p.1.toNat < wordLimit := p.1.toNat_lt
  have other : n ≠ p.1.toNat := by omega
  exact bne_iff_ne.mpr other

theorem typeListed {n : Nat} {code : Text} (spells : Spells n code) :
    typeOfCode code = ((typeTable.map fun p => (p.1.toNat, p.2)).lookup n).getD .undefined := by
  unfold typeOfCode
  cases read : codeValue? code with
  | some value =>
    obtain rfl := spelledOnce (spelledWord.mp read) spells
    rw [Option.bind_some, lookupByValue]
  | none =>
    -- A number that is not read does not fit, and the table has only words.
    have large : wordLimit ≤ n := by
      by_contra small
      have fits : n < UInt32.size := by
        rw [not_le] at small
        exact small
      have word : (UInt32.ofNat n).toNat = n := UInt32.toNat_ofNat_of_lt' fits
      rw [spelledWord.mpr (word.symm ▸ spells)] at read
      cases read
    rw [lookupLarge large]
    rfl

theorem typeUnread {code : Text} (unread : ∀ n, ¬Spells n code) : typeOfCode code = .undefined := by
  cases read : codeValue? code with
  | some value => exact absurd (spelledWord.mp read) (unread value.toNat)
  | none => rw [typeOfCode, read]; rfl

theorem codesByValue :
    (∀ n code, Spells n code →
      typeOfCode code = ([(0x8b5c, TypeName.mat4), (0x8b5b, .mat3), (0x8b51, .vec3),
        (0x8b50, .vec2), (0x8b5e, .sampler2D), (0x8b52, .vec4), (0x904d, .image2D),
        (0x8b60, .samplerCube), (0x1406, .float), (0x1404, .int)].lookup n).getD .undefined ∧
      (4294967296 ≤ n → typeOfCode code = .undefined)) ∧
    (∀ code, HexDigits (dropPlus (dropHexMarks (trim code))) ↔ ∃ n, Spells n code) ∧
    ∀ code, ¬HexDigits (dropPlus (dropHexMarks (trim code))) → typeOfCode code = .undefined := by
  have spelled (code : Text) :
      HexDigits (dropPlus (dropHexMarks (trim code))) ↔ ∃ n, Spells n code :=
    hexSpelled.trans (exists_congr fun _ => spellsExact.symm)
  refine ⟨fun n code spells => ⟨typeListed spells, fun large => ?_⟩, spelled, fun code other => ?_⟩
  · rw [typeListed spells, lookupLarge large]
    rfl
  · exact typeUnread fun n spells => other ((spelled code).mpr ⟨n, spells⟩)

theorem codesByValueWide :
    let known := " 0x0008B5c\t".toList
    let signed := "0x+1404".toList
    let unlisted := "8b5d".toList
    let wide := "0x100008b5c".toList
    let negative := "0x-1404".toList
    (Spells 0x8b5c known ∧ typeOfCode known = .mat4) ∧
      (Spells 0x1404 signed ∧ typeOfCode signed = .int) ∧
      (Spells 0x8b5d unlisted ∧ typeOfCode unlisted = .undefined) ∧
      (Spells 0x100008b5c wide ∧ typeOfCode wide = .undefined) ∧
      ¬HexDigits (dropPlus (dropHexMarks (trim negative))) ∧ typeOfCode negative = .undefined := by
  intro known signed unlisted wide negative
  have blank : Blank [' '] ∧ Blank ['\t'] ∧ Blank [] := by decide
  have padded : Numeral 16 0x8b5c "0008B5c".toList := ⟨3, by decide⟩
  have short : Numeral 16 0x1404 "1404".toList := ⟨0, by decide⟩
  have next : Numeral 16 0x8b5d "8b5d".toList := ⟨0, by decide⟩
  have long : Numeral 16 0x100008b5c "100008b5c".toList := ⟨0, by decide⟩
  have mat4 : Spells 0x8b5c known := .code 1 blank.1 (.inl rfl) padded blank.2.1
  have int : Spells 0x1404 signed := .code 1 blank.2.2 (.inr rfl) short blank.2.2
  have none : Spells 0x8b5d unlisted := .code 0 blank.2.2 (.inl rfl) next blank.2.2
  have beyond : Spells 0x100008b5c wide := .code 1 blank.2.2 (.inl rfl) long blank.2.2
  have dash : ¬HexDigits (dropPlus (dropHexMarks (trim negative))) :=
    fun hex => absurd (hex.digits '-' (by decide)) (by decide)
  obtain ⟨listed, -, unread⟩ := codesByValue
  exact ⟨⟨mat4, (listed _ known mat4).1⟩, ⟨int, (listed _ signed int).1⟩,
    ⟨none, (listed _ unlisted none).1⟩, ⟨beyond, (listed _ wide beyond).2 (by decide)⟩, dash,
    unread negative dash⟩

end ShaderReflection.Dump
