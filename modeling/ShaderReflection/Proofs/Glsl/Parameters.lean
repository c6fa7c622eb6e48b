import ShaderReflection.Proofs.Dump.Separation
import ShaderReflection.Proofs.Glsl.DeclaredText
import ShaderReflection.Proofs.Glsl.Recovery
/-!
Parameter lists. A line is searched for three neighbouring tokens and not for parentheses, so a
parameter is taken for a variable of the interface wherever its qualifier stands between blanks and
its name is not glued to a parenthesis. What is outside the parentheses matters only if it comments
the list out.
-/
namespace ShaderReflection.Glsl
open Text

structure Mark (m : Char) : Prop where
  word : isWordChar m = false
  solid : isBlank m = false
  unended : m ≠ ';'
  unslashed : m ≠ '/'
  unlisted : m ≠ ','
  unopened : m ≠ '['

theorem openingMark : Mark '(' := ⟨rfl, rfl, by decide, by decide, by decide, by decide⟩

theorem closingMark : Mark ')' := ⟨rfl, rfl, by decide, by decide, by decide, by decide⟩

section Sides
variable {core x y head rest : Text} {m : Char} (lacks : m ∉ core)
include lacks

theorem markBehind (same : core ++ y = head ++ m :: rest) :
    ∃ y', y = y' ++ m :: rest ∧ head = core ++ y' := by
  rcases List.append_eq_append_iff.mp same with ⟨y', front, back⟩ | ⟨inner, front, back⟩
  · exact ⟨y', back, front⟩
  · rcases List.cons_eq_append_iff.mp back with ⟨rfl, last⟩ | ⟨more, rfl, -⟩
    · exact ⟨[], last, by rw [front, List.append_nil, List.append_nil]⟩
    · exact absurd (by simp [front]) lacks

theorem markSide (same : x ++ (core ++ y) = head ++ m :: rest) :
    (∃ x', x = head ++ m :: x' ∧ rest = x' ++ (core ++ y)) ∨
      ∃ y', y = y' ++ m :: rest ∧ head = x ++ (core ++ y') := by
  rcases List.append_eq_append_iff.mp same with ⟨between, rfl, back⟩ | ⟨more, front, back⟩
  · obtain ⟨y', behind, rfl⟩ := markBehind lacks back
    exact .inr ⟨y', behind, rfl⟩
  · rcases List.cons_eq_append_iff.mp back with ⟨rfl, last⟩ | ⟨x', rfl, shape⟩
    · obtain ⟨y', behind, none⟩ := markBehind lacks (show core ++ y = [] ++ m :: rest from last)
      exact .inr ⟨y', behind, by rw [← none, front, List.append_nil, List.append_nil]⟩
    · exact .inl ⟨x', front, shape⟩

theorem markFirst (some' : core ≠ []) (same : x ++ (core ++ y) = m :: rest) :
    ∃ x', x = m :: x' ∧ rest = x' ++ (core ++ y) := by
  rcases markSide lacks (show _ = [] ++ m :: rest from same) with first | ⟨y', -, none⟩
  · exact first
  · simp [some'] at none

theorem markLast (some' : core ≠ []) (same : x ++ (core ++ y) = head ++ [m]) :
    ∃ y', y = y' ++ [m] ∧ head = x ++ (core ++ y') := by
  rcases markSide lacks same with ⟨x', -, none⟩ | last
  · simp [some'] at none
  · exact last

end Sides

section Mark
variable {m : Char} (mark : Mark m)
include mark

theorem closesMark (y x : Text) : closes (y ++ m :: x) = closes (y ++ [m]) := by
  have semicolon : (m == ';') = false := beq_false_of_ne mark.unended
  have slash : ('/' == m) = false := beq_false_of_ne mark.unslashed.symm
  induction y with
  | nil => simp [closes, semicolon, opensComment, List.isPrefixOf, slash]
  | cons c r ih =>
    by_cases same : c = ';'
    · rw [same]
      exact (closesBehind oneSemicolon _).trans (ih.trans (closesBehind oneSemicolon _).symm)
    · cases r with
      | nil => simp [closes, same, opensComment, List.isPrefixOf, slash]
      | cons d s => simp [closes, same, opensComment, List.isPrefixOf]

theorem nameEndsMark {y x : Text} (ends : NameEnds (y ++ m :: x)) (x' : Text) :
    NameEnds (y ++ m :: x') := by
  generalize same : y ++ m :: x = behind at ends
  cases ends with
  | suffix rest =>
    rcases List.append_eq_cons_iff.mp same with ⟨-, head⟩ | ⟨y', rfl, -⟩
    · exact absurd (List.cons.inj head).1 mark.unopened
    · exact .suffix _
  | ended only closed =>
    have lacks : m ∉ _ := fun member => mark.unlisted (only m member)
    obtain ⟨y', rfl, rfl⟩ := markBehind lacks same.symm
    rw [List.append_assoc]
    refine .ended only ?_
    rwa [closesMark mark, ← closesMark mark y' x]

end Mark

section Held
variable {k : Text} (word : isIdentifier k = true)
include word

theorem tokenHeld {t : Text} (clean : Uncommented t) :
    k ∈ tokens t ↔ ∃ a z, t = a ++ (k ++ z) ∧ opens a = true ∧ closes z = true := by
  constructor
  · intro member
    obtain ⟨front, back, shape⟩ := List.append_of_mem member
    obtain ⟨a, z, parts, begins, ends, -, -⟩ := tokensPlaced clean shape
    exact ⟨a, z, parts, begins, ends⟩
  · rintro ⟨a, z, rfl, begins, ends⟩
    rw [tokensJoined clean (identifierSolid word) (identifierWhole word) begins ends]
    simp

theorem heldMark {a y : Text} {m : Char} (mark : Mark m) (clean : Uncommented (a ++ m :: y)) :
    k ∈ tokens (a ++ m :: y) ↔ k ∈ tokens (a ++ [m]) ∨ k ∈ tokens (m :: y) := by
  have lacks : m ∉ k := identifierLacks word mark.word
  have some' : k ≠ [] := identifierNonempty word
  have front : Uncommented (a ++ [m]) := by
    rw [List.append_cons] at clean
    exact uncommentedFront clean
  rw [tokenHeld word clean, tokenHeld word front, tokenHeld word (uncommentedBehind clean)]
  constructor
  · rintro ⟨p, z, same, begins, ends⟩
    rcases markSide lacks same.symm with ⟨p', rfl, shape⟩ | ⟨z', rfl, rfl⟩
    · refine .inr ⟨m :: p', z, by rw [shape, List.cons_append], ?_, ends⟩
      rwa [opensMark mark.unended] at begins
    · exact .inl ⟨p, z' ++ [m], by simp, begins, by rwa [closesMark mark] at ends⟩
  · rintro (⟨p, z, same, begins, ends⟩ | ⟨p, z, same, begins, ends⟩)
    · obtain ⟨z', rfl, rfl⟩ := markLast lacks some' same.symm
      exact ⟨p, z' ++ m :: y, by simp, begins, by rwa [closesMark mark]⟩
    · obtain ⟨p', rfl, shape⟩ := markFirst lacks some' same.symm
      refine ⟨a ++ m :: p', z, by rw [shape]; simp, ?_, ends⟩
      rwa [opensMark mark.unended]

theorem heldNotMark {m : Char} (mark : Mark m) : k ∉ tokens [m] := fun member => by
  obtain ⟨a, z, same, -, -⟩ := (tokenHeld word (uncommentedOne m)).mp member
  have some' := identifierNonempty word
  obtain ⟨_, -, none⟩ := markFirst (identifierLacks word mark.word) some' same.symm
  simp [some'] at none

theorem spelledHeld {type name before core : Text} (code : Uncommented before)
    (begins : opens before = true) (spelled : Spelled k type name core) (x : Text) :
    k ∈ tokens (before ++ (core ++ x)) := by
  have held {x : Text} (clean : Uncommented (before ++ (core ++ x))) :
      k ∈ tokens (before ++ (core ++ x)) := by
    rw [tokenHeld word clean]
    cases spelled with
    | spaced apart =>
      refine ⟨before, _, by rw [List.append_assoc], begins, ?_⟩
      rw [List.append_assoc]
      exact gapCloses apart _
  have stripped := stripCore code (spelledNonempty word spelled)
    (spelledLacks word spelled rfl rfl (by decide)) x
  rcases tokensCases (before ++ (core ++ x)) with clean | ⟨-, token, rest, cut, -⟩
  · exact held clean
  · have code' := stripClean (before ++ (core ++ x))
    rw [stripped] at cut code'
    rw [cut]
    exact List.mem_append_left _ (held code')

end Held

section Declares
variable {k type name x : Text} {m : Char} (word : isIdentifier k = true) (mark : Mark m)
include word mark

theorem declaresBehind {head : Text} (absent : k ∉ tokens (head ++ [m])) :
    Declares k type name (head ++ m :: x) ↔
      Uncommented head ∧ Declares k type name (m :: x) := by
  constructor
  · intro declares
    generalize same : head ++ m :: x = line at declares
    cases declares with
    | placed code begins first spelled ends =>
      have lacks := spelledLacks word spelled mark.word mark.solid mark.unended
      rcases markSide lacks same.symm with ⟨before, rfl, rfl⟩ | ⟨y, -, rfl⟩
      · rw [opensMark mark.unended] at begins
        rw [heldMark word mark code, not_or] at first
        have placed := Declares.placed (uncommentedBehind code) begins first.2 spelled ends
        exact ⟨uncommentedFront code, placed⟩
      · refine absurd ?_ absent
        have held := spelledHeld word code begins spelled (y ++ [m])
        simpa only [List.append_assoc] using held
  · rintro ⟨clean, declares⟩
    generalize same : m :: x = line at declares
    cases declares with
    | placed code begins first spelled ends =>
      have lacks := spelledLacks word spelled mark.word mark.solid mark.unended
      obtain ⟨before, rfl, rfl⟩ := markFirst lacks (spelledNonempty word spelled) same.symm
      have whole : Uncommented (head ++ m :: before) :=
        uncommentedMark mark.unslashed clean
          (uncommentedPart code (List.suffix_cons m before).isInfix)
      rw [← opensMark mark.unended head] at begins
      have fresh : k ∉ tokens (head ++ m :: before) := by
        rw [heldMark word mark whole, not_or]
        exact ⟨absent, first⟩
      have placed := Declares.placed whole begins fresh spelled ends
      simpa only [List.append_assoc, List.cons_append] using placed

theorem declaresFront {tail : Text} (absent : k ∉ tokens (m :: tail)) :
    Declares k type name (x ++ m :: tail) ↔ Declares k type name (x ++ [m]) := by
  have moved {rest rest' : Text} (absent : k ∉ tokens (m :: rest))
      (declares : Declares k type name (x ++ m :: rest)) :
      Declares k type name (x ++ m :: rest') := by
    generalize same : x ++ m :: rest = line at declares
    cases declares with
    | @placed _ _ behind code begins first spelled ends =>
      have lacks := spelledLacks word spelled mark.word mark.solid mark.unended
      rcases markSide lacks same.symm with ⟨before, rfl, rfl⟩ | ⟨y, rfl, rfl⟩
      · refine absurd ?_ absent
        rw [opensMark mark.unended] at begins
        exact spelledHeld word (uncommentedBehind code) begins spelled behind
      · have placed := Declares.placed code begins first spelled (nameEndsMark mark ends rest')
        simpa only [List.append_assoc] using placed
  exact ⟨moved absent, moved (heldNotMark word mark)⟩

end Declares

/-- A parameter that the rule for declarations accepts, in a list that is not commented out. -/
structure Exposed (keyword head params type name : Text) : Prop where
  code : Uncommented head
  declares : Declares keyword type name ('(' :: (params ++ [')']))

structure FoundExposed (keyword head params : Text) (found : List Attribute) : Prop where
  single : found.length ≤ 1
  exposed : ∀ a, a ∈ found ↔ ∃ type name, Exposed keyword head params type name ∧
    a = ⟨TypeName.ofText type, name, none⟩

theorem exposedExactly {k head params tail type name : Text} (word : isIdentifier k = true)
    (before : k ∉ tokens (head ++ ['('])) (behind : k ∉ tokens (')' :: tail)) :
    Declares k type name (head ++ '(' :: (params ++ ')' :: tail)) ↔
      Exposed k head params type name := by
  rw [declaresBehind word openingMark before, ← List.cons_append,
    declaresFront word closingMark behind]
  exact ⟨fun ⟨code, declares⟩ => ⟨code, declares⟩, fun ⟨code, declares⟩ => ⟨code, declares⟩⟩

theorem attributeDeclared {k line : Text} (word : isIdentifier k = true) (a : Attribute) :
    a ∈ lineAttributes k line ↔
      ∃ type name, Declares k type name line ∧ a = ⟨TypeName.ofText type, name, none⟩ := by
  simp only [← declaredExactly word, lineAttributes, Option.mem_toList]
  cases (Line.ofText line).declared k with
  | absent => simp [Declared.attribute?]
  | malformed => simp [Declared.attribute?]
  | named type name => simp [Declared.attribute?, eq_comm]

theorem foundExposed {k head params tail : Text} (word : isIdentifier k = true)
    (before : k ∉ tokens (head ++ ['('])) (behind : k ∉ tokens (')' :: tail)) :
    FoundExposed k head params (lineAttributes k (head ++ '(' :: (params ++ ')' :: tail))) where
  single := Option.length_toList_le
  exposed := fun a => by simp only [attributeDeclared word, exposedExactly word before behind]

theorem parametersFound {head params tail : Text} {stage : Stage}
    (attributes : stage.hasAttributes = true)
    (whole : '\n' ∉ head ++ '(' :: (params ++ ')' :: tail))
    (inside : ∀ k ∈ [inKeyword, outKeyword], k ∉ tokens (head ++ ['(']) ∧ k ∉ tokens (')' :: tail)) :
    ∃ i, declarations (head ++ '(' :: (params ++ ')' :: tail)) stage = .ok i ∧
      FoundExposed inKeyword head params i.inputs ∧
      FoundExposed outKeyword head params i.outputs := by
  have input := inside inKeyword (by simp)
  have output := inside outKeyword (by simp)
  have raster := attributesRaster attributes
  refine ⟨_, by rw [declarations, raster, lineApart whole]; rfl, ?_, ?_⟩
  all_goals simp only [apart, attributes, if_true, List.flatMap_singleton]
  · exact foundExposed rfl input.1 input.2
  · exact foundExposed rfl output.1 output.2

theorem parametersFoundSpaced :
    let head := "void f".toList
    let params := "in vec3 a, out vec4 b , float c".toList
    let tail := " \x7b".toList
    Stage.hasAttributes .vertex = true ∧ '\n' ∉ head ++ '(' :: (params ++ ')' :: tail) ∧
      (∀ k ∈ [inKeyword, outKeyword], k ∉ tokens (head ++ ['(']) ∧ k ∉ tokens (')' :: tail)) ∧
      ∃ i, declarations (head ++ '(' :: (params ++ ')' :: tail)) .vertex = .ok i ∧
        i.inputs = [] ∧ ⟨.vec4, "b".toList, none⟩ ∈ i.outputs := by
  intro head params tail
  have whole : '\n' ∉ head ++ '(' :: (params ++ ')' :: tail) := by decide
  have inside : ∀ k ∈ [inKeyword, outKeyword],
      k ∉ tokens (head ++ ['(']) ∧ k ∉ tokens (')' :: tail) := by decide
  obtain ⟨i, accepted, inputs, outputs⟩ :=
    parametersFound (rfl : Stage.hasAttributes .vertex = true) whole inside
  have glued : (Line.ofText ('(' :: (params ++ [')']))).declared inKeyword = .absent := by decide
  have free : (Line.ofText ('(' :: (params ++ [')']))).declared outKeyword =
      .named "vec4".toList "b".toList := by decide
  refine ⟨rfl, whole, inside, i, accepted, ?_, ?_⟩
  · refine List.eq_nil_iff_forall_not_mem.mpr fun a member => ?_
    obtain ⟨type, name, exposed, -⟩ := (inputs.exposed a).mp member
    have named := (declaredExactly rfl).mpr exposed.declares
    rw [glued] at named
    cases named
  · have exposed : Exposed outKeyword head params "vec4".toList "b".toList :=
      ⟨uncommentedWithout (by decide), (declaredExactly rfl).mp free⟩
    exact (outputs.exposed _).mpr ⟨_, _, exposed, rfl⟩

theorem parameterTaken :
    let head := "void f".toList
    let params := "float a, in vec3 n, float b".toList
    let tail := " \x7b".toList
    (∀ k ∈ [inKeyword, outKeyword], k ∉ tokens (head ++ ['(']) ∧ k ∉ tokens (')' :: tail)) ∧
      (declarations (head ++ '(' :: (params ++ ')' :: tail)) .vertex).map (·.inputs) =
        .ok [⟨.vec3, "n".toList, none⟩] := by
  decide

end ShaderReflection.Glsl
