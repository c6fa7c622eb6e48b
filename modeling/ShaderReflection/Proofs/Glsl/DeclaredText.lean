import ShaderReflection.Proofs.Glsl.TokenPlaces
/-!
Which lines declare a variable, said of their text. The first token that is the keyword decides: a
type has to follow it between blanks, and then a name that ends at a blank, at an array suffix or at
a list separator in front of a blank.
-/
namespace ShaderReflection.Glsl
open Text

structure Gap (g : Text) : Prop where
  filler : Filler g
  parts : ∃ c ∈ g, isBlank c = true

inductive NameEnds : Text → Prop where
  | suffix (rest : Text) : NameEnds ('[' :: rest)
  | ended {separators rest : Text} (only : ∀ c ∈ separators, c = ',') (ends : closes rest = true) :
      NameEnds (separators ++ rest)

inductive Spelled (keyword type name : Text) : Text → Prop where
  | spaced {gap gap' : Text} (apart : Gap gap) (typed : isIdentifier type = true)
      (apart' : Gap gap') (named : isIdentifier name = true) :
      Spelled keyword type name (keyword ++ (gap ++ (type ++ (gap' ++ name))))

inductive Declares (keyword type name : Text) : Text → Prop where
  | placed {before core behind : Text} (code : Uncommented before) (begins : opens before = true)
      (first : keyword ∉ tokens before) (spelled : Spelled keyword type name core)
      (ends : NameEnds behind) : Declares keyword type name (before ++ (core ++ behind))

section Identifier
variable {w : Text} (identifier : isIdentifier w = true)
include identifier

theorem identifierWhole : trimBoth (· == ';') w = w := trimUnended (identifierLacks identifier rfl)

theorem identifierCode : opensComment w = false := by
  rw [Bool.eq_false_iff]
  intro comment
  obtain ⟨rest, rfl⟩ := List.isPrefixOf_iff_prefix.mp comment
  exact identifierLacks identifier (c := '/') rfl List.mem_cons_self

theorem declaredNameExactly {token : Text} : declaredName token = w ↔
    ∃ suffix, token = w ++ suffix ∧ ((∃ rest, suffix = '[' :: rest) ∨ ∀ c ∈ suffix, c = ',') := by
  constructor
  · rintro rfl
    obtain ⟨separators, shape, only⟩ := trimEndParts (· == ',') token
    have parts := List.takeWhile_append_dropWhile (p := (· != '['))
      (l := trimEnd (· == ',') token)
    cases rest : (trimEnd (· == ',') token).dropWhile (· != '[') with
    | nil =>
      rw [rest, List.append_nil] at parts
      refine ⟨separators, ?_, .inr fun c member => beq_iff_eq.mp (only c member)⟩
      rw [declaredName, upTo, parts, ← shape]
    | cons c r =>
      have bracket : c = '[' := by
        have head := List.head?_dropWhile_not (· != '[') (trimEnd (· == ',') token)
        simpa [rest] using head
      rw [rest, bracket] at parts
      refine ⟨'[' :: (r ++ separators), ?_, .inl ⟨_, rfl⟩⟩
      rw [declaredName, upTo, ← List.cons_append, ← List.append_assoc, parts, ← shape]
  · have before : ∀ c ∈ w, (c != '[') = true := otherMark (identifierLacks identifier rfl)
    rintro ⟨suffix, rfl, ⟨rest, rfl⟩ | only⟩
    · have kept : trimEnd (· == ',') (w ++ '[' :: rest) = w ++ '[' :: trimEnd (· == ',') rest :=
        trimEndAt (p := (· == ',')) rfl w rest
      rw [declaredName, kept, upTo, List.takeWhile_append_of_pos before]
      simp
    · have commas : ∀ c ∈ suffix, (c == ',') = true := fun c member => beq_iff_eq.mpr (only c member)
      have whole := @List.takeWhile_append_of_pos _ (· != '[') w [] before
      rw [List.append_nil, List.takeWhile_nil, List.append_nil] at whole
      rw [declaredName, trimEndBehind commas,
        trimEndNothing (otherChars (identifierLacks identifier rfl)), upTo, whole]

end Identifier

section Gaps
variable {g : Text} (gap : Gap g)
include gap

theorem gapLacks {c : Char} (solid : isBlank c = false) (other : c ≠ ';') : c ∉ g := by
  intro member
  rcases gap.filler c member with blank | same
  · rw [solid] at blank
    cases blank
  · exact other same

theorem gapToken {w z : Text} (clean : Uncommented (g ++ (w ++ z))) (identifier : isIdentifier w = true)
    (ends : closes z = true) : tokens (g ++ (w ++ z)) = w :: tokens z := by
  rw [tokensJoined clean (identifierSolid identifier) (identifierWhole identifier)
    (fillerOpens gap.filler) ends, fillerGone gap.filler, List.nil_append]

theorem gapCloses (x : Text) : closes (g ++ x) = true := fillerCloses gap.filler gap.parts x

end Gaps

theorem gapBetween {g w z : Text} (clean : Uncommented g) (none : tokens g = [])
    (solid : Solid w) (unended : ';' ∉ w) (unslashed : '/' ∉ w)
    (ends : closes (g ++ (w ++ z)) = true) : Gap g := by
  have filler := fillerBetween clean none
  refine ⟨filler, Classical.byContradiction fun whole => ?_⟩
  have plain : ∀ c ∈ g, isBlank c = false := fun c member =>
    Bool.eq_false_iff.mpr fun blank => whole ⟨c, member, blank⟩
  rw [closesBehind (fillerSemicolons filler plain)] at ends
  obtain ⟨c, r, rfl⟩ := List.exists_cons_of_ne_nil solid.nonempty
  have kept : (c == ';') = false := beq_false_of_ne fun same => unended (same ▸ List.mem_cons_self)
  have code : c ≠ '/' := fun same => unslashed (same ▸ List.mem_cons_self)
  have apart := solid.plain c List.mem_cons_self
  simp [closes, kept, apart, opensComment, code.symm] at ends

theorem tokenRest (rest : Text) : ∃ y z, rest = y ++ z ∧ closes z = true ∧
    (∀ c ∈ y, isBlank c = false) ∧ trimEnd (· == ';') y = y := by
  have shape := List.takeWhile_append_dropWhile (p := fun c => !isBlank c) (l := rest)
  obtain ⟨s, split, only⟩ := trimEndParts (· == ';') (rest.takeWhile fun c => !isBlank c)
  have twice := trimEndBehind only (trimEnd (· == ';') (rest.takeWhile fun c => !isBlank c))
  rw [← split] at twice
  refine ⟨_, s ++ rest.dropWhile fun c => !isBlank c, ?_, ?_, fun c member => ?_, twice.symm⟩
  · rw [← List.append_assoc, ← split, shape]
  · rw [closesBehind only]
    cases behind : rest.dropWhile fun c => !isBlank c with
    | nil => rfl
    | cons b r =>
      have head := List.head?_dropWhile_not (fun c => !isBlank c) rest
      rw [behind] at head
      exact closesBlank (by simpa using head) r
  · have inside := (trimEndPrefix (· == ';') _).subset member
    simpa using List.mem_takeWhile_imp inside

theorem nameToken {name behind : Text} (named : isIdentifier name = true) (ends : NameEnds behind) :
    ∃ token z, name ++ behind = token ++ z ∧ closes z = true ∧ Solid token ∧
      trimBoth (· == ';') token = token ∧ declaredName token = name := by
  have solid := identifierSolid named
  cases ends with
  | suffix rest =>
    obtain ⟨y, z, rfl, closed, plain, whole⟩ := tokenRest rest
    refine ⟨name ++ '[' :: y, z, by simp, closed, ⟨by simp, ?_⟩, ?_,
      (declaredNameExactly named).mpr ⟨_, rfl, .inl ⟨y, rfl⟩⟩⟩
    · exact List.forall_mem_append.mpr ⟨solid.plain, List.forall_mem_cons.mpr ⟨rfl, plain⟩⟩
    · have kept : trimEnd (· == ';') (name ++ '[' :: y) = name ++ '[' :: trimEnd (· == ';') y :=
        trimEndAt (p := (· == ';')) rfl name y
      have start : (name ++ '[' :: y).dropWhile (· == ';') = name ++ '[' :: y := by
        obtain ⟨c, r, rfl⟩ := List.exists_cons_of_ne_nil solid.nonempty
        have first := otherChars (identifierLacks named (c := ';') rfl) c List.mem_cons_self
        rw [List.cons_append, List.dropWhile_cons_of_neg (by simp [first])]
      rw [trimBoth, start, kept, whole]
  | @ended separators rest only closed =>
    have commas {c : Char} (other : c ≠ ',') : c ∉ separators := fun member => other (only c member)
    refine ⟨name ++ separators, rest, by simp, closed, ⟨by simp [solid.nonempty], ?_⟩, ?_,
      (declaredNameExactly named).mpr ⟨_, rfl, .inr only⟩⟩
    · refine List.forall_mem_append.mpr ⟨solid.plain, fun c member => ?_⟩
      rw [only c member]
      rfl
    · refine trimUnended ?_
      rw [List.mem_append, not_or]
      exact ⟨identifierLacks named rfl, commas (by decide)⟩

section Code
variable {keyword type name t : Text} (clean : Uncommented t)
include clean

theorem codeDeclares (declared : (Line.ofText t).declared keyword = .named type name) :
    Declares keyword type name t := by
  have plain := noTokenOpens clean
  have member : keyword ∈ tokens t := Classical.byContradiction fun absent => by
    rw [Line.absentWithout absent] at declared
    cases declared
  obtain ⟨front, more, shape, fresh⟩ := List.eq_append_cons_of_mem member
  rw [Line.ofText, shape] at declared
  obtain ⟨token, back, rfl, typed, named, same⟩ := (Line.declaredAt _ (shape ▸ plain) fresh).mp declared
  obtain ⟨before, x, rfl, begins, ends, rfl, inner⟩ := tokensPlaced clean shape
  have clean' := uncommentedBehind (uncommentedBehind clean)
  obtain ⟨gap, y, rfl, -, ends', none, inner'⟩ := tokensPlaced clean'
    (show tokens _ = [] ++ type :: _ from inner)
  have clean'' := uncommentedBehind (uncommentedBehind clean')
  obtain ⟨gap', z, rfl, -, ends'', none', -⟩ := tokensPlaced clean''
    (show tokens _ = [] ++ token :: _ from inner')
  obtain ⟨suffix, rfl, shape'⟩ := (declaredNameExactly named).mp same
  have between := gapBetween (uncommentedFront clean') none
    (identifierSolid typed) (identifierLacks typed rfl) (identifierLacks typed rfl) ends
  have between' : Gap gap' := by
    rw [List.append_assoc] at ends'
    exact gapBetween (uncommentedFront clean'') none'
      (identifierSolid named) (identifierLacks named rfl) (identifierLacks named rfl) ends'
  have behind : NameEnds (suffix ++ z) := by
    rcases shape' with ⟨rest, rfl⟩ | only
    · exact .suffix (rest ++ z)
    · exact .ended only ends''
  have whole := Declares.placed (uncommentedFront clean) begins fresh
    (.spaced between typed between' named) behind
  simpa only [List.append_assoc] using whole

theorem codeDeclared (word : isIdentifier keyword = true) (declares : Declares keyword type name t) :
    (Line.ofText t).declared keyword = .named type name := by
  cases declares with
  | placed code begins first spelled ends =>
    obtain ⟨apart, typed, apart', named⟩ := spelled
    obtain ⟨token, z, shape, closed, solid, whole, same⟩ := nameToken named ends
    simp only [List.append_assoc] at clean ⊢
    rw [shape] at clean ⊢
    have clean' := uncommentedBehind (uncommentedBehind clean)
    have clean'' := uncommentedBehind (uncommentedBehind clean')
    have last := tokensJoined clean'' solid whole (fillerOpens apart'.filler) closed
    rw [fillerGone apart'.filler, List.nil_append] at last
    have middle := gapToken apart clean' typed (gapCloses apart' (token ++ z))
    have all := tokensJoined clean (identifierSolid word) (identifierWhole word) begins
      (gapCloses apart _)
    rw [middle, last] at all
    rw [Line.ofText, all]
    refine (Line.declaredAt _ (all ▸ noTokenOpens clean) first).mpr ?_
    exact ⟨token, tokens z, rfl, typed, named, same⟩

end Code

theorem closesCode {rest : Text} (ends : closes rest = true) : closes (stripComment rest) = true := by
  have unslashed {s : Text} (only : Semicolons s) : '/' ∉ s := semicolonsLack only (by decide)
  rcases closesCases ends with only | ⟨s, b, y, rfl, only, blank⟩ | ⟨s, y, rfl, only⟩
  · rw [stripUncommented (uncommentedWithout (unslashed only))]
    exact closesOnly only
  · have code : stripComment (b :: y) = b :: stripComment y := by
      refine stripStep fun ⟨slash, _⟩ => ?_
      rw [slash] at blank
      cases blank
    rw [stripAppend (unslashed only), closesBehind only, code]
    exact closesBlank blank _
  · rw [stripAppend (unslashed only), closesBehind only]
    rfl

theorem closesCommented {rest : Text} (ends : closes rest = true) (b : Text) :
    closes (rest ++ '/' :: '/' :: b) = true := by
  rcases closesCases ends with only | ⟨s, c, y, rfl, only, blank⟩ | ⟨s, y, rfl, only⟩
  · exact closesComment only b
  · rw [List.append_assoc, closesBehind only]
    exact closesBlank blank _
  · rw [List.append_assoc]
    exact closesComment only _

theorem nameEndsCode {behind : Text} (ends : NameEnds behind) : NameEnds (stripComment behind) := by
  cases ends with
  | suffix rest =>
    rw [stripStep (by simp)]
    exact .suffix _
  | @ended separators rest only closed =>
    rw [stripAppend fun slash => nomatch only '/' slash]
    exact .ended only (closesCode closed)

theorem nameEndsCommented {behind : Text} (ends : NameEnds behind) (b : Text) :
    NameEnds (behind ++ '/' :: '/' :: b) := by
  cases ends with
  | suffix rest => exact .suffix _
  | ended only closed =>
    rw [List.append_assoc]
    exact .ended only (closesCommented closed b)

theorem stripCore {a core : Text} (clean : Uncommented a) (some' : core ≠ [])
    (unslashed : '/' ∉ core) (b : Text) :
    stripComment (a ++ (core ++ b)) = a ++ (core ++ stripComment b) := by
  obtain ⟨c, r, rfl⟩ := List.exists_cons_of_ne_nil some'
  rw [List.mem_cons, not_or] at unslashed
  have front : Uncommented ((a ++ [c]) ++ ['/']) := by
    rw [List.append_assoc]
    exact uncommentedMark (Ne.symm unslashed.1) clean (uncommentedOne '/')
  have whole (b : Text) : a ++ (c :: r ++ b) = (a ++ [c]) ++ (r ++ b) := by simp
  rw [whole, stripAfter front, stripAppend unslashed.2, whole]

section Spelled
variable {keyword type name core : Text} (word : isIdentifier keyword = true)
  (spelled : Spelled keyword type name core)
include word spelled

theorem spelledNonempty : core ≠ [] := by
  cases spelled with
  | spaced => simp [identifierNonempty word]

theorem spelledLacks {c : Char} (mark : isWordChar c = false) (solid : isBlank c = false)
    (other : c ≠ ';') : c ∉ core := by
  cases spelled with
  | spaced apart typed apart' named =>
    simp only [List.mem_append, not_or]
    exact ⟨identifierLacks word mark, gapLacks apart solid other, identifierLacks typed mark,
      gapLacks apart' solid other, identifierLacks named mark⟩

end Spelled

section Line
variable {keyword type name line : Text} (word : isIdentifier keyword = true)
include word

theorem declaresCode :
    Declares keyword type name (stripComment line) ↔ Declares keyword type name line := by
  constructor
  · intro declares
    rcases stripCases line with clean | ⟨b, shape, -⟩
    · rwa [stripUncommented clean] at declares
    · rw [shape]
      generalize stripComment line = code at declares ⊢
      cases declares with
      | placed code begins first spelled ends =>
        rw [List.append_assoc, List.append_assoc]
        exact .placed code begins first spelled (nameEndsCommented ends b)
  · intro declares
    cases declares with
    | @placed before core behind code begins first spelled ends =>
      rw [stripCore code (spelledNonempty word spelled)
        (spelledLacks word spelled rfl rfl (by decide)) behind]
      exact .placed code begins first spelled (nameEndsCode ends)

theorem declaredExactly :
    (Line.ofText line).declared keyword = .named type name ↔ Declares keyword type name line := by
  have clean := stripClean line
  rw [Line.declaredCode line keyword (identifierCode word), ← declaresCode word]
  exact ⟨codeDeclares clean, codeDeclared clean word⟩

end Line

end ShaderReflection.Glsl
