import ShaderReflection.Glsl.Declaration
import ShaderReflection.Proofs.Text.Trimming
/-!
Comments in shader source. A comment is cut off by characters where structs are looked for and by
tokens where declarations are; both ways look at the same part of a line, so that nothing behind
`//` takes part in a scan.
-/
namespace ShaderReflection.Glsl
open Text

def Uncommented (t : Text) : Prop := ¬['/', '/'] <:+: t

theorem uncommentedPart {t part : Text} (clean : Uncommented t) (inside : part <:+: t) :
    Uncommented part := fun marks => clean (marks.trans inside)

theorem stripStep {c : Char} {r : Text} (plain : ¬(c = '/' ∧ r.head? = some '/')) :
    stripComment (c :: r) = c :: stripComment r := by
  rw [stripComment]
  rintro more rfl rfl
  exact plain ⟨rfl, rfl⟩

theorem uncommentedStep {c : Char} {r : Text} (clean : Uncommented (c :: r)) :
    ¬(c = '/' ∧ r.head? = some '/') := by
  rintro ⟨rfl, head⟩
  obtain ⟨more, rfl⟩ := List.head?_eq_some_iff.mp head
  exact clean (List.prefix_append ['/', '/'] more).isInfix

theorem uncommentedCons {c : Char} {r : Text} (plain : ¬(c = '/' ∧ r.head? = some '/'))
    (clean : Uncommented r) : Uncommented (c :: r) := by
  intro marks
  rcases List.infix_cons_iff.mp marks with ⟨more, same⟩ | inside
  · obtain ⟨rfl, rfl⟩ := List.cons.inj same
    exact plain ⟨rfl, rfl⟩
  · exact clean inside

theorem uncommentedOne (c : Char) : Uncommented [c] := by
  intro marks
  have short := marks.length_le
  simp only [List.length_cons, List.length_nil] at short
  omega

theorem uncommentedFront {a b : Text} (clean : Uncommented (a ++ b)) : Uncommented a :=
  uncommentedPart clean (List.prefix_append a b).isInfix

theorem uncommentedBehind {a b : Text} (clean : Uncommented (a ++ b)) : Uncommented b :=
  uncommentedPart clean (List.suffix_append a b).isInfix

theorem uncommentedSides {a b : Text} {c : Char} (clean : Uncommented (a ++ c :: b)) :
    Uncommented a ∧ Uncommented b :=
  ⟨uncommentedFront clean, uncommentedPart (uncommentedBehind clean) (List.suffix_cons c b).isInfix⟩

theorem uncommentedMark {a b : Text} {c : Char} (plain : c ≠ '/') (before : Uncommented a)
    (behind : Uncommented b) : Uncommented (a ++ c :: b) := by
  induction a with
  | nil => exact uncommentedCons (fun ⟨slash, _⟩ => plain slash) behind
  | cons d r ih =>
    refine uncommentedCons (fun ⟨slash, head⟩ => ?_)
      (ih (uncommentedPart before (List.suffix_cons d r).isInfix))
    cases r with
    | nil => exact plain (Option.some.inj head)
    | cons e s => exact uncommentedStep before ⟨slash, head⟩

theorem stripUncommented {t : Text} (clean : Uncommented t) : stripComment t = t := by
  induction t with
  | nil => rfl
  | cons c r ih =>
    have rest := ih (uncommentedPart clean (List.suffix_cons c r).isInfix)
    rw [stripStep (uncommentedStep clean), rest]

theorem stripAfter {a : Text} (clean : Uncommented (a ++ ['/'])) (b : Text) :
    stripComment (a ++ b) = a ++ stripComment b := by
  induction a with
  | nil => rfl
  | cons c r ih =>
    have rest := ih (uncommentedPart clean (List.suffix_cons c (r ++ ['/'])).isInfix)
    have plain : ¬(c = '/' ∧ (r ++ ['/']).head? = some '/') := uncommentedStep clean
    -- Whatever follows, a slash at the end of `a` would be followed by the one in `clean`.
    have apart : ¬(c = '/' ∧ (r ++ b).head? = some '/') := by
      rintro ⟨slash, head⟩
      refine plain ⟨slash, ?_⟩
      cases r with
      | nil => rfl
      | cons d s => exact head
    rw [List.cons_append, stripStep apart, rest, List.cons_append]

theorem stripBefore {a : Text} (clean : Uncommented (a ++ ['/'])) (b : Text) :
    stripComment (a ++ '/' :: '/' :: b) = a := by
  rw [stripAfter clean, stripComment, List.append_nil]

theorem stripCases (t : Text) : Uncommented t ∨
    ∃ b, t = stripComment t ++ '/' :: '/' :: b ∧ Uncommented (stripComment t ++ ['/']) := by
  induction t with
  | nil => exact .inl fun marks => uncommentedPart (uncommentedOne '/') List.nil_infix marks
  | cons c r ih =>
    by_cases opens : c = '/' ∧ r.head? = some '/'
    · obtain ⟨rfl, head⟩ := opens
      obtain ⟨b, rfl⟩ := List.head?_eq_some_iff.mp head
      exact .inr ⟨b, rfl, uncommentedOne '/'⟩
    rcases ih with clean | ⟨b, shape, clean⟩
    · exact .inl (uncommentedCons opens clean)
    · have code := stripStep opens
      refine .inr ⟨b, by rw [code, List.cons_append, ← shape], ?_⟩
      rw [code, List.cons_append]
      refine uncommentedCons (fun ⟨slash, head⟩ => opens ⟨slash, ?_⟩) clean
      rw [shape, List.head?_append]
      rwa [List.head?_append] at head

theorem stripPrefix (t : Text) : stripComment t <+: t := by
  rcases stripCases t with clean | ⟨b, shape, -⟩
  · exact ⟨[], by rw [stripUncommented clean, List.append_nil]⟩
  · exact ⟨_, shape.symm⟩

theorem stripClean (t : Text) : Uncommented (stripComment t) := by
  rcases stripCases t with clean | ⟨b, -, clean⟩
  · rwa [stripUncommented clean]
  · exact uncommentedFront clean

theorem stripStripped (t : Text) : stripComment (stripComment t) = stripComment t :=
  stripUncommented (stripClean t)

theorem stripEnd {c : Char} (plain : c ≠ '/') (front : Text) :
    stripComment (front ++ [c]) = stripComment front ∨
      stripComment (front ++ [c]) = stripComment front ++ [c] := by
  induction front with
  | nil => exact .inr (stripStep fun ⟨slash, _⟩ => plain slash)
  | cons d r ih =>
    by_cases opens : d = '/' ∧ r.head? = some '/'
    · obtain ⟨rfl, head⟩ := opens
      obtain ⟨more, rfl⟩ := List.head?_eq_some_iff.mp head
      exact .inl rfl
    · have still : ¬(d = '/' ∧ (r ++ [c]).head? = some '/') := by
        rintro ⟨slash, head⟩
        cases r with
        | nil => exact plain (Option.some.inj head)
        | cons e s => exact opens ⟨slash, head⟩
      rw [List.cons_append, stripStep opens, stripStep still, List.cons_append]
      exact ih.imp (congrArg (d :: ·)) (congrArg (d :: ·))

def tokensOf (pieces : List Text) : List Text :=
  (pieces.map (trimBoth (· == ';'))).filter fun token => !token.isEmpty

theorem tokensOfAppend (front back : List Text) :
    tokensOf (front ++ back) = tokensOf front ++ tokensOf back := by
  rw [tokensOf, List.map_append, List.filter_append, tokensOf, tokensOf]

theorem tokenTrimmed {pieces : List Text} {token : Text} (member : token ∈ tokensOf pieces) :
    ∃ piece ∈ pieces, trimBoth (· == ';') piece = token ∧ token ≠ [] := by
  obtain ⟨trimmed, some'⟩ := List.mem_filter.mp member
  obtain ⟨piece, inside, same⟩ := List.mem_map.mp trimmed
  exact ⟨piece, inside, same, by simpa using some'⟩

theorem tokenInfix {pieces : List Text} {token : Text} (member : token ∈ tokensOf pieces) :
    ∃ piece ∈ pieces, token <:+: piece := by
  obtain ⟨piece, inside, rfl, -⟩ := tokenTrimmed member
  exact ⟨piece, inside, trimBothInfix _ piece⟩

theorem splitUncommented {w : Text} (clean : Uncommented w) :
    tokensOf (([w].filter fun w => !w.isEmpty).flatMap splitComment) = tokensOf [w] := by
  cases w with
  | nil => rfl
  | cons c r =>
    simp [splitComment, stripUncommented clean, tokensOf, trimBoth, trimEnd, List.filter_cons]

theorem piecesUncommented {pieces : List Text} (clean : ∀ w ∈ pieces, Uncommented w) :
    tokensOf ((pieces.filter fun w => !w.isEmpty).flatMap splitComment) = tokensOf pieces := by
  induction pieces with
  | nil => rfl
  | cons w rest ih =>
    obtain ⟨here, more⟩ := List.forall_mem_cons.mp clean
    have first := splitUncommented here
    rw [← List.singleton_append, List.filter_append, List.flatMap_append, tokensOfAppend, first,
      ih more, ← tokensOfAppend]

theorem tokensUncommented {line : Text} (clean : Uncommented line) :
    tokens line = tokensOf (words line) := by
  have each : ∀ w ∈ words line, Uncommented w := fun w member =>
    uncommentedPart clean (pieceInfix (List.mem_filter.mp member).1)
  have kept : (words line).filter (fun w => !w.isEmpty) = words line := by
    rw [words, List.filter_filter]
    simp
  have same := piecesUncommented each
  rwa [kept] at same

theorem noTokenOpens {line : Text} (clean : Uncommented line) :
    ∀ token ∈ tokens line, opensComment token = false := by
  intro token member
  rw [tokensUncommented clean] at member
  obtain ⟨w, inside, part⟩ := tokenInfix member
  have whole := part.trans (pieceInfix (List.mem_filter.mp inside).1)
  rw [Bool.eq_false_iff]
  intro opens
  exact clean ((List.isPrefixOf_iff_prefix.mp opens).isInfix.trans whole)

theorem commentTrimmed (v : Text) :
    trimBoth (· == ';') ('/' :: '/' :: v) = '/' :: '/' :: trimEnd (· == ';') v :=
  trimEndAt (p := (· == ';')) (c := '/') rfl ['/'] v

theorem commentToken (v : Text) :
    ∃ token, tokensOf ['/' :: '/' :: v] = [token] ∧ opensComment token = true :=
  ⟨'/' :: '/' :: trimEnd (· == ';') v, by simp [tokensOf, commentTrimmed], rfl⟩

theorem splitCommented {w : Text} (clean : Uncommented (w ++ ['/'])) (v : Text) :
    splitComment (w ++ '/' :: '/' :: v) =
      if w.isEmpty then ['/' :: '/' :: v] else [w, '/' :: '/' :: v] := by
  rw [splitComment, stripBefore clean, List.drop_left]
  cases w <;> rfl

theorem pieceCommented {w : Text} (clean : Uncommented (w ++ ['/'])) (v : Text) :
    tokensOf (splitComment (w ++ '/' :: '/' :: v)) =
      tokensOf [w] ++ tokensOf ['/' :: '/' :: v] := by
  rw [splitCommented clean, ← tokensOfAppend]
  cases w <;> rfl

theorem tokensCommented {a : Text} (clean : Uncommented (a ++ ['/'])) (b : Text) :
    ∃ token rest, tokens (a ++ '/' :: '/' :: b) = tokens a ++ token :: rest ∧
      opensComment token = true := by
  -- Only the piece in which the comment begins is cut; it may have code in front.
  obtain ⟨front, last, before⟩ := splitLast (p := isBlank) a
  obtain ⟨v, back, behind⟩ := splitNonempty (p := isBlank) b
  have comment : splitWhere isBlank ('/' :: '/' :: b) = ('/' :: '/' :: v) :: back := by
    have slash : isBlank '/' = false := rfl
    simp [splitWhere, slash, behind, consHead]
  have pieces := splitAppend before comment
  have bare : Uncommented a := uncommentedPart clean (List.prefix_append a ['/']).isInfix
  have each : ∀ w ∈ front ++ [last], Uncommented w := by
    rw [← before]
    exact fun w member => uncommentedPart bare (pieceInfix member)
  have glued : Uncommented (last ++ ['/']) := by
    have slash : splitWhere isBlank ['/'] = [['/']] := rfl
    have split := splitAppend before slash
    exact uncommentedPart clean (pieceInfix (by rw [split]; simp))
  have code : tokens a = tokensOf front ++ tokensOf [last] := by
    rw [← tokensOfAppend, ← piecesUncommented each, ← before]
    rfl
  obtain ⟨token, opening, opens⟩ := commentToken v
  refine ⟨token, tokensOf ((back.filter fun w => !w.isEmpty).flatMap splitComment), ?_, opens⟩
  rw [List.forall_mem_append] at each
  have whole : words (a ++ '/' :: '/' :: b) = front.filter (fun w => !w.isEmpty) ++
      (last ++ '/' :: '/' :: v) :: back.filter fun w => !w.isEmpty := by
    rw [words, pieces, List.filter_append, List.filter_cons_of_pos (by simp)]
  change tokensOf ((words _).flatMap splitComment) = _
  rw [whole, List.flatMap_append, List.flatMap_cons, tokensOfAppend, tokensOfAppend,
    piecesUncommented each.1, pieceCommented glued, opening, code]
  simp

theorem tokensCases (line : Text) : Uncommented line ∨ ['/', '/'] <:+: line ∧ ∃ token rest,
    tokens line = tokens (stripComment line) ++ token :: rest ∧ opensComment token = true := by
  rcases stripCases line with clean | ⟨b, shape, clean⟩
  · exact .inl clean
  · have cut := tokensCommented clean b
    rw [← shape] at cut
    exact .inr ⟨⟨stripComment line, b, by rw [List.append_assoc]; exact shape.symm⟩, cut⟩

namespace Line

theorem qualifierUncommented {front : List Text} (text keyword : Text)
    (plain : ∀ t ∈ front, opensComment t = false) :
    qualifierIndex? ⟨text, front⟩ keyword = front.findIdx? (· == keyword) := by
  have none : front.findIdx? opensComment = none := List.findIdx?_eq_none_iff.mpr plain
  simp only [qualifierIndex?, commentIndex?, none]
  cases front.findIdx? (· == keyword) <;> rfl

theorem commentAt {front rest : List Text} {token : Text} (text : Text)
    (plain : ∀ t ∈ front, opensComment t = false) (opens : opensComment token = true) :
    commentIndex? ⟨text, front ++ token :: rest⟩ = some front.length := by
  have none : front.findIdx? opensComment = none := List.findIdx?_eq_none_iff.mpr plain
  rw [commentIndex?, List.findIdx?_append, none, List.findIdx?_cons, if_pos opens]
  simp

theorem qualifierCommented {front rest : List Text} {token keyword : Text} (text : Text)
    (plain : ∀ t ∈ front, opensComment t = false) (opens : opensComment token = true)
    (word : opensComment keyword = false) :
    qualifierIndex? ⟨text, front ++ token :: rest⟩ keyword = front.findIdx? (· == keyword) := by
  have differ : (token == keyword) = false := by
    refine beq_false_of_ne fun same => ?_
    rw [same, word] at opens
    cases opens
  -- A qualifier behind the opening token is found too, and refused for its index.
  simp only [qualifierIndex?, commentAt text plain opens, List.findIdx?_append]
  cases found : front.findIdx? (· == keyword) with
  | some index =>
    obtain ⟨bound, -⟩ := List.findIdx?_eq_some_iff_getElem.mp found
    simp [Nat.not_lt.mpr (Nat.le_of_lt bound)]
  | none =>
    rw [List.findIdx?_cons, differ]
    cases rest.findIdx? (· == keyword) with
    | none => rfl
    | some index => simp

theorem declarationCommented {front rest : List Text} {token : Text} (text other : Text)
    (opens : opensComment token = true) {index : Nat} (bound : index < front.length) :
    declarationAfter? ⟨text, front ++ token :: rest⟩ index =
      declarationAfter? ⟨other, front⟩ index := by
  -- If type or name are missing in front, the token in their place opens the comment.
  simp only [declarationAfter?]
  by_cases type : index + 1 < front.length
  · rw [List.getElem?_append_left type]
    by_cases name : index + 2 < front.length
    · rw [List.getElem?_append_left name]
    · have last : index + 2 = front.length := by omega
      have beyond : front[index + 2]? = none := List.getElem?_eq_none (by omega)
      have next : (front ++ token :: rest)[index + 2]? = some token := by
        rw [last, List.getElem?_append_right (Nat.le_refl _), Nat.sub_self]
        rfl
      rw [beyond, next]
      cases front[index + 1]? <;> simp [opens]
  · have last : index + 1 = front.length := by omega
    have beyond : front[index + 1]? = none := List.getElem?_eq_none (by omega)
    have next : (front ++ token :: rest)[index + 1]? = some token := by
      rw [last, List.getElem?_append_right (Nat.le_refl _), Nat.sub_self]
      rfl
    rw [beyond, next]
    cases (front ++ token :: rest)[index + 2]? <;> simp [opens]

theorem absentWithout {line : Line} {keyword : Text} (absent : keyword ∉ line.tokens) :
    line.declared keyword = .absent := by
  have none : line.tokens.findIdx? (· == keyword) = none := by
    rw [List.findIdx?_eq_none_iff]
    exact fun token member => beq_false_of_ne fun same => absent (same ▸ member)
  simp only [declared, qualifierIndex?, none]

theorem declaredAt {front more : List Text} {keyword type name : Text} (text : Text)
    (plain : ∀ t ∈ front ++ keyword :: more, opensComment t = false) (fresh : keyword ∉ front) :
    declared ⟨text, front ++ keyword :: more⟩ keyword = .named type name ↔
      ∃ token back, more = type :: token :: back ∧ isIdentifier type = true ∧
        isIdentifier name = true ∧ declaredName token = name := by
  have found : (front ++ keyword :: more).findIdx? (· == keyword) = some front.length := by
    have none : front.findIdx? (· == keyword) = none := by
      rw [List.findIdx?_eq_none_iff]
      exact fun t member => beq_false_of_ne fun same => fresh (same ▸ member)
    rw [List.findIdx?_append, none, List.findIdx?_cons, if_pos (beq_self_eq_true keyword)]
    simp
  have first : qualifierIndex? ⟨text, front ++ keyword :: more⟩ keyword = some front.length :=
    (qualifierUncommented text keyword plain).trans found
  rw [declared, first]
  dsimp only
  match more with
  | [] => simp [declarationAfter?]
  | [_] => simp [declarationAfter?]
  | type' :: token :: back =>
    have code : opensComment type' = false := plain type' (by simp)
    have code' : opensComment token = false := plain token (by simp)
    have after : declarationAfter? ⟨text, front ++ keyword :: type' :: token :: back⟩ front.length =
        some (type', token) := by
      simp [declarationAfter?, code, code']
    rw [after]
    dsimp only
    constructor
    · intro named
      split at named
      · rename_i identifiers
        obtain ⟨rfl, rfl⟩ := Declared.named.inj named
        rw [Bool.and_eq_true] at identifiers
        exact ⟨token, back, rfl, identifiers.1, identifiers.2, rfl⟩
      · cases named
    · rintro ⟨_, _, same, typed, named, rfl⟩
      obtain ⟨rfl, inner⟩ := List.cons.inj same
      obtain ⟨rfl, rfl⟩ := List.cons.inj inner
      rw [typed, named]
      rfl

section Stripped
variable (text keyword : Text) (word : opensComment keyword = false)
include word

theorem qualifierStripped :
    (ofText text).qualifierIndex? keyword =
      (ofText (stripComment text)).qualifierIndex? keyword := by
  rcases tokensCases text with clean | ⟨-, token, rest, split, opens⟩
  · rw [stripUncommented clean]
  -- The tokens of the code come first, and the comment stops every search among them.
  · have plain := noTokenOpens (stripClean text)
    rw [ofText, ofText, split, qualifierCommented text plain opens word,
      qualifierUncommented _ keyword plain]

theorem declarationStripped {index : Nat}
    (found : (ofText text).qualifierIndex? keyword = some index) :
    (ofText text).declarationAfter? index =
      (ofText (stripComment text)).declarationAfter? index := by
  rw [qualifierStripped text keyword word] at found
  rcases tokensCases text with clean | ⟨-, token, rest, split, opens⟩
  · rw [stripUncommented clean]
  · have plain := noTokenOpens (stripClean text)
    rw [ofText, qualifierUncommented _ keyword plain] at found
    obtain ⟨bound, -⟩ := List.findIdx?_eq_some_iff_getElem.mp found
    rw [ofText, ofText, split, declarationCommented text (stripComment text) opens bound]

theorem declaredCode :
    (ofText text).declared keyword = (ofText (stripComment text)).declared keyword := by
  rw [declared, declared, ← qualifierStripped text keyword word]
  cases found : (ofText text).qualifierIndex? keyword with
  | none => rfl
  | some index => simp only [declarationStripped text keyword word found]

end Stripped

end Line

theorem feedCode (scanner : Scanner) (line : Text) :
    scanner.feed line = scanner.feed (stripComment line) := by
  rw [Scanner.feed, Scanner.feed, stripStripped]

def Finding.bare (f : Finding) : Finding := { f with text := [] }

theorem findingsCode (attributes : Bool) (scanner : Scanner) (lines : List Text) :
    (findings attributes scanner (lines.map Line.ofText)).map Finding.bare =
      (findings attributes scanner ((lines.map stripComment).map Line.ofText)).map Finding.bare := by
  induction lines generalizing scanner with
  | nil => rfl
  | cons line rest ih =>
    have uniform := Line.declaredCode line uniformKeyword rfl
    have input := Line.declaredCode line inKeyword rfl
    have output := Line.declaredCode line outKeyword rfl
    have fed : scanner.feed (Line.ofText line).text =
      scanner.feed (Line.ofText (stripComment line)).text := feedCode scanner line
    simp only [List.map_cons, findings, Finding.bare, uniform, input, output, fed]
    rw [← ih]

theorem interfaceBare (found : List Finding) :
    interfaceOf (found.map Finding.bare) = interfaceOf found := by
  simp only [interfaceOf, List.filterMap_map]
  rfl

theorem scanIgnoresComments {source other : Text}
    (same : (lines source).map stripComment = (lines other).map stripComment) (stage : Stage) :
    scan source stage = scan other stage := by
  have code (text : Text) : interfaceOf (sourceFindings text stage) =
      interfaceOf (findings stage.hasAttributes .idle
        (((lines text).map stripComment).map Line.ofText)) := by
    rw [← interfaceBare, sourceFindings, sourceLines, findingsCode, interfaceBare]
  rw [scan, declarations, code source, same, ← code other]
  rfl

theorem scanIgnoresBraces :
    let source := "struct S \x7b // \x7d;\nvec3 a; \x7d;".toList
    let other := "struct S \x7b //\nvec3 a; \x7d;// in T n;".toList
    (lines source).map stripComment = (lines other).map stripComment ∧
      scan source .vertex = scan other .vertex := by
  intro source other
  have same : (lines source).map stripComment = (lines other).map stripComment := by decide
  exact ⟨same, scanIgnoresComments same .vertex⟩

end ShaderReflection.Glsl
