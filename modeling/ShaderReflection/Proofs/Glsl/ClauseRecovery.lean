import ShaderReflection.Proofs.Glsl.ClauseTokens
/-!
Declarations on rows, broken wherever two tokens meet, with comments, empty rows and directives
between them. The clauses of such a source read as its declarations, in their order.
-/
namespace ShaderReflection.Glsl
open Text

inductive ClauseRows : List Text → List Text → Prop where
  | nil : ClauseRows [] []
  | directive {ws gap rest rows} (blank : Blank gap) (oneRow : '\n' ∉ gap ++ '#' :: rest)
      (more : ClauseRows ws rows) : ClauseRows ws ((gap ++ '#' :: rest) :: rows)
  | code {chunk ws code tail rows} (spaced : Spaced chunk code) (oneRow : '\n' ∉ code)
      (blank : Tail tail) (more : ClauseRows ws rows) :
      ClauseRows (chunk ++ ws) ((code ++ tail) :: rows)

inductive Ending : List Text → Prop where
  | none : Ending []
  | main {front} (oneRow : '\n' ∉ front) (rest : Text) : Ending [front ++ (entryPoint ++ rest)]

def WrittenDeclaration.ended (d : WrittenDeclaration) : List Text := d.tokens ++ [[';']]

def codeOf (rows : List Text) : Text :=
  ((rows.map lineCode).filter isClauseCode).flatMap (· ++ [' '])

theorem codeOfAppend (front back : List Text) :
    codeOf (front ++ back) = codeOf front ++ codeOf back := by
  rw [codeOf, List.map_append, List.filter_append, List.flatMap_append, codeOf, codeOf]

theorem codeSkips {row : Text} (skipped : isClauseCode (lineCode row) = false) (rows : List Text) :
    codeOf (row :: rows) = codeOf rows := by
  rw [codeOf, List.map_cons, List.filter_cons_of_neg (by simp [skipped]), codeOf]

theorem codeTakes {row : Text} (taken : isClauseCode (lineCode row) = true) (rows : List Text) :
    codeOf (row :: rows) = lineCode row ++ ' ' :: codeOf rows := by
  rw [codeOf, List.map_cons, List.filter_cons_of_pos taken, List.flatMap_cons, List.append_assoc,
    List.singleton_append, codeOf]

theorem lineReturned (line : Text) : lineCode (dropReturn line) = lineCode line := by
  rcases returnedCases line with same | ⟨front, rfl, same⟩
  · rw [same]
  · rw [same, lineCode, lineCode]
    rcases stripEnd (by decide : '\r' ≠ '/') front with short | long
    · rw [short]
    · rw [long, trimBehind (by decide)]

theorem codeReturned (rows : List Text) : codeOf (rows.map dropReturn) = codeOf rows := by
  have same : lineCode ∘ dropReturn = lineCode := funext lineReturned
  rw [codeOf, List.map_map, same, codeOf]

theorem directiveSkipped {gap : Text} (blank : Blank gap) (rest : Text) :
    isClauseCode (lineCode (gap ++ '#' :: rest)) = false := by
  have code : stripComment ('#' :: rest) = '#' :: stripComment rest := stripStep fun ⟨slash, _⟩ =>
    absurd slash (by decide)
  rw [lineCode, stripAppend (blankLacks blank rfl), trimInFront blank, code, trimStart rfl]
  rfl

section Row
variable {chunk : List Text} {code : Text}

theorem rowLineCode (token : ∀ w ∈ chunk, Token (';' :: clauseMarks) w) (spaced : Spaced chunk code)
    {tail : Text} (blank : Tail tail) : lineCode (code ++ tail) = trim code := by
  have unslashed : '/' ∉ code := spacedWithout token rfl rfl (by decide) spaced
  rw [lineCode, stripAppend unslashed, trimBehind blank.blank]

theorem chunkTaken (some' : chunk ≠ []) (token : ∀ w ∈ chunk, Token (';' :: clauseMarks) w)
    (spaced : Spaced chunk code) : isClauseCode code = true := by
  have undirected : '#' ∉ code := spacedWithout token rfl rfl (by decide) spaced
  cases code with
  | nil =>
    have solid : ∀ w ∈ chunk, Solid w := fun w member => tokenSolid (token w member)
    exact absurd rfl (spacedNonempty some' solid spaced)
  | cons c r =>
    rw [List.mem_cons, not_or] at undirected
    simp [isClauseCode, Ne.symm undirected.1]

end Row

theorem rowsSpaced {ws rows : List Text} (token : ∀ w ∈ ws, Token (';' :: clauseMarks) w)
    (laid : ClauseRows ws rows) : Spaced ws (codeOf rows) := by
  induction laid with
  | nil => exact .blank (List.forall_mem_nil _)
  | directive blank oneRow more ih =>
    rw [codeSkips (directiveSkipped blank _)]
    exact ih token
  | @code chunk ws code tail rows spaced oneRow blank more ih =>
    obtain ⟨here, others⟩ := List.forall_mem_append.mp token
    have rest := ih others
    have line := rowLineCode here spaced blank
    cases chunk with
    | nil =>
      cases spaced with
      | blank gap =>
        rw [codeSkips (by rw [line, trimBlank gap]; rfl)]
        exact rest
    | cons w chunk =>
      have trimmed := spacedTrim (fun w member => tokenSolid (here w member)) spaced
      have taken := chunkTaken (List.cons_ne_nil w chunk) here trimmed
      rw [codeTakes (by rw [line]; exact taken), line]
      exact spacedAppend trimmed rest

theorem rowsWhole {ws rows : List Text} (laid : ClauseRows ws rows) : ∀ row ∈ rows, '\n' ∉ row := by
  induction laid with
  | nil => exact List.forall_mem_nil _
  | directive blank oneRow more ih => exact List.forall_mem_cons.mpr ⟨oneRow, ih⟩
  | code spaced oneRow blank more ih =>
    refine List.forall_mem_cons.mpr ⟨?_, ih⟩
    rw [List.mem_append, not_or]
    exact ⟨oneRow, blank.oneRow⟩

theorem entryLine {front : Text} (oneRow : '\n' ∉ front) (rest : Text) :
    ∃ line more, lines (front ++ (entryPoint ++ rest)) = line :: more ∧ entryPoint <:+: line := by
  have begun {t : Text} (lacks : '\n' ∉ t) : '\n' ∉ front ++ (entryPoint ++ t) := by
    rw [List.mem_append, List.mem_append, not_or, not_or]
    exact ⟨oneRow, by decide, lacks⟩
  by_cases feeds : '\n' ∈ rest
  · obtain ⟨line, more, rfl, whole⟩ := List.eq_append_cons_of_mem feeds
    have ended := lineEnded (begun whole) more
    rw [List.append_assoc, List.append_assoc] at ended
    have letter : entryPoint.getLast? = some 'n' := by decide
    have last : (front ++ entryPoint).getLast? ≠ some '\r' := by
      rw [List.getLast?_append, letter, Option.some_or]
      decide
    have kept := returnedKeeps last line
    rw [List.append_assoc] at kept
    have inside := (List.suffix_append front entryPoint).isInfix.trans kept.isInfix
    exact ⟨_, _, ended, inside⟩
  · have word : entryPoint ≠ [] := by decide
    have some' : front ++ (entryPoint ++ rest) ≠ [] := fun empty =>
      word (List.append_eq_nil_iff.mp (List.append_eq_nil_iff.mp empty).2).1
    exact ⟨_, [], lineLast (begun feeds) some', front, rest, List.append_assoc _ _ _⟩

def beforeEntry (line : Text) : Bool := !hasInfix entryPoint line

theorem rowBefore {row : Text} : beforeEntry row = true ↔ ¬entryPoint <:+: row := by
  rw [beforeEntry, Bool.not_eq_true', Bool.eq_false_iff, Ne, infixFound]

theorem rowsBefore {rows : List Text} (before : ∀ row ∈ rows, ¬entryPoint <:+: row) :
    ∀ line ∈ rows.map dropReturn, beforeEntry line = true := by
  intro line member
  obtain ⟨row, inside, rfl⟩ := List.mem_map.mp member
  refine rowBefore.mpr fun found => before row inside ?_
  exact found.trans (returnedPrefix row).isInfix

theorem codeBefore {rows : List Text} (before : ∀ row ∈ rows, ¬entryPoint <:+: row)
    (more : List Text) : codeOf ((rows.map dropReturn ++ more).takeWhile beforeEntry) =
      codeOf rows ++ codeOf (more.takeWhile beforeEntry) := by
  rw [List.takeWhile_append_of_pos (rowsBefore before), codeOfAppend, codeReturned]

theorem lastCode {last : Text} (oneRow : '\n' ∉ last) (before : ¬entryPoint <:+: last) :
    codeOf ((lines last).takeWhile beforeEntry) = codeOf [last] := by
  by_cases empty : last = []
  · subst empty
    rfl
  · rw [lineLast oneRow empty, List.takeWhile_cons_of_pos (rowBefore.mpr before), List.takeWhile_nil]

theorem linesRows {first : Text} (oneRow : '\n' ∉ first) {rows : List Text}
    (whole : ∀ row ∈ rows, '\n' ∉ row) (last : Text) :
    lines (joinWith ['\n'] (first :: (rows ++ [last]))) =
      dropReturn first :: (rows.map dropReturn ++ lines last) := by
  have each : ∀ row ∈ first :: rows, '\n' ∉ row := List.forall_mem_cons.mpr ⟨oneRow, whole⟩
  rw [← List.cons_append, linesJoined each]
  rfl

theorem linesBehind {first : Text} (oneRow : '\n' ∉ first) {rows : List Text}
    (whole : ∀ row ∈ rows, '\n' ∉ row) (last : Text) :
    (lines (joinWith ['\n'] (first :: (rows ++ [last])))).drop 1 =
      rows.map dropReturn ++ lines last := by
  rw [linesRows oneRow whole]
  rfl

theorem sourceCode {first : Text} {rows ending : List Text} (oneRow : '\n' ∉ first)
    (whole : ∀ row ∈ rows, '\n' ∉ row) (before : ∀ row ∈ rows, ¬entryPoint <:+: row)
    (ends : Ending ending) :
    clauseText (joinWith ['\n'] (first :: (rows ++ ending))) = codeOf rows := by
  change codeOf (((lines _).drop 1).takeWhile beforeEntry) = _
  cases ends with
  | none =>
    rw [List.append_nil]
    rcases List.eq_nil_or_concat rows with rfl | ⟨front, last, rfl⟩
    · by_cases empty : first = []
      · subst empty
        rfl
      · rw [joinWith, lineLast oneRow empty]
        rfl
    rw [List.concat_eq_append] at whole before ⊢
    rw [List.forall_mem_append, List.forall_mem_singleton] at whole before
    rw [linesBehind oneRow whole.1, codeBefore before.1, lastCode whole.2 before.2, ← codeOfAppend]
  | main plain rest =>
    obtain ⟨line, more, shape, found⟩ := entryLine plain rest
    have stops : ¬beforeEntry line = true := fun before => rowBefore.mp before found
    rw [linesBehind oneRow whole, codeBefore before, shape, List.takeWhile_cons_of_neg stops]
    exact List.append_nil _

def clausesOf (t : Text) : List Text :=
  ((splitOn ';' t).map trim).filter fun clause => !clause.isEmpty

theorem clausesBlank {gap : Text} (blank : Blank gap) : clausesOf gap = [] := by
  rw [clausesOf, splitOnNone (blankLacks blank rfl), List.map_singleton, trimBlank blank]
  rfl

theorem clausesAt {front : Text} (uncut : ';' ∉ front) (some' : trim front ≠ []) (back : Text) :
    clausesOf (front ++ ';' :: back) = trim front :: clausesOf back := by
  rw [clausesOf, splitOnAt uncut, List.map_cons, List.filter_cons_of_pos (by simp [some']), clausesOf]

theorem endedTokens {d : WrittenDeclaration} (whole : d.WellFormed) :
    ∀ w ∈ d.ended, Token (';' :: clauseMarks) w := by
  rw [WrittenDeclaration.ended, List.forall_mem_append, List.forall_mem_singleton]
  refine ⟨fun w member => ?_, .mark List.mem_cons_self rfl⟩
  exact tokenAmong (List.subset_cons_self _ _) (clauseTokens whole w member)

theorem tokensNonempty (d : WrittenDeclaration) : d.tokens ≠ [] := by
  unfold WrittenDeclaration.tokens
  split
  · exact List.append_ne_nil_of_right_ne_nil _ (List.cons_ne_nil _ _)
  · exact List.cons_ne_nil _ _

theorem clausesDeclare {declarations : List WrittenDeclaration}
    (whole : ∀ d ∈ declarations, d.WellFormed) {t : Text}
    (spaced : Spaced (declarations.flatMap WrittenDeclaration.ended) t) :
    (clausesOf t).map declarationOf? = declarations.map fun d => some d.declared := by
  induction declarations generalizing t with
  | nil =>
    cases spaced with
    | blank gap => rw [clausesBlank gap, List.map_nil, List.map_nil]
  | cons d rest ih =>
    obtain ⟨here, others⟩ := List.forall_mem_cons.mp whole
    have token := clauseTokens here
    have solid : ∀ w ∈ d.tokens, Solid w := fun w member => tokenSolid (token w member)
    rw [List.flatMap_cons, WrittenDeclaration.ended, List.append_assoc, List.singleton_append]
      at spaced
    obtain ⟨before, behind, rfl, first, second⟩ := spacedSplit spaced
    have uncut : ';' ∉ before := spacedWithout token rfl rfl (by decide) first
    have trimmed := spacedTrim solid first
    rw [List.singleton_append, clausesAt uncut (spacedNonempty (tokensNonempty d) solid trimmed),
      List.map_cons, List.map_cons, clauseDeclares here trimmed, ih others second]

theorem clausesRecover {declarations : List WrittenDeclaration} {first : Text}
    {rows ending : List Text} (whole : ∀ d ∈ declarations, d.WellFormed) (oneRow : '\n' ∉ first)
    (laid : ClauseRows (declarations.flatMap WrittenDeclaration.ended) rows)
    (before : ∀ row ∈ rows, ¬entryPoint <:+: row) (ends : Ending ending) :
    (interfaceClauses (joinWith ['\n'] (first :: (rows ++ ending)))).map declarationOf? =
      (declarations.map fun d => some d.declared) ∧
    ∀ d ∈ declarations, ∀ n, d.declared.entry.location = some n ↔
      ∃ digits, .setting locationKey n.toNat digits ∈ d.items := by
  constructor
  · have token : ∀ w ∈ declarations.flatMap WrittenDeclaration.ended,
        Token (';' :: clauseMarks) w := by
      intro w member
      obtain ⟨d, inside, part⟩ := List.mem_flatMap.mp member
      exact endedTokens (whole d inside) w part
    have spaced := rowsSpaced token laid
    rw [← sourceCode oneRow (rowsWhole laid) before ends] at spaced
    exact clausesDeclare whole spaced
  · exact fun d member n => locatedOnce (whole d member).once n

theorem clausesRecoverPosition :
    let first := "#version 450".toList
    let rows := ["layout(location=", "// in T n;", "#define in", "007)in vec3 aPos ;//\r"].map
      String.toList
    let ending := ["void main() \x7b\nin float late;".toList]
    (interfaceClauses (joinWith ['\n'] (first :: (rows ++ ending)))).map declarationOf? =
      [some ⟨.input, ⟨.vec3, "aPos".toList, some 7⟩⟩] := by
  intro first rows ending
  have whole : ∀ d ∈ [WrittenDeclaration.mk (some [.setting locationKey 7 "007".toList]) [] .input
      "vec3".toList "aPos".toList], d.WellFormed := by
    refine List.forall_mem_singleton.mpr ⟨?_, by decide, List.forall_mem_nil _, by decide, by decide⟩
    exact List.forall_mem_singleton.mpr ⟨by decide, 2, by decide⟩
  have empty : Blank [] := by decide
  have space : Blank [' '] := by decide
  have equals := @Spaced.token [] ['='] _ _ empty (.inl rfl) (.blank empty)
  have key := @Spaced.token [] locationKey _ _ empty (.inr rfl) equals
  have opening := @Spaced.token [] ['('] _ _ empty (.inl rfl) key
  have layout := @Spaced.token [] "layout".toList _ _ empty (.inr rfl) opening
  have closing := @Spaced.token [' '] [';'] _ _ space (.inl rfl) (.blank empty)
  have name := @Spaced.token [' '] "aPos".toList _ _ space (.inr rfl) closing
  have type := @Spaced.token [' '] "vec3".toList _ _ space (.inr rfl) name
  have qualifier := @Spaced.token [] inKeyword _ _ empty (.inr rfl) type
  have closed := @Spaced.token [] [')'] _ _ empty (.inl rfl) qualifier
  have value := @Spaced.token [] "007".toList _ _ empty (.inr rfl) closed
  have remark := @commentTail " in T n;".toList (by decide)
  have returned := @commentTail ['\r'] (by decide)
  have last := ClauseRows.code value (by decide) returned .nil
  have directive := @ClauseRows.directive _ [] "define in".toList _ empty (by decide) last
  have laid := ClauseRows.code layout (by decide) emptyTail
    (.code (.blank empty) List.not_mem_nil remark directive)
  have plain : ∀ row ∈ rows, beforeEntry row = true := by decide
  have before : ∀ row ∈ rows, ¬entryPoint <:+: row := fun row member =>
    rowBefore.mp (plain row member)
  have ends := @Ending.main [] List.not_mem_nil "() \x7b\nin float late;".toList
  exact (clausesRecover whole (by decide) laid before ends).1.trans (by decide)

end ShaderReflection.Glsl
