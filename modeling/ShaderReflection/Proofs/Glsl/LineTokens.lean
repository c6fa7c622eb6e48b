import ShaderReflection.Proofs.Glsl.Comment
/-!
The tokens of a line, and the comment among them. The tokens in front of a comment are those of the
code alone. Every token is one that is read as it stands, so the tokens, written one space apart,
are read again.
-/
namespace ShaderReflection.Glsl
open Text

namespace Line

theorem commentBehind {text code : Text} {rest : List Text} {token : Text}
    (clean : Uncommented code)
    (shape : (ofText text).tokens = (ofText code).tokens ++ token :: rest)
    (opens : opensComment token = true) :
    (ofText text).commentIndex? = some (ofText code).tokens.length := by
  rw [commentIndex?, shape]
  exact commentAt text (noTokenOpens clean) opens

theorem commentNone {text : Text} (clean : Uncommented text) : (ofText text).commentIndex? = none :=
  List.findIdx?_eq_none_iff.mpr (noTokenOpens clean)

end Line

theorem commentCutsTokens (text : Text) :
    let line := Line.ofText text
    let code := Line.ofText (stripComment text)
    line.tokens.take (line.commentIndex?.getD line.tokens.length) = code.tokens ∧
      line.commentIndex? = (if hasInfix ['/', '/'] text then some code.tokens.length else none) ∧
      ∀ keyword, opensComment keyword = false →
        line.qualifierIndex? keyword = code.qualifierIndex? keyword ∧
          ∀ index, line.qualifierIndex? keyword = some index →
            line.declarationAfter? index = code.declarationAfter? index := by
  intro line code
  have searched : ∀ keyword, opensComment keyword = false →
      line.qualifierIndex? keyword = code.qualifierIndex? keyword ∧
        ∀ index, line.qualifierIndex? keyword = some index →
          line.declarationAfter? index = code.declarationAfter? index := fun keyword word =>
    ⟨Line.qualifierStripped text keyword word, fun _ => Line.declarationStripped text keyword word⟩
  rcases tokensCases text with clean | ⟨marks, token, rest, split, opens⟩
  · have none := Line.commentNone clean
    have absent : hasInfix ['/', '/'] text = false := infixAbsent.mpr clean
    have same : code = line := congrArg Line.ofText (stripUncommented clean)
    refine ⟨?_, by rw [none, absent]; rfl, searched⟩
    rw [none, Option.getD_none, List.take_length, same]
  · have found := Line.commentBehind (stripClean text) split opens
    have present : hasInfix ['/', '/'] text = true := infixFound.mpr marks
    have parts : line.tokens = code.tokens ++ token :: rest := split
    refine ⟨?_, by rw [found, present]; rfl, searched⟩
    rw [found, Option.getD_some, parts, List.take_left]

theorem commentCutsTokensGlued :
    let line := Line.ofText "x ;/; in vec3 a;//; in;".toList
    let code := Line.ofText (stripComment "x ;/; in vec3 a;//; in;".toList)
    opensComment inKeyword = false ∧ line.qualifierIndex? inKeyword = some 2 ∧
      code.qualifierIndex? inKeyword = some 2 ∧
      line.declarationAfter? 2 = code.declarationAfter? 2 := by
  intro line code
  have word : opensComment inKeyword = false := by decide
  have found : line.qualifierIndex? inKeyword = some 2 := by decide
  obtain ⟨same, after⟩ := (commentCutsTokens "x ;/; in vec3 a;//; in;".toList).2.2 inKeyword word
  exact ⟨word, found, same.symm.trans found, after 2 found⟩

structure Canonical (token : Text) : Prop where
  solid : Solid token
  first : token.head? ≠ some ';'
  last : token.getLast? ≠ some ';'
  comment : ['/', '/'] <:+: token → opensComment token = true

theorem opensExactly {t : Text} : opensComment t = true ↔ ∃ v, t = '/' :: '/' :: v := by
  rw [opensComment, List.isPrefixOf_iff_prefix]
  exact ⟨fun ⟨v, shape⟩ => ⟨v, shape.symm⟩, fun ⟨v, shape⟩ => ⟨v, shape.symm⟩⟩

theorem partWithin {w part : Text} (member : part ∈ splitComment w) : part <:+: w := by
  rw [splitComment] at member
  split at member
  · obtain rfl := List.mem_singleton.mp member
    exact List.infix_rfl
  · rcases List.mem_cons.mp member with rfl | behind
    · exact (stripPrefix w).isInfix
    · rw [List.mem_singleton.mp behind]
      exact (List.drop_suffix _ w).isInfix

theorem partCode {w part : Text} (member : part ∈ splitComment w) :
    Uncommented part ∨ opensComment part = true := by
  rcases stripCases w with clean | ⟨v, shape, clean⟩
  · exact .inl (uncommentedPart clean (partWithin member))
  · rw [shape, splitCommented clean] at member
    split at member
    · rw [List.mem_singleton.mp member]
      exact .inr rfl
    · rcases List.mem_cons.mp member with rfl | behind
      · exact .inl (uncommentedFront clean)
      · rw [List.mem_singleton.mp behind]
        exact .inr rfl

theorem tokenCanonical {line token : Text} (member : token ∈ tokens line) : Canonical token := by
  obtain ⟨part, among, rfl, some'⟩ := tokenTrimmed member
  obtain ⟨word, inside, parts⟩ := List.mem_flatMap.mp among
  have kept : trimBoth (· == ';') part <:+: part := trimBothInfix _ part
  have within := kept.trans (partWithin parts)
  have solid := wordSolid inside
  refine ⟨⟨some', fun c char => solid.plain c (within.subset char)⟩, fun first => ?_,
    fun last => ?_, fun marks => ?_⟩
  · exact nomatch trimBothFirst first
  · exact nomatch trimBothLast last
  · rcases partCode parts with clean | opens
    · exact absurd marks (uncommentedPart clean kept)
    · obtain ⟨v, rfl⟩ := opensExactly.mp opens
      rw [commentTrimmed]
      rfl

theorem canonicalAlone {w : Text} (canonical : Canonical w) : tokensOf (splitComment w) = [w] := by
  have some' := canonical.solid.nonempty
  have whole : trimBoth (· == ';') w = w :=
    trimBothKept (fun c head => beq_false_of_ne fun same => canonical.first (same ▸ head))
      fun c last => beq_false_of_ne fun same => canonical.last (same ▸ last)
  have alone : tokensOf [w] = [w] := by simp [tokensOf, whole, some']
  by_cases marks : ['/', '/'] <:+: w
  · obtain ⟨v, rfl⟩ := opensExactly.mp (canonical.comment marks)
    exact alone
  · have clean : Uncommented w := marks
    have same := splitUncommented clean
    rw [List.filter_cons_of_pos (by simp [some']), List.filter_nil, List.flatMap_singleton] at same
    rw [same, alone]

theorem canonicalTokens {ws : List Text} (canonical : ∀ w ∈ ws, Canonical w) :
    tokens (joinWith [' '] ws) = ws := by
  have parts : tokensOf (ws.flatMap splitComment) = ws := by
    induction ws with
    | nil => rfl
    | cons w rest ih =>
      obtain ⟨first, others⟩ := List.forall_mem_cons.mp canonical
      rw [List.flatMap_cons, tokensOfAppend, canonicalAlone first, ih others,
        List.singleton_append]
  have split := wordsJoined fun w member => (canonical w member).solid
  change tokensOf ((words _).flatMap splitComment) = ws
  rw [split, parts]

theorem tokensCanonical (text : Text) :
    (∀ token ∈ (Line.ofText text).tokens, Canonical token) ∧
      (Line.ofText (joinWith [' '] (Line.ofText text).tokens)).tokens =
        (Line.ofText text).tokens := by
  have each : ∀ token ∈ tokens text, Canonical token := fun _ => tokenCanonical
  exact ⟨each, canonicalTokens each⟩

theorem tokensCanonicalGlued :
    let line := Line.ofText ";a;b;//;c;// ;;/; //;".toList
    line.tokens = ["a;b", "//;c;//", "/", "//"].map String.toList ∧
      (∀ token ∈ line.tokens, Canonical token) ∧
      (Line.ofText (joinWith [' '] line.tokens)).tokens = line.tokens :=
  ⟨by decide, tokensCanonical _⟩

end ShaderReflection.Glsl
