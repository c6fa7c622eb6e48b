import ShaderReflection.Proofs.Glsl.ClauseTokens
/-!
Which list of a clause gives the location. The variable is read behind the last closing parenthesis,
but its location comes from the first list, so the list in front of the variable counts only if no
parenthesis stands in front of it.
-/
namespace ShaderReflection.Glsl
open Text

def Assignment (item : Text) (n : UInt32) : Prop := ∃ key value, item = key ++ '=' :: value ∧
  '=' ∉ key ∧ trim key = locationKey ∧ Numeral 10 n.toNat (dropPlus (trim value))

def ListAssigns (list : Text) (n : UInt32) : Prop := ∃ before item after,
  splitOn ',' list = before ++ item :: after ∧ Assignment item n ∧
    ∀ other ∈ before, ∀ m, ¬Assignment other m

theorem itemAssigned {item : Text} {n : UInt32} :
    locationOf? item = some n ↔ Assignment item n := by
  rw [locationOf?, Option.bind_eq_some_iff]
  constructor
  · rintro ⟨⟨key, value⟩, split, found⟩
    obtain ⟨named, read⟩ := Option.ite_none_right_eq_some.mp found
    obtain ⟨shape, lacks⟩ := splitFirstExact.mp split
    exact ⟨key, value, shape, lacks, named, (wordExact (by decide) (by decide)).mp read⟩
  · rintro ⟨key, value, shape, lacks, named, numeral⟩
    refine ⟨(key, value), splitFirstExact.mpr ⟨shape, lacks⟩, ?_⟩
    exact (if_pos named).trans ((wordExact (by decide) (by decide)).mpr numeral)

theorem listAssigned {list : Text} {n : UInt32} :
    (splitOn ',' list).findSome? locationOf? = some n ↔ ListAssigns list n := by
  simp only [List.findSome?_eq_some_iff, ListAssigns, itemAssigned]
  refine exists_congr fun before => exists_congr fun item => exists_congr fun after =>
    and_congr_right fun _ => and_congr_right fun _ => forall₂_congr fun other _ => ?_
  rw [Option.eq_none_iff_forall_ne_some]
  exact forall_congr' fun m => not_congr itemAssigned

def listedClause (front items declarator : Text) : Text :=
  front ++ '(' :: (items ++ ')' :: declarator)

section Listed
variable {front items declarator type name : Text} {qualifier : Qualifier}

theorem ownLocation (unclosed : ')' ∉ items) (unopened : '(' ∉ front) :
    explicitLocation? (listedClause front items declarator) =
      (splitOn ',' items).findSome? locationOf? := by
  rw [explicitLocation?, listedClause, splitFirstAt unopened, Option.bind_some,
    splitFirstAt unclosed]
  rfl

theorem earlierLocation {before behind : Text} (opened : front = before ++ '(' :: behind)
    (first : '(' ∉ before) :
    explicitLocation? (listedClause front items declarator) =
      (splitOn ',' (upTo ')' (behind ++ '(' :: items))).findSome? locationOf? := by
  have shape : listedClause front items declarator =
      before ++ '(' :: ((behind ++ '(' :: items) ++ ')' :: declarator) := by
    simp [listedClause, opened]
  obtain ⟨rest, cut⟩ := splitFirstUpTo ')' (behind ++ '(' :: items) declarator
  rw [explicitLocation?, shape, splitFirstAt first, Option.bind_some, cut]
  rfl

theorem listedDeclares (typed : isIdentifier type = true) (named : isIdentifier name = true)
    (spaced : Spaced [qualifier.keyword, type, name] declarator) :
    declarationOf? (listedClause front items declarator) = some ⟨qualifier,
      ⟨TypeName.ofText type, name, explicitLocation? (listedClause front items declarator)⟩⟩ := by
  have keyword : isIdentifier qualifier.keyword = true := by cases qualifier <;> rfl
  have token : ∀ w ∈ [qualifier.keyword, type, name], Token [] w := by
    simp only [List.forall_mem_cons]
    exact ⟨identifierToken keyword, identifierToken typed, identifierToken named,
      List.forall_mem_nil _⟩
  have unclosed : ')' ∉ declarator := spacedWithout token rfl rfl List.not_mem_nil spaced
  have head : clauseHead? (listedClause front items declarator) = some (qualifier, type, name) := by
    have first := qualifiedAt (List.forall_mem_nil _) qualifier [type, name]
    rw [List.nil_append] at first
    rw [clauseHead?, listedClause, ← List.cons_append, ← List.append_assoc, afterLastAt unclosed,
      spacedWords token spaced, first]
  rw [declarationOf?, head, Option.bind_some]
  simp only [typed, named, Bool.and_self, if_true]

theorem locationListed (unclosed : ')' ∉ items) (typed : isIdentifier type = true)
    (named : isIdentifier name = true)
    (spaced : Spaced [qualifier.keyword, type, name] declarator) :
    ∃ location, declarationOf? (listedClause front items declarator) =
        some ⟨qualifier, ⟨TypeName.ofText type, name, location⟩⟩ ∧
      ('(' ∉ front → ∀ n, location = some n ↔ ListAssigns items n) ∧
      ∀ before behind, front = before ++ '(' :: behind → '(' ∉ before →
        ∀ n, location = some n ↔ ListAssigns (upTo ')' (behind ++ '(' :: items)) n := by
  refine ⟨_, listedDeclares typed named spaced, fun unopened n => ?_,
    fun before behind opened first n => ?_⟩
  · rw [ownLocation unclosed unopened, listAssigned]
  · rw [earlierLocation opened first, listAssigned]

theorem locationListedNormal :
    let front := "\x7d layout".toList
    let items := "component = 1, location = +02".toList
    let declarator := " in vec3\tn".toList
    ')' ∉ items ∧ Spaced [inKeyword, "vec3".toList, "n".toList] declarator ∧ '(' ∉ front ∧
      declarationOf? (listedClause front items declarator) =
        some ⟨.input, ⟨.vec3, "n".toList, some 2⟩⟩ := by
  intro front items declarator
  have unclosed : ')' ∉ items := by decide
  have unopened : '(' ∉ front := by decide
  have empty : Blank [] := by decide
  have name := @Spaced.token ['\t'] "n".toList _ _ (by decide) (.inr rfl) (.blank empty)
  have type := @Spaced.token [' '] "vec3".toList _ _ (by decide) (.inr rfl) name
  have spaced := @Spaced.token [' '] inKeyword _ _ (by decide) (.inr rfl) type
  have numeral : Numeral 10 2 "02".toList := ⟨1, by decide⟩
  have assigns : ListAssigns items 2 := by
    refine ⟨["component = 1".toList], " location = +02".toList, [], by decide,
      ⟨" location ".toList, " +02".toList, by decide, by decide, by decide, numeral⟩, ?_⟩
    exact List.forall_mem_singleton.mpr fun m assigned => nomatch itemAssigned.mpr assigned
  obtain ⟨location, declared, own, -⟩ :=
    @locationListed front items declarator _ _ .input unclosed rfl rfl spaced
  rw [(own unopened 2).mpr assigns] at declared
  exact ⟨unclosed, spaced, unopened, declared⟩

theorem locationOverlooked :
    let items := "location = 2".toList
    let declarator := " in vec3 n".toList
    ListAssigns items 2 ∧
      declarationOf? (listedClause "layout".toList items declarator) =
        some ⟨.input, ⟨.vec3, "n".toList, some 2⟩⟩ ∧
      declarationOf? (listedClause "layout(row_major) layout".toList items declarator) =
        some ⟨.input, ⟨.vec3, "n".toList, none⟩⟩ := by
  intro items declarator
  have assigned : (splitOn ',' items).findSome? locationOf? = some 2 := by decide
  exact ⟨listAssigned.mp assigned, by decide, by decide⟩

end Listed
end ShaderReflection.Glsl
