import ShaderReflection.Proofs.Glsl.StructNames
/-!
Definitions that are read across a seam: a run of characters that belong to no word and give a
definition no shape, such as the blanks between two words. Which characters these are makes no
difference to the definition, unless they are all that keeps two words of a body apart.
-/
namespace ShaderReflection.Glsl
open Text

def definitionIn? (code : Text) : Option StructDef :=
  (splitFirst? '{' code).bind fun q =>
    if (q.1.filter isWordChar).isEmpty then none
    else some ⟨q.1.filter isWordChar, structMembers q.2, none, none⟩

theorem spanDefinition (span : Text) :
    structOfSpan? span = (behindKeyword? span).bind definitionIn? := by
  rw [structOfSpan?, structParts?, behindKeyword?]
  cases splitAtWord? structKeyword span with
  | none => rfl
  | some p =>
    rw [Option.bind_some, Option.map_some, Option.bind_some, definitionIn?, Option.bind_map]
    rfl

def isFiller (c : Char) : Bool := !(isWordChar c || c == ';' || c == '{' || c == '}')

structure Seam (g : Text) : Prop where
  nonempty : g ≠ []
  filler : ∀ c ∈ g, isFiller c = true

theorem fillerOther {c : Char} (filler : isFiller c = true) :
    isWordChar c = false ∧ c ≠ ';' ∧ c ≠ '{' ∧ c ≠ '}' := by
  simpa [isFiller, and_assoc] using filler

theorem structWord : WordText structKeyword := ⟨by decide, eachChar (by decide)⟩

theorem behindBreak {c : Char} (mark : isWordChar c = false) (a b : Text) :
    behindKeyword? (a ++ c :: b) =
      ((behindKeyword? a).map (· ++ c :: b)).or (behindKeyword? b) := by
  have search : splitAtWord? structKeyword (a ++ c :: b) = _ :=
    searchBreak structWord mark a b none 0 (Nat.zero_le _)
  rw [behindKeyword?, search, behindKeyword?, behindKeyword?, ← splitAtWord?]
  cases splitAtWord? structKeyword a <;> cases splitAtWord? structKeyword b <;> rfl

theorem behindFiller {g : Text} (filler : ∀ c ∈ g, isFiller c = true) (t : Text) :
    behindKeyword? (g ++ t) = behindKeyword? t := by
  induction g with
  | nil => rfl
  | cons c r ih =>
    obtain ⟨here, others⟩ := List.forall_mem_cons.mp filler
    have first := behindBreak (fillerOther here).1 [] (r ++ t)
    rw [ih others] at first
    exact first

theorem behindSeam {g : Text} (seam : Seam g) (u v : Text) :
    behindKeyword? (u ++ (g ++ v)) =
      ((behindKeyword? u).map (· ++ (g ++ v))).or (behindKeyword? v) := by
  obtain ⟨c, r, rfl⟩ := List.exists_cons_of_ne_nil seam.nonempty
  obtain ⟨here, others⟩ := List.forall_mem_cons.mp seam.filler
  rw [List.cons_append, behindBreak (fillerOther here).1, behindFiller others]

def Touch (before after : Text) : Prop :=
  before.getLast?.any isWordChar = true ∧ after.head?.any isWordChar = true

instance (before after : Text) : Decidable (Touch before after) :=
  inferInstanceAs (Decidable (_ ∧ _))

theorem clauseBlank {clause kept : Text} {next : Option Char}
    (chars : ∀ c ∈ kept, isBodyChar c = true) (piece : clause ∈ splitOn ';' kept)
    (inside : ∀ c, next = some c → c ∈ clause)
    (other : next.any isWordChar = false) : next.all isBlank = true := by
  cases next with
  | none => rfl
  | some c =>
    have member := inside c rfl
    have char := chars c ((pieceInfix piece).subset member)
    have unparted := pieceUnparted piece c member
    rw [Option.any_some] at other
    rw [isBodyChar, other, unparted, Bool.false_or, Bool.or_false, beq_iff_eq] at char
    rw [char]
    rfl

theorem clausesLoose {x y last first : Text} {front rest : List Text}
    (keptX : ∀ c ∈ x, isBodyChar c = true) (keptY : ∀ c ∈ y, isBodyChar c = true)
    (before : splitOn ';' x = front ++ [last]) (behind : splitOn ';' y = first :: rest)
    (apart : ¬Touch x y) : words (last ++ first) = words last ++ words first := by
  refine wordsLoose ?_
  rw [Touch, not_and_or, Bool.not_eq_true, Bool.not_eq_true] at apart
  rcases apart with ends | begins
  · refine .inl (clauseBlank keptX (before ▸ by simp) (fun c => List.mem_of_getLast?) ?_)
    rcases lastPieceEnds before with rfl | same
    · rfl
    · rw [same, ends]
  · refine .inr (clauseBlank keptY (behind ▸ by simp) (fun c => List.mem_of_head?) ?_)
    rcases firstPieceBegins behind with rfl | same
    · rfl
    · rw [same, begins]

theorem membersSeam {x y between : Text} (keptX : ∀ c ∈ x, isBodyChar c = true)
    (keptY : ∀ c ∈ y, isBodyChar c = true) (spaces : ∀ c ∈ between, c = ' ')
    (loose : between ≠ [] ∨ ¬Touch x y) :
    membersIn (x ++ (between ++ y)) = membersIn (x ++ ' ' :: y) := by
  obtain ⟨front, last, before⟩ := splitLast (p := (· == ';')) x
  obtain ⟨first, rest, behind⟩ := splitNonempty (p := (· == ';')) y
  have split {g : Text} (spaces : ∀ c ∈ g, c = ' ') :
      splitOn ';' (x ++ (g ++ y)) = front ++ (last ++ (g ++ first)) :: rest := by
    have alone : splitOn ';' g = [] ++ [g] := splitOnNone fun member => nomatch spaces ';' member
    exact splitAppend before (splitAppend alone behind)
  have parted {g : Text} (spaces : ∀ c ∈ g, c = ' ') (loose : g ≠ [] ∨ ¬Touch x y) :
      words (last ++ (g ++ first)) = words last ++ words first := by
    cases g with
    | nil => exact clausesLoose keptX keptY before behind (loose.resolve_left (· rfl))
    | cons c r =>
      obtain ⟨rfl, others⟩ := List.forall_mem_cons.mp spaces
      have blank : Blank r := fun c member => others c member ▸ rfl
      rw [List.cons_append, wordsSeparator rfl, wordsInFront blank]
  have space : ∀ c ∈ [' '], c = ' ' := List.forall_mem_singleton.mpr rfl
  have clause : clauseMember? (last ++ (between ++ first)) =
      clauseMember? (last ++ ([' '] ++ first)) := by
    rw [clauseMember?, clauseMember?, parted spaces loose,
      parted space (.inl (List.cons_ne_nil _ _))]
  have one := split space
  rw [List.singleton_append] at one
  rw [membersIn, membersIn, split spaces, one, List.filterMap_append, List.filterMap_append,
    List.filterMap_cons, List.filterMap_cons, clause, List.singleton_append]

def Parted (code after : Text) : Prop := ∃ p ∈ splitFirst? '{' code,
  '}' ∉ p.2 ∧ Touch (p.2.filter isBodyChar) (keptBody after)

instance (code after : Text) : Decidable (Parted code after) :=
  inferInstanceAs (Decidable (∃ p ∈ _, _))

theorem keptClosed {body : Text} (closed : '}' ∈ body) (t : Text) :
    keptBody (body ++ t) = keptBody body := by
  obtain ⟨front, back, rfl, lacks⟩ := List.eq_append_cons_of_mem closed
  have shut (t : Text) : keptBody ('}' :: t) = [] := rfl
  rw [List.append_assoc, keptAppend lacks, keptAppend lacks, List.cons_append, shut, shut]

theorem keptOpen {body : Text} (open' : '}' ∉ body) : keptBody body = body.filter isBodyChar := by
  have whole := keptAppend open' []
  have none : keptBody [] = [] := rfl
  rwa [none, List.append_nil, List.append_nil] at whole

section Seams
variable {g : Text} (seam : Seam g)
include seam

theorem seamLacks {mark : Char} (shape : isFiller mark = false) : mark ∉ g := fun member => by
  rw [seam.filler mark member] at shape
  cases shape

theorem seamSpaces : ∀ c ∈ g.filter isBodyChar, c = ' ' := by
  intro c member
  obtain ⟨inside, kept⟩ := List.mem_filter.mp member
  obtain ⟨word, ended, -⟩ := fillerOther (seam.filler c inside)
  rw [isBodyChar, word, beq_false_of_ne ended, Bool.false_or, Bool.or_false, beq_iff_eq] at kept
  exact kept

theorem bodySeam {body after : Text}
    (loose : ' ' ∈ g ∨ '}' ∈ body ∨ ¬Touch (body.filter isBodyChar) (keptBody after)) :
    structMembers (body ++ (g ++ after)) = structMembers (body ++ ' ' :: after) := by
  rw [structMembersKept, structMembersKept]
  by_cases closed : '}' ∈ body
  · rw [keptClosed closed, keptClosed closed]
  · have lacks : '}' ∉ [' '] := by decide
    have space : keptBody (' ' :: after) = ' ' :: keptBody after := keptAppend lacks after
    rw [keptAppend closed, keptAppend closed, keptAppend (seamLacks seam rfl), space]
    refine membersSeam (fun c member => (List.mem_filter.mp member).2) (keptChars after)
      (seamSpaces seam) ?_
    rcases loose with spaced | shut | apart
    · exact .inl (List.ne_nil_of_mem (List.mem_filter.mpr ⟨spaced, rfl⟩))
    · exact absurd shut closed
    · exact .inr apart

theorem headSeam {code after : Text} (unopened : '{' ∉ code) :
    definitionIn? (code ++ (g ++ after)) = definitionIn? (code ++ ' ' :: after) := by
  have named (h : Text) : (code ++ (g ++ h)).filter isWordChar =
      (code ++ ' ' :: h).filter isWordChar := by
    have none : g.filter isWordChar = [] := List.filter_eq_nil_iff.mpr fun c member => by
      simp [(fillerOther (seam.filler c member)).1]
    simp only [List.filter_append, none, List.nil_append]
    rfl
  have lacksSeam : '{' ∉ g := seamLacks seam rfl
  by_cases later : '{' ∈ after
  · obtain ⟨h, rest, rfl, lacks⟩ := List.eq_append_cons_of_mem later
    have first : splitFirst? '{' (code ++ (g ++ (h ++ '{' :: rest))) =
        some (code ++ (g ++ h), rest) := splitFirstExact.mpr (by simp [unopened, lacksSeam, lacks])
    have second : splitFirst? '{' (code ++ ' ' :: (h ++ '{' :: rest)) =
        some (code ++ ' ' :: h, rest) := splitFirstExact.mpr (by simp [unopened, lacks])
    rw [definitionIn?, definitionIn?, first, second, Option.bind_some, Option.bind_some, named]
  · have first : '{' ∉ code ++ (g ++ after) := by simp [unopened, lacksSeam, later]
    have second : '{' ∉ code ++ ' ' :: after := by simp [unopened, later]
    rw [definitionIn?, definitionIn?, splitFirstNone first, splitFirstNone second]

theorem definitionSeam {code after : Text} (loose : ' ' ∈ g ∨ ¬Parted code after) :
    definitionIn? (code ++ (g ++ after)) = definitionIn? (code ++ ' ' :: after) := by
  by_cases opened : '{' ∈ code
  · obtain ⟨head, body, rfl, lacks⟩ := List.eq_append_cons_of_mem opened
    have split (t : Text) :
        splitFirst? '{' ((head ++ '{' :: body) ++ t) = some (head, body ++ t) := by
      rw [List.append_assoc]
      exact splitFirstAt lacks _
    have members : structMembers (body ++ (g ++ after)) = structMembers (body ++ ' ' :: after) := by
      refine bodySeam seam (loose.imp_right fun whole => ?_)
      by_cases closed : '}' ∈ body
      · exact .inl closed
      · exact .inr fun touch => whole ⟨(head, body), splitFirstAt lacks body, closed, touch⟩
    rw [definitionIn?, definitionIn?, split, split, Option.bind_some, Option.bind_some, members]
  · exact headSeam seam opened

end Seams

theorem spaceSeam : Seam [' '] := ⟨List.cons_ne_nil _ _, eachChar (by decide)⟩

theorem spanSeam {g u v : Text} (seam : Seam g)
    (loose : ' ' ∈ g ∨ ∀ code ∈ behindKeyword? u, ¬Parted code v) :
    structOfSpan? (u ++ (g ++ v)) = structOfSpan? (u ++ ' ' :: v) := by
  have space := behindSeam spaceSeam u v
  rw [List.singleton_append] at space
  rw [spanDefinition, spanDefinition, behindSeam seam, space]
  cases keyword : behindKeyword? u with
  | none => rfl
  | some code => exact definitionSeam seam (loose.imp_right fun whole => whole code keyword)

theorem partedNext {code after t : Text} (parted : Parted code (after ++ ' ' :: t)) :
    Parted code after := by
  obtain ⟨p, brace, open', ends, begins⟩ := parted
  refine ⟨p, brace, open', ends, ?_⟩
  by_cases closed : '}' ∈ after
  · rwa [keptClosed closed] at begins
  · rw [keptAppend closed] at begins
    rw [keptOpen closed]
    cases kept : after.filter isBodyChar with
    | nil =>
      rw [kept] at begins
      cases begins
    | cons c r =>
      rw [kept] at begins
      exact begins

end ShaderReflection.Glsl
