import ShaderReflection.Proofs.Glsl.StructRow
import ShaderReflection.Proofs.Text.Trimming
/-!
The words of a struct definition and where they stand in its span. The reader passes characters over
before it looks for words, so a word may be put together from the two sides of such a character;
each word was gathered from one stretch of the span, and it stands there as it is if nothing in the
stretch was passed over.
-/
namespace ShaderReflection
open Text

namespace TypeName

theorem writtenType {token : Text} (some' : token ≠ []) : (ofText token).toText = token := by
  have spelled : ∀ row ∈ basic, row.1 ≠ [] → row.2.toText = row.1 := by decide
  cases found : basic.lookup token with
  | some t =>
    obtain ⟨front, back, table, -⟩ := List.lookup_eq_some_iff.mp found
    rw [ofText, found, Option.getD_some]
    exact spelled (token, t) (by simp [table]) some'
  | none =>
    rw [ofText, found, Option.getD_none]
    rfl

end TypeName

def StructMember.spellings (m : StructMember) : List Text := [m.typeName.toText, m.name]

structure StructDef.Spelled (P Q : Text → Prop) (d : StructDef) : Prop where
  name : P d.name
  members : ∀ m ∈ d.members, ∀ w ∈ m.spellings, Q w

theorem spelledImp {P P' Q Q' : Text → Prop} {d : StructDef} (spelled : d.Spelled P Q)
    (own : ∀ w, P w → P' w) (inner : ∀ w, Q w → Q' w) : d.Spelled P' Q' :=
  ⟨own _ spelled.name, fun m member w inside => inner w (spelled.members m member w inside)⟩

namespace Glsl

theorem keptRuns {kept : Text} (chars : ∀ c ∈ kept, isBodyChar c = true) :
    wordRuns kept = (splitOn ';' kept).flatMap (splitWhere isBlank) := by
  have parts : ∀ c ∈ kept, (!isWordChar c) = ((c == ';') || isBlank c) := by
    intro c member
    have char := chars c member
    cases word : isWordChar c with
    | true =>
      have solid := wordCharSolid word
      have other : (c == ';') = false := beq_false_of_ne fun same => by
        rw [same] at word
        cases word
      rw [solid, other]
      rfl
    | false =>
      rw [isBodyChar, word, Bool.false_or, Bool.or_eq_true, beq_iff_eq, beq_iff_eq] at char
      rcases char with rfl | rfl <;> rfl
  rw [wordRuns, splitCongr parts]
  exact splitTwice (· == ';') isBlank kept

theorem wordOfClause {kept clause w : Text} (chars : ∀ c ∈ kept, isBodyChar c = true)
    (piece : clause ∈ splitOn ';' kept) (word : w ∈ words clause) : w ∈ wordRuns kept := by
  rw [keptRuns chars]
  exact List.mem_flatMap.mpr ⟨clause, piece, (List.mem_filter.mp word).1⟩

theorem keptChars (body : Text) : ∀ c ∈ keptBody body, isBodyChar c = true :=
  fun _ member => (List.mem_filter.mp member).2

theorem memberRuns {body : Text} {m : StructMember} (member : m ∈ structMembers body) :
    ∀ w ∈ m.spellings, w ∈ wordRuns (keptBody body) ∧ w ≠ [] := by
  obtain ⟨clause, piece, found⟩ := List.mem_filterMap.mp member
  have chars := keptChars body
  split at found
  · rename_i type name rest shape
    obtain rfl := Option.some.inj found
    have first : type ∈ words clause := by simp [shape]
    have second : name ∈ words clause := by simp [shape]
    have some' := (wordSolid first).nonempty
    rw [StructMember.spellings, TypeName.writtenType some', List.forall_mem_cons,
      List.forall_mem_singleton]
    exact ⟨⟨wordOfClause chars piece first, some'⟩,
      wordOfClause chars piece second, (wordSolid second).nonempty⟩
  · cases found

structure Stretch (passed : Char → Bool) (stretch w : Text) : Prop where
  first : stretch.head?.any isWordChar = true
  last : stretch.getLast?.any isWordChar = true
  only : ∀ c ∈ stretch, isWordChar c = true ∨ passed c = true
  gathered : stretch.filter isWordChar = w

def Gathered (passed : Char → Bool) (w t : Text) : Prop :=
  ∃ stretch, Stands stretch t ∧ Stretch passed stretch w

theorem gatheredWord {passed : Char → Bool} {w t : Text} (gathered : Gathered passed w t) :
    WordText w := by
  obtain ⟨stretch, -, shape⟩ := gathered
  have begins := shape.first
  cases stretch with
  | nil => cases begins
  | cons c r =>
    have kept : c ∈ (c :: r).filter isWordChar := List.mem_filter.mpr ⟨List.mem_cons_self, begins⟩
    rw [← shape.gathered]
    exact ⟨List.ne_nil_of_mem kept, fun d member => (List.mem_filter.mp member).2⟩

section Kept
variable {kept : Char → Bool} (keeps : ∀ c, isWordChar c = true → kept c = true)
include keeps

theorem boundaryBefore {t : Text} (boundary : isBoundary (t.filter kept).getLast? = true) :
    isBoundary t.getLast? = true := by
  rcases List.eq_nil_or_concat t with rfl | ⟨front, c, rfl⟩
  · rfl
  · rw [List.concat_eq_append] at boundary ⊢
    rw [List.getLast?_concat]
    cases word : isWordChar c with
    | false => simp [isBoundary, word]
    | true => simp [List.filter_append, keeps c word, isBoundary, word] at boundary

theorem boundaryBehind {t : Text} (boundary : isBoundary (t.filter kept).head? = true) :
    isBoundary t.head? = true := by
  cases t with
  | nil => rfl
  | cons c r =>
    cases word : isWordChar c with
    | false => simp [isBoundary, word]
    | true => simp [keeps c word, isBoundary, word] at boundary

theorem keptStretch {stretch w : Text} (chars : ∀ c ∈ w, isWordChar c = true) (some' : w ≠ [])
    (word : stretch.filter kept = w) (begins : ∀ c, stretch.head? = some c → kept c = true)
    (ends : ∀ c, stretch.getLast? = some c → kept c = true) :
    Stretch (fun c => !kept c) stretch w := by
  have keptWord {c : Char} (member : c ∈ stretch) (stays : kept c = true) :
      isWordChar c = true := by
    refine chars c ?_
    rw [← word]
    exact List.mem_filter.mpr ⟨member, stays⟩
  have inhabited : stretch ≠ [] := by
    rintro rfl
    exact some' word.symm
  exact {
    first := by
      have here := List.head?_eq_some_head inhabited
      rw [here]
      exact keptWord (List.head_mem inhabited) (begins _ here)
    last := by
      have here := List.getLast?_eq_some_getLast inhabited
      rw [here]
      exact keptWord (List.getLast_mem inhabited) (ends _ here)
    only := fun c member => by
      cases stays : kept c with
      | false => exact .inr rfl
      | true => exact .inl (keptWord member stays)
    gathered := by
      rw [← List.filter_eq_self.mpr chars, ← word, List.filter_filter]
      refine List.filter_congr fun c _ => ?_
      cases word : isWordChar c with
      | false => rfl
      | true => rw [keeps c word]; rfl }

theorem runGathered {t w : Text} (run : w ∈ wordRuns (t.filter kept)) (some' : w ≠ []) :
    Gathered (fun c => !kept c) w t := by
  obtain ⟨a, b, split, before, behind⟩ := piecePlaced run
  obtain ⟨front, rest, rfl, left, inner⟩ := List.filter_eq_append_iff.mp split
  obtain ⟨core, back, rfl, word, right⟩ := List.filter_eq_append_iff.mp inner
  -- What is passed over at the ends of the core belongs to its neighbours.
  obtain ⟨lead, stretch, trail, rfl, leading, trailing, begins, ends⟩ := keptPart kept core
  rw [List.filter_append, List.filter_append, leading, trailing, List.nil_append,
    List.append_nil] at word
  refine ⟨stretch, ⟨front ++ lead, trail ++ back, by simp, ?_, ?_⟩,
    keptStretch keeps (runChars run) some' word begins ends⟩
  · refine boundaryBefore keeps ?_
    rw [List.filter_append, leading, List.append_nil, left, boundaryAll, before]
  · refine boundaryBehind keeps ?_
    rw [List.filter_append, trailing, List.nil_append, right, boundaryAll, behind]

end Kept

def Unbroken (passed : Char → Bool) : Text → Prop
  | [] => True
  | c :: r => (isWordChar c = true → r.head?.any passed = true →
      isBoundary (r.dropWhile passed).head? = true) ∧ Unbroken passed r

instance (passed : Char → Bool) : (t : Text) → Decidable (Unbroken passed t)
  | [] => .isTrue trivial
  | _ :: r =>
    have : Decidable (Unbroken passed r) := instDecidableUnbroken passed r
    inferInstanceAs (Decidable (_ ∧ _))

theorem unbrokenBehind {passed : Char → Bool} {front back : Text}
    (unbroken : Unbroken passed (front ++ back)) : Unbroken passed back := by
  induction front with
  | nil => exact unbroken
  | cons c r ih => exact ih unbroken.2

section Whole
variable {passed : Char → Bool} (apart : ∀ c, isWordChar c = true → passed c = false)
include apart

theorem passedEnds {t back : Text} (last : t.getLast?.any isWordChar = true)
    (only : ∀ c ∈ t, isWordChar c = true ∨ passed c = true) :
    isBoundary ((t ++ back).dropWhile passed).head? = false := by
  -- The last character is not passed over, so a run of those that are ends in the text.
  cases rest : t.dropWhile passed with
  | nil =>
    cases final : t.getLast? with
    | none =>
      rw [final] at last
      cases last
    | some c =>
      rw [final] at last
      have ended := List.dropWhile_eq_nil_iff.mp rest c (List.mem_of_getLast? final)
      rw [apart c last] at ended
      cases ended
  | cons c more =>
    have stops := List.head?_dropWhile_not passed t
    have inside : c ∈ t := (List.dropWhile_suffix passed).subset (by simp [rest])
    rw [rest] at stops
    have word := (only c inside).resolve_right (Bool.eq_false_iff.mp stops)
    rw [List.dropWhile_append, rest]
    simp [isBoundary, word]

theorem stretchWhole {stretch back : Text} (first : stretch.head?.any isWordChar = true)
    (last : stretch.getLast?.any isWordChar = true)
    (only : ∀ c ∈ stretch, isWordChar c = true ∨ passed c = true)
    (unbroken : Unbroken passed (stretch ++ back)) : ∀ c ∈ stretch, isWordChar c = true := by
  induction stretch with
  | nil => exact List.forall_mem_nil _
  | cons c r ih =>
    refine List.forall_mem_cons.mpr ⟨first, ?_⟩
    cases r with
    | nil => exact List.forall_mem_nil _
    | cons d s =>
      obtain ⟨-, others⟩ := List.forall_mem_cons.mp only
      rw [List.getLast?_cons_cons] at last
      rcases others d List.mem_cons_self with word | skipped
      · exact ih word last others unbroken.2
      · have shut := unbroken.1 first skipped
        rw [List.append_eq, passedEnds apart last others] at shut
        cases shut

theorem gatheredStands {w t : Text} (gathered : Gathered passed w t)
    (unbroken : Unbroken passed t) : Stands w t := by
  obtain ⟨stretch, ⟨before, after, rfl, left, right⟩, shape⟩ := gathered
  have whole := stretchWhole apart shape.first shape.last shape.only (unbrokenBehind unbroken)
  obtain rfl : stretch = w := by rw [← shape.gathered, List.filter_eq_self.mpr whole]
  exact ⟨before, after, rfl, left, right⟩

end Whole

def behindKeyword? (span : Text) : Option Text := (splitAtWord? structKeyword span).map (·.2)

def headAndBody? (span : Text) : Option (Text × Text) :=
  (behindKeyword? span).bind fun code =>
    (splitFirst? '{' code).map fun q => (q.1, upTo '}' q.2)

def isOther (c : Char) : Bool := !isWordChar c

def isSkipped (c : Char) : Bool := !isBodyChar c

def Unglued (span : Text) : Prop :=
  ∀ p ∈ headAndBody? span, Unbroken isOther p.1 ∧ Unbroken isSkipped p.2

instance (span : Text) : Decidable (Unglued span) :=
  inferInstanceAs (Decidable (∀ p ∈ headAndBody? span, _))

structure ReadFrom (span head rest : Text) (d : StructDef) : Prop where
  place : ∃ before, span = before ++ (structKeyword ++ (head ++ '{' :: rest))
  opened : isBoundary (head ++ '{' :: rest).head? = true
  parts : headAndBody? span = some (head, upTo '}' rest)
  name : d.name = head.filter isWordChar
  named : d.name ≠ []
  members : d.members = structMembers rest

theorem readParts {span : Text} {d : StructDef} (parsed : structOfSpan? span = some d) :
    ∃ head rest, ReadFrom span head rest d := by
  obtain ⟨p, parts, found⟩ := Option.bind_eq_some_iff.mp parsed
  obtain ⟨⟨before, behind⟩, keyword, parts⟩ := Option.bind_eq_some_iff.mp parts
  obtain ⟨⟨head, rest⟩, brace, rfl⟩ := Option.map_eq_some_iff.mp parts
  obtain ⟨place, -, opened⟩ := splitAtWordSound keyword
  have both : headAndBody? span = some (head, upTo '}' rest) := by
    rw [headAndBody?, behindKeyword?, keyword, Option.map_some, Option.bind_some, brace]
    rfl
  have split : behind = head ++ '{' :: rest := (splitFirstExact.mp brace).1
  rw [split] at place opened
  split at found
  · cases found
  · rename_i named
    obtain rfl := Option.some.inj found
    exact ⟨head, rest, ⟨before, place⟩, opened, both, rfl,
      fun none => named (List.isEmpty_iff.mpr none), rfl⟩

section Read
variable {span head rest : Text} {d : StructDef} (read : ReadFrom span head rest d)
include read

theorem readSpelled :
    d.Spelled (Gathered isOther · head) (Gathered isSkipped · (upTo '}' rest)) := by
  have keepsBody (c : Char) (word : isWordChar c = true) : isBodyChar c = true := by
    rw [isBodyChar, word]
    rfl
  refine ⟨runGathered (fun _ word => word) ?_ read.named, fun m member w spelled => ?_⟩
  · have chars : ∀ c ∈ head.filter isWordChar, isWordChar c = true := fun c member =>
      (List.mem_filter.mp member).2
    rw [read.name, runsWord chars]
    exact List.mem_singleton_self _
  · rw [read.members] at member
    obtain ⟨run, some'⟩ := memberRuns member w spelled
    exact runGathered keepsBody run some'

theorem headStands {w : Text} (stands : Stands w head) (begins : w.head?.any isWordChar = true) :
    Stands w span := by
  obtain ⟨before, place⟩ := read.place
  obtain ⟨a, b, rfl, first, last⟩ := stands
  have opened := read.opened
  cases a with
  -- The keyword is a whole word, so no identifier character follows it.
  | nil =>
    cases w with
    | nil => cases begins
    | cons c r =>
      have word : isWordChar c = true := begins
      have mark : isBoundary (some c) = true := opened
      rw [isBoundary, Option.any_some, word] at mark
      cases mark
  | cons c r =>
    refine ⟨before ++ (structKeyword ++ c :: r), b ++ '{' :: rest, by simp [place], ?_, ?_⟩
    · rw [List.getLast?_cons] at first
      rw [← List.append_assoc, List.getLast?_append, List.getLast?_cons, Option.some_or]
      exact first
    · rw [List.head?_append]
      cases same : b.head? with
      | none => rfl
      | some e => rwa [same] at last

theorem bodyStands {w : Text} (stands : Stands w (upTo '}' rest)) : Stands w span := by
  obtain ⟨before, place⟩ := read.place
  have whole : span = (before ++ (structKeyword ++ (head ++ ['{']))) ++
      (upTo '}' rest ++ rest.dropWhile (· != '}')) := by
    rw [upTo, List.takeWhile_append_dropWhile, place]
    simp
  have open' : isBoundary (before ++ (structKeyword ++ (head ++ ['{']))).getLast? = true := by
    rw [← List.append_assoc, ← List.append_assoc, List.getLast?_concat]
    rfl
  rw [whole]
  refine standsWithin stands open' ?_
  cases behind : rest.dropWhile (· != '}') with
  | nil => rfl
  | cons c r =>
    have stops := List.head?_dropWhile_not (· != '}') rest
    rw [behind] at stops
    obtain rfl : c = '}' := by simpa using stops
    rfl

theorem spanSpelled : d.Spelled (Gathered isOther · span) (Gathered isSkipped · span) :=
  spelledImp (readSpelled read)
    (fun _ ⟨stretch, stands, shape⟩ => ⟨stretch, headStands read stands shape.first, shape⟩)
    (fun _ ⟨stretch, stands, shape⟩ => ⟨stretch, bodyStands read stands, shape⟩)

end Read

structure WholeWord (w t : Text) : Prop where
  word : WordText w
  stands : Stands w t

/-- The words of a definition were gathered from stretches of its span, and they stand in it as they
are if reading it puts no words together. -/
theorem structNames {span : Text} {d : StructDef} (parsed : structOfSpan? span = some d) :
    d.Spelled (Gathered isOther · span) (Gathered isSkipped · span) ∧
      (Unglued span → d.Spelled (WholeWord · span) (WholeWord · span)) := by
  obtain ⟨head, rest, read⟩ := readParts parsed
  refine ⟨spanSpelled read, fun unglued => ?_⟩
  obtain ⟨unbroken, unbroken'⟩ := unglued _ read.parts
  have other (c : Char) (word : isWordChar c = true) : isOther c = false := by simp [isOther, word]
  have skipped (c : Char) (word : isWordChar c = true) : isSkipped c = false := by
    simp [isSkipped, isBodyChar, word]
  refine spelledImp (readSpelled read) (fun w gathered => ?_) fun w gathered => ?_
  · have word := gatheredWord gathered
    refine ⟨word, headStands read (gatheredStands other gathered unbroken) ?_⟩
    rw [List.head?_eq_some_head word.nonempty]
    exact word.chars _ (List.head_mem word.nonempty)
  · have stands := gatheredStands skipped gathered unbroken'
    exact ⟨gatheredWord gathered, bodyStands read stands⟩

theorem structNamesLight :
    let span := "struct Light \x7b vec3 pos; float w[]; \x7d;".toList
    let d : StructDef :=
      { name := "Light".toList, members := [⟨.vec3, "pos".toList⟩, ⟨.float, "w".toList⟩] }
    structOfSpan? span = some d ∧ Unglued span ∧
      d.Spelled (WholeWord · span) (WholeWord · span) := by
  intro span d
  have parsed : structOfSpan? span = some d := by decide
  have unglued : Unglued span := by decide
  exact ⟨parsed, unglued, (structNames parsed).2 unglued⟩

theorem suffixGlued :
    let span := "struct S \x7b float w[3]; \x7d;".toList
    structOfSpan? span = some { name := "S".toList, members := [⟨.float, "w3".toList⟩] } ∧
      ¬Stands "w3".toList span ∧
      (Line.ofText "uniform float w[3];".toList).declared uniformKeyword =
        .named "float".toList "w".toList := by
  intro span
  refine ⟨by decide, fun stands => ?_, by decide⟩
  have run := standsRun (eachChar (by decide)) stands
  have absent : "w3".toList ∉ wordRuns span := by decide
  exact absent run

end Glsl
end ShaderReflection
