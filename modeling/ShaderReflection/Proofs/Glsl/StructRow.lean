import ShaderReflection.Proofs.Glsl.Rendering
/-!
Rows of a struct definition. The code that the scan gathers from them holds the words of the
definition with blanks between, and the definition is read back from it.
-/
namespace ShaderReflection.Glsl
open Text

section Words
variable {name : Text} {members : List (Text × Text)}

def openWords (name : Text) (members : List (Text × Text)) : List Text :=
  structKeyword :: name :: ['{'] :: memberWords members

theorem closedWords : definitionWords name members = openWords name members ++ [spanEnd] := rfl

theorem openShapes (named : Name name) (members' : ∀ m ∈ members, Name m.1 ∧ Name m.2) :
    ∀ w ∈ openWords name members,
      w = structKeyword ∨ w = ['{'] ∨ Name w ∨ ∃ v, Name v ∧ w = v ++ [';'] := by
  refine List.forall_mem_cons.mpr ⟨.inl rfl, List.forall_mem_cons.mpr ⟨?_, List.forall_mem_cons.mpr
    ⟨.inr (.inl rfl), fun w member => ?_⟩⟩⟩
  · exact .inr (.inr (.inl named))
  · obtain ⟨m, inside, word⟩ := List.mem_flatMap.mp member
    obtain ⟨typed, called⟩ := members' m inside
    rcases List.mem_cons.mp word with rfl | last
    · exact .inr (.inr (.inl typed))
    · obtain rfl := List.mem_singleton.mp last
      exact .inr (.inr (.inr ⟨m.2, called, rfl⟩))

theorem openLacks (named : Name name) (members' : ∀ m ∈ members, Name m.1 ∧ Name m.2) :
    ∀ w ∈ openWords name members, '}' ∉ w := by
  intro w member
  rcases openShapes named members' w member with rfl | rfl | plain | ⟨v, plain, rfl⟩
  · decide
  · decide
  · exact nameLacks plain rfl
  · rw [List.mem_append, not_or]
    exact ⟨nameLacks plain rfl, by decide⟩

theorem definitionCode (named : Name name) (members' : ∀ m ∈ members, Name m.1 ∧ Name m.2) :
    ∀ w ∈ definitionWords name members, CodeWord w := by
  rw [closedWords, List.forall_mem_append, List.forall_mem_singleton]
  have solid {w : Text} (some' : w ≠ []) (chars : ∀ c ∈ w, isBlank c = false ∧ c ≠ '/') :
      CodeWord w := ⟨⟨some', fun c member => (chars c member).1⟩, fun slash => (chars '/' slash).2 rfl⟩
  refine ⟨fun w member => ?_, solid (by decide) (eachChar (by decide))⟩
  rcases openShapes named members' w member with rfl | rfl | plain | ⟨v, plain, rfl⟩
  · exact solid (by decide) (eachChar (by decide))
  · exact solid (by decide) (eachChar (by decide))
  · exact nameCode plain
  · exact codeAppend (nameCode plain) (eachChar (by decide))

theorem definitionQuiet (named : Name name) (members' : ∀ m ∈ members, Name m.1 ∧ Name m.2) :
    ∀ w ∈ definitionWords name members, trimBoth (· == ';') w ∉ qualifiers := by
  rw [closedWords, List.forall_mem_append, List.forall_mem_singleton]
  refine ⟨fun w member => ?_, by decide⟩
  rcases openShapes named members' w member with rfl | rfl | plain | ⟨v, plain, rfl⟩
  · decide
  · decide
  · rw [trimUnended (nameLacks plain rfl)]
    exact nameFree plain
  · rw [trimEnded (nameNonempty plain) (nameLacks plain rfl)]
    exact nameFree plain

theorem beginsDefinition {chunk ws done : List Text} (some' : chunk ≠ [])
    (whole : done ++ chunk ++ ws = definitionWords name members) :
    ∃ rest, done ++ chunk = structKeyword :: rest := by
  cases shape : done ++ chunk with
  | nil => exact absurd (List.append_eq_nil_iff.mp shape).2 some'
  | cons w rest =>
    rw [shape] at whole
    exact ⟨rest, by rw [(List.cons.inj whole).1]⟩

theorem endsDefinition {chunk done : List Text} (some' : chunk ≠ [])
    (whole : done ++ chunk = definitionWords name members) : spanEnd ∈ chunk := by
  have final := congrArg List.getLast? whole
  have ends := List.getLast?_eq_some_getLast some'
  rw [List.getLast?_append, ends, closedWords, List.getLast?_concat, Option.some_or] at final
  exact Option.some.inj final ▸ List.mem_of_getLast? ends

theorem chunkLacks {chunk ws done : List Text} (named : Name name)
    (members' : ∀ m ∈ members, Name m.1 ∧ Name m.2) (more : ws ≠ [])
    (whole : done ++ chunk ++ ws = definitionWords name members) : ∀ w ∈ chunk, '}' ∉ w := by
  intro w member
  obtain ⟨init, word, rfl⟩ := List.eq_nil_or_concat ws |>.resolve_left more
  rw [List.concat_eq_append, ← List.append_assoc, closedWords] at whole
  have before := List.append_inj_left' whole rfl
  refine openLacks named members' w ?_
  rw [← before]
  exact List.mem_append_left _ (List.mem_append_right _ member)

end Words

inductive Spread : List Text → Text → Prop where
  | last {w gap} (blank : Blank gap) : Spread [w] (w ++ gap)
  | more {w gap ws text} (blank : Blank gap) (space : ' ' ∈ gap) (rest : Spread ws text) :
      Spread (w :: ws) (w ++ (gap ++ text))

theorem spreadTail {ws : List Text} {text gap : Text} (spread : Spread ws text)
    (blank : Blank gap) : Spread ws (text ++ gap) := by
  induction spread with
  | last first =>
    rw [List.append_assoc]
    exact .last (blankAppend first blank)
  | more first space rest ih =>
    rw [List.append_assoc, List.append_assoc]
    exact .more first space ih

theorem spreadNext {front back : List Text} {text more : Text} (first : Spread front text)
    (second : Spread back more) : Spread (front ++ back) (text ++ ' ' :: more) := by
  induction first with
  | @last w gap blank =>
    have glued : w ++ gap ++ ' ' :: more = w ++ ((gap ++ [' ']) ++ more) := by simp
    rw [glued]
    exact .more (blankAppend blank (blankSpace (List.forall_mem_nil _))) (by simp) second
  | more blank space rest ih =>
    rw [List.append_assoc, List.append_assoc]
    exact .more blank space ih

theorem spreadRow {ws : List Text} (some' : ws ≠ []) {gap : Text} (blank : Blank gap) :
    Spread ws (joinWith [' '] ws ++ gap) := by
  induction ws with
  | nil => exact absurd rfl some'
  | cons w rest ih =>
    cases rest with
    | nil => exact .last blank
    | cons next more =>
      rw [joinCons, List.append_assoc, List.append_assoc]
      exact .more (blankSpace (List.forall_mem_nil _)) List.mem_cons_self
        (ih (List.cons_ne_nil next more))

theorem spreadCons {w text : Text} {ws : List Text} (some' : ws ≠ [])
    (spread : Spread (w :: ws) text) :
    ∃ gap rest, Blank gap ∧ ' ' ∈ gap ∧ Spread ws rest ∧ text = w ++ (gap ++ rest) := by
  cases spread with
  | last blank => exact absurd rfl some'
  | more blank space rest => exact ⟨_, _, blank, space, rest, rfl⟩

theorem spreadOne {w text : Text} (spread : Spread [w] text) :
    ∃ gap, Blank gap ∧ text = w ++ gap := by
  cases spread with
  | last blank => exact ⟨_, blank, rfl⟩
  | more blank space rest => cases rest

def isBodyChar (c : Char) : Bool := isWordChar c || c == ' ' || c == ';'

def keptBody (body : Text) : Text := (upTo '}' body).filter isBodyChar

def clauseMember? (clause : Text) : Option StructMember :=
  match words clause with
  | type :: name :: _ => some ⟨TypeName.ofText type, name⟩
  | _ => none

def membersIn (kept : Text) : List StructMember := (splitOn ';' kept).filterMap clauseMember?

theorem structMembersKept (body : Text) : structMembers body = membersIn (keptBody body) := rfl

theorem keptAppend {front : Text} (open' : '}' ∉ front) (back : Text) :
    keptBody (front ++ back) = front.filter isBodyChar ++ keptBody back := by
  have passes : ∀ c ∈ front, (c != '}') = true := fun c member =>
    bne_iff_ne.mpr fun same => open' (same ▸ member)
  rw [keptBody, upTo, List.takeWhile_append_of_pos passes, List.filter_append]
  rfl

theorem keptName {w : Text} (name : Name w) : w.filter isBodyChar = w := by
  rw [List.filter_eq_self]
  exact fun c member => by simp [isBodyChar, nameChars name c member]

theorem keptBlank {gap : Text} (blank : Blank gap) : Blank (gap.filter isBodyChar) :=
  fun c member => blank c (List.mem_filter.mp member).1

theorem membersNext {clause rest : Text} (unended : ';' ∉ clause) :
    membersIn (clause ++ ';' :: rest) = (clauseMember? clause).toList ++ membersIn rest := by
  rw [membersIn, splitOnAt unended, List.filterMap_cons, membersIn]
  cases clauseMember? clause <;> rfl

theorem memberClause {before between type name : Text} (front : Blank before)
    (gap : Blank between) (space : ' ' ∈ between) (typed : Name type) (named : Name name) :
    clauseMember? (before ++ (type ++ (between ++ name))) = some ⟨TypeName.ofText type, name⟩ := by
  have split : words (type ++ (between ++ name)) = [type, name] := by
    cases between with
    | nil => exact absurd space List.not_mem_nil
    | cons c r =>
      obtain ⟨here, more⟩ := List.forall_mem_cons.mp gap
      rw [List.cons_append, wordsSeparator here, wordsSolid (nameCode typed).solid,
        wordsInFront more, wordsSolid (nameCode named).solid, List.singleton_append]
  rw [clauseMember?, wordsInFront front, split]

def toMember (m : Text × Text) : StructMember := ⟨TypeName.ofText m.1, m.2⟩

theorem readMembers {members : List (Text × Text)} (named : ∀ m ∈ members, Name m.1 ∧ Name m.2)
    {text gap : Text} (spread : Spread (memberWords members ++ [spanEnd]) text)
    (blank : Blank gap) : structMembers (gap ++ text) = members.map toMember := by
  induction members generalizing text gap with
  | nil =>
    obtain ⟨behind, -, rfl⟩ := spreadOne spread
    have closed : keptBody (spanEnd ++ behind) = [] := rfl
    have kept := keptBlank blank
    have one := splitOnNone (blankLacks kept (c := ';') rfl)
    rw [structMembersKept, keptAppend (blankLacks blank rfl), closed, List.append_nil, membersIn, one]
    simp [clauseMember?, wordsBlank kept]
  | cons m rest ih =>
    obtain ⟨type, name⟩ := m
    obtain ⟨⟨typed, named⟩, others⟩ := List.forall_mem_cons.mp named
    have words : memberWords ((type, name) :: rest) ++ [spanEnd] =
      type :: (name ++ [';']) :: (memberWords rest ++ [spanEnd]) := rfl
    rw [words] at spread
    have some' : memberWords rest ++ [spanEnd] ≠ [] := by simp
    obtain ⟨between, ended, gapped, space, inner, rfl⟩ := spreadCons (List.cons_ne_nil _ _) spread
    obtain ⟨behind, more, blank', -, last, rfl⟩ := spreadCons some' inner
    have open' : '}' ∉ gap ++ (type ++ (between ++ (name ++ [';']))) := by
      simp only [List.mem_append, not_or]
      exact ⟨blankLacks blank rfl, nameLacks typed rfl, blankLacks gapped rfl,
        nameLacks named rfl, by decide⟩
    -- The clause of the first member ends at its semicolon; what stands behind is read by induction.
    have whole : gap ++ (type ++ (between ++ ((name ++ [';']) ++ (behind ++ more)))) =
        (gap ++ (type ++ (between ++ (name ++ [';'])))) ++ (behind ++ more) := by simp
    have kept : (gap ++ (type ++ (between ++ (name ++ [';'])))).filter isBodyChar ++
          keptBody (behind ++ more) =
        (gap.filter isBodyChar ++ (type ++ (between.filter isBodyChar ++ name))) ++
          ';' :: keptBody (behind ++ more) := by
      have ended : [';'].filter isBodyChar = [';'] := rfl
      simp only [List.filter_append, keptName typed, keptName named, ended]
      simp
    have unended : ';' ∉ gap.filter isBodyChar ++ (type ++ (between.filter isBodyChar ++ name)) := by
      simp only [List.mem_append, not_or]
      exact ⟨blankLacks (keptBlank blank) rfl, nameLacks typed rfl,
        blankLacks (keptBlank gapped) rfl, nameLacks named rfl⟩
    have clause := memberClause (keptBlank blank) (keptBlank gapped)
      (List.mem_filter.mpr ⟨space, rfl⟩) typed named
    have later := ih others last blank'
    rw [structMembersKept] at later
    rw [whole, structMembersKept, keptAppend open', kept, membersNext unended, clause, later]
    rfl

theorem readDefinition {name text : Text} {members : List (Text × Text)} (named : Name name)
    (members' : ∀ m ∈ members, Name m.1 ∧ Name m.2)
    (spread : Spread (definitionWords name members) text) :
    structOfSpan? text = some ⟨name, members.map toMember, none, none⟩ := by
  have some' : memberWords members ++ [spanEnd] ≠ [] := by simp
  obtain ⟨first, called, blank, space, inner, rfl⟩ := spreadCons (List.cons_ne_nil _ _) spread
  obtain ⟨second, opened, blank', -, brace, rfl⟩ := spreadCons (List.cons_ne_nil _ _) inner
  obtain ⟨third, body, blank'', -, last, rfl⟩ := spreadCons some' brace
  have boundary : isBoundary (first ++ (name ++ (second ++ (['{'] ++ (third ++ body))))).head? = true := by
    cases first with
    | nil => exact absurd space List.not_mem_nil
    | cons c r => simp [isBoundary, blankSeparates (blank c List.mem_cons_self)]
  have start := splitAtStart (by decide : structKeyword ≠ []) boundary
  have brace : splitFirst? '{' (first ++ (name ++ (second ++ (['{'] ++ (third ++ body))))) =
      some (first ++ (name ++ second), third ++ body) := by
    have lacks : '{' ∉ first ++ (name ++ second) := by
      simp only [List.mem_append, not_or]
      exact ⟨blankLacks blank rfl, nameLacks named rfl, blankLacks blank' rfl⟩
    have split := splitFirstAt lacks (third ++ body)
    simpa using split
  have kept : (first ++ (name ++ second)).filter isWordChar = name := by
    have none {gap : Text} (blank : Blank gap) : gap.filter isWordChar = [] :=
      List.filter_eq_nil_iff.mpr fun c member => by simp [blankSeparates (blank c member)]
    have all : name.filter isWordChar = name := List.filter_eq_self.mpr (nameChars named)
    rw [List.filter_append, List.filter_append, none blank, none blank', all, List.append_nil,
      List.nil_append]
  have parts : structParts? (structKeyword ++ (first ++ (name ++ (second ++ (['{'] ++
      (third ++ body)))))) = some (name, third ++ body) := by
    rw [structParts?, start, Option.bind_some, brace, Option.map_some, kept]
  have read := readMembers members' last blank''
  rw [structOfSpan?, parts, Option.bind_some, read]
  simp [nameNonempty named]

def Captures (done : List Text) : Scanner → Prop
  | .idle => done = []
  | .capturing buffer => buffer ≠ [] ∧ Spread done buffer

theorem closesAt {ws : List Text} {tail : Text} (code : ∀ w ∈ ws, CodeWord w)
    (member : spanEnd ∈ ws) : hasInfix spanEnd (stripComment (row ws tail)) = true := by
  rw [infixFound, rowCode code]
  exact (joinedInfix member).trans (List.prefix_append _ _).isInfix

theorem staysOpen {ws : List Text} {tail : Text} (code : ∀ w ∈ ws, CodeWord w)
    (lacks : ∀ w ∈ ws, '}' ∉ w) (blank : Tail tail) :
    hasInfix spanEnd (stripComment (row ws tail)) = false := by
  rw [infixAbsent, rowCode code]
  intro found
  rcases List.mem_append.mp (found.subset (by decide : '}' ∈ spanEnd)) with inside | behind
  · exact joinedLacks (by decide) lacks inside
  · exact blankLacks blank.blank rfl behind

theorem startsStruct {ws : List Text} {tail : Text} (code : ∀ w ∈ structKeyword :: ws, CodeWord w)
    (blank : Tail tail) :
    (splitAtWord? structKeyword (stripComment (row (structKeyword :: ws) tail))).isSome = true := by
  have found {rest : Text} (boundary : isBoundary rest.head? = true) :
      (splitAtWord? structKeyword (structKeyword ++ rest)).isSome = true := by
    rw [splitAtStart (by decide) boundary]
    rfl
  rw [rowCode code]
  cases ws with
  | nil =>
    refine found ?_
    cases gap : stripComment tail with
    | nil => rfl
    | cons c r => simp [isBoundary, blankSeparates (blank.blank c (by simp [gap]))]
  | cons next more =>
    rw [joinCons, List.append_assoc, List.append_assoc]
    exact found rfl

theorem feedWords {done chunk rest : List Text} {scanner : Scanner} {tail : Text}
    (captures : Captures done scanner) (some' : chunk ≠ []) (code : ∀ w ∈ chunk, CodeWord w)
    (begins : done ++ chunk = structKeyword :: rest) (blank : Tail tail) :
    ∃ text, text ≠ [] ∧ Spread (done ++ chunk) text ∧ scanner.feed (row chunk tail) =
      if hasInfix spanEnd (stripComment (row chunk tail)) then (.idle, some text)
      else (.capturing text, none) := by
  have spread : Spread chunk (stripComment (row chunk tail)) := by
    rw [rowCode code]
    exact spreadRow some' blank.blank
  cases scanner with
  | idle =>
    obtain rfl : done = [] := captures
    obtain rfl : chunk = structKeyword :: rest := begins
    have starts := startsStruct code blank
    refine ⟨stripComment (row (structKeyword :: rest) tail), ?_, spread, ?_⟩
    · intro empty
      rw [empty] at starts
      cases starts
    · simp [Scanner.feed, Scanner.extended, starts]
  | capturing buffer =>
    obtain ⟨some'', gathered⟩ := captures
    refine ⟨buffer ++ ' ' :: stripComment (row chunk tail), by simp, spreadNext gathered spread, ?_⟩
    simp [Scanner.feed, Scanner.extended, some'']

theorem feedEmpty {done : List Text} {scanner : Scanner} {tail : Text}
    (captures : Captures done scanner) (blank : Tail tail) :
    (scanner.feed tail).2 = none ∧ Captures done (scanner.feed tail).1 := by
  have code : ∀ w ∈ ([] : List Text), CodeWord w := List.forall_mem_nil _
  have closed := staysOpen code (List.forall_mem_nil _) blank
  cases scanner with
  | idle =>
    have idle := rowIdle code (List.forall_mem_nil _) blank
    rw [row, joinWith, List.nil_append] at idle
    rw [idle]
    exact ⟨rfl, captures⟩
  | capturing buffer =>
    obtain ⟨some', gathered⟩ := captures
    rw [row, joinWith, List.nil_append] at closed
    have fed : (Scanner.capturing buffer).feed tail =
        (.capturing (buffer ++ ' ' :: stripComment tail), none) := by
      simp [Scanner.feed, Scanner.extended, some', closed]
    rw [fed]
    exact ⟨rfl, by simp, spreadTail gathered (blankSpace blank.blank)⟩

end ShaderReflection.Glsl
