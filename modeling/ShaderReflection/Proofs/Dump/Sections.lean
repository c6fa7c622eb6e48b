import ShaderReflection.Proofs.Dump.Entry
/-!
A reflection dump as it is printed, and what is read back from it: the entries of the sections for
uniforms and for pipeline inputs and outputs, in their order, and nothing else.
-/
namespace ShaderReflection.Dump
open Text

structure Untitled (row : Text) : Prop where
  oneLine : '\n' ∉ row
  plain : ∀ s : Section, ¬s.title <+: trim row

structure Heads (s : Section) (row : Text) : Prop where
  oneLine : '\n' ∉ row
  titled : ∃ lead rest, Blank lead ∧ row = lead ++ (s.title ++ rest)

inductive EntryRows : List PrintedEntry → List Text → Prop where
  | nil : EntryRows [] []
  | blank {entries gap rows} (oneLine : '\n' ∉ gap) (blank : Blank gap)
      (more : EntryRows entries rows) : EntryRows entries (gap :: rows)
  | entry {e entries trail rows} (whole : e.WellFormed) (oneLine : '\n' ∉ trail)
      (blank : Blank trail) (more : EntryRows entries rows) :
      EntryRows (e :: entries) ((e.line ++ trail) :: rows)

/-- Sections on rows. Only those that are recorded hold entries, the others any rows. -/
inductive Printed : List (Section × List PrintedEntry) → List Text → Prop where
  | nil : Printed [] []
  | recorded {s header entries body sections rows} (heads : Heads s header)
      (records : s ∈ [Section.uniform, .pipelineInput, .pipelineOutput])
      (held : EntryRows entries body) (more : Printed sections rows) :
      Printed ((s, entries) :: sections) (header :: (body ++ rows))
  | skipped {s header body sections rows} (heads : Heads s header)
      (skips : s ∈ [Section.uniformBlock, .bufferVariable, .bufferBlock])
      (passed : ∀ row ∈ body, Untitled row) (more : Printed sections rows) :
      Printed ((s, []) :: sections) (header :: (body ++ rows))

def entriesOf (s : Section) (sections : List (Section × List PrintedEntry)) : List PrintedEntry :=
  (sections.filter (·.1 == s)).flatMap (·.2)

theorem untitledNone {row : Text} (plain : ∀ s : Section, ¬s.title <+: trim row) :
    Section.ofHeader? row = none := by
  have none : Section.headers.find? (fun h => h.1.isPrefixOf (trim row)) = none := by
    rw [List.find?_eq_none]
    rintro ⟨title, s⟩ member begins
    obtain rfl := headerTitle.mp member
    exact plain s (List.isPrefixOf_iff_prefix.mp begins)
  rw [Section.ofHeader?, none, Option.map_none]

theorem titlesApart {a b : Section} (within : a.title <+: b.title) : a = b := by
  have apart : ∀ one ∈ Section.headers, ∀ other ∈ Section.headers,
      one.1.isPrefixOf other.1 = true → one.2 = other.2 := by decide
  exact apart (a.title, a) (headerTitle.mpr rfl) (b.title, b) (headerTitle.mpr rfl)
    (List.isPrefixOf_iff_prefix.mpr within)

theorem titleTrimmed (s : Section) : trim s.title = s.title := by cases s <;> decide

theorem headsFound {s : Section} {row : Text} (heads : Heads s row) :
    Section.ofHeader? row = some s := by
  obtain ⟨lead, rest, blank, rfl⟩ := heads.titled
  have begins : s.title <+: trim (lead ++ (s.title ++ rest)) := by
    rw [trimInFront blank]
    exact trimmedExtends (titleTrimmed s) rest
  have some' : (Section.headers.find? fun h =>
      h.1.isPrefixOf (trim (lead ++ (s.title ++ rest)))).isSome = true :=
    List.find?_isSome.mpr
      ⟨(s.title, s), headerTitle.mpr rfl, List.isPrefixOf_iff_prefix.mpr begins⟩
  obtain ⟨⟨title, other⟩, found⟩ := Option.isSome_iff_exists.mp some'
  obtain rfl := headerTitle.mp (List.mem_of_find?_eq_some found)
  have fits := List.find?_some found
  have starts := List.isPrefixOf_iff_prefix.mp fits
  have same : other = s := by
    rcases List.prefix_or_prefix_of_prefix starts begins with within | beyond
    · exact titlesApart within
    · exact (titlesApart beyond).symm
  rw [Section.ofHeader?, found, same]
  rfl

theorem blankEntry {gap : Text} (blank : Blank gap) : Entry.ofLine? gap = none := by
  rw [Entry.ofLine?, entryParts?, splitFirstNone (blankLacks blank rfl)]
  rfl

theorem blankUntitled {gap : Text} (blank : Blank gap) (s : Section) : ¬s.title <+: trim gap := by
  rw [trimBlank blank]
  cases s <;> decide

theorem fieldsBehind {gap : Text} (blank : Blank gap) (fields : Text) :
    (splitOn ',' (fields ++ gap)).map Field.ofText = (splitOn ',' fields).map Field.ofText := by
  obtain ⟨front, last, shape⟩ := splitLast (p := (· == ',')) fields
  have behind : splitOn ',' gap = gap :: [] := splitOnNone (blankLacks blank rfl)
  have whole : splitOn ',' (fields ++ gap) = front ++ [last ++ gap] := splitAppend shape behind
  have same : splitOn ',' fields = front ++ [last] := shape
  rw [whole, same, List.map_append, List.map_append, List.map_singleton, List.map_singleton,
    fieldBehind blank]

theorem entryBehind {gap : Text} (blank : Blank gap) (line : Text) :
    Entry.ofLine? (line ++ gap) = Entry.ofLine? line := by
  unfold Entry.ofLine? entryParts?
  by_cases colon : ':' ∈ line
  · obtain ⟨name, fields, rfl, uncut⟩ := List.eq_append_cons_of_mem colon
    rw [List.append_assoc, List.cons_append, splitFirstAt uncut, splitFirstAt uncut,
      Option.bind_some, Option.bind_some, fieldsBehind blank]
  · have without : ':' ∉ line ++ gap := by
      rw [List.mem_append, not_or]
      exact ⟨colon, blankLacks blank rfl⟩
    rw [splitFirstNone colon, splitFirstNone without]

theorem feedBehind {gap : Text} (blank : Blank gap) (reader : Reader) (line : Text) :
    reader.feed (line ++ gap) = reader.feed line := by
  unfold Reader.feed Section.ofHeader?
  rw [trimBehind blank, entryBehind blank]

theorem feedReturned (reader : Reader) (line : Text) :
    reader.feed (dropReturn line) = reader.feed line := by
  rcases returnedCases line with same | ⟨front, rfl, same⟩
  · rw [same]
  · rw [same, feedBehind (by decide)]

theorem feedHeader {s : Section} {row : Text} (heads : Heads s row) (reader : Reader) :
    reader.feed row = { reader with current? := some s } := by
  rw [Reader.feed, headsFound heads]

theorem feedBlank {gap : Text} (blank : Blank gap) (reader : Reader) : reader.feed gap = reader := by
  rw [Reader.feed, untitledNone (blankUntitled blank), blankEntry blank]
  cases reader.current? <;> rfl

theorem feedEntry {s : Section} {reader : Reader} (current : reader.current? = some s)
    {e : PrintedEntry} (whole : e.WellFormed) :
    reader.feed e.line = reader.record ⟨e.name, e.typeName, e.size⟩ s := by
  rw [Reader.feed, untitledNone (entryUntitled whole), entryRead whole, current]

def Passes (reader : Reader) : Prop :=
  ∀ s, reader.current? = some s → s ∈ [Section.uniformBlock, .bufferVariable, .bufferBlock]

theorem feedPassed {reader : Reader} (passes : Passes reader) {row : Text} (untitled : Untitled row) :
    reader.feed row = reader := by
  rw [Reader.feed, untitledNone untitled.plain]
  cases current : reader.current? with
  | none => rfl
  | some s =>
    have skipped := passes s current
    simp only [List.mem_cons, List.not_mem_nil, or_false] at skipped
    cases Entry.ofLine? row with
    | none => rfl
    | some entry => rcases skipped with rfl | rfl | rfl <;> rfl

theorem rowsPassed {reader : Reader} (passes : Passes reader) {rows : List Text}
    (untitled : ∀ row ∈ rows, Untitled row) : rows.foldl Reader.feed reader = reader := by
  induction rows with
  | nil => rfl
  | cons row rest ih =>
    obtain ⟨here, others⟩ := List.forall_mem_cons.mp untitled
    rw [List.foldl_cons, feedPassed passes here, ih others]

def recordAll (s : Section) (reader : Reader) (entries : List PrintedEntry) : Reader :=
  entries.foldl (fun r e => r.record ⟨e.name, e.typeName, e.size⟩ s) reader

theorem recordCurrent (s : Section) (reader : Reader) (e : Entry) :
    (reader.record e s).current? = reader.current? := by cases s <;> rfl

theorem rowsRecorded {s : Section} {reader : Reader} (current : reader.current? = some s)
    {entries : List PrintedEntry} {rows : List Text} (held : EntryRows entries rows) :
    rows.foldl Reader.feed reader = recordAll s reader entries := by
  induction held generalizing reader with
  | nil => rfl
  | blank oneLine blank more ih => rw [List.foldl_cons, feedBlank blank, ih current]
  | entry whole oneLine blank more ih =>
    have still (e : Entry) := (recordCurrent s reader e).trans current
    rw [List.foldl_cons, feedBehind blank, feedEntry current whole, ih (still _)]
    rfl

theorem recordsAll (s : Section) (reader : Reader) (entries : List PrintedEntry) :
    (recordAll s reader entries).interface =
      { uniforms := reader.uniforms ++ (if s = .uniform then entries else []).map (·.toUniform)
        inputs := reader.inputs ++ (if s = .pipelineInput then entries else []).map (·.toAttribute)
        outputs := reader.outputs ++ (if s = .pipelineOutput then entries else []).map (·.toAttribute)
        structs := [] } := by
  induction entries generalizing reader with
  | nil => cases s <;> simp [recordAll, Reader.interface]
  | cons e rest ih =>
    have next := ih (reader.record ⟨e.name, e.typeName, e.size⟩ s)
    rw [recordAll] at next
    rw [recordAll, List.foldl_cons, next]
    cases s <;> simp [Reader.record, PrintedEntry.toUniform, PrintedEntry.toAttribute]

theorem entriesCons (t s : Section) (entries : List PrintedEntry)
    (sections : List (Section × List PrintedEntry)) :
    entriesOf t ((s, entries) :: sections) =
      (if s = t then entries else []) ++ entriesOf t sections := by
  unfold entriesOf
  by_cases same : s = t
  · rw [List.filter_cons_of_pos (by simp [same]), if_pos same, List.flatMap_cons]
  · rw [List.filter_cons_of_neg (by simp [same]), if_neg same, List.nil_append]

theorem printedRead {sections : List (Section × List PrintedEntry)} {rows : List Text}
    (printed : Printed sections rows) (reader : Reader) :
    (rows.foldl Reader.feed reader).interface =
      { uniforms := reader.uniforms ++ (entriesOf .uniform sections).map (·.toUniform)
        inputs := reader.inputs ++ (entriesOf .pipelineInput sections).map (·.toAttribute)
        outputs := reader.outputs ++ (entriesOf .pipelineOutput sections).map (·.toAttribute)
        structs := [] } := by
  induction printed generalizing reader with
  | nil => simp [entriesOf, Reader.interface]
  | @recorded s header entries body sections rows heads records held more ih =>
    have all := recordsAll s { reader with current? := some s } entries
    simp only [Reader.interface, Interface.mk.injEq] at all
    obtain ⟨uniforms, inputs, outputs, -⟩ := all
    rw [List.foldl_cons, feedHeader heads, List.foldl_append, rowsRecorded rfl held, ih, uniforms,
      inputs, outputs]
    simp only [entriesCons, List.map_append, List.append_assoc]
  | @skipped s header body sections rows heads skips passed more ih =>
    have passes : Passes { reader with current? := some s } := by
      rintro other ⟨⟩
      exact skips
    rw [List.foldl_cons, feedHeader heads, List.foldl_append, rowsPassed passes passed, ih]
    simp only [entriesCons, ite_self, List.nil_append]

theorem rowsRead {rows : List Text} (whole : ∀ row ∈ rows, '\n' ∉ row) :
    interfaceOf (joinWith ['\n'] rows) = (rows.foldl Reader.feed {}).interface := by
  rcases List.eq_nil_or_concat rows with rfl | ⟨front, last, rfl⟩
  · rfl
  rw [List.concat_eq_append, List.forall_mem_append, List.forall_mem_singleton] at whole
  obtain ⟨before, ended⟩ := whole
  have ends (reader : Reader) : (lines last).foldl Reader.feed reader = reader.feed last := by
    by_cases empty : last = []
    · subst empty
      exact (feedBlank (List.forall_mem_nil _) reader).symm
    · rw [lineLast ended empty]
      rfl
  have returned (reader : Reader) :
      (front.map dropReturn).foldl Reader.feed reader = front.foldl Reader.feed reader := by
    rw [List.foldl_map]
    simp only [feedReturned]
  rw [interfaceOf, List.concat_eq_append, linesJoined before, List.foldl_append, returned, ends,
    List.foldl_append]
  rfl

theorem entriesWhole {entries : List PrintedEntry} {rows : List Text}
    (held : EntryRows entries rows) : ∀ row ∈ rows, '\n' ∉ row := by
  induction held with
  | nil => exact List.forall_mem_nil _
  | blank oneLine blank more ih => exact List.forall_mem_cons.mpr ⟨oneLine, ih⟩
  | entry whole oneLine blank more ih =>
    refine List.forall_mem_cons.mpr ⟨?_, ih⟩
    rw [List.mem_append, not_or]
    exact ⟨entryWhole whole, oneLine⟩

theorem printedWhole {sections : List (Section × List PrintedEntry)} {rows : List Text}
    (printed : Printed sections rows) : ∀ row ∈ rows, '\n' ∉ row := by
  induction printed with
  | nil => exact List.forall_mem_nil _
  | recorded heads records held more ih =>
    refine List.forall_mem_cons.mpr ⟨heads.oneLine, List.forall_mem_append.mpr ⟨?_, ih⟩⟩
    exact entriesWhole held
  | skipped heads skips passed more ih =>
    refine List.forall_mem_cons.mpr ⟨heads.oneLine, List.forall_mem_append.mpr ⟨?_, ih⟩⟩
    exact fun row member => (passed row member).oneLine

theorem dumpRecovers {preamble rows : List Text} {sections : List (Section × List PrintedEntry)}
    (untitled : ∀ row ∈ preamble, Untitled row) (printed : Printed sections rows) :
    interfaceOf (joinWith ['\n'] (preamble ++ rows)) =
      { uniforms := (entriesOf .uniform sections).map (·.toUniform)
        inputs := (entriesOf .pipelineInput sections).map (·.toAttribute)
        outputs := (entriesOf .pipelineOutput sections).map (·.toAttribute)
        structs := [] } := by
  have whole : ∀ row ∈ preamble ++ rows, '\n' ∉ row :=
    List.forall_mem_append.mpr ⟨fun row member => (untitled row member).oneLine, printedWhole printed⟩
  have passes : Passes {} := fun _ current => nomatch current
  rw [rowsRead whole, List.foldl_append, rowsPassed passes untitled, printedRead printed]
  rfl

theorem dumpRecoversBones :
    let preamble := ["model.vert: compiled".toList]
    let rows := ["Uniform reflection:", "bones: offset -1, size 032, type 8B5c", "",
      "Buffer block reflection", "Uniform: type 8b50", " Pipeline input reflection: 1",
      "aPos: type 8b51", "Uniform reflection:", "tint: type ffff, index -1\r"].map String.toList
    interfaceOf (joinWith ['\n'] (preamble ++ rows)) =
      { uniforms := [⟨.mat4, "bones".toList, 32, none, false⟩,
          ⟨.undefined, "tint".toList, 0, none, false⟩]
        inputs := [⟨.vec3, "aPos".toList, none⟩]
        outputs := []
        structs := [] } := by
  intro preamble rows
  have bones : PrintedEntry.WellFormed ⟨"bones".toList, 0x8b5c, some 32,
      [.other "offset -1".toList, .size 32 "032".toList, .type 0x8b5c "8B5c".toList]⟩ := by
    refine ⟨by decide, by decide, by decide, by decide, titleAbsent (by decide), ?_, rfl, rfl⟩
    simp only [List.forall_mem_cons]
    exact ⟨⟨by decide, by decide, by decide⟩, ⟨1, by decide⟩, ⟨0, by decide⟩, List.forall_mem_nil _⟩
  have aPos : PrintedEntry.WellFormed ⟨"aPos".toList, 0x8b51, none, [.type 0x8b51 "8b51".toList]⟩ := by
    refine ⟨by decide, by decide, by decide, by decide, titleAbsent (by decide), ?_, rfl, rfl⟩
    exact List.forall_mem_singleton.mpr ⟨0, by decide⟩
  have tint : PrintedEntry.WellFormed ⟨"tint".toList, 0xffff, none,
      [.type 0xffff "ffff".toList, .other "index -1".toList]⟩ := by
    refine ⟨by decide, by decide, by decide, by decide, titleAbsent (by decide), ?_, rfl, rfl⟩
    simp only [List.forall_mem_cons]
    exact ⟨⟨0, by decide⟩, ⟨by decide, by decide, by decide⟩, List.forall_mem_nil _⟩
  have uniforms : Heads .uniform "Uniform reflection:".toList :=
    ⟨by decide, [], [':'], by decide, rfl⟩
  have buffers : Heads .bufferBlock "Buffer block reflection".toList :=
    ⟨by decide, [], [], by decide, rfl⟩
  have inputs : Heads .pipelineInput " Pipeline input reflection: 1".toList :=
    ⟨by decide, [' '], ": 1".toList, by decide, rfl⟩
  have preambleRows : ∀ row ∈ preamble, Untitled row :=
    List.forall_mem_singleton.mpr ⟨by decide, titleAbsent (by decide)⟩
  have passed : ∀ row ∈ ["Uniform: type 8b50".toList], Untitled row :=
    List.forall_mem_singleton.mpr ⟨by decide, titleAbsent (by decide)⟩
  have first := EntryRows.entry bones List.not_mem_nil (by decide)
    (.blank List.not_mem_nil (by decide) .nil)
  have second := EntryRows.entry aPos List.not_mem_nil (by decide) .nil
  have third := EntryRows.entry tint (by decide : '\n' ∉ ['\r']) (by decide) .nil
  have printed := Printed.recorded uniforms (by decide) first
    (.skipped buffers (by decide) passed (.recorded inputs (by decide) second
      (.recorded uniforms (by decide) third .nil)))
  exact (dumpRecovers preambleRows printed).trans (by decide)

end ShaderReflection.Dump
