import ShaderReflection.Proofs.Dump.Sections
/-!
Which rows of a dump count for which section. A row belongs to the last header in front of it,
whatever else the rows are, so the sections of a dump can change places as long as those of one kind
keep their order.
-/
namespace ShaderReflection.Dump
open Text

def lastHeader? (rows : List Text) : Option Section := (rows.filterMap Section.ofHeader?).getLast?

def rowsUnder (s : Section) (rows : List Text) : List Text :=
  (rows.zipIdx.filter fun p =>
    Section.ofHeader? p.1 = none ∧ lastHeader? (rows.take p.2) = some s).map (·.1)

def entriesUnder (s : Section) (rows : List Text) : List Entry :=
  (rowsUnder s rows).filterMap Entry.ofLine?

def Entry.asUniform (e : Entry) : Uniform :=
  { typeName := e.typeName, name := e.name, count := e.size.getD 0 }

def Entry.asAttribute (e : Entry) : Attribute := { typeName := e.typeName, name := e.name }

def described (rows : List Text) : Interface where
  uniforms := (entriesUnder .uniform rows).map Entry.asUniform
  inputs := (entriesUnder .pipelineInput rows).map Entry.asAttribute
  outputs := (entriesUnder .pipelineOutput rows).map Entry.asAttribute

section Next
variable (s : Section) (rows : List Text) (row : Text)

theorem headerNext :
    lastHeader? (rows ++ [row]) = (Section.ofHeader? row).or (lastHeader? rows) := by
  have single : [row].filterMap Section.ofHeader? = (Section.ofHeader? row).toList := by
    cases found : Section.ofHeader? row <;> simp [found]
  unfold lastHeader?
  rw [List.filterMap_append, List.getLast?_append, single]
  cases Section.ofHeader? row <;> rfl

theorem rowsNext : rowsUnder s (rows ++ [row]) = rowsUnder s rows ++
    if Section.ofHeader? row = none ∧ lastHeader? rows = some s then [row] else [] := by
  have earlier : (rows.zipIdx.filter fun p => decide (Section.ofHeader? p.1 = none ∧
        lastHeader? ((rows ++ [row]).take p.2) = some s)) =
      rows.zipIdx.filter fun p => decide (Section.ofHeader? p.1 = none ∧
        lastHeader? (rows.take p.2) = some s) := by
    refine List.filter_congr fun p member => ?_
    have within : p.2 < rows.length := by simpa using List.snd_lt_add_of_mem_zipIdx member
    rw [List.take_append_of_le_length (by omega)]
  unfold rowsUnder
  rw [List.zipIdx_append, List.filter_append, List.map_append, earlier, List.zipIdx_singleton,
    Nat.zero_add, List.filter_cons, List.take_left, List.filter_nil]
  split <;> simp_all

theorem entriesNext : entriesUnder s (rows ++ [row]) = entriesUnder s rows ++
    if Section.ofHeader? row = none ∧ lastHeader? rows = some s then (Entry.ofLine? row).toList
    else [] := by
  unfold entriesUnder
  rw [rowsNext, List.filterMap_append]
  split
  · cases found : Entry.ofLine? row <;> simp [found]
  · rfl

end Next

structure Attributed (rows : List Text) (reader : Reader) : Prop where
  current : reader.current? = lastHeader? rows
  uniforms : reader.uniforms = (entriesUnder .uniform rows).map Entry.asUniform
  inputs : reader.inputs = (entriesUnder .pipelineInput rows).map Entry.asAttribute
  outputs : reader.outputs = (entriesUnder .pipelineOutput rows).map Entry.asAttribute

section Attributed
variable {rows : List Text} {reader : Reader}

theorem attributedHeader (attributed : Attributed rows reader) {row : Text} {s : Section}
    (header : Section.ofHeader? row = some s) :
    Attributed (rows ++ [row]) { reader with current? := some s } := by
  obtain ⟨-, uniforms, inputs, outputs⟩ := attributed
  have still (t : Section) : entriesUnder t (rows ++ [row]) = entriesUnder t rows := by
    rw [entriesNext, if_neg (by simp [header]), List.append_nil]
  constructor <;> simp only [headerNext, Option.some_or, *]

theorem attributedIdle (attributed : Attributed rows reader) {row : Text}
    (plain : Section.ofHeader? row = none)
    (idle : reader.current? = none ∨ Entry.ofLine? row = none) :
    Attributed (rows ++ [row]) reader := by
  obtain ⟨current, uniforms, inputs, outputs⟩ := attributed
  have still (t : Section) : entriesUnder t (rows ++ [row]) = entriesUnder t rows := by
    rw [entriesNext]
    rcases idle with none | empty
    · rw [if_neg (by simp [← current, none]), List.append_nil]
    · simp [empty]
  constructor <;> simp only [headerNext, Option.none_or, *]

theorem attributedEntry (attributed : Attributed rows reader) {row : Text} {s : Section} {e : Entry}
    (plain : Section.ofHeader? row = none) (open' : reader.current? = some s)
    (entry : Entry.ofLine? row = some e) : Attributed (rows ++ [row]) (reader.record e s) := by
  obtain ⟨current, uniforms, inputs, outputs⟩ := attributed
  have header : lastHeader? rows = some s := current.symm.trans open'
  have more (t : Section) :
      entriesUnder t (rows ++ [row]) = entriesUnder t rows ++ if s = t then [e] else [] := by
    rw [entriesNext, header, entry]
    by_cases same : s = t <;> simp [plain, same]
  have still := (recordCurrent s reader e).trans open'
  constructor
  · rw [still, headerNext, plain, header, Option.none_or]
  all_goals
    simp only [more, List.map_append]
    cases s <;> simp [Reader.record, Entry.asUniform, Entry.asAttribute, *]

theorem attributedFeed (attributed : Attributed rows reader) (row : Text) :
    Attributed (rows ++ [row]) (reader.feed row) := by
  unfold Reader.feed
  cases header : Section.ofHeader? row with
  | some s => exact attributedHeader attributed header
  | none =>
    cases open' : reader.current? with
    | none => exact attributedIdle attributed header (.inl open')
    | some s =>
      cases entry : Entry.ofLine? row with
      | none => exact attributedIdle attributed header (.inr entry)
      | some e => exact attributedEntry attributed header open' entry

theorem attributedFrom (attributed : Attributed rows reader) (more : List Text) :
    Attributed (rows ++ more) (more.foldl Reader.feed reader) := by
  induction more generalizing rows reader with
  | nil => simpa using attributed
  | cons row rest ih => simpa using ih (attributedFeed attributed row)

end Attributed

theorem attributedRows (rows : List Text) : Attributed rows (rows.foldl Reader.feed {}) :=
  have start : Attributed [] {} := ⟨rfl, rfl, rfl, rfl⟩
  attributedFrom start rows

theorem attributedInterface {rows : List Text} {reader : Reader}
    (attributed : Attributed rows reader) : reader.interface = described rows := by
  obtain ⟨-, uniforms, inputs, outputs⟩ := attributed
  rw [Reader.interface, uniforms, inputs, outputs]
  rfl

structure Passage where
  kind : Section
  header : Text
  body : List Text
  heads : Section.ofHeader? header = some kind
  plain : ∀ row ∈ body, Section.ofHeader? row = none

structure Outline where
  front : List Text
  passages : List Passage
  plain : ∀ row ∈ front, Section.ofHeader? row = none

def Passage.rows (p : Passage) : List Text := p.header :: p.body

def Outline.rows (o : Outline) : List Text := o.front ++ o.passages.flatMap Passage.rows

def Outline.add (row : Text) (o : Outline) : Outline :=
  match header : Section.ofHeader? row with
  | some s => ⟨[], ⟨s, row, o.front, header, o.plain⟩ :: o.passages, List.forall_mem_nil _⟩
  | none => ⟨row :: o.front, o.passages, List.forall_mem_cons.mpr ⟨header, o.plain⟩⟩

def outline (rows : List Text) : Outline := rows.foldr Outline.add ⟨[], [], List.forall_mem_nil _⟩

theorem addRows (row : Text) (o : Outline) : (o.add row).rows = row :: o.rows := by
  unfold Outline.add
  split <;> rfl

theorem outlineRows (rows : List Text) : (outline rows).rows = rows := by
  induction rows with
  | nil => rfl
  | cons row rest ih => rw [outline, List.foldr_cons, addRows, ← outline, ih]

section Passages
variable (s : Section)

theorem entriesBody (front : List Text) {body : List Text}
    (plain : ∀ row ∈ body, Section.ofHeader? row = none) :
    lastHeader? (front ++ body) = lastHeader? front ∧
      entriesUnder s (front ++ body) = entriesUnder s front ++
        if lastHeader? front = some s then body.filterMap Entry.ofLine? else [] := by
  induction body generalizing front with
  | nil => simp
  | cons row rest ih =>
    obtain ⟨here, others⟩ := List.forall_mem_cons.mp plain
    have same : lastHeader? (front ++ [row]) = lastHeader? front := by
      rw [headerNext, here, Option.none_or]
    obtain ⟨header, entries⟩ := ih (front ++ [row]) others
    rw [List.append_assoc, List.singleton_append, same] at header entries
    refine ⟨header, ?_⟩
    rw [entries, entriesNext, List.append_assoc]
    by_cases under : lastHeader? front = some s
    · rw [if_pos ⟨here, under⟩, if_pos under, if_pos under]
      cases found : Entry.ofLine? row <;> simp [found]
    · rw [if_neg fun both => under both.2, if_neg under, if_neg under, List.append_nil]

def entriesIn (passages : List Passage) : List Entry :=
  (passages.filter (·.kind == s)).flatMap fun p => p.body.filterMap Entry.ofLine?

theorem entriesPassages (front : List Text) (passages : List Passage) :
    entriesUnder s (front ++ passages.flatMap Passage.rows) =
      entriesUnder s front ++ entriesIn s passages := by
  induction passages generalizing front with
  | nil => simp [entriesIn]
  | cons p rest ih =>
    have heads : lastHeader? (front ++ [p.header]) = some p.kind := by
      rw [headerNext, p.heads, Option.some_or]
    have header : entriesUnder s (front ++ [p.header]) = entriesUnder s front := by
      rw [entriesNext, if_neg (by simp [p.heads]), List.append_nil]
    have body := (entriesBody s (front ++ [p.header]) p.plain).2
    have whole : front ++ (p :: rest).flatMap Passage.rows =
        front ++ [p.header] ++ p.body ++ rest.flatMap Passage.rows := by
      simp [Passage.rows]
    rw [whole, ih, body, header, heads, List.append_assoc]
    by_cases same : p.kind = s <;> simp [entriesIn, same]

theorem entriesOutline (o : Outline) : entriesUnder s o.rows = entriesIn s o.passages := by
  have front := (entriesBody s [] o.plain).2
  rw [List.nil_append, if_neg (by simp [lastHeader?])] at front
  rw [Outline.rows, entriesPassages, front]
  rfl

end Passages

structure Reordered (passages others : List Passage) : Prop where
  same : others.Perm passages
  kept : ∀ s, others.filter (·.kind == s) = passages.filter (·.kind == s)

def Outline.arranged (o : Outline) (passages : List Passage) : Outline :=
  { o with passages := passages }

section Reordered
variable {o : Outline} {others : List Passage} (reordered : Reordered o.passages others)
include reordered

theorem describedReordered : described (o.arranged others).rows = described o.rows := by
  have same (s : Section) : entriesUnder s (o.arranged others).rows = entriesUnder s o.rows := by
    have kept : (o.arranged others).passages.filter (·.kind == s) =
        o.passages.filter (·.kind == s) := reordered.kept s
    rw [entriesOutline, entriesOutline, entriesIn, entriesIn, kept]
  simp only [described, same]

theorem rowsReordered : (o.arranged others).rows.Perm o.rows :=
  (reordered.same.flatMap_right Passage.rows).append_left o.front

end Reordered

theorem rowsAttributed (rows : List Text) :
    (∀ n, ((rows.take n).foldl Reader.feed {}).current? = lastHeader? (rows.take n)) ∧
    (rows.foldl Reader.feed {}).interface = described rows ∧
    (outline rows).rows = rows ∧
    ∀ others, Reordered (outline rows).passages others →
      let moved := ((outline rows).arranged others).rows
      (moved.foldl Reader.feed {}).interface = (rows.foldl Reader.feed {}).interface ∧
      ∀ dump dump', lines dump = rows → lines dump' = moved ∨ dump' = joinWith ['\n'] moved →
        interfaceOf dump' = interfaceOf dump := by
  have read (rows : List Text) : (rows.foldl Reader.feed {}).interface = described rows :=
    attributedInterface (attributedRows rows)
  refine ⟨fun n => (attributedRows _).current, read rows, outlineRows rows, ?_⟩
  intro others reordered moved
  have alike : described moved = described rows := by
    rw [describedReordered reordered, outlineRows]
  refine ⟨by rw [read, read, alike], fun dump dump' first second => ?_⟩
  have whole : interfaceOf dump = described rows := by rw [interfaceOf, first, read]
  rw [whole, ← alike]
  rcases second with second | rfl
  · rw [interfaceOf, second, read]
  · have among : moved.Perm rows := by simpa [outlineRows] using rowsReordered reordered
    rw [rowsRead fun row member => linesWhole dump row (first ▸ among.mem_iff.mp member), read]

theorem inputsMoved :
    let rows := ["preamble: type 1404", " Uniform reflection: 2", "a: size 2, type 8b5c", "",
      "Pipeline input reflection", "p: type 8b51", "Uniform reflection", "b: type 1406"].map
        String.toList
    let moved := ["preamble: type 1404", "Pipeline input reflection", "p: type 8b51",
      " Uniform reflection: 2", "a: size 2, type 8b5c", "", "Uniform reflection",
      "b: type 1406"].map String.toList
    let passages := (outline rows).passages
    let others := passages.filter (·.kind == .pipelineInput) ++
      passages.filter (·.kind != .pipelineInput)
    Reordered passages others ∧ ((outline rows).arranged others).rows = moved ∧
      lines (joinWith ['\n'] rows) = rows ∧
      interfaceOf (joinWith ['\n'] moved) = interfaceOf (joinWith ['\n'] rows) := by
  intro rows moved passages others
  have reordered : Reordered passages others :=
    ⟨List.filter_append_perm _ passages, fun s => by cases s <;> rfl⟩
  have there : ((outline rows).arranged others).rows = moved := by decide +kernel
  have rowsThere : lines (joinWith ['\n'] rows) = rows := by decide +kernel
  obtain ⟨-, -, -, arranged⟩ := rowsAttributed rows
  have alike := (arranged others reordered).2 (joinWith ['\n'] rows) (joinWith ['\n'] moved)
    rowsThere
  exact ⟨reordered, there, rowsThere, alike (.inr (by rw [there]))⟩

end ShaderReflection.Dump
