import ShaderReflection.Proofs.Glsl.RowLines
/-!
The scan of a source finds the interface that was written down, whatever rows it was laid out on.
-/
namespace ShaderReflection.Glsl
open Text

namespace Item

def uniform? : Item → Option Uniform
  | declaration .uniform type name => some ⟨TypeName.ofText type, name, 1, none, false⟩
  | _ => none

def attribute? (role : Role) : Item → Option Attribute
  | declaration other type name =>
    if other = role then some ⟨TypeName.ofText type, name, none⟩ else none
  | definition _ _ => none

def definition? : Item → Option StructDef
  | definition name members => some ⟨name, members.map toMember, none, none⟩
  | declaration _ _ _ => none

def interface (items : List Item) : Interface where
  uniforms := items.filterMap uniform?
  inputs := items.filterMap (attribute? .input)
  outputs := items.filterMap (attribute? .output)
  structs := items.filterMap definition?

end Item

def found (scanner : Scanner) (rows : List Text) : Interface :=
  interfaceOf (findings true scanner (rows.map Line.ofText))

theorem quietRow {scanner : Scanner} {line : Text} {rows : List Text}
    (quiet : ∀ k ∈ qualifiers, (Line.ofText line).declared k = .absent) :
    found scanner (line :: rows) = { found (scanner.feed line).1 rows with
      structs := ((scanner.feed line).2.bind structOfSpan?).toList ++
        (found (scanner.feed line).1 rows).structs } := by
  have uniform := quiet uniformKeyword (by decide)
  have input := quiet inKeyword (by decide)
  have output := quiet outKeyword (by decide)
  have text : (Line.ofText line).text = line := rfl
  simp only [found, List.map_cons, findings, text, uniform, input, output, interfaceOf,
    List.filterMap_cons, Declared.uniform?, Declared.attribute?, if_true]
  cases (scanner.feed line).2.bind structOfSpan? <;> rfl

theorem emptyQuiet {tail : Text} (blank : Tail tail) :
    ∀ k ∈ qualifiers, (Line.ofText tail).declared k = .absent := by
  intro k qualifies
  have words : ∀ k ∈ qualifiers, opensComment k = false := by decide
  exact rowAbsent (List.forall_mem_nil CodeWord) blank (words k qualifies) List.not_mem_nil

theorem emptyRow {done : List Text} {scanner : Scanner} {tail : Text} (rows : List Text)
    (captures : Captures done scanner) (blank : Tail tail) :
    found scanner (tail :: rows) = found (scanner.feed tail).1 rows ∧
      Captures done (scanner.feed tail).1 := by
  obtain ⟨silent, kept⟩ := feedEmpty captures blank
  refine ⟨?_, kept⟩
  rw [quietRow (emptyQuiet blank), silent]
  rfl

theorem wordsQuiet {ws : List Text} {tail : Text} (code : ∀ w ∈ ws, CodeWord w)
    (quiet : ∀ w ∈ ws, trimBoth (· == ';') w ∉ qualifiers) (blank : Tail tail) :
    ∀ k ∈ qualifiers, (Line.ofText (row ws tail)).declared k = .absent := by
  intro k qualifies
  have words : ∀ k ∈ qualifiers, opensComment k = false := by decide
  refine rowAbsent code blank (words k qualifies) fun member => ?_
  obtain ⟨trimmed, -⟩ := List.mem_filter.mp member
  obtain ⟨w, inside, rfl⟩ := List.mem_map.mp trimmed
  exact quiet w inside qualifies

theorem capturesNothing {scanner : Scanner} (captures : Captures [] scanner) : scanner = .idle := by
  cases scanner with
  | idle => rfl
  | capturing buffer => exact nomatch captures.2

theorem idleRow {tail : Text} (blank : Tail tail) (rows : List Text) :
    found .idle (tail :: rows) = found .idle rows := by
  have idle : Captures [] .idle := rfl
  obtain ⟨same, kept⟩ := emptyRow rows idle blank
  rwa [capturesNothing kept] at same

theorem brokenNothing {rows : List Text} (broken : Broken [] rows) (more : List Text) :
    found .idle (rows ++ more) = found .idle more := by
  generalize none : ([] : List Text) = ws at broken
  induction broken with
  | done => rfl
  | empty blank broken ih => rw [List.cons_append, idleRow blank, ih none]
  | row some' blank broken ih =>
    exact absurd (List.append_eq_nil_iff.mp none.symm).1 some'

theorem brokenFound {name : Text} {members : List (Text × Text)} (named : Name name)
    (members' : ∀ m ∈ members, Name m.1 ∧ Name m.2) {done ws rows : List Text} {scanner : Scanner}
    (broken : Broken ws rows) (captures : Captures done scanner) (whole : done ++ ws = definitionWords name members)
    (some' : ws ≠ []) (more : List Text) :
    found scanner (rows ++ more) = { found .idle more with
      structs := ⟨name, members.map toMember, none, none⟩ :: (found .idle more).structs } := by
  -- The words that are gathered and those still to come are the definition, row after row.
  induction broken generalizing done scanner with
  | done => exact absurd rfl some'
  | empty blank broken ih =>
    obtain ⟨same, kept⟩ := emptyRow _ captures blank
    rw [List.cons_append, same, ih kept whole some']
  | @row chunk ws rows tail here blank broken ih =>
    have within : ∀ w ∈ chunk, w ∈ definitionWords name members := fun w member => by
      rw [← whole]
      exact List.mem_append_right _ (List.mem_append_left _ member)
    have code : ∀ w ∈ chunk, CodeWord w := fun w member =>
      definitionCode named members' w (within w member)
    have quiet := wordsQuiet code
      (fun w member => definitionQuiet named members' w (within w member)) blank
    rw [← List.append_assoc] at whole
    obtain ⟨rest, begins⟩ := beginsDefinition here whole
    obtain ⟨text, some'', spread, fed⟩ := feedWords captures here code begins blank
    rw [List.cons_append, quietRow quiet, fed]
    by_cases last : ws = []
    · subst last
      rw [List.append_nil] at whole
      have closing := endsDefinition here whole
      rw [whole] at spread
      rw [closesAt code closing, if_pos rfl, brokenNothing broken, Option.bind_some,
        readDefinition named members' spread]
      rfl
    · have open' := chunkLacks named members' last whole
      have kept : Captures (done ++ chunk) (.capturing text) := ⟨some'', spread⟩
      rw [staysOpen code open' blank, if_neg Bool.false_ne_true, ih kept whole last]
      rfl

theorem declarationRow {specifiers : List Specifier} {type name tail : Text}
    (specified : ∀ s ∈ specifiers, s.Named) (typed : Name type) (named : Name name) (role : Role)
    (count : Option Nat) (blank : Tail tail) {items : List Item} {rows : List Text}
    (rest : found .idle rows = Item.interface items) :
    found .idle (row (declarationWords specifiers role type name count) tail :: rows) =
      Item.interface (.declaration role type name :: items) := by
  generalize line : row (declarationWords specifiers role type name count) tail = text
  have idle : Scanner.idle.feed text = (.idle, none) := by
    rw [← line]
    exact declarationIdle specified typed named count blank
  have declares (other : Role) : (Line.ofText text).declared other.keyword =
      if other = role then .named type name else .absent := by
    rw [← line]
    by_cases same : other = role
    · rw [if_pos same, same]
      exact declarationDeclares specified typed named count blank
    · rw [if_neg same]
      exact declarationOthers same specified typed named count blank
  have uniform : (Line.ofText text).declared uniformKeyword = _ := declares .uniform
  have input : (Line.ofText text).declared inKeyword = _ := declares .input
  have output : (Line.ofText text).declared outKeyword = _ := declares .output
  have unchanged : (Line.ofText text).text = text := rfl
  simp only [found, interfaceOf, Item.interface, Interface.mk.injEq] at rest
  obtain ⟨uniforms, inputs, outputs, structs⟩ := rest
  simp only [found, List.map_cons, findings, unchanged, idle, uniform, input, output, interfaceOf,
    List.filterMap_cons, if_true, Item.interface, uniforms, inputs, outputs, structs]
  cases role <;> rfl

theorem laidFound {items : List Item} {rows : List Text} (laid : Laid items rows) :
    found .idle rows = Item.interface items := by
  induction laid with
  | nil => rfl
  | empty blank more ih => rw [idleRow blank, ih]
  | @definition name members items front rows named members' broken more ih =>
    have begins : Captures [] .idle := rfl
    have whole : [] ++ definitionWords name members = definitionWords name members := rfl
    rw [brokenFound named members' broken begins whole (List.cons_ne_nil _ _), ih]
    rfl
  | declaration specified typed named blank more ih =>
    exact declarationRow specified typed named _ _ blank ih

theorem foundEmpty (scanner : Scanner) (rows : List Text) :
    found scanner (rows ++ [[]]) = found scanner rows := by
  induction rows generalizing scanner with
  | nil =>
    have quiet := emptyQuiet emptyTail
    have silent : (scanner.feed []).2 = none := by cases scanner <;> rfl
    rw [List.nil_append, quietRow quiet, silent]
    rfl
  | cons r rest ih =>
    have same := ih (scanner.feed r).1
    simp only [found, interfaceOf, Interface.mk.injEq] at same
    obtain ⟨uniforms, inputs, outputs, structs⟩ := same
    have text : (Line.ofText r).text = r := rfl
    simp only [found, List.cons_append, List.map_cons, findings, text, interfaceOf,
      List.filterMap_cons, uniforms, inputs, outputs, structs]

theorem attributesRaster {stage : Stage} (attributes : stage.hasAttributes = true) :
    stage.isRaytracing = false := by
  rw [Stage.hasAttributes, Bool.not_eq_true', Bool.or_eq_false_iff] at attributes
  exact attributes.2

theorem scanFound {source : Text} {items : List Item} {stage : Stage}
    (attributes : stage.hasAttributes = true)
    (whole : found .idle (lines source) = Item.interface items) :
    scan source stage = .ok {
      uniforms := flatten (items.filterMap Item.uniform?) (items.filterMap Item.definition?)
      inputs := items.filterMap (Item.attribute? .input)
      outputs := items.filterMap (Item.attribute? .output)
      structs := items.filterMap Item.definition? } := by
  have raster := attributesRaster attributes
  have scanned : interfaceOf (sourceFindings source stage) = Item.interface items := by
    rw [sourceFindings, attributes, ← whole]
    rfl
  rw [scan, declarations, raster, scanned]
  rfl

theorem scanRecovers {items : List Item} {rows : List Text} (laid : Laid items rows) {stage : Stage}
    (attributes : stage.hasAttributes = true) :
    scan (joinWith ['\n'] rows) stage = .ok {
      uniforms := flatten (items.filterMap Item.uniform?) (items.filterMap Item.definition?)
      inputs := items.filterMap (Item.attribute? .input)
      outputs := items.filterMap (Item.attribute? .output)
      structs := items.filterMap Item.definition? } := by
  refine scanFound attributes ?_
  rcases List.eq_nil_or_concat rows with rfl | ⟨front, last, rfl⟩
  · exact laidFound laid
  rw [List.concat_eq_append] at laid ⊢
  have ended := laidWhole laid
  rw [List.forall_mem_append, List.forall_mem_singleton] at ended
  -- A text that ends without a line feed keeps the return at its very end.
  have returned : Returned (front ++ [last]) (front.map dropReturn ++ [last]) := by
    clear laid ended
    induction front with
    | nil => exact .kept .nil
    | cons r rest ih => exact .lost ih
  have recovered := laidFound (laidReturned laid returned)
  rw [linesJoined ended.1]
  by_cases empty : last = []
  · rw [empty, foundEmpty] at recovered
    rw [empty, lines, List.append_nil, recovered]
  · rw [lineLast ended.2 empty, recovered]

theorem scanRecoversLight :
    let rows := ["struct Light \x7b// in T n;", "", "vec3 pos; \x7d;",
      "layout(binding = 0) uniform Light sun;", "in vec2 uv[2];//out"].map String.toList
    scan (joinWith ['\n'] rows) .vertex = .ok {
      uniforms := [⟨.vec3, "sun.pos".toList, 1, none, false⟩]
      inputs := [⟨.vec2, "uv".toList, none⟩]
      outputs := []
      structs := [⟨"Light".toList, [⟨.vec3, "pos".toList⟩], none, none⟩] } := by
  intro rows
  have light : Name "Light".toList := ⟨by decide, by decide⟩
  have vec2 : Name "vec2".toList := ⟨by decide, by decide⟩
  have uv : Name "uv".toList := ⟨by decide, by decide⟩
  have sun : Name "sun".toList := ⟨by decide, by decide⟩
  have members : ∀ m ∈ [("vec3".toList, "pos".toList)], Name m.1 ∧ Name m.2 :=
    List.forall_mem_singleton.mpr ⟨⟨by decide, by decide⟩, ⟨by decide, by decide⟩⟩
  have binding : ∀ s ∈ [Specifier.layout [("binding".toList, 0)]], s.Named :=
    List.forall_mem_singleton.mpr (List.forall_mem_singleton.mpr ⟨by decide, by decide⟩)
  have remark : Tail ('/' :: '/' :: " in T n;".toList) := commentTail (by decide)
  have other : Tail ('/' :: '/' :: "out".toList) := commentTail (by decide)
  have opened : [structKeyword, "Light".toList, ['{']] ≠ [] := List.cons_ne_nil _ _
  have closed : ["vec3".toList, "pos;".toList, spanEnd] ≠ [] := List.cons_ne_nil _ _
  have broken := Broken.row opened remark (.empty emptyTail (.row closed emptyTail .done))
  have input := @Laid.declaration [] .input _ _ (some 2) _ _ _ (List.forall_mem_nil _) vec2 uv
    other .nil
  have laid := @Laid.definition _ _ _ _ _ light members broken
    (@Laid.declaration _ .uniform _ _ none _ _ _ binding light sun emptyTail input)
  exact @scanRecovers _ _ laid .vertex rfl

end ShaderReflection.Glsl
