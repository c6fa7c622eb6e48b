import ShaderReflection.Proofs.Glsl.StructSeam
import ShaderReflection.Proofs.Text.Place
/-!
Struct definitions on lines. Spaces, tabs and line breaks may stand for one another, but a span ends
with the line that holds its end, so there a line break decides what still belongs to the span.
-/
namespace ShaderReflection.Glsl
open Text

structure SpanAlike (s t : Text) : Prop where
  first : s ≠ []
  second : t ≠ []
  here : structOfSpan? s = structOfSpan? t
  later : ∀ w, structOfSpan? (s ++ ' ' :: w) = structOfSpan? (t ++ ' ' :: w)

inductive Scanner.Alike : Scanner → Scanner → Prop where
  | idle : Alike .idle .idle
  | capturing {s t} (alike : SpanAlike s t) : Alike (.capturing s) (.capturing t)

structure StepAlike (p q : Scanner × Option Text) : Prop where
  found : p.2.bind structOfSpan? = q.2.bind structOfSpan?
  next : p.1.Alike q.1

def table (scanner : Scanner) (rows : List Text) : List StructDef :=
  (closedSpans scanner rows).filterMap structOfSpan?

def settled (ends : Bool) (span : Text) : Scanner × Option Text :=
  if ends then (.idle, some span) else (.capturing span, none)

theorem tableCons (scanner : Scanner) (line : Text) (rows : List Text) :
    table scanner (line :: rows) =
      ((scanner.feed line).2.bind structOfSpan?).toList ++ table (scanner.feed line).1 rows := by
  rw [table, closedSpans, List.filterMap_append, table]
  cases (scanner.feed line).2 with
  | none => rfl
  | some span => cases found : structOfSpan? span <;> simp [found]

theorem spanAlikeSymm {s t : Text} (alike : SpanAlike s t) : SpanAlike t s :=
  ⟨alike.second, alike.first, alike.here.symm, fun w => (alike.later w).symm⟩

theorem settledAlike {s t : Text} (alike : SpanAlike s t) (ends : Bool) :
    StepAlike (settled ends s) (settled ends t) := by
  cases ends with
  | true => exact ⟨alike.here, .idle⟩
  | false => exact ⟨rfl, .capturing alike⟩

theorem feedClosed {scanner : Scanner} {line : Text}
    (closed : scanner.extended (stripComment line) = none) : scanner.feed line = (.idle, none) := by
  rw [Scanner.feed]
  simp only [closed]

theorem feedExtended {scanner : Scanner} {line span : Text}
    (extended : scanner.extended (stripComment line) = some span) :
    scanner.feed line = settled (hasInfix spanEnd (stripComment line)) span := by
  rw [Scanner.feed]
  simp only [extended]
  rfl

theorem extendedCapturing {span : Text} (some' : span ≠ []) (code : Text) :
    (Scanner.capturing span).extended code = some (span ++ ' ' :: code) := by
  simp [Scanner.extended, some']

theorem feedCapturing {span : Text} (some' : span ≠ []) (line : Text) :
    (Scanner.capturing span).feed line =
      settled (hasInfix spanEnd (stripComment line)) (span ++ ' ' :: stripComment line) :=
  feedExtended (extendedCapturing some' _)

theorem spanAlikeNext {s t : Text} (alike : SpanAlike s t) (code : Text) :
    SpanAlike (s ++ ' ' :: code) (t ++ ' ' :: code) := by
  refine ⟨by simp, by simp, alike.later code, fun w => ?_⟩
  have more := alike.later (code ++ ' ' :: w)
  rwa [List.append_assoc, List.append_assoc, List.cons_append]

theorem tableAlike {s t : Scanner} (alike : s.Alike t) (rows : List Text) :
    table s rows = table t rows := by
  induction rows generalizing s t with
  | nil => rfl
  | cons line rest ih =>
    cases alike with
    | idle => rfl
    | @capturing s t alike =>
      have step : StepAlike ((Scanner.capturing s).feed line)
          ((Scanner.capturing t).feed line) := by
        rw [feedCapturing alike.first, feedCapturing alike.second]
        exact settledAlike (spanAlikeNext alike _) _
      rw [tableCons, tableCons, step.found, ih step.next]

theorem stepTable {s t : Scanner} {line other : Text}
    (step : StepAlike (s.feed line) (t.feed other)) (rows : List Text) :
    table s (line :: rows) = table t (other :: rows) := by
  rw [tableCons, tableCons, step.found, tableAlike step.next]

theorem feedOutside {scanner : Scanner} {line : Text} (clean : Uncommented line)
    (closed : scanner.extended line = none) : scanner.feed line = (.idle, none) :=
  feedClosed (by rwa [stripUncommented clean])

theorem feedInside {scanner : Scanner} {line span : Text} (clean : Uncommented line)
    (extended : scanner.extended line = some span) :
    scanner.feed line = settled (hasInfix spanEnd line) span := by
  have code := stripUncommented clean
  rw [feedExtended (by rwa [code]), code]

theorem keywordFound (t : Text) :
    (splitAtWord? structKeyword t).isSome = (behindKeyword? t).isSome := by
  rw [behindKeyword?, Option.isSome_map]

theorem extendedNone {scanner : Scanner} {code : Text} (closed : scanner.extended code = none) :
    scanner = .idle ∧ behindKeyword? code = none := by
  cases scanner with
  | idle =>
    rw [Scanner.extended, keywordFound] at closed
    cases keyword : behindKeyword? code with
    | none => exact ⟨rfl, rfl⟩
    | some t => simp [keyword] at closed
  | capturing buffer => cases closed

theorem outsideLine {line : Text} (clean : Uncommented line) : Scanner.idle.feed line =
    if (behindKeyword? line).isSome then settled (hasInfix spanEnd line) line
    else (.idle, none) := by
  have extended : Scanner.idle.extended line =
      if (behindKeyword? line).isSome then some line else none := by
    rw [Scanner.extended, keywordFound]
  split
  · rename_i later
    exact feedInside clean (extended.trans (if_pos later))
  · rename_i later
    exact feedOutside clean (extended.trans (if_neg later))

theorem extendedLonger {scanner : Scanner} {g u span : Text} (seam : Seam g)
    (extended : scanner.extended u = some span) (v : Text) :
    scanner.extended (u ++ (g ++ v)) = some (span ++ (g ++ v)) := by
  cases scanner with
  | idle =>
    obtain ⟨keyword, same⟩ := Option.ite_none_right_eq_some.mp extended
    obtain rfl := Option.some.inj same
    rw [keywordFound] at keyword
    have longer : (behindKeyword? (u ++ (g ++ v))).isSome = true := by
      rw [behindSeam seam]
      cases found : behindKeyword? u with
      | none =>
        rw [found] at keyword
        cases keyword
      | some code => rfl
    rw [Scanner.extended, keywordFound, if_pos longer]
  | capturing buffer =>
    obtain rfl := Option.some.inj extended
    rw [Scanner.extended]
    split <;> simp

theorem fillerEnds {c : Char} (filler : isFiller c = true) : c ∉ spanEnd := by
  obtain ⟨-, ended, -, closed⟩ := fillerOther filler
  simp [spanEnd, ended, closed]

theorem endsFiller {g : Text} (filler : ∀ c ∈ g, isFiller c = true) (t : Text) :
    spanEnd <:+: g ++ t ↔ spanEnd <:+: t := by
  induction g with
  | nil => rfl
  | cons c r ih =>
    obtain ⟨here, others⟩ := List.forall_mem_cons.mp filler
    have first := infixBreak (a := []) (b := r ++ t) (fillerEnds here) (by decide)
    rw [List.nil_append, ih others, List.infix_nil] at first
    rw [List.cons_append, first]
    simp [spanEnd]

theorem endsSeam {g : Text} (seam : Seam g) (u v : Text) :
    hasInfix spanEnd (u ++ (g ++ v)) = (hasInfix spanEnd u || hasInfix spanEnd v) := by
  obtain ⟨c, r, rfl⟩ := List.exists_cons_of_ne_nil seam.nonempty
  obtain ⟨here, others⟩ := List.forall_mem_cons.mp seam.filler
  rw [Bool.eq_iff_iff, Bool.or_eq_true, infixFound, infixFound, infixFound, List.cons_append,
    infixBreak (fillerEnds here) (by decide), endsFiller others]

def PartsWords (scanner : Scanner) (u v : Text) : Prop :=
  ∃ span ∈ scanner.extended u, ∃ code ∈ behindKeyword? span, Parted code v

instance (scanner : Scanner) (u v : Text) : Decidable (PartsWords scanner u v) :=
  inferInstanceAs (Decidable (∃ span ∈ _, ∃ code ∈ _, _))

section Line
variable {scanner : Scanner} {g u v : Text} (seam : Seam g)
include seam

theorem spanAlikeSeam (loose : ' ' ∈ g ∨ ∀ code ∈ behindKeyword? u, ¬Parted code v) :
    SpanAlike (u ++ (g ++ v)) (u ++ ' ' :: v) := by
  refine ⟨by simp [seam.nonempty], by simp, spanSeam seam loose, fun w => ?_⟩
  have loose' : ' ' ∈ g ∨ ∀ code ∈ behindKeyword? u, ¬Parted code (v ++ ' ' :: w) :=
    loose.imp_right fun whole code keyword parted => whole code keyword (partedNext parted)
  have more := spanSeam seam loose'
  rw [List.append_assoc, List.append_assoc, List.append_assoc]
  exact more

theorem spanAlikeBehind (keyword : behindKeyword? u = none) (some' : v ≠ []) :
    SpanAlike v (u ++ (g ++ v)) := by
  have same (w : Text) : structOfSpan? (u ++ (g ++ w)) = structOfSpan? w := by
    rw [spanDefinition, spanDefinition, behindSeam seam, keyword]
    rfl
  refine ⟨some', by simp [some'], (same v).symm, fun w => ?_⟩
  rw [List.append_assoc, List.append_assoc, same]

theorem outsideSeam (keyword : behindKeyword? u = none) (clean : Uncommented (u ++ (g ++ v))) :
    Scanner.idle.feed (u ++ (g ++ v)) = if (behindKeyword? v).isSome then
      settled (hasInfix spanEnd (u ++ (g ++ v))) (u ++ (g ++ v)) else (.idle, none) := by
  rw [outsideLine clean, behindSeam seam, keyword]
  rfl

theorem looseAt (loose : ' ' ∈ g ∨ ¬PartsWords scanner u v) {span : Text}
    (extended : scanner.extended u = some span) :
    SpanAlike (span ++ (g ++ v)) (span ++ ' ' :: v) :=
  spanAlikeSeam seam <| loose.imp_right fun whole code keyword parted =>
    whole ⟨span, extended, code, keyword, parted⟩

theorem sameLine (clean : Uncommented (u ++ (g ++ v))) (clean' : Uncommented (u ++ ([' '] ++ v)))
    (loose : ' ' ∈ g ∨ ¬PartsWords scanner u v) :
    StepAlike (scanner.feed (u ++ (g ++ v))) (scanner.feed (u ++ ([' '] ++ v))) := by
  have ends : hasInfix spanEnd (u ++ (g ++ v)) = hasInfix spanEnd (u ++ ([' '] ++ v)) := by
    rw [endsSeam seam, endsSeam spaceSeam]
  cases extended : scanner.extended u with
  | some span =>
    rw [feedInside clean (extendedLonger seam extended v),
      feedInside clean' (extendedLonger spaceSeam extended v), ends]
    exact settledAlike (looseAt seam loose extended) _
  | none =>
    obtain ⟨rfl, keyword⟩ := extendedNone extended
    rw [outsideSeam seam keyword clean, outsideSeam spaceSeam keyword clean', ends]
    split
    · refine settledAlike (spanAlikeSeam seam (.inr fun code found => ?_)) _
      rw [keyword] at found
      cases found
    · exact ⟨rfl, .idle⟩

end Line

def Scanner.Filled : Scanner → Prop
  | idle => True
  | capturing buffer => buffer ≠ []

theorem extendedFilled {scanner : Scanner} (filled : scanner.Filled) {code span : Text}
    (extended : scanner.extended code = some span) : span ≠ [] := by
  cases scanner with
  | idle =>
    obtain ⟨keyword, same⟩ := Option.ite_none_right_eq_some.mp extended
    obtain rfl := Option.some.inj same
    rintro rfl
    cases keyword
  | capturing buffer =>
    have some' : buffer ≠ [] := filled
    obtain rfl := Option.some.inj extended
    simp [some']

def Complete (code after : Text) : Prop :=
  (∃ p ∈ splitFirst? '{' code, '}' ∈ p.2) ∨ ('{' ∉ code ∧ '{' ∉ after)

instance (code after : Text) : Decidable (Complete code after) :=
  inferInstanceAs (Decidable ((∃ p ∈ _, _) ∨ _))

theorem definitionComplete {code after g : Text} (seam : Seam g) (complete : Complete code after) :
    definitionIn? (code ++ (g ++ after)) = definitionIn? code := by
  rcases complete with ⟨⟨head, body⟩, brace, closed⟩ | ⟨none, none'⟩
  · obtain ⟨rfl, lacks⟩ := splitFirstExact.mp brace
    have members : structMembers (body ++ (g ++ after)) = structMembers body := by
      rw [structMembersKept, structMembersKept, keptClosed closed]
    rw [List.append_assoc, List.cons_append, definitionIn?, definitionIn?, splitFirstAt lacks,
      splitFirstAt lacks, Option.bind_some, Option.bind_some, members]
  · have lacks : '{' ∉ g := seamLacks seam rfl
    have unopened : '{' ∉ code ++ (g ++ after) := by simp [none, none', lacks]
    rw [definitionIn?, definitionIn?, splitFirstNone unopened, splitFirstNone none]

/-- Where an end stands in front of a line break, the next line may as well go on there: no span is
open and the line ends what it begins, or one is open and the line adds nothing and begins none. -/
structure Breakable (scanner : Scanner) (u v : Text) : Prop where
  outside : scanner.extended u = none → behindKeyword? v = none ∨ hasInfix spanEnd v = true
  inside : ∀ span ∈ scanner.extended u,
    behindKeyword? v = none ∧ ∀ code ∈ behindKeyword? span, Complete code v

section Broken
variable {scanner : Scanner} {g u v : Text} (seam : Seam g)
  (clean : Uncommented (u ++ (g ++ v))) (second : Uncommented v)
include seam clean second

theorem brokenOutside (keyword : behindKeyword? u = none) (ends : hasInfix spanEnd u = true →
      behindKeyword? v = none ∨ hasInfix spanEnd v = true) :
    StepAlike (Scanner.idle.feed v) (Scanner.idle.feed (u ++ (g ++ v))) := by
  rw [outsideLine second, outsideSeam seam keyword clean, endsSeam seam]
  cases found : behindKeyword? v with
  | none => exact ⟨rfl, .idle⟩
  | some code =>
    have some' : v ≠ [] := by
      rintro rfl
      cases found
    have same : (hasInfix spanEnd u || hasInfix spanEnd v) = hasInfix spanEnd v := by
      cases early : hasInfix spanEnd u with
      | false => rfl
      | true =>
        have closes := ends early
        rw [found] at closes
        rw [closes.resolve_left nofun]
        rfl
    rw [same]
    exact settledAlike (spanAlikeBehind seam keyword some') _

theorem brokenOpen {span : Text} (some' : span ≠ []) (extended : scanner.extended u = some span)
    (open' : hasInfix spanEnd u = false) (loose : ' ' ∈ g ∨ ¬PartsWords scanner u v) :
    StepAlike ((Scanner.capturing span).feed v) (scanner.feed (u ++ (g ++ v))) := by
  rw [feedInside clean (extendedLonger seam extended v), endsSeam seam, open', feedCapturing some',
    stripUncommented second, Bool.false_or]
  exact settledAlike (spanAlikeSymm (looseAt seam loose extended)) _

theorem brokenEnded {span : Text} (extended : scanner.extended u = some span)
    (ended : hasInfix spanEnd u = true) (silent : behindKeyword? v = none)
    (complete : ∀ code ∈ behindKeyword? span, Complete code v) (rows : List Text) :
    table scanner ((u ++ (g ++ v)) :: rows) =
      (structOfSpan? span).toList ++ table .idle (v :: rows) := by
  have same : structOfSpan? (span ++ (g ++ v)) = structOfSpan? span := by
    rw [spanDefinition, spanDefinition, behindSeam seam, silent]
    cases keyword : behindKeyword? span with
    | none => rfl
    | some code => exact definitionComplete seam (complete code keyword)
  have skipped : table .idle (v :: rows) = table .idle rows := by
    rw [tableCons, outsideLine second, silent]
    rfl
  rw [tableCons, feedInside clean (extendedLonger seam extended v), endsSeam seam, ended, skipped,
    Bool.true_or]
  simp only [settled, if_true, Option.bind_some, same]

theorem brokenLine (filled : scanner.Filled) (first : Uncommented u)
    (loose : ' ' ∈ g ∨ ¬PartsWords scanner u v)
    (breaks : hasInfix spanEnd u = true → Breakable scanner u v) (rows : List Text) :
    table scanner (u :: v :: rows) = table scanner ((u ++ (g ++ v)) :: rows) := by
  cases extended : scanner.extended u with
  -- What is broken off may begin a span by itself.
  | none =>
    obtain ⟨rfl, keyword⟩ := extendedNone extended
    rw [tableCons, feedOutside first extended]
    exact stepTable (brokenOutside seam clean second keyword fun ended =>
      (breaks ended).outside extended) rows
  | some span =>
    rw [tableCons, feedInside first extended]
    cases ends : hasInfix spanEnd u with
    -- The span goes on behind the break as it does on the line.
    | false =>
      exact stepTable (brokenOpen seam clean second (extendedFilled filled extended) extended ends
        loose) rows
    -- The span ends with the break, and what is broken off is passed over.
    | true =>
      obtain ⟨silent, complete⟩ := (breaks ends).inside span extended
      exact (brokenEnded seam clean second extended ends silent complete rows).symm

end Broken

theorem returnedSeam {c : Char} (filler : isFiller c = true) (row rest : Text) :
    ∃ g, Seam g ∧ c ∈ g ∧ row ++ c :: rest = dropReturn row ++ (g ++ rest) := by
  rcases returnedCases row with same | ⟨front, rfl, same⟩
  · exact ⟨[c], ⟨List.cons_ne_nil _ _, List.forall_mem_singleton.mpr filler⟩,
      List.mem_singleton_self c, by rw [same]; rfl⟩
  · refine ⟨['\r', c], ⟨List.cons_ne_nil _ _, ?_⟩, by simp, by rw [same]; simp⟩
    exact List.forall_mem_cons.mpr ⟨rfl, List.forall_mem_singleton.mpr filler⟩

def scannerAfter (scanner : Scanner) (rows : List Text) : Scanner :=
  rows.foldl (fun s row => (s.feed row).1) scanner

theorem spansAppend (scanner : Scanner) (front rows : List Text) :
    closedSpans scanner (front ++ rows) =
      closedSpans scanner front ++ closedSpans (scannerAfter scanner front) rows := by
  induction front generalizing scanner with
  | nil => rfl
  | cons row rest ih =>
    rw [List.cons_append, closedSpans, closedSpans, ih, List.append_assoc]
    rfl

theorem tableAppend (scanner : Scanner) (front rows : List Text) :
    table scanner (front ++ rows) =
      table scanner front ++ table (scannerAfter scanner front) rows := by
  rw [table, spansAppend, List.filterMap_append, table, table]

theorem filledStep {scanner : Scanner} (filled : scanner.Filled) (line : Text) :
    (scanner.feed line).1.Filled := by
  cases extended : scanner.extended (stripComment line) with
  | none =>
    rw [feedClosed extended]
    exact trivial
  | some span =>
    have some' := extendedFilled filled extended
    rw [feedExtended extended]
    cases hasInfix spanEnd (stripComment line) with
    | true => exact trivial
    | false => exact some'

theorem filledAfter {scanner : Scanner} (filled : scanner.Filled) (rows : List Text) :
    (scannerAfter scanner rows).Filled := by
  induction rows generalizing scanner with
  | nil => exact filled
  | cons row rest ih => exact ih (filledStep filled row)

def scannerBefore (before : Text) : Scanner := scannerAfter .idle (wholeRows before)

abbrev PartsAt (before after : Text) : Prop :=
  PartsWords (scannerBefore before) (lastRow before) (rowsBehind after).1

abbrev BreakableAt (before after : Text) : Prop :=
  Breakable (scannerBefore before) (lastRow before) (rowsBehind after).1

theorem filledBefore (before : Text) : (scannerBefore before).Filled := by
  have idle : Scanner.idle.Filled := trivial
  exact filledAfter idle (wholeRows before)

theorem scanAt (before t : Text) : scanStructs (before ++ t) = table .idle (wholeRows before) ++
    table (scannerBefore before) (lines (afterLast '\n' before ++ t)) := by
  rw [scannerBefore, ← tableAppend, ← linesFrom]
  rfl

theorem tableEmptyRow (scanner : Scanner) : table scanner [[]] = [] := by
  have silent : (scanner.feed []).2 = none := by
    cases extended : scanner.extended (stripComment []) with
    | none => rw [feedClosed extended]
    | some span =>
      rw [feedExtended extended]
      rfl
  rw [tableCons, silent]
  rfl

def layoutBlanks : List Char := [' ', '\t', '\n']

theorem blankFiller {c : Char} (blank : c ∈ layoutBlanks) :
    isFiller c = true ∧ c ≠ '/' ∧ c ≠ '\r' := by
  have each : ∀ c ∈ layoutBlanks, isFiller c = true ∧ c ≠ '/' ∧ c ≠ '\r' :=
    eachChar (by decide)
  exact each c blank

section Place
variable {before after : Text} (first : Uncommented before) (second : Uncommented after)
include first second

theorem rowsClean : Uncommented (lastRow before) ∧ Uncommented (rowsBehind after).1 :=
  ⟨uncommentedPart first ((returnedPrefix _).isInfix.trans (lastInfix before)),
    uncommentedPart second (behindInfix after)⟩

theorem rowClean {c : Char} (blank : c ∈ layoutBlanks) :
    Uncommented (afterLast '\n' before ++ c :: (rowsBehind after).1) :=
  uncommentedMark (blankFiller blank).2.1 (uncommentedPart first (lastInfix before))
    (rowsClean first second).2

theorem blankSeam {c : Char} (blank : c ∈ layoutBlanks) (plain : c ≠ '\n')
    (parts : c = '\t' → ¬PartsAt before after) : ∃ g, Seam g ∧
      afterLast '\n' before ++ c :: (rowsBehind after).1 =
        lastRow before ++ (g ++ (rowsBehind after).1) ∧
      Uncommented (lastRow before ++ (g ++ (rowsBehind after).1)) ∧
      (' ' ∈ g ∨ ¬PartsAt before after) := by
  obtain ⟨g, seam, inside, shape⟩ :=
    returnedSeam (blankFiller blank).1 (afterLast '\n' before) (rowsBehind after).1
  refine ⟨g, seam, shape, shape ▸ rowClean first second blank, ?_⟩
  simp only [layoutBlanks, List.mem_cons, List.not_mem_nil, or_false] at blank
  rcases blank with rfl | rfl | rfl
  · exact .inl inside
  · exact .inr (parts rfl)
  · exact absurd rfl plain

theorem scanSpaced {c : Char} (blank : c ∈ layoutBlanks) (plain : c ≠ '\n')
    (parts : c = '\t' → ¬PartsAt before after) :
    scanStructs (before ++ c :: after) = table .idle (wholeRows before) ++
      table (scannerBefore before)
        ((lastRow before ++ ([' '] ++ (rowsBehind after).1)) :: (rowsBehind after).2) := by
  obtain ⟨g, seam, shape, clean, loose⟩ := blankSeam first second blank plain parts
  obtain ⟨clean', clean''⟩ := rowsClean first second
  have spaced := uncommentedMark (by decide : ' ' ≠ '/') clean' clean''
  rw [scanAt, linesWithin (openRow before) plain (blankFiller blank).2.2, shape,
    stepTable (sameLine seam clean spaced loose)]

theorem scanBroken {c : Char} (blank : c ∈ layoutBlanks) (plain : c ≠ '\n')
    (parts : c = '\t' → ¬PartsAt before after)
    (breaks : hasInfix spanEnd (lastRow before) = true → BreakableAt before after) :
    scanStructs (before ++ '\n' :: after) = scanStructs (before ++ c :: after) := by
  obtain ⟨g, seam, shape, clean, loose⟩ := blankSeam first second blank plain parts
  obtain ⟨clean', clean''⟩ := rowsClean first second
  have rows : table (scannerBefore before) (lastRow before ::
        if after = [] then [] else (rowsBehind after).1 :: (rowsBehind after).2) =
      table (scannerBefore before)
        (lastRow before :: (rowsBehind after).1 :: (rowsBehind after).2) := by
    split
    · rename_i none
      rw [none, tableCons, tableCons, rowsBehind, splitFirst?]
      simp only [tableEmptyRow]
      rfl
    · rfl
  rw [scanAt, scanAt, linesBroken (openRow before), linesWithin (openRow before) plain
    (blankFiller blank).2.2, shape, ← lastRow, rows,
    brokenLine seam clean clean'' (filledBefore before) clean' loose breaks]

end Place

/-- In a source without comments, one blank in the place of another leaves the struct table as it
is. Only where an end stands in front of a line break is there more to it. -/
theorem layoutIgnored {before after : Text} {a b : Char} (blank : a ∈ layoutBlanks)
    (blank' : b ∈ layoutBlanks) (clean : Uncommented (before ++ a :: after))
    (breaks : '\n' ∈ [a, b] → hasInfix spanEnd (lastRow before) = true → BreakableAt before after)
    (parts : '\t' ∈ [a, b] → ¬PartsAt before after) :
    scanStructs (before ++ a :: after) = scanStructs (before ++ b :: after) := by
  obtain ⟨first, second⟩ := uncommentedSides clean
  have parts' {c : Char} (member : c ∈ [a, b]) (tab : c = '\t') : ¬PartsAt before after :=
    parts (tab ▸ member)
  have left : a = '\t' → ¬PartsAt before after := parts' (by simp)
  have right : b = '\t' → ¬PartsAt before after := parts' (by simp)
  by_cases broken : a = '\n'
  · subst broken
    by_cases same : b = '\n'
    · rw [same]
    · exact scanBroken first second blank' same right (breaks (by simp))
  · by_cases broken' : b = '\n'
    · subst broken'
      exact (scanBroken first second blank broken left (breaks (by simp))).symm
    · rw [scanSpaced first second blank broken left, scanSpaced first second blank' broken' right]

theorem layoutIgnoredBehind :
    let before := "struct A \x7b vec3 pos; \x7d;".toList
    let after := "uniform A a;\nstruct B \x7b A a; \x7d;".toList
    ('\n' ∈ layoutBlanks ∧ '\t' ∈ layoutBlanks ∧ Uncommented (before ++ '\n' :: after)) ∧
      hasInfix spanEnd (lastRow before) = true ∧
      BreakableAt before after ∧
      ¬PartsAt before after ∧
      scanStructs (before ++ '\n' :: after) = scanStructs (before ++ '\t' :: after) := by
  intro before after
  have clean : Uncommented (before ++ '\n' :: after) := uncommentedWithout (by decide)
  have breaks : BreakableAt before after :=
    ⟨by decide, by decide⟩
  have parts : ¬PartsAt before after := by decide
  exact ⟨⟨by decide, by decide, clean⟩, by decide, breaks, parts,
    layoutIgnored (by decide) (by decide) clean (fun _ _ => breaks) fun _ => parts⟩

theorem layoutLosesStruct :
    let before := "struct A \x7b float x; \x7d;".toList
    let after := "struct B \x7b float y; \x7d;".toList
    Uncommented (before ++ '\n' :: after) ∧
      (scanStructs (before ++ '\n' :: after)).map (·.name) = [['A'], ['B']] ∧
      (scanStructs (before ++ ' ' :: after)).map (·.name) = [['A']] := by
  intro before after
  exact ⟨uncommentedWithout (by decide), by decide, by decide⟩

end ShaderReflection.Glsl
