import Mathlib.Order.Bounds.Basic
import ShaderReflection.Proofs.Glsl.StructLayout
/-!
The spans of struct definitions, as they are cut out of the lines of a source. A span opens at the
first line outside the earlier ones whose code holds the keyword and closes at the first line from
there on whose code holds the end. A scanner that is fed line by line finds these spans, and what it
holds in between is the code of the span that is still open.
-/
namespace ShaderReflection.Glsl
open Text

structure LineSpan where
  first : Nat
  last : Nat
  deriving DecidableEq, Repr

def LineSpan.Holds (s : LineSpan) (n : Nat) : Prop := s.first ≤ n ∧ n ≤ s.last

structure CanOpen (codes : List Text) (earlier : List LineSpan) (n : Nat) : Prop where
  outside : ∀ s ∈ earlier, ¬s.Holds n
  keyword : ∃ code ∈ codes[n]?, Stands structKeyword code

structure CanClose (codes : List Text) (first n : Nat) : Prop where
  behind : first ≤ n
  ends : ∃ code ∈ codes[n]?, spanEnd <:+: code

structure Follows (codes : List Text) (earlier : List LineSpan) (s : LineSpan) : Prop where
  opens : IsLeast {n | CanOpen codes earlier n} s.first
  closes : IsLeast {n | CanClose codes s.first n} s.last

theorem leastExactly {P : Nat → Prop} {n : Nat} :
    IsLeast {m | P m} n ↔ P n ∧ ∀ m < n, ¬P m := by
  refine and_congr_right fun _ => ⟨fun least m below here => ?_, fun least m here => ?_⟩
  · exact Nat.not_le.mpr below (least here)
  · exact Nat.le_of_not_lt fun below => least m below here

instance (t : Text) : Decidable (Stands structKeyword t) :=
  decidable_of_iff _ (wordFound structWord t)

instance (codes : List Text) (earlier : List LineSpan) (n : Nat) :
    Decidable (CanOpen codes earlier n) :=
  decidable_of_iff ((∀ s ∈ earlier, ¬(s.first ≤ n ∧ n ≤ s.last)) ∧
    ∃ code ∈ codes[n]?, Stands structKeyword code) ⟨fun h => ⟨h.1, h.2⟩, fun h => ⟨h.1, h.2⟩⟩

instance (codes : List Text) (first n : Nat) : Decidable (CanClose codes first n) :=
  decidable_of_iff (first ≤ n ∧ ∃ code ∈ codes[n]?, hasInfix spanEnd code = true)
    ⟨fun h => ⟨h.1, by simpa [infixFound] using h.2⟩,
      fun h => ⟨h.1, by simpa [infixFound] using h.2⟩⟩

instance (codes : List Text) (earlier : List LineSpan) (s : LineSpan) :
    Decidable (Follows codes earlier s) :=
  decidable_of_iff ((CanOpen codes earlier s.first ∧ ∀ m < s.first, ¬CanOpen codes earlier m) ∧
      CanClose codes s.first s.last ∧ ∀ m < s.last, ¬CanClose codes s.first m)
    ⟨fun h => ⟨leastExactly.mpr h.1, leastExactly.mpr h.2⟩,
      fun h => ⟨leastExactly.mp h.opens, leastExactly.mp h.closes⟩⟩

def Consecutive (codes : List Text) (spans : List LineSpan) : Prop :=
  ∀ earlier s later, spans = earlier ++ s :: later → Follows codes earlier s

structure Segmented (codes : List Text) (spans : List LineSpan) : Prop where
  each : Consecutive codes spans
  complete : ∀ s, ¬Follows codes spans s

def spanCode (codes : List Text) (s : LineSpan) : Text :=
  joinWith [' '] ((codes.take (s.last + 1)).drop s.first)

section Codes
variable {codes : List Text}

theorem followsOnce {earlier : List LineSpan} {s t : LineSpan} (first : Follows codes earlier s)
    (second : Follows codes earlier t) : s = t := by
  obtain ⟨a, b⟩ := s
  obtain ⟨c, d⟩ := t
  obtain rfl : a = c := first.opens.unique second.opens
  obtain rfl : b = d := first.closes.unique second.closes
  rfl

theorem segmentedFrom {front p q : List LineSpan} (first : Segmented codes (front ++ p))
    (second : Segmented codes (front ++ q)) : p = q := by
  induction p generalizing front q with
  | nil =>
    cases q with
    | nil => rfl
    | cons s rest =>
      rw [List.append_nil] at first
      exact absurd (second.each front s rest rfl) (first.complete s)
  | cons s rest ih =>
    have next := first.each front s rest rfl
    cases q with
    | nil =>
      rw [List.append_nil] at second
      exact absurd next (second.complete s)
    | cons t more =>
      obtain rfl := followsOnce next (second.each front t more rfl)
      rw [List.append_cons] at first second
      rw [ih first second]

theorem segmentedOnce {p q : List LineSpan} (first : Segmented codes p)
    (second : Segmented codes q) : p = q := by
  have first' : Segmented codes ([] ++ p) := first
  have second' : Segmented codes ([] ++ q) := second
  exact segmentedFrom first' second'

theorem consecutiveFront {front back : List LineSpan} (each : Consecutive codes (front ++ back)) :
    Consecutive codes front := by
  rintro earlier s later rfl
  exact each earlier s (later ++ back) (by simp)

theorem consecutiveNext {spans : List LineSpan} {s : LineSpan} (each : Consecutive codes spans)
    (next : Follows codes spans s) : Consecutive codes (spans ++ [s]) := by
  intro earlier t later shape
  rcases List.eq_nil_or_concat later with rfl | ⟨between, last, rfl⟩
  · obtain ⟨rfl, same⟩ := List.append_inj' shape rfl
    rwa [← List.singleton_inj.mp same]
  · rw [List.concat_eq_append, ← List.cons_append, ← List.append_assoc] at shape
    exact each earlier t between (List.append_inj' shape rfl).1

theorem lineWithin {P : Text → Prop} {n : Nat} (line : ∃ code ∈ codes[n]?, P code) :
    n < codes.length := by
  obtain ⟨code, found, -⟩ := line
  exact (List.getElem?_eq_some_iff.mp found).1

theorem spanWithin {spans : List LineSpan} (each : Consecutive codes spans) {s : LineSpan}
    (member : s ∈ spans) : s.last < codes.length := by
  obtain ⟨earlier, later, shape⟩ := List.append_of_mem member
  exact lineWithin (each earlier s later shape).closes.1.ends

theorem spansOrdered {spans : List LineSpan} (each : Consecutive codes spans) :
    spans.Pairwise fun s t => s.last < t.first := by
  induction spans using List.reverseRecOn with
  | nil => exact .nil
  | append_singleton front t ih =>
    have before := consecutiveFront each
    refine List.pairwise_append.mpr ⟨ih before, List.pairwise_singleton _ _, ?_⟩
    intro s member t' last
    obtain rfl := List.mem_singleton.mp last
    have opens := (each front t' [] rfl).opens.1
    obtain ⟨earlier, later, rfl⟩ := List.append_of_mem member
    -- The line could have opened the earlier span too, so it is not in front of it.
    have open' : CanOpen codes earlier t'.first :=
      ⟨fun u inside => opens.outside u (List.mem_append_left _ inside), opens.keyword⟩
    have least := (before earlier s later rfl).opens.2 open'
    exact Nat.lt_of_not_le fun within => opens.outside s member ⟨least, within⟩

end Codes

section Next
variable {codes : List Text} {code : Text}

theorem lineNext {P : Text → Prop} {n : Nat} : (∃ c ∈ (codes ++ [code])[n]?, P c) ↔
    (∃ c ∈ codes[n]?, P c) ∨ n = codes.length ∧ P code := by
  rcases Nat.lt_trichotomy n codes.length with within | rfl | beyond
  · simp [List.getElem?_append_left within, within.ne]
  · simp
  · have short : (codes ++ [code]).length ≤ n := by simp; omega
    simp [List.getElem?_eq_none short, List.getElem?_eq_none beyond.le, beyond.ne']

theorem canOpenNext {earlier : List LineSpan} (within : ∀ s ∈ earlier, s.last < codes.length)
    {n : Nat} : CanOpen (codes ++ [code]) earlier n ↔
      CanOpen codes earlier n ∨ n = codes.length ∧ Stands structKeyword code := by
  constructor
  · rintro ⟨outside, keyword⟩
    exact (lineNext.mp keyword).imp_left fun line => ⟨outside, line⟩
  · rintro (⟨outside, line⟩ | ⟨rfl, keyword⟩)
    · exact ⟨outside, lineNext.mpr (.inl line)⟩
    · exact ⟨fun s member holds => Nat.not_le.mpr (within s member) holds.2,
        lineNext.mpr (.inr ⟨rfl, keyword⟩)⟩

theorem canCloseNext {first n : Nat} (within : first ≤ codes.length) :
    CanClose (codes ++ [code]) first n ↔
      CanClose codes first n ∨ n = codes.length ∧ spanEnd <:+: code := by
  constructor
  · rintro ⟨behind, ends⟩
    exact (lineNext.mp ends).imp_left fun line => ⟨behind, line⟩
  · rintro (⟨behind, line⟩ | ⟨rfl, ends⟩)
    · exact ⟨behind, lineNext.mpr (.inl line)⟩
    · exact ⟨within, lineNext.mpr (.inr ⟨rfl, ends⟩)⟩

theorem leastNext {P Q : Nat → Prop} {n bound : Nat} {last : Prop}
    (more : ∀ m, Q m ↔ P m ∨ m = bound ∧ last) (within : n < bound)
    (least : IsLeast {m | P m} n) : IsLeast {m | Q m} n := by
  refine ⟨(more n).mpr (.inl least.1), fun m member => ?_⟩
  rcases (more m).mp member with before | ⟨rfl, -⟩
  · exact least.2 before
  · exact within.le

theorem followsNext {earlier : List LineSpan} {s : LineSpan}
    (within : ∀ s ∈ earlier, s.last < codes.length) (follows : Follows codes earlier s) :
    Follows (codes ++ [code]) earlier s := by
  have first := lineWithin follows.opens.1.keyword
  have last := lineWithin follows.closes.1.ends
  exact ⟨leastNext (fun _ => canOpenNext within) first follows.opens,
    leastNext (fun _ => canCloseNext first.le) last follows.closes⟩

theorem consecutiveLonger {spans : List LineSpan} (each : Consecutive codes spans) :
    Consecutive (codes ++ [code]) spans := by
  rintro earlier s later rfl
  exact followsNext (fun t member => spanWithin (consecutiveFront each) member)
    (each earlier s later rfl)

theorem spanCodeLonger {s : LineSpan} (within : s.last < codes.length) :
    spanCode (codes ++ [code]) s = spanCode codes s := by
  rw [spanCode, List.take_append_of_le_length (by omega), spanCode]

end Next

/-! A scanner and the lines that were fed to it. -/

structure OpenSince (rows : List Text) (n : Nat) : Prop where
  within : n ≤ rows.length
  before : scannerAfter .idle (rows.take n) = .idle
  since : ∀ m, n < m → m ≤ rows.length → scannerAfter .idle (rows.take m) ≠ .idle

inductive Scanned (rows : List Text) (spans : List LineSpan) : Scanner → Prop where
  | idle (quiet : ∀ n, ¬CanOpen (rows.map stripComment) spans n) : Scanned rows spans .idle
  | capturing {n} (opened : IsLeast {n | CanOpen (rows.map stripComment) spans n} n)
      (unclosed : ∀ m, ¬CanClose (rows.map stripComment) n m) (open' : OpenSince rows n) :
      Scanned rows spans (.capturing (joinWith [' '] ((rows.map stripComment).drop n)))

structure Run (rows : List Text) (spans : List LineSpan) : Prop where
  each : Consecutive (rows.map stripComment) spans
  state : Scanned rows spans (scannerAfter .idle rows)
  found : closedSpans .idle rows = spans.map (spanCode (rows.map stripComment))

structure Joins (rows : List Text) (spans : List LineSpan) (row : Text) (n : Nat) : Prop where
  opened : IsLeast {n | CanOpen ((rows ++ [row]).map stripComment) spans n} n
  unclosed : ∀ m, ¬CanClose (rows.map stripComment) n m
  open' : OpenSince rows n

theorem scannerNext (rows : List Text) (row : Text) :
    scannerAfter .idle (rows ++ [row]) = ((scannerAfter .idle rows).feed row).1 := by
  simp [scannerAfter]

theorem spansNext (rows : List Text) (row : Text) : closedSpans .idle (rows ++ [row]) =
    closedSpans .idle rows ++ ((scannerAfter .idle rows).feed row).2.toList := by
  simp [spansAppend, closedSpans]

theorem codesNext (rows : List Text) (row : Text) :
    (rows ++ [row]).map stripComment = rows.map stripComment ++ [stripComment row] := by
  simp

theorem joinedNext {front : List Text} (some' : front ≠ []) (w : Text) :
    joinWith [' '] (front ++ [w]) = joinWith [' '] front ++ ' ' :: w := by
  rw [joinedAppend some' (List.cons_ne_nil _ _)]
  rfl

theorem canOpenStands {codes : List Text} {earlier : List LineSpan} {n : Nat}
    (opening : CanOpen codes earlier n) : Stands structKeyword (joinWith [' '] (codes.drop n)) := by
  obtain ⟨code, found, keyword⟩ := opening.keyword
  have first : (codes.drop n)[0]? = some code := by rwa [List.getElem?_drop, Nat.add_zero]
  have member := List.mem_of_getElem? first
  rw [standsExactly structWord.chars] at keyword ⊢
  exact (joinedRuns structWord.nonempty _).mpr ⟨code, member, keyword⟩

theorem standsNonempty {w t : Text} (stands : Stands w t) (some' : w ≠ []) : t ≠ [] := by
  obtain ⟨a, b, rfl, -⟩ := stands
  simp [some']

theorem openSinceNext {rows : List Text} {row : Text} {n : Nat} (open' : OpenSince rows n)
    (inside : scannerAfter .idle (rows ++ [row]) ≠ .idle) : OpenSince (rows ++ [row]) n := by
  have within := open'.within
  refine ⟨by simp; omega, ?_, fun m behind short => ?_⟩
  · rw [List.take_append_of_le_length within, open'.before]
  · by_cases before : m ≤ rows.length
    · rw [List.take_append_of_le_length before]
      exact open'.since m behind before
    · rwa [List.take_of_length_le (by simp; omega)]

theorem joinsWithin {rows : List Text} {spans : List LineSpan} {row : Text} {n : Nat}
    (joins : Joins rows spans row n) : n ≤ (rows.map stripComment).length := by
  rw [List.length_map]
  exact joins.open'.within

section Step
variable {rows : List Text} {spans : List LineSpan} (run : Run rows spans) (row : Text)
include run

theorem runWithin : ∀ s ∈ spans, s.last < (rows.map stripComment).length :=
  fun _ => spanWithin run.each

theorem joinsIdle (idle : scannerAfter .idle rows = .idle)
    (quiet : ∀ n, ¬CanOpen (rows.map stripComment) spans n)
    (keyword : Stands structKeyword (stripComment row)) : Joins rows spans row rows.length := by
  have count : (rows.map stripComment).length = rows.length := List.length_map _
  refine ⟨⟨?_, fun m opening => ?_⟩, fun m ending => ?_, ⟨Nat.le_refl _, ?_, fun m => ?_⟩⟩
  · rw [codesNext]
    exact (canOpenNext (runWithin run)).mpr (.inr ⟨count.symm, keyword⟩)
  · rw [codesNext] at opening
    rcases (canOpenNext (runWithin run)).mp opening with earlier | ⟨rfl, -⟩
    · exact absurd earlier (quiet m)
    · exact count.ge
  · have within := lineWithin ending.ends
    have behind := ending.behind
    omega
  · rw [List.take_length, idle]
  · intro behind within
    omega

theorem joinsOpen {n : Nat} (opened : IsLeast {n | CanOpen (rows.map stripComment) spans n} n)
    (unclosed : ∀ m, ¬CanClose (rows.map stripComment) n m) (open' : OpenSince rows n) :
    Joins rows spans row n := by
  refine ⟨?_, unclosed, open'⟩
  rw [codesNext]
  exact leastNext (fun _ => canOpenNext (runWithin run)) (lineWithin opened.1.keyword) opened

theorem extendedCases :
    ((scannerAfter .idle rows).extended (stripComment row) = none ∧
      ∀ n, ¬CanOpen ((rows ++ [row]).map stripComment) spans n) ∨
    ∃ n, Joins rows spans row n ∧ (scannerAfter .idle rows).extended (stripComment row) =
      some (joinWith [' '] (((rows ++ [row]).map stripComment).drop n)) := by
  have state := run.state
  generalize same : scannerAfter .idle rows = scanner at state
  cases state with
  | idle quiet =>
    have search := wordFound structWord (stripComment row)
    rw [Scanner.extended]
    by_cases keyword : Stands structKeyword (stripComment row)
    · refine .inr ⟨rows.length, joinsIdle run row same quiet keyword, ?_⟩
      rw [if_pos (search.mpr keyword), codesNext, List.drop_left' (List.length_map _)]
      rfl
    · refine .inl ⟨if_neg (mt search.mp keyword), fun n opening => ?_⟩
      rw [codesNext] at opening
      rcases (canOpenNext (runWithin run)).mp opening with earlier | ⟨-, stands⟩
      · exact quiet n earlier
      · exact keyword stands
  | @capturing n opened unclosed open' =>
    have within := lineWithin opened.1.keyword
    have some' : (rows.map stripComment).drop n ≠ [] := by
      rw [ne_eq, List.drop_eq_nil_iff]
      omega
    refine .inr ⟨n, joinsOpen run row opened unclosed open', ?_⟩
    rw [extendedCapturing (standsNonempty (canOpenStands opened.1) structWord.nonempty), codesNext,
      List.drop_append_of_le_length within.le, joinedNext some']

theorem foundNext :
    closedSpans .idle rows = spans.map (spanCode ((rows ++ [row]).map stripComment)) := by
  rw [run.found, codesNext]
  exact List.map_congr_left fun s member => (spanCodeLonger (runWithin run s member)).symm

theorem eachNext : Consecutive ((rows ++ [row]).map stripComment) spans := by
  rw [codesNext]
  exact consecutiveLonger run.each

theorem runPassed (closed : (scannerAfter .idle rows).extended (stripComment row) = none)
    (quiet : ∀ n, ¬CanOpen ((rows ++ [row]).map stripComment) spans n) :
    Run (rows ++ [row]) spans := by
  have fed := feedClosed closed
  refine ⟨eachNext run row, ?_, ?_⟩
  · rw [scannerNext, fed]
    exact .idle quiet
  · rw [spansNext, fed, foundNext run row]
    exact List.append_nil _

section Joined
variable {n : Nat} (joins : Joins rows spans row n)
  (extended : (scannerAfter .idle rows).extended (stripComment row) =
    some (joinWith [' '] (((rows ++ [row]).map stripComment).drop n)))
include joins extended

theorem runStays (open' : ¬spanEnd <:+: stripComment row) : Run (rows ++ [row]) spans := by
  have stays : hasInfix spanEnd (stripComment row) = false := infixAbsent.mpr open'
  have fed := feedExtended extended
  rw [stays] at fed
  have captures : scannerAfter .idle (rows ++ [row]) =
      .capturing (joinWith [' '] (((rows ++ [row]).map stripComment).drop n)) := by
    rw [scannerNext, fed]
    rfl
  have unclosed : ∀ m, ¬CanClose ((rows ++ [row]).map stripComment) n m := fun m ending => by
    rw [codesNext] at ending
    rcases (canCloseNext (joinsWithin joins)).mp ending with earlier | ⟨-, ends⟩
    · exact joins.unclosed m earlier
    · exact open' ends
  refine ⟨eachNext run row, ?_, ?_⟩
  · rw [captures]
    exact .capturing joins.opened unclosed (openSinceNext joins.open' (by simp [captures]))
  · rw [spansNext, fed, foundNext run row]
    exact List.append_nil _

theorem runCloses (ends : spanEnd <:+: stripComment row) :
    Run (rows ++ [row]) (spans ++ [⟨n, rows.length⟩]) := by
  have closes : hasInfix spanEnd (stripComment row) = true := infixFound.mpr ends
  have count : ((rows ++ [row]).map stripComment).length = rows.length + 1 := by simp
  have fed := feedExtended extended
  rw [closes] at fed
  have least : IsLeast {m | CanClose ((rows ++ [row]).map stripComment) n m} rows.length := by
    have count' : (rows.map stripComment).length = rows.length := List.length_map _
    rw [codesNext]
    refine ⟨(canCloseNext (joinsWithin joins)).mpr (.inr ⟨count'.symm, ends⟩), fun m ending => ?_⟩
    rcases (canCloseNext (joinsWithin joins)).mp ending with earlier | ⟨rfl, -⟩
    · exact absurd earlier (joins.unclosed m)
    · exact count'.ge
  have next : Follows ((rows ++ [row]).map stripComment) spans ⟨n, rows.length⟩ :=
    ⟨joins.opened, least⟩
  refine ⟨consecutiveNext (eachNext run row) next, ?_, ?_⟩
  · rw [scannerNext, fed]
    refine .idle fun m opening => ?_
    -- A line that could open a further span would stand in this one.
    have within := lineWithin opening.keyword
    have earlier : CanOpen ((rows ++ [row]).map stripComment) spans m :=
      ⟨fun s member => opening.outside s (List.mem_append_left _ member), opening.keyword⟩
    have behind := joins.opened.2 earlier
    rw [count] at within
    exact opening.outside ⟨n, rows.length⟩ (by simp) ⟨behind, Nat.le_of_lt_succ within⟩
  · have code : joinWith [' '] (((rows ++ [row]).map stripComment).drop n) =
        spanCode ((rows ++ [row]).map stripComment) ⟨n, rows.length⟩ := by
      rw [spanCode, List.take_of_length_le count.le]
    have last (span : Text) : (settled true span).2.toList = [span] := rfl
    rw [spansNext, fed, foundNext run row, last, code, ← List.map_singleton, ← List.map_append]

end Joined

theorem runNext : ∃ more, Run (rows ++ [row]) (spans ++ more) := by
  rcases extendedCases run row with ⟨closed, quiet⟩ | ⟨n, joins, extended⟩
  · exact ⟨[], by rw [List.append_nil]; exact runPassed run row closed quiet⟩
  · by_cases ends : spanEnd <:+: stripComment row
    · exact ⟨_, runCloses run row joins extended ends⟩
    · exact ⟨[], by rw [List.append_nil]; exact runStays run row joins extended ends⟩

end Step

theorem runRows (rows : List Text) : ∃ spans, Run rows spans := by
  induction rows using List.reverseRecOn with
  | nil =>
    refine ⟨[], fun earlier s later shape => ?_, .idle fun n opening => ?_, rfl⟩
    · simp at shape
    · exact absurd (lineWithin opening.keyword) (Nat.not_lt_zero n)
  | append_singleton rows row ih =>
    obtain ⟨spans, run⟩ := ih
    obtain ⟨more, longer⟩ := runNext run row
    exact ⟨spans ++ more, longer⟩

theorem runComplete {rows : List Text} {spans : List LineSpan} (run : Run rows spans) :
    Segmented (rows.map stripComment) spans := by
  refine ⟨run.each, fun s follows => ?_⟩
  have state := run.state
  generalize scannerAfter .idle rows = scanner at state
  cases state with
  | idle quiet => exact quiet s.first follows.opens.1
  | capturing opened unclosed _ =>
    rw [opened.unique follows.opens] at unclosed
    exact unclosed s.last follows.closes.1

theorem scanSegments (rows : List Text) : let codes := rows.map stripComment
    (∃! spans, Segmented codes spans) ∧
    ∀ spans, Segmented codes spans →
      closedSpans .idle rows = spans.map (spanCode codes) ∧
      (∀ source, lines source = rows →
        scanStructs source = spans.filterMap fun s => structOfSpan? (spanCode codes s)) ∧
      Scanned rows spans (scannerAfter .idle rows) ∧
      spans.Pairwise fun s t => s.last < t.first := by
  intro codes
  obtain ⟨spans, run⟩ := runRows rows
  have all := runComplete run
  refine ⟨⟨spans, all, fun _ other => segmentedOnce other all⟩, fun others other => ?_⟩
  obtain rfl := segmentedOnce other all
  refine ⟨run.found, fun source same => ?_, run.state, spansOrdered run.each⟩
  rw [scanStructs, same, run.found, List.filterMap_map]
  rfl

theorem scanSegmentsOpen :
    let source := ("\x7d;\nstruct A \x7b // \x7d;\n struct B b; \x7d;\n" ++
      "struct C \x7b\x7d; struct D\nstruct E").toList
    let codes := (lines source).map stripComment
    let spans : List LineSpan := [⟨1, 2⟩, ⟨3, 3⟩]
    Segmented codes spans ∧
      (scanStructs source).map (·.name) = [['A'], ['C']] ∧
      scanStructs source = spans.filterMap fun s => structOfSpan? (spanCode codes s) := by
  intro source codes spans
  have first : Follows codes [] ⟨1, 2⟩ := by decide
  have second : Follows codes [⟨1, 2⟩] ⟨3, 3⟩ := by decide
  have empty : Consecutive codes [] := fun earlier s later shape => by simp at shape
  have opens : IsLeast {n | CanOpen codes spans n} 4 := leastExactly.mpr (by decide)
  have unclosed : ∀ m < codes.length, ¬CanClose codes 4 m := by decide
  have segmented : Segmented codes spans :=
    ⟨consecutiveNext (consecutiveNext empty first) second, fun s next => by
      have same : s.first = 4 := next.opens.unique opens
      have closes := next.closes.1
      rw [same] at closes
      exact unclosed s.last (lineWithin closes.ends) closes⟩
  obtain ⟨-, scanned, -, -⟩ := (scanSegments (lines source)).2 spans segmented
  exact ⟨segmented, by decide, scanned source rfl⟩

structure Holding (rows : List Text) (n : Nat) (buffer : Text) : Prop where
  open' : OpenSince rows n
  joined : buffer = joinWith [' '] ((rows.drop n).map stripComment)
  nonempty : buffer ≠ []
  keyword : Stands structKeyword buffer
  found : (wordOffset? structKeyword buffer).isSome = true
  unclosed : ¬spanEnd <:+: buffer
  uncommented : Uncommented buffer

theorem unclosedJoined {codes : List Text} {n : Nat} (unclosed : ∀ m, ¬CanClose codes n m) :
    ¬spanEnd <:+: joinWith [' '] (codes.drop n) := by
  rw [joinedPart (by decide) (by decide)]
  rintro ⟨code, member, ends⟩
  obtain ⟨k, found⟩ := List.mem_iff_getElem?.mp member
  rw [List.getElem?_drop] at found
  exact unclosed (n + k) ⟨Nat.le_add_right n k, code, found, ends⟩

theorem strippedJoined (rows : List Text) :
    Uncommented (joinWith [' '] (rows.map stripComment)) := by
  rw [Uncommented, joinedPart (by decide) (by decide)]
  rintro ⟨code, member, marks⟩
  obtain ⟨row, -, rfl⟩ := List.mem_map.mp member
  exact stripClean row marks

theorem feedEnds (scanner : Scanner) {row : Text} (ends : spanEnd <:+: stripComment row) :
    (scanner.feed row).1 = .idle := by
  cases extended : scanner.extended (stripComment row) with
  | none => rw [feedClosed extended]
  | some span =>
    rw [feedExtended extended, infixFound.mpr ends]
    rfl

theorem scannerSound (rows : List Text) :
    (scannerAfter .idle rows = .idle ∨ ∃ n buffer,
      scannerAfter .idle rows = .capturing buffer ∧ Holding rows n buffer) ∧
    ∀ (scanner : Scanner) row, spanEnd <:+: stripComment row → (scanner.feed row).1 = .idle := by
  obtain ⟨spans, run⟩ := runRows rows
  refine ⟨?_, fun scanner _ => feedEnds scanner⟩
  have state := run.state
  generalize scannerAfter .idle rows = scanner at state
  cases state with
  | idle => exact .inl rfl
  | @capturing n opened unclosed open' =>
    have keyword := canOpenStands opened.1
    refine .inr ⟨n, _, rfl, open', by rw [List.map_drop],
      standsNonempty keyword structWord.nonempty, keyword, ?_, unclosedJoined unclosed, ?_⟩
    · rw [wordOffset?, Option.isSome_map]
      exact (wordFound structWord _).mpr keyword
    · rw [← List.map_drop]
      exact strippedJoined _

theorem scannerSoundOpen :
    let rows := ["struct A \x7b // \x7d;", " float x; \x7d", "; /", "/ y"].map String.toList
    let buffer := "struct A \x7b   float x; \x7d ; / / y".toList
    let row := " \x7d; struct".toList
    scannerAfter .idle rows = .capturing buffer ∧ (∃ n, Holding rows n buffer) ∧
      spanEnd <:+: stripComment row ∧ ((Scanner.capturing buffer).feed row).1 = .idle := by
  intro rows buffer row
  have state : scannerAfter .idle rows = .capturing buffer := by decide
  have ends : spanEnd <:+: stripComment row := infixFound.mp (by decide)
  obtain ⟨idle | ⟨n, held, captures, holding⟩, closes⟩ := scannerSound rows
  · rw [state] at idle
    exact nomatch idle
  · rw [state] at captures
    obtain rfl : buffer = held := Scanner.capturing.inj captures
    exact ⟨state, ⟨n, holding⟩, ends, closes _ row ends⟩

end ShaderReflection.Glsl
