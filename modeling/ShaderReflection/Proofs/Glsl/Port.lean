import ShaderReflection.Proofs.Glsl.ClauseRecovery
import ShaderReflection.Proofs.Glsl.Recovery
/-!
Variables on rows of their own, as the two readings of source see them. The scan by lines finds all
of them, with or without an array suffix. The reading by clauses stops at the first row that holds
the entry point anywhere, and an array suffix hides a variable from it.
-/
namespace ShaderReflection.Glsl
open Text

def Qualifier.role : Qualifier → Role
  | input => .input
  | output => .output

theorem roleKeyword (q : Qualifier) : q.role.keyword = q.keyword := by cases q <;> rfl

structure Port where
  specifiers : List Specifier
  qualifier : Qualifier
  type : Text
  name : Text
  count : Option Nat
  tail : Text

namespace Port

structure WellFormed (p : Port) : Prop where
  specified : ∀ s ∈ p.specifiers, s.Named
  typed : Name p.type
  named : Name p.name
  blank : Tail p.tail

def words (p : Port) : List Text :=
  declarationWords p.specifiers p.qualifier.role p.type p.name p.count

def row (p : Port) : Text := Glsl.row p.words p.tail

def item (p : Port) : Item := .declaration p.qualifier.role p.type p.name

def entry (p : Port) : Attribute := ⟨TypeName.ofText p.type, p.name, none⟩

def clauseWords (p : Port) : List Text :=
  p.specifiers.flatMap Specifier.words ++ [p.qualifier.keyword, p.type, p.name ++ arraySuffix p.count]

def clause (p : Port) : Text := joinWith [' '] p.clauseWords

def declared (p : Port) : InterfaceDeclaration :=
  ⟨p.qualifier, ⟨TypeName.ofText p.type, p.name, explicitLocation? p.clause⟩⟩

def isPlain (p : Port) : Bool := p.count.isNone

end Port

def portsAs (qualifier : Qualifier) (ports : List Port) : List Port :=
  ports.filter fun p => p.qualifier == qualifier

structure Silent (line : Text) : Prop where
  quiet : ∀ k ∈ qualifiers, k ∉ tokens (stripComment line)
  structless : structKeyword ∉ wordRuns (stripComment line)

structure PortSource where
  first : Text
  ports : List Port
  rest : Text

namespace PortSource

def rows (s : PortSource) : List Text := s.ports.map Port.row

def text (s : PortSource) : Text := joinWith ['\n'] (s.first :: (s.rows ++ [s.rest]))

structure WellFormed (s : PortSource) : Prop where
  oneRow : '\n' ∉ s.first
  ports : ∀ p ∈ s.ports, p.WellFormed
  distinct : (s.ports.map (·.name)).Nodup
  enters : ∃ main body, lines s.rest = main :: body ∧ entryPoint <:+: main
  silent : ∀ line ∈ s.first :: lines s.rest, Silent line

def frontPorts (s : PortSource) : List Port := s.ports.takeWhile fun p => beforeEntry p.row

def clausePorts (s : PortSource) : List Port := s.frontPorts.filter Port.isPlain

end PortSource

theorem silentQuiet {line : Text} (silent : Silent line) :
    ∀ k ∈ qualifiers, (Line.ofText line).declared k = .absent := by
  intro k qualifies
  have words : ∀ k ∈ qualifiers, opensComment k = false := by decide
  rw [Line.declaredCode _ k (words k qualifies)]
  exact Line.absentWithout (silent.quiet k qualifies)

theorem silentReturned {line : Text} (silent : Silent line) : Silent (dropReturn line) := by
  rcases returnedCases line with same | ⟨front, rfl, same⟩
  · rwa [same]
  rw [same]
  -- The return belongs to a comment, or it is a blank behind the last word.
  rcases stripEnd (by decide : '\r' ≠ '/') front with short | long
  · exact ⟨short ▸ silent.quiet, short ▸ silent.structless⟩
  · obtain ⟨quiet, structless⟩ := silent
    have blank : Blank ['\r'] := by decide
    rw [long, tokens, wordsBehind blank, ← tokens] at quiet
    rw [long, runsSeparator rfl, List.mem_append, not_or] at structless
    exact ⟨quiet, structless.1⟩

theorem silentRow {line : Text} (silent : Silent line) (rows : List Text) :
    found .idle (line :: rows) = found .idle rows := by
  rw [quietRow (silentQuiet silent), codeIdle silent.structless]
  rfl

theorem silentFound {rows : List Text} (silent : ∀ line ∈ rows, Silent line) :
    found .idle rows = Item.interface [] := by
  induction rows with
  | nil => rfl
  | cons line rest ih =>
    obtain ⟨here, others⟩ := List.forall_mem_cons.mp silent
    rw [silentRow here, ih others]

section Port
variable {p : Port} (whole : p.WellFormed)
include whole

theorem portCode : ∀ w ∈ p.words, CodeWord w :=
  declarationCode whole.specified whole.typed whole.named p.count

theorem portFound {rows : List Text} {items : List Item}
    (rest : found .idle rows = Item.interface items) :
    found .idle (dropReturn p.row :: rows) = Item.interface (p.item :: items) := by
  rw [Port.row, rowReturned (portCode whole)]
  exact declarationRow whole.specified whole.typed whole.named _ _ (tailReturned whole.blank) rest

theorem clauseCode : ∀ w ∈ p.clauseWords, CodeWord w := by
  rw [Port.clauseWords, List.forall_mem_append]
  refine ⟨fun w member => (frontWords whole.specified w member).code, ?_⟩
  have suffix : ∀ c ∈ arraySuffix p.count, isBlank c = false ∧ c ≠ '/' := by
    intro c member
    obtain ⟨solid, plain⟩ := suffixChars p.count c member
    exact ⟨solid, fun same => plain (by simp [same])⟩
  simp only [List.forall_mem_cons]
  refine ⟨?_, nameCode whole.typed, codeAppend (nameCode whole.named) suffix, List.forall_mem_nil _⟩
  rw [← roleKeyword]
  exact qualifierCode (keywordQualifies _)

theorem clauseUncut : ';' ∉ p.clause := by
  refine joinedLacks (by decide) ?_
  rw [Port.clauseWords, List.forall_mem_append]
  refine ⟨fun w member => (frontWords whole.specified w member).unended, ?_⟩
  simp only [List.forall_mem_cons]
  refine ⟨?_, nameLacks whole.typed rfl, suffixUnended whole.named p.count, List.forall_mem_nil _⟩
  cases p.qualifier <;> decide

theorem clauseTrimmed : trim p.clause = p.clause :=
  joinedTrim fun w member => (clauseCode whole w member).solid

omit whole in
theorem clauseEnded (p : Port) : joinWith [' '] p.words = p.clause ++ [';'] := by
  have ended := joinedLast [' '] (p.specifiers.flatMap Specifier.words ++
    [p.qualifier.role.keyword, p.type]) (p.name ++ arraySuffix p.count) [';']
  simp only [List.append_assoc, List.cons_append, List.nil_append] at ended
  rw [Port.words, declarationWords, ended, roleKeyword]
  rfl

theorem portLine : lineCode p.row = p.clause ++ [';'] := by
  have trimmed := joinedTrim fun w member => (portCode whole w member).solid
  rw [lineCode, Port.row, rowCode (portCode whole), trimBehind whole.blank.blank, trimmed,
    clauseEnded]

end Port

theorem portsFound {ports : List Port} (whole : ∀ p ∈ ports, p.WellFormed) {rows : List Text}
    (rest : found .idle rows = Item.interface []) :
    found .idle ((ports.map Port.row).map dropReturn ++ rows) =
      Item.interface (ports.map Port.item) := by
  induction ports with
  | nil => exact rest
  | cons p others ih =>
    obtain ⟨here, more⟩ := List.forall_mem_cons.mp whole
    exact portFound here (ih more)

theorem itemAttributes (q : Qualifier) (ports : List Port) :
    (ports.map Port.item).filterMap (Item.attribute? q.role) =
      (portsAs q ports).map Port.entry := by
  induction ports with
  | nil => rfl
  | cons p rest ih =>
    rw [List.map_cons, portsAs, List.filter_cons]
    by_cases same : p.qualifier = q
    · subst same
      have here : Item.attribute? p.qualifier.role p.item = some p.entry := if_pos rfl
      rw [List.filterMap_cons_some here, ih, if_pos (beq_self_eq_true _)]
      rfl
    · have other : p.qualifier.role ≠ q.role := by
        revert same
        cases p.qualifier <;> cases q <;> decide
      have here : Item.attribute? q.role p.item = none := if_neg other
      rw [List.filterMap_cons_none here, ih, if_neg (by simp [same])]
      rfl

section Source
variable {s : PortSource} (whole : s.WellFormed)
include whole

theorem portLines : lines s.text = dropReturn s.first :: (s.rows.map dropReturn ++ lines s.rest) := by
  refine linesRows whole.oneRow (fun row member => ?_) s.rest
  obtain ⟨p, inside, rfl⟩ := List.mem_map.mp member
  have here := whole.ports p inside
  exact rowWhole (portCode here) here.blank

theorem scanPorts {stage : Stage} (attributes : stage.hasAttributes = true) :
    ∃ scanned, scan s.text stage = .ok scanned ∧
      scanned.inputs = (portsAs .input s.ports).map Port.entry ∧
      scanned.outputs = (portsAs .output s.ports).map Port.entry := by
  obtain ⟨first, rest⟩ := List.forall_mem_cons.mp whole.silent
  have all : found .idle (lines s.text) = Item.interface (s.ports.map Port.item) := by
    rw [portLines whole, silentRow (silentReturned first)]
    exact portsFound whole.ports (silentFound rest)
  exact ⟨_, scanFound attributes all, itemAttributes .input s.ports, itemAttributes .output s.ports⟩

end Source

theorem entryReturned (line : Text) : beforeEntry (dropReturn line) = beforeEntry line := by
  rcases returnedCases line with same | ⟨front, rfl, same⟩
  · rw [same]
  rw [same, Bool.eq_iff_iff, rowBefore, rowBefore, List.infix_concat_iff, not_or]
  refine ⟨fun before => ⟨fun last => ?_, before⟩, And.right⟩
  -- The entry point does not end in a carriage return.
  obtain ⟨begin, shape⟩ := last
  have ends := congrArg List.getLast? shape
  have letter : entryPoint.getLast? = some 'n' := by decide
  rw [List.getLast?_concat, List.getLast?_append, letter, Option.some_or] at ends
  exact absurd ends (by decide)

theorem clausesSpace (t : Text) : clausesOf (' ' :: t) = clausesOf t := by
  obtain ⟨piece, rest, shape⟩ := splitNonempty (p := (· == ';')) t
  have split : splitOn ';' t = piece :: rest := shape
  have moved : splitOn ';' (' ' :: t) = (' ' :: piece) :: rest := by
    rw [splitOn, splitWhere, shape]
    rfl
  have blank : Blank [' '] := by decide
  have trimmed : trim (' ' :: piece) = trim piece := trimInFront blank piece
  rw [clausesOf, clausesOf, moved, split, List.map_cons, trimmed, List.map_cons]

theorem specifierBegins {s : Specifier} (named : s.Named) :
    ∃ c w more, s.words = (c :: w) :: more ∧ isWordChar c = true := by
  cases s with
  | word w =>
    obtain ⟨c, r, rfl⟩ := List.exists_cons_of_ne_nil (nameNonempty named)
    exact ⟨c, r, [], rfl, nameChars named c List.mem_cons_self⟩
  | layout items => match items with
    | [] => exact ⟨_, _, _, rfl, rfl⟩
    | [(key, value)] => exact ⟨_, _, _, rfl, rfl⟩
    | (key, value) :: next :: rest => exact ⟨_, _, _, rfl, rfl⟩

theorem clauseBegins {p : Port} (whole : p.WellFormed) :
    ∃ c text, p.clause = c :: text ∧ isWordChar c = true := by
  have begins : ∃ c w more, p.clauseWords = (c :: w) :: more ∧ isWordChar c = true := by
    obtain ⟨specifiers, qualifier, type, name, count, tail⟩ := p
    cases specifiers with
    | nil => cases qualifier <;> exact ⟨_, _, _, rfl, rfl⟩
    | cons s rest =>
      obtain ⟨c, w, more, shape, word⟩ := specifierBegins (whole.specified s List.mem_cons_self)
      refine ⟨c, w, more ++ (rest.flatMap Specifier.words ++
        [qualifier.keyword, type, name ++ arraySuffix count]), ?_, word⟩
      rw [Port.clauseWords, List.flatMap_cons, shape, List.append_assoc]
      rfl
  obtain ⟨c, w, more, shape, word⟩ := begins
  obtain ⟨text, joined⟩ := joinedBegins [' '] c w more
  exact ⟨c, text, by rw [Port.clause, shape, joined], word⟩

theorem portClauses {ports : List Port} (whole : ∀ p ∈ ports, p.WellFormed) :
    clausesOf (codeOf (ports.map Port.row)) = ports.map Port.clause := by
  induction ports with
  | nil => rfl
  | cons p rest ih =>
    obtain ⟨here, others⟩ := List.forall_mem_cons.mp whole
    obtain ⟨c, text, shape, word⟩ := clauseBegins here
    have some' : p.clause ≠ [] := by
      rw [shape]
      exact List.cons_ne_nil c text
    have taken : isClauseCode (lineCode p.row) = true := by
      have directive : c ≠ '#' := by
        rintro rfl
        cases word
      rw [portLine here, shape]
      simp [isClauseCode, directive]
    rw [List.map_cons, codeTakes taken, portLine here, List.append_assoc, List.singleton_append,
      clausesAt (clauseUncut here) (by rwa [clauseTrimmed here]), clausesSpace, ih others,
      clauseTrimmed here, List.map_cons]

theorem takenBefore {line : Text} (stops : ¬beforeEntry line = true) (front back : List Text) :
    (front ++ line :: back).takeWhile beforeEntry = front.takeWhile beforeEntry := by
  induction front with
  | nil => exact List.takeWhile_cons_of_neg stops
  | cons first rest ih => rw [List.cons_append, List.takeWhile_cons, List.takeWhile_cons, ih]

theorem frontWhole {s : PortSource} (whole : s.WellFormed) : ∀ p ∈ s.frontPorts, p.WellFormed :=
  fun p member => whole.ports p (List.takeWhile_subset _ member)

theorem sourceClauses {s : PortSource} (whole : s.WellFormed) :
    interfaceClauses s.text = s.frontPorts.map Port.clause := by
  obtain ⟨main, body, shape, enters⟩ := whole.enters
  have stops : ¬beforeEntry main = true := fun before => rowBefore.mp before enters
  have before : (s.rows.map dropReturn ++ main :: body).takeWhile beforeEntry =
      (s.frontPorts.map Port.row).map dropReturn := by
    have same : beforeEntry ∘ dropReturn ∘ Port.row = fun p => beforeEntry p.row :=
      funext fun p => entryReturned p.row
    rw [PortSource.rows, List.map_map, takenBefore stops, List.takeWhile_map, same, List.map_map]
    rfl
  have code : clauseText s.text = codeOf (s.frontPorts.map Port.row) := by
    change codeOf (((lines s.text).drop 1).takeWhile beforeEntry) = _
    rw [portLines whole, List.drop_one, List.tail_cons, shape, before, codeReturned]
  change clausesOf (clauseText s.text) = _
  rw [code, portClauses (frontWhole whole)]

theorem listClosed {opening : Text} (items : List (Text × Int)) :
    ∃ front w, Specifier.listWords opening items = front ++ [w ++ [')']] := by
  induction items generalizing opening with
  | nil => exact ⟨[], opening, rfl⟩
  | cons item rest ih =>
    obtain ⟨key, value⟩ := item
    cases rest with
    | nil => exact ⟨[opening ++ key, ['=']], signedDecimal value, rfl⟩
    | cons next more =>
      obtain ⟨front, w, shape⟩ := @ih []
      refine ⟨[opening ++ key, ['='], signedDecimal value ++ [',']] ++ front, w, ?_⟩
      rw [Specifier.listWords, shape, List.append_assoc]
      exact List.cons_ne_nil next more

theorem wordsClosed {specifiers : List Specifier} (specified : ∀ s ∈ specifiers, s.Named)
    {back : List Text} (some' : back ≠ []) (solid : ∀ w ∈ back, Solid w) (open' : ∀ w ∈ back, ')' ∉ w) :
    ∃ front, words (afterLast ')' (joinWith [' '] (specifiers.flatMap Specifier.words ++ back))) =
      front ++ back ∧ front ⊆ specifiers.flatMap Specifier.words := by
  induction specifiers with
  | nil =>
    have lacks : ')' ∉ joinWith [' '] back := joinedLacks (by decide) open'
    refine ⟨[], ?_, List.nil_subset _⟩
    rw [List.flatMap_nil, List.nil_append, afterLastNone lacks, wordsJoined solid]
  | cons s rest ih =>
    obtain ⟨here, others⟩ := List.forall_mem_cons.mp specified
    obtain ⟨front, split, within⟩ := ih others
    have behind : rest.flatMap Specifier.words ++ back ≠ [] := List.append_ne_nil_of_right_ne_nil _ some'
    obtain ⟨c, w, more, shape, -⟩ := specifierBegins here
    have words' : s.words ≠ [] := by
      rw [shape]
      exact List.cons_ne_nil _ _
    rw [List.flatMap_cons, List.append_assoc, joinedAppend words' behind, List.singleton_append]
    have wide : front ⊆ s.words ++ rest.flatMap Specifier.words :=
      fun w member => List.mem_append_right _ (within member)
    -- The last parenthesis is behind the first specifier, or it closes that one, or there is none.
    by_cases closes : ')' ∈ joinWith [' '] (rest.flatMap Specifier.words ++ back)
    · refine ⟨front, ?_, wide⟩
      rw [afterLastAppend (List.mem_cons_of_mem _ closes), ← List.singleton_append,
        afterLastAppend closes, split]
    rw [afterLastNone closes] at split
    cases s with
    | word w =>
      have lacks : ')' ∉ joinWith [' '] (Specifier.word w).words ++
          ' ' :: joinWith [' '] (rest.flatMap Specifier.words ++ back) := by
        rw [List.mem_append, List.mem_cons, not_or, not_or]
        exact ⟨nameLacks here rfl, by decide, closes⟩
      have solid' : Solid (joinWith [' '] (Specifier.word w).words) := (nameCode here).solid
      refine ⟨w :: front, ?_, List.cons_subset.mpr ⟨List.mem_cons_self, wide⟩⟩
      rw [afterLastNone lacks, wordsSeparator rfl, split, wordsSolid solid']
      rfl
    | layout items =>
      obtain ⟨list, last, closed⟩ := @listClosed "layout(".toList items
      have lacks : ')' ∉ ' ' :: joinWith [' '] (rest.flatMap Specifier.words ++ back) := by
        rw [List.mem_cons, not_or]
        exact ⟨by decide, closes⟩
      have blank : Blank [' '] := by decide
      refine ⟨front, ?_, wide⟩
      rw [Specifier.words, closed, joinedLast, List.append_assoc, List.singleton_append,
        afterLastAt lacks, ← List.singleton_append, wordsInFront blank, split]

theorem portHead {p : Port} (whole : p.WellFormed) :
    clauseHead? p.clause = some (p.qualifier, p.type, p.name ++ arraySuffix p.count) := by
  have solid : ∀ w ∈ [p.qualifier.keyword, p.type, p.name ++ arraySuffix p.count], Solid w :=
    fun w member => (clauseCode whole w (List.mem_append_right _ member)).solid
  have open' : ∀ w ∈ [p.qualifier.keyword, p.type, p.name ++ arraySuffix p.count], ')' ∉ w := by
    simp only [List.forall_mem_cons, List.mem_append, not_or]
    refine ⟨?_, nameLacks whole.typed rfl, ⟨nameLacks whole.named rfl, ?_⟩, List.forall_mem_nil _⟩
    · cases p.qualifier <;> decide
    · exact suffixLacks rfl (by decide) p.count
  obtain ⟨front, split, within⟩ :=
    wordsClosed whole.specified (List.cons_ne_nil _ _) solid open'
  have free : ∀ w ∈ front, w ≠ inKeyword ∧ w ≠ outKeyword := fun w member => by
    have free := (frontWords whole.specified w (within member)).free
    exact ⟨fun same => free (by simp [same, qualifiers]), fun same => free (by simp [same, qualifiers])⟩
  rw [clauseHead?, Port.clause, Port.clauseWords, split, qualifiedAt free]

theorem portDeclares {p : Port} (whole : p.WellFormed) :
    declarationOf? p.clause = if p.isPlain then some p.declared else none := by
  rw [declarationOf?, portHead whole, Option.bind_some, Port.isPlain, Port.declared]
  cases p.count with
  | none => simp [arraySuffix, whole.typed.identifier, whole.named.identifier]
  | some n =>
    have suffixed : isIdentifier (p.name ++ arraySuffix (some n)) = false := by
      rw [Bool.eq_false_iff]
      intro identifier
      have bracket : '[' ∈ p.name ++ arraySuffix (some n) :=
        List.mem_append_right _ List.mem_cons_self
      have word := identifierChars identifier '[' bracket
      cases word
    simp [suffixed]

theorem portsDeclare {ports : List Port} (whole : ∀ p ∈ ports, p.WellFormed) :
    (ports.map Port.clause).filterMap declarationOf? =
      (ports.filter Port.isPlain).map Port.declared := by
  induction ports with
  | nil => rfl
  | cons p rest ih =>
    obtain ⟨here, others⟩ := List.forall_mem_cons.mp whole
    have declares := portDeclares here
    rw [List.map_cons, List.filter_cons]
    split
    · rename_i plain
      rw [if_pos plain] at declares
      rw [List.filterMap_cons_some declares, ih others, List.map_cons]
    · rename_i suffixed
      rw [if_neg suffixed] at declares
      rw [List.filterMap_cons_none declares, ih others]

theorem clausesFindPorts {s : PortSource} (whole : s.WellFormed) :
    interfaceDeclarations s.text = s.clausePorts.map Port.declared := by
  rw [interfaceDeclarations, sourceClauses whole, portsDeclare (frontWhole whole)]
  rfl

end ShaderReflection.Glsl
