import ShaderReflection.Proofs.Glsl.Comment
import ShaderReflection.Proofs.Glsl.Word
import ShaderReflection.Proofs.Text.Numeral
/-!
Shader interfaces as they are written down: a list of struct definitions and declared variables,
each begun on a row of its own, with comments and empty rows wherever they may stand.
-/
namespace ShaderReflection.Glsl
open Text

structure Name (w : Text) : Prop where
  identifier : isIdentifier w = true
  free : w ∉ [structKeyword, uniformKeyword, inKeyword, outKeyword]

inductive Role where
  | uniform
  | input
  | output
  deriving DecidableEq

def Role.keyword : Role → Text
  | uniform => uniformKeyword
  | input => inKeyword
  | output => outKeyword

inductive Item where
  | definition (name : Text) (members : List (Text × Text))
  | declaration (role : Role) (type name : Text)

inductive Specifier where
  | word (w : Text)
  | layout (items : List (Text × Int))

namespace Specifier

def listWords (opening : Text) : List (Text × Int) → List Text
  | [] => [opening ++ [')']]
  | [(key, value)] => [opening ++ key, ['='], signedDecimal value ++ [')']]
  | (key, value) :: rest =>
    [opening ++ key, ['='], signedDecimal value ++ [',']] ++ listWords [] rest

def words : Specifier → List Text
  | word w => [w]
  | layout items => listWords "layout(".toList items

def Named : Specifier → Prop
  | word w => Name w
  | layout items => ∀ item ∈ items, Name item.1

end Specifier

def arraySuffix : Option Nat → Text
  | none => []
  | some n => '[' :: (decimal n ++ [']'])

def declarationWords (specifiers : List Specifier) (role : Role) (type name : Text)
    (count : Option Nat) : List Text :=
  specifiers.flatMap Specifier.words ++ [role.keyword, type, name ++ (arraySuffix count ++ [';'])]

def memberWords (members : List (Text × Text)) : List Text :=
  members.flatMap fun m => [m.1, m.2 ++ [';']]

def definitionWords (name : Text) (members : List (Text × Text)) : List Text :=
  structKeyword :: name :: ['{'] :: (memberWords members ++ [spanEnd])

structure Tail (t : Text) : Prop where
  oneRow : '\n' ∉ t
  blank : Blank (stripComment t)

theorem emptyTail : Tail [] := ⟨List.not_mem_nil, List.forall_mem_nil _⟩

theorem commentTail {t : Text} (oneRow : '\n' ∉ t) : Tail ('/' :: '/' :: t) := by
  refine ⟨?_, List.forall_mem_nil _⟩
  rw [List.mem_cons, List.mem_cons, not_or, not_or]
  exact ⟨by decide, by decide, oneRow⟩

def row (ws : List Text) (tail : Text) : Text := joinWith [' '] ws ++ tail

inductive Broken : List Text → List Text → Prop where
  | done : Broken [] []
  | empty {ws rows tail} (blank : Tail tail) (more : Broken ws rows) : Broken ws (tail :: rows)
  | row {chunk ws rows tail} (some' : chunk ≠ []) (blank : Tail tail) (more : Broken ws rows) :
      Broken (chunk ++ ws) (row chunk tail :: rows)

/-- The items of an interface on rows. A definition may be broken wherever it has a space. -/
inductive Laid : List Item → List Text → Prop where
  | nil : Laid [] []
  | empty {items rows tail} (blank : Tail tail) (more : Laid items rows) : Laid items (tail :: rows)
  | definition {name members items front rows} (named : Name name)
      (members' : ∀ m ∈ members, Name m.1 ∧ Name m.2)
      (broken : Broken (definitionWords name members) front) (more : Laid items rows) :
      Laid (.definition name members :: items) (front ++ rows)
  | declaration {specifiers role type name count items rows tail}
      (specified : ∀ s ∈ specifiers, s.Named) (typed : Name type) (named : Name name)
      (blank : Tail tail) (more : Laid items rows) :
      Laid (.declaration role type name :: items)
        (row (declarationWords specifiers role type name count) tail :: rows)

theorem wordCharSolid {c : Char} (word : isWordChar c = true) : isBlank c = false := by
  by_cases mark : c = '_'
  · rw [mark]
    rfl
  · simp only [isWordChar, isLetter, isDigit, Bool.or_eq_true, Bool.and_eq_true, decide_eq_true_eq,
      beq_iff_eq, mark, or_false] at word
    simp only [isBlank, Bool.or_eq_false_iff, Bool.and_eq_false_iff, decide_eq_false_iff_not,
      beq_eq_false_iff_ne]
    omega

theorem blankSeparates {c : Char} (blank : isBlank c = true) : isWordChar c = false := by
  rw [Bool.eq_false_iff]
  intro word
  rw [wordCharSolid word] at blank
  cases blank

theorem identifierChars {w : Text} (identifier : isIdentifier w = true) :
    ∀ c ∈ w, isWordChar c = true := by
  cases w with
  | nil => exact List.forall_mem_nil _
  | cons c r =>
    simp only [isIdentifier, Bool.and_eq_true, List.all_eq_true] at identifier
    refine List.forall_mem_cons.mpr ⟨?_, identifier.2⟩
    simp only [isWordChar, Bool.or_eq_true] at identifier ⊢
    rcases identifier.1 with letter | mark
    · exact .inl (.inl letter)
    · exact .inr mark

theorem identifierNonempty {w : Text} (identifier : isIdentifier w = true) : w ≠ [] := by
  rintro rfl
  cases identifier

theorem identifierSolid {w : Text} (identifier : isIdentifier w = true) : Solid w :=
  ⟨identifierNonempty identifier, fun c member => wordCharSolid (identifierChars identifier c member)⟩

theorem identifierLacks {w : Text} (identifier : isIdentifier w = true) {c : Char}
    (mark : isWordChar c = false) : c ∉ w := by
  intro member
  rw [identifierChars identifier c member] at mark
  cases mark

theorem nameChars {w : Text} (name : Name w) : ∀ c ∈ w, isWordChar c = true :=
  identifierChars name.identifier

theorem nameLacks {w : Text} (name : Name w) {c : Char} (mark : isWordChar c = false) : c ∉ w :=
  identifierLacks name.identifier mark

theorem nameNonempty {w : Text} (name : Name w) : w ≠ [] := identifierNonempty name.identifier

structure CodeWord (w : Text) : Prop where
  solid : Solid w
  unslashed : '/' ∉ w

theorem nameCode {w : Text} (name : Name w) : CodeWord w where
  solid := identifierSolid name.identifier
  unslashed := nameLacks name rfl

theorem codeAppend {front back : Text} (code : CodeWord front)
    (plain : ∀ c ∈ back, isBlank c = false ∧ c ≠ '/') : CodeWord (front ++ back) where
  solid := by
    refine ⟨fun empty => code.solid.nonempty (List.append_eq_nil_iff.mp empty).1, ?_⟩
    exact List.forall_mem_append.mpr ⟨code.solid.plain, fun c member => (plain c member).1⟩
  unslashed := by
    intro slash
    rcases List.mem_append.mp slash with front' | back'
    · exact code.unslashed front'
    · exact (plain '/' back').2 rfl

def qualifiers : List Text := [uniformKeyword, inKeyword, outKeyword]

theorem keywordQualifies (role : Role) : role.keyword ∈ qualifiers := by cases role <;> decide

theorem qualifierChars : ∀ k ∈ qualifiers, ∀ c ∈ k, isWordChar c = true := by
  have all : ∀ k ∈ qualifiers, (k.all fun c => decide (isWordChar c = true)) = true := by decide
  exact fun k qualifies => eachChar (all k qualifies)

theorem qualifierCode {k : Text} (qualifies : k ∈ qualifiers) : CodeWord k := by
  have some' : ∀ k ∈ qualifiers, k ≠ [] := by decide
  refine ⟨⟨some' k qualifies, fun c member => ?_⟩, fun slash => ?_⟩
  · exact wordCharSolid (qualifierChars k qualifies c member)
  · exact nomatch qualifierChars k qualifies '/' slash

theorem nameFree {w : Text} (name : Name w) : w ∉ qualifiers :=
  fun member => name.free (List.mem_cons_of_mem _ member)

theorem uncommentedWithout {t : Text} (unslashed : '/' ∉ t) : Uncommented t :=
  fun marks => unslashed (marks.subset List.mem_cons_self)

theorem joinedUnslashed {ws : List Text} (code : ∀ w ∈ ws, CodeWord w) :
    '/' ∉ joinWith [' '] ws := joinedLacks (by decide) fun w member => (code w member).unslashed

theorem stripAppend {code : Text} (unslashed : '/' ∉ code) (tail : Text) :
    stripComment (code ++ tail) = code ++ stripComment tail := by
  induction code with
  | nil => rfl
  | cons c r ih =>
    rw [List.mem_cons, not_or] at unslashed
    rw [List.cons_append, stripStep fun ⟨slash, _⟩ => unslashed.1 slash.symm, ih unslashed.2,
      List.cons_append]

theorem rowCode {ws : List Text} (code : ∀ w ∈ ws, CodeWord w) (tail : Text) :
    stripComment (row ws tail) = joinWith [' '] ws ++ stripComment tail :=
  stripAppend (joinedUnslashed code) tail

section Row
variable {ws : List Text} {tail keyword : Text}

theorem rowTokens (code : ∀ w ∈ ws, CodeWord w) (blank : Tail tail) :
    tokens (stripComment (row ws tail)) = tokensOf ws := by
  rw [tokensUncommented (stripClean _), rowCode code, wordsBehind blank.blank,
    wordsJoined fun w member => (code w member).solid]

theorem rowPlain (code : ∀ w ∈ ws, CodeWord w) (blank : Tail tail) :
    ∀ token ∈ tokensOf ws, opensComment token = false := by
  rw [← rowTokens code blank]
  exact noTokenOpens (stripClean _)

theorem rowAbsent (code : ∀ w ∈ ws, CodeWord w) (blank : Tail tail)
    (word : opensComment keyword = false) (absent : keyword ∉ tokensOf ws) :
    (Line.ofText (row ws tail)).declared keyword = .absent := by
  rw [Line.declaredCode _ keyword word]
  refine Line.absentWithout ?_
  rwa [Line.ofText, rowTokens code blank]

theorem rowDeclares {front : List Text} {type token : Text} (code : ∀ w ∈ ws, CodeWord w)
    (blank : Tail tail) (word : opensComment keyword = false)
    (shape : tokensOf ws = front ++ [keyword, type, token]) (fresh : keyword ∉ front)
    (typed : isIdentifier type = true) (named : isIdentifier (declaredName token) = true) :
    (Line.ofText (row ws tail)).declared keyword = .named type (declaredName token) := by
  have plain := rowPlain code blank
  rw [shape] at plain
  rw [Line.declaredCode _ keyword word, Line.ofText, rowTokens code blank, shape]
  exact (Line.declaredAt _ plain fresh).mpr ⟨token, [], rfl, typed, named, rfl⟩

end Row

theorem trimUnended {w : Text} (unended : ';' ∉ w) : trimBoth (· == ';') w = w := by
  rw [trimBoth, dropNothing (otherChars unended), trimEndNothing (otherChars unended)]

theorem trimEnded {w : Text} (some' : w ≠ []) (unended : ';' ∉ w) :
    trimBoth (· == ';') (w ++ [';']) = w := by
  have kept := trimEndNothing (otherChars unended)
  have ended : trimEnd (· == ';') (w ++ [';']) = trimEnd (· == ';') w := by
    rw [trimEnd, List.reverse_append, List.reverse_singleton, List.singleton_append,
      List.dropWhile_cons_of_pos (by rfl), trimEnd]
  cases w with
  | nil => exact absurd rfl some'
  | cons c r =>
    have first := otherChars unended c List.mem_cons_self
    rw [trimBoth, List.cons_append, List.dropWhile_cons_of_neg (by simp [first]),
      ← List.cons_append, ended, kept]

theorem tokensUnended {ws : List Text} (plain : ∀ w ∈ ws, w ≠ [] ∧ ';' ∉ w) : tokensOf ws = ws := by
  induction ws with
  | nil => rfl
  | cons w rest ih =>
    obtain ⟨⟨some', unended⟩, others⟩ := List.forall_mem_cons.mp plain
    have first : tokensOf [w] = [w] := by simp [tokensOf, trimUnended unended, some']
    rw [← List.singleton_append, tokensOfAppend, first, ih others]

theorem tokenEnded {w : Text} (some' : w ≠ []) (unended : ';' ∉ w) :
    tokensOf [w ++ [';']] = [w] := by
  simp [tokensOf, trimEnded some' unended, some']

theorem joinedStructless {ws : List Text} (structless : ∀ w ∈ ws, structKeyword ∉ wordRuns w) :
    structKeyword ∉ wordRuns (joinWith [' '] ws) := by
  rw [joinedRuns (by decide)]
  rintro ⟨w, member, run⟩
  exact structless w member run

theorem codeIdle {line : Text} (structless : structKeyword ∉ wordRuns (stripComment line)) :
    Scanner.idle.feed line = (.idle, none) := by
  have absent : (splitAtWord? structKeyword (stripComment line)).isSome = false := by
    rw [Bool.eq_false_iff]
    exact fun found => structless (wordIsRun (eachChar (by decide)) found)
  simp [Scanner.feed, Scanner.extended, absent]

theorem rowIdle {ws : List Text} {tail : Text} (code : ∀ w ∈ ws, CodeWord w)
    (structless : ∀ w ∈ ws, structKeyword ∉ wordRuns w) (blank : Tail tail) :
    Scanner.idle.feed (row ws tail) = (.idle, none) := by
  have none : structKeyword ∉ wordRuns (joinWith [' '] ws ++ stripComment tail) := by
    have lacks : 's' ∉ stripComment tail := blankLacks blank.blank rfl
    cases gap : stripComment tail with
    | nil =>
      rw [List.append_nil]
      exact joinedStructless structless
    | cons c r =>
      rw [gap, List.mem_cons, not_or] at lacks
      have blankHere := blank.blank c (by simp [gap])
      rw [runsSeparator (blankSeparates blankHere), List.mem_append, not_or]
      exact ⟨joinedStructless structless, runsWithout lacks.2⟩
  refine codeIdle ?_
  rwa [rowCode code]

end ShaderReflection.Glsl
