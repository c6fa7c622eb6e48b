import ShaderReflection.Glsl.Clause
import ShaderReflection.Proofs.Glsl.Spacing
/-!
Interface variables as clauses declare them: a layout list, words, a qualifier, a type and a name.
A clause of these tokens, with any blanks between them, reads as the variable that it declares.
-/
namespace ShaderReflection.Glsl
open Text

def locationKey : Text := "location".toList

inductive LayoutItem where
  | flag (key : Text)
  | setting (key : Text) (value : Nat) (digits : Text)

namespace LayoutItem

def key : LayoutItem → Text
  | flag key => key
  | setting key _ _ => key

def tokens : LayoutItem → List Text
  | flag key => [key]
  | setting key _ digits => [key, ['='], digits]

def WellFormed : LayoutItem → Prop
  | flag key => isIdentifier key = true
  | setting key value digits => isIdentifier key = true ∧ Numeral 10 value digits

def location? : LayoutItem → Option UInt32
  | flag _ => none
  | setting key value _ =>
    if key = locationKey ∧ value < wordLimit then some (UInt32.ofNat value) else none

def listTokens : List LayoutItem → List Text
  | [] => []
  | [item] => item.tokens
  | item :: rest => item.tokens ++ [','] :: listTokens rest

end LayoutItem

def Qualifier.keyword : Qualifier → Text
  | input => inKeyword
  | output => outKeyword

structure WrittenDeclaration where
  layout : Option (List LayoutItem)
  words : List Text
  qualifier : Qualifier
  type : Text
  name : Text

namespace WrittenDeclaration

def items (d : WrittenDeclaration) : List LayoutItem := d.layout.getD []

def declarator (d : WrittenDeclaration) : List Text :=
  d.words ++ [d.qualifier.keyword, d.type, d.name]

def tokens (d : WrittenDeclaration) : List Text :=
  match d.layout with
  | none => d.declarator
  | some items =>
    "layout".toList :: ['('] :: (LayoutItem.listTokens items ++ [')'] :: d.declarator)

structure WellFormed (d : WrittenDeclaration) : Prop where
  items : ∀ item ∈ d.items, item.WellFormed
  once : (d.items.countP fun item => item.key = locationKey) ≤ 1
  words : ∀ w ∈ d.words, isIdentifier w = true ∧ w ≠ inKeyword ∧ w ≠ outKeyword
  typed : isIdentifier d.type = true
  named : isIdentifier d.name = true

def declared (d : WrittenDeclaration) : InterfaceDeclaration :=
  ⟨d.qualifier, ⟨TypeName.ofText d.type, d.name, d.items.findSome? LayoutItem.location?⟩⟩

end WrittenDeclaration

theorem alphanumericWord {c : Char} (digit : Alphanumeric c) : isWordChar c = true := by
  unfold Alphanumeric at digit
  simp only [isWordChar, isLetter, isDigit, Bool.or_eq_true, Bool.and_eq_true, decide_eq_true_eq]
  omega

theorem numeralToken {marks : List Char} {n : Nat} {digits : Text} (numeral : Numeral 10 n digits) :
    Token marks digits :=
  .word (numeralNonempty numeral) fun c member =>
    alphanumericWord (Text.numeralChars (by decide) (by decide) numeral c member)

theorem itemTokens {item : LayoutItem} (whole : item.WellFormed) :
    ∀ w ∈ item.tokens, Token ['='] w := by
  cases item with
  | flag key => exact List.forall_mem_singleton.mpr (identifierToken whole)
  | setting key value digits =>
    simp only [LayoutItem.tokens, List.forall_mem_cons]
    exact ⟨identifierToken whole.1, .mark List.mem_cons_self rfl, numeralToken whole.2,
      List.forall_mem_nil _⟩

theorem listTokensEach {items : List LayoutItem} (whole : ∀ item ∈ items, item.WellFormed) :
    ∀ w ∈ LayoutItem.listTokens items, Token [',', '='] w := by
  induction items with
  | nil => exact List.forall_mem_nil _
  | cons item rest ih =>
    obtain ⟨here, others⟩ := List.forall_mem_cons.mp whole
    have first : ∀ w ∈ item.tokens, Token [',', '='] w := fun w member =>
      tokenAmong (by decide) (itemTokens here w member)
    cases rest with
    | nil => exact first
    | cons next more =>
      rw [LayoutItem.listTokens, List.forall_mem_append, List.forall_mem_cons]
      · exact ⟨first, .mark List.mem_cons_self rfl, ih others⟩
      · exact List.cons_ne_nil next more

theorem itemLocation {item : LayoutItem} (whole : item.WellFormed) {t : Text}
    (spaced : Spaced item.tokens t) : locationOf? t = item.location? := by
  cases item with
  | flag key =>
    have key : ∀ w ∈ [key], Token [] w := List.forall_mem_singleton.mpr (identifierToken whole)
    rw [locationOf?, splitFirstNone (spacedWithout key rfl rfl List.not_mem_nil spaced)]
    rfl
  | setting key value digits =>
    obtain ⟨identifier, numeral⟩ := whole
    have keyToken : Token [] key := identifierToken identifier
    have digitsToken : Token [] digits := numeralToken numeral
    have parts : Spaced ([key] ++ ['='] :: [digits]) t := spaced
    obtain ⟨before, behind, rfl, first, second⟩ := spacedSplit parts
    have uncut : '=' ∉ before :=
      spacedWithout (List.forall_mem_singleton.mpr keyToken) rfl rfl List.not_mem_nil first
    have value : word32? 10 digits = _ := numeralWord (by decide) (by decide) numeral
    rw [locationOf?, List.singleton_append, splitFirstAt uncut, Option.bind_some]
    simp only [spacedOne (tokenSolid keyToken) first, spacedOne (tokenSolid digitsToken) second,
      value, LayoutItem.location?, ite_and]
    rfl

theorem listLocation {items : List LayoutItem} (whole : ∀ item ∈ items, item.WellFormed) {t : Text}
    (spaced : Spaced (LayoutItem.listTokens items) t) :
    (splitOn ',' t).findSome? locationOf? = items.findSome? LayoutItem.location? := by
  induction items generalizing t with
  | nil =>
    cases spaced with
    | blank gap =>
      have assigns : locationOf? t = none := by
        rw [locationOf?, splitFirstNone (blankLacks gap rfl)]
        rfl
      rw [splitOnNone (blankLacks gap rfl), List.findSome?_singleton, assigns]
      rfl
  | cons item rest ih =>
    obtain ⟨here, others⟩ := List.forall_mem_cons.mp whole
    have uncut {t : Text} (first : Spaced item.tokens t) : ',' ∉ t :=
      spacedWithout (itemTokens here) rfl rfl (by decide) first
    cases rest with
    | nil =>
      rw [splitOnNone (uncut spaced), List.findSome?_singleton, List.findSome?_singleton,
        itemLocation here spaced]
    | cons next more =>
      have parts : Spaced (item.tokens ++ [','] :: LayoutItem.listTokens (next :: more)) t := spaced
      obtain ⟨before, behind, rfl, first, second⟩ := spacedSplit parts
      rw [List.singleton_append, splitOnAt (uncut first), List.findSome?_cons,
        itemLocation here first, ih others second, ← List.findSome?_cons]

theorem itemLocated (item : LayoutItem) (n : UInt32) :
    item.location? = some n ↔ ∃ digits, item = .setting locationKey n.toNat digits := by
  cases item with
  | flag key => simp [LayoutItem.location?]
  | setting key value digits =>
    rw [LayoutItem.location?]
    constructor
    · intro found
      obtain ⟨⟨rfl, fits⟩, same⟩ := Option.ite_none_right_eq_some.mp found
      obtain rfl := Option.some.inj same
      exact ⟨digits, by rw [UInt32.toNat_ofNat_of_lt' fits]⟩
    · rintro ⟨other, same⟩
      obtain ⟨rfl, rfl, -⟩ := LayoutItem.setting.inj same
      rw [if_pos ⟨rfl, n.toNat_lt⟩, UInt32.ofNat_toNat]

theorem locatedOnce {items : List LayoutItem}
    (once : (items.countP fun item => item.key = locationKey) ≤ 1) (n : UInt32) :
    items.findSome? LayoutItem.location? = some n ↔
      ∃ digits, .setting locationKey n.toNat digits ∈ items := by
  constructor
  · intro found
    obtain ⟨item, member, located⟩ := List.exists_of_findSome?_eq_some found
    obtain ⟨digits, rfl⟩ := (itemLocated item n).mp located
    exact ⟨digits, member⟩
  · rintro ⟨digits, member⟩
    induction items with
    | nil => cases member
    | cons item rest ih =>
      rcases List.mem_cons.mp member with rfl | inside
      · rw [List.findSome?_cons, (itemLocated _ n).mpr ⟨digits, rfl⟩]
      -- The item in front has another name, so it sets no location.
      have positive : 0 < rest.countP fun item => item.key = locationKey :=
        List.countP_pos_iff.mpr ⟨_, inside, decide_eq_true rfl⟩
      rw [List.countP_cons] at once
      have other : item.key ≠ locationKey := by
        intro same
        rw [if_pos (decide_eq_true same)] at once
        omega
      have none : item.location? = none := by
        cases item with
        | flag key => rfl
        | setting key value digits => exact if_neg fun both => other both.1
      rw [List.findSome?_cons, none, ih (by omega) inside]

section Clauses
variable {d : WrittenDeclaration} {t : Text}

def clauseMarks : List Char := ['(', ')', ',', '=']

theorem declaratorTokens (whole : d.WellFormed) : ∀ w ∈ d.declarator, Token [] w := by
  have keywords : isIdentifier d.qualifier.keyword = true := by cases d.qualifier <;> rfl
  rw [WrittenDeclaration.declarator, List.forall_mem_append]
  refine ⟨fun w member => identifierToken (whole.words w member).1, ?_⟩
  simp only [List.forall_mem_cons]
  exact ⟨identifierToken keywords, identifierToken whole.typed, identifierToken whole.named,
    List.forall_mem_nil _⟩

theorem clauseTokens (whole : d.WellFormed) : ∀ w ∈ d.tokens, Token clauseMarks w := by
  have declarator : ∀ w ∈ d.declarator, Token clauseMarks w := fun w member =>
    tokenAmong (List.nil_subset _) (declaratorTokens whole w member)
  unfold WrittenDeclaration.tokens
  split
  · exact declarator
  · rename_i items layout
    have listed : ∀ item ∈ items, item.WellFormed := by
      have all := whole.items
      rwa [WrittenDeclaration.items, layout] at all
    rw [List.forall_mem_cons, List.forall_mem_cons, List.forall_mem_append, List.forall_mem_cons]
    refine ⟨identifierToken (by decide), .mark (by decide) rfl, fun w member => ?_,
      .mark (by decide) rfl, declarator⟩
    exact tokenAmong (by decide) (listTokensEach listed w member)

theorem clauseBare (bare : d.layout = none) (spaced : Spaced d.tokens t) :
    Spaced d.declarator t := by
  rwa [WrittenDeclaration.tokens, bare] at spaced

theorem clauseParts {items : List LayoutItem} (listed : d.layout = some items)
    (spaced : Spaced d.tokens t) : ∃ front list back, t = front ++ '(' :: (list ++ ')' :: back) ∧
      Spaced ["layout".toList] front ∧ Spaced (LayoutItem.listTokens items) list ∧
      Spaced d.declarator back := by
  rw [WrittenDeclaration.tokens, listed] at spaced
  have parts : Spaced (["layout".toList] ++
    ['('] :: (LayoutItem.listTokens items ++ [')'] :: d.declarator)) t := spaced
  obtain ⟨front, rest, rfl, opening, inside⟩ := spacedSplit parts
  obtain ⟨list, back, rfl, items, behind⟩ := spacedSplit inside
  exact ⟨front, list, back, rfl, opening, items, behind⟩

theorem clauseLocation (whole : d.WellFormed) (spaced : Spaced d.tokens t) :
    explicitLocation? t = d.items.findSome? LayoutItem.location? := by
  cases layout : d.layout with
  | none =>
    have unopened : '(' ∉ t := spacedWithout (declaratorTokens whole) rfl rfl List.not_mem_nil
      (clauseBare layout spaced)
    rw [explicitLocation?, splitFirstNone unopened, WrittenDeclaration.items, layout]
    rfl
  | some items =>
    obtain ⟨front, list, back, rfl, opening, inside, -⟩ := clauseParts layout spaced
    have listed : ∀ item ∈ items, item.WellFormed := by
      have all := whole.items
      rwa [WrittenDeclaration.items, layout] at all
    have word : ∀ w ∈ ["layout".toList], Token [] w :=
      List.forall_mem_singleton.mpr (identifierToken (by decide))
    have unopened : '(' ∉ front := spacedWithout word rfl rfl List.not_mem_nil opening
    have unclosed : ')' ∉ list := spacedWithout (listTokensEach listed) rfl rfl (by decide) inside
    rw [explicitLocation?, splitFirstAt unopened, Option.bind_some, splitFirstAt unclosed,
      Option.bind_some, listLocation listed inside, WrittenDeclaration.items, layout]
    rfl

theorem clauseDeclarator (whole : d.WellFormed) (spaced : Spaced d.tokens t) :
    words (afterLast ')' t) = d.declarator := by
  have token := declaratorTokens whole
  cases layout : d.layout with
  | none =>
    have bare := clauseBare layout spaced
    rw [afterLastNone (spacedWithout token rfl rfl List.not_mem_nil bare), spacedWords token bare]
  | some items =>
    obtain ⟨front, list, back, rfl, -, -, behind⟩ := clauseParts layout spaced
    have unclosed : ')' ∉ back := spacedWithout token rfl rfl List.not_mem_nil behind
    rw [← List.cons_append, ← List.append_assoc, afterLastAt unclosed, spacedWords token behind]

theorem qualifiedAt {ws : List Text} (free : ∀ w ∈ ws, w ≠ inKeyword ∧ w ≠ outKeyword)
    (qualifier : Qualifier) (rest : List Text) :
    qualified? (ws ++ qualifier.keyword :: rest) = some (qualifier, rest) := by
  induction ws with
  | nil => cases qualifier <;> rfl
  | cons w more ih =>
    obtain ⟨⟨input, output⟩, others⟩ := List.forall_mem_cons.mp free
    have none : Qualifier.ofToken? w = none := (if_neg input).trans (if_neg output)
    rw [List.cons_append, qualified?, none, ih others]

theorem clauseDeclares (whole : d.WellFormed) (spaced : Spaced d.tokens t) :
    declarationOf? t = some d.declared := by
  have free : ∀ w ∈ d.words, w ≠ inKeyword ∧ w ≠ outKeyword := fun w member =>
    (whole.words w member).2
  have qualified := qualifiedAt free d.qualifier [d.type, d.name]
  have head : clauseHead? t = some (d.qualifier, d.type, d.name) := by
    rw [clauseHead?, clauseDeclarator whole spaced, WrittenDeclaration.declarator, qualified]
  rw [declarationOf?, head, Option.bind_some, clauseLocation whole spaced]
  simp only [whole.typed, whole.named, Bool.and_self, if_true]
  rfl

end Clauses

end ShaderReflection.Glsl
