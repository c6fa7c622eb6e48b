import ShaderReflection.Dump.Basic
import ShaderReflection.Proofs.Text.Numeral
import ShaderReflection.Proofs.Text.Trimming
/-!
Entries of a reflection dump as they are printed, a name and its fields. Fields may stand in any
order and among others that are not known; a code and a size may be spelled in any way.
-/
namespace ShaderReflection.Dump
open Text

inductive PrintedField where
  | type (code : UInt32) (digits : Text)
  | size (value : UInt32) (digits : Text)
  | other (text : Text)

namespace PrintedField

def text : PrintedField → Text
  | type _ digits => "type".toList ++ ' ' :: digits
  | size _ digits => "size".toList ++ ' ' :: digits
  | other text => text

def WellFormed : PrintedField → Prop
  | type code digits => Numeral 16 code.toNat digits
  | size value digits => Numeral 10 value.toNat digits
  | other text => ',' ∉ text ∧ '\n' ∉ text ∧
      ∀ w ∈ (words text).head?, w ≠ "type".toList ∧ w ≠ "size".toList

def code? : PrintedField → Option UInt32
  | type code _ => some code
  | _ => none

def value? : PrintedField → Option UInt32
  | size value _ => some value
  | _ => none

end PrintedField

structure PrintedEntry where
  name : Text
  code : UInt32
  size : Option UInt32
  fields : List PrintedField

def Section.title : Section → Text
  | uniform => "Uniform reflection".toList
  | uniformBlock => "Uniform block reflection".toList
  | bufferVariable => "Buffer variable reflection".toList
  | bufferBlock => "Buffer block reflection".toList
  | pipelineInput => "Pipeline input reflection".toList
  | pipelineOutput => "Pipeline output reflection".toList

namespace PrintedEntry

def line (e : PrintedEntry) : Text :=
  e.name ++ ':' :: ' ' :: joinWith [',', ' '] (e.fields.map PrintedField.text)

structure WellFormed (e : PrintedEntry) : Prop where
  nonempty : e.name ≠ []
  trimmed : trim e.name = e.name
  uncut : ':' ∉ e.name
  oneLine : '\n' ∉ e.name
  untitled : ∀ s : Section, ¬s.title <+: e.name
  fields : ∀ f ∈ e.fields, f.WellFormed
  typed : e.fields.filterMap PrintedField.code? = [e.code]
  sized : e.fields.filterMap PrintedField.value? = e.size.toList

def typeName (e : PrintedEntry) : TypeName := typeOfCode (hexadecimal e.code.toNat)

def toUniform (e : PrintedEntry) : Uniform := ⟨e.typeName, e.name, e.size.getD 0, none, false⟩

def toAttribute (e : PrintedEntry) : Attribute := ⟨e.typeName, e.name, none⟩

end PrintedEntry

theorem hexUnmarked {n : Nat} {digits : Text} (read : readDigits 16 0 digits = some n) :
    dropHexMarks digits = digits := by
  rw [dropHexMarks]
  rintro rest rfl
  have none : readDigits 16 0 ('0' :: 'x' :: rest) = none := rfl
  rw [none] at read
  cases read

theorem wordFits (n : UInt32) : n.toNat < wordLimit := n.toNat_lt

theorem codeRead {code : UInt32} {digits : Text} (numeral : Numeral 16 code.toNat digits) :
    codeValue? digits = some code := by
  have solid := numeralSolid (by decide) (by decide) numeral
  have unmarked := hexUnmarked (numeralDigits (by decide) (by decide) numeral)
  rw [codeValue?, trimSolid solid, unmarked, numeralWord (by decide) (by decide) numeral,
    if_pos (wordFits code), UInt32.ofNat_toNat]

theorem typeRead {code : UInt32} {digits : Text} (numeral : Numeral 16 code.toNat digits) :
    typeOfCode digits = typeOfCode (hexadecimal code.toNat) := by
  have written := codeRead (writtenNumeral (by decide) (by decide) code.toNat)
  rw [typeOfCode, typeOfCode, codeRead numeral, hexadecimal, written]

theorem fieldLacks {f : PrintedField} (whole : f.WellFormed) : ',' ∉ f.text ∧ '\n' ∉ f.text := by
  have labelled {label digits : Text} {mark : Char} (front : mark ∉ label) (space : mark ≠ ' ')
      (back : mark ∉ digits) : mark ∉ label ++ ' ' :: digits := by
    rw [List.mem_append, List.mem_cons, not_or, not_or]
    exact ⟨front, space, back⟩
  cases f with
  | type code digits =>
    have lacks {mark : Char} (other : ¬Alphanumeric mark) : mark ∉ digits :=
      numeralLacks (by decide) (by decide) whole other
    exact ⟨labelled (by decide) (by decide) (lacks (by decide)),
      labelled (by decide) (by decide) (lacks (by decide))⟩
  | size value digits =>
    have lacks {mark : Char} (other : ¬Alphanumeric mark) : mark ∉ digits :=
      numeralLacks (by decide) (by decide) whole other
    exact ⟨labelled (by decide) (by decide) (lacks (by decide)),
      labelled (by decide) (by decide) (lacks (by decide))⟩
  | other text => exact ⟨whole.1, whole.2.1⟩

def PrintedField.read : PrintedField → Field
  | type _ digits => .type digits
  | size _ digits => .size digits
  | other _ => .other

theorem fieldRead {f : PrintedField} (whole : f.WellFormed) : Field.ofText f.text = f.read := by
  cases f with
  | type code digits =>
    have label : Solid "type".toList := ⟨by decide, eachChar (by decide)⟩
    have pair := wordsPair label (numeralSolid (by decide) (by decide) whole)
    rw [PrintedField.text, Field.ofText, pair]
    rfl
  | size value digits =>
    have label : Solid "size".toList := ⟨by decide, eachChar (by decide)⟩
    have pair := wordsPair label (numeralSolid (by decide) (by decide) whole)
    rw [PrintedField.text, Field.ofText, pair]
    rfl
  | other text =>
    obtain ⟨-, -, unknown⟩ := whole
    unfold PrintedField.text Field.ofText
    cases shape : words text with
    | nil => rfl
    | cons key rest =>
      obtain ⟨type, size⟩ := unknown key (by rw [shape]; rfl)
      cases rest with
      | nil => rfl
      | cons value more =>
        change (if key = "type".toList then Field.type value
          else if key = "size".toList then .size value else .other) = _
        rw [if_neg type, if_neg size]
        rfl

theorem fieldInFront {gap : Text} (blank : Blank gap) (text : Text) :
    Field.ofText (gap ++ text) = Field.ofText text := by
  rw [Field.ofText, Field.ofText, wordsInFront blank]

theorem fieldBehind {gap : Text} (blank : Blank gap) (text : Text) :
    Field.ofText (text ++ gap) = Field.ofText text := by
  rw [Field.ofText, Field.ofText, wordsBehind blank]

theorem fieldsSplit {texts : List Text} (some' : texts ≠ []) (lacks : ∀ t ∈ texts, ',' ∉ t) :
    (splitOn ',' (' ' :: joinWith [',', ' '] texts)).map Field.ofText = texts.map Field.ofText := by
  have spaced (t : Text) : Field.ofText (' ' :: t) = Field.ofText t :=
    fieldInFront (List.forall_mem_singleton.mpr rfl) t
  have lacksSpaced {t : Text} (lacks : ',' ∉ t) : ',' ∉ ' ' :: t := by
    rw [List.mem_cons, not_or]
    exact ⟨by decide, lacks⟩
  induction texts with
  | nil => exact absurd rfl some'
  | cons t rest ih =>
    obtain ⟨here, others⟩ := List.forall_mem_cons.mp lacks
    cases rest with
    | nil =>
      rw [joinWith, splitOnNone (lacksSpaced here), List.map_singleton, List.map_singleton, spaced]
    | cons next more =>
      have cut := splitOnAt (lacksSpaced here) (' ' :: joinWith [',', ' '] (next :: more))
      rw [joinCons, List.cons_append, List.cons_append, List.nil_append, ← List.cons_append, cut,
        List.map_cons, ih (List.cons_ne_nil next more) others, spaced]
      rfl

theorem fieldsRead {fields : List PrintedField} (whole : ∀ f ∈ fields, f.WellFormed) :
    (fields.map PrintedField.text).map Field.ofText = fields.map PrintedField.read := by
  rw [List.map_map]
  exact List.map_congr_left fun f member => fieldRead (whole f member)

theorem fieldsSet {fields : List PrintedField} (whole : ∀ f ∈ fields, f.WellFormed) (e : Entry) :
    (fields.map PrintedField.read).foldl Entry.set e = ⟨e.name,
      (fields.filterMap PrintedField.code?).foldl
        (fun _ code => typeOfCode (hexadecimal code.toNat)) e.typeName,
      (fields.filterMap PrintedField.value?).foldl (fun _ value => some value) e.size⟩ := by
  induction fields generalizing e with
  | nil => rfl
  | cons f rest ih =>
    obtain ⟨here, others⟩ := List.forall_mem_cons.mp whole
    rw [List.map_cons, List.foldl_cons, ih others]
    cases f with
    | type code digits =>
      have numeral : Numeral 16 code.toNat digits := here
      rw [PrintedField.read, Entry.set, typeRead numeral]
      rfl
    | size value digits =>
      have read : word32? 10 digits = some value := by
        rw [numeralWord (by decide) (by decide) here, if_pos (wordFits value), UInt32.ofNat_toNat]
      rw [PrintedField.read, Entry.set, read]
      rfl
    | other text => rfl

theorem entryRead {e : PrintedEntry} (whole : e.WellFormed) :
    Entry.ofLine? e.line = some ⟨e.name, e.typeName, e.size⟩ := by
  have some' : e.fields.map PrintedField.text ≠ [] := by
    intro empty
    have typed := whole.typed
    rw [List.map_eq_nil_iff.mp empty] at typed
    cases typed
  have lacks : ∀ t ∈ e.fields.map PrintedField.text, ',' ∉ t := by
    intro t member
    obtain ⟨f, inside, rfl⟩ := List.mem_map.mp member
    exact (fieldLacks (whole.fields f inside)).1
  have parts : entryParts? e.line = some (e.name, e.fields.map PrintedField.read) := by
    rw [entryParts?, PrintedEntry.line, splitFirstAt whole.uncut, Option.bind_some]
    simp only [whole.trimmed]
    rw [if_neg (by simp [whole.nonempty]), fieldsSplit some' lacks, fieldsRead whole.fields]
  rw [Entry.ofLine?, parts, Option.map_some, fieldsSet whole.fields, whole.typed, whole.sized]
  cases e.size <;> rfl

theorem headerTitle {title : Text} {s : Section} :
    (title, s) ∈ Section.headers ↔ title = s.title := by
  constructor
  · have all : ∀ h ∈ Section.headers, h.1 = h.2.title := by decide
    exact all (title, s)
  · rintro rfl
    cases s <;> decide

theorem titleAbsent {text : Text} (absent : ∀ h ∈ Section.headers, ¬h.1 <+: text) (s : Section) :
    ¬s.title <+: text := absent (s.title, s) (headerTitle.mpr rfl)

theorem titleUncut (s : Section) : ':' ∉ s.title := by cases s <;> decide

theorem entryUntitled {e : PrintedEntry} (whole : e.WellFormed) (s : Section) :
    ¬s.title <+: trim e.line := by
  intro begins
  have colon : e.name ++ [':'] <+: trim e.line := by
    rw [PrintedEntry.line, trimmedAt whole.nonempty whole.trimmed rfl]
    exact ⟨trimEnd isBlank (' ' :: joinWith [',', ' '] (e.fields.map PrintedField.text)), by simp⟩
  -- A title has no colon, so it would have to lie within the name.
  rcases List.prefix_or_prefix_of_prefix begins colon with within | beyond
  · rcases List.prefix_concat_iff.mp within with same | inside
    · exact titleUncut s (same ▸ List.mem_append_right _ List.mem_cons_self)
    · exact whole.untitled s inside
  · exact titleUncut s (beyond.subset (List.mem_append_right _ List.mem_cons_self))

theorem entryWhole {e : PrintedEntry} (whole : e.WellFormed) : '\n' ∉ e.line := by
  have fields : '\n' ∉ joinWith [',', ' '] (e.fields.map PrintedField.text) := by
    refine joinedLacks (by decide) fun t member => ?_
    obtain ⟨f, inside, rfl⟩ := List.mem_map.mp member
    exact (fieldLacks (whole.fields f inside)).2
  simp only [PrintedEntry.line, List.mem_append, List.mem_cons, not_or]
  exact ⟨whole.oneLine, by decide, by decide, fields⟩

end ShaderReflection.Dump
