import ShaderReflection.Json.Value
import ShaderReflection.Proofs.Json.Grammar
/-!
What is written is read: the text of every value that is written, in every layout whose gaps are
blanks, is of the grammar and says the tree of that value.
-/
namespace ShaderReflection.Json

theorem controlUnit {n : Nat} (control : n < 32) :
    CodeUnit ['0', '0', Nat.digitChar (n / 16), Nat.digitChar (n % 16)] n := by
  have all : ∀ n < 32,
      Text.natural? 16 ['0', '0', Nat.digitChar (n / 16), Nat.digitChar (n % 16)] = some n := by decide
  exact readUnit (all n control)

theorem charSpelled (c : Char) {body : Text} {text : Option Text} (rest : Spelling body text) :
    Spelling (escapeChar c ++ body) (text.map (c :: ·)) := by
  have named {e d : Char} (same : c = d) (escape : (e, d) ∈ shortEscapes) :
      Spelling (['\\', e] ++ body) (text.map (c :: ·)) := same ▸ .short escape rest
  have code {n : Nat} (same : c.toNat = n) : c = Char.ofNat n := by rw [← same, Char.ofNat_toNat]
  -- Quote and backslash, the five short escapes, other control characters, and what stands for itself.
  unfold escapeChar
  split
  · exact named ‹_› (by decide)
  split
  · exact named ‹_› (by decide)
  split
  · exact named (code ‹_›) (by decide)
  split
  · exact named (code ‹_›) (by decide)
  split
  · exact named ‹_› (by decide)
  split
  · exact named ‹_› (by decide)
  split
  · exact named ‹_› (by decide)
  split
  · exact .unit (controlUnit ‹_›) rest
  · exact .plain ‹_› ‹_› (by omega) rest

theorem textSpelled (t : Text) : Spelling (t.flatMap escapeChar) (some t) := by
  induction t with
  | nil => exact .nil
  | cons c rest ih => exact charSpelled c ih

theorem saysQuoted (t : Text) : Says (quote t) (.string (some t)) := .string (textSpelled t)

mutual

def Value.tree : Value → Tree
  | .boolean b => .boolean b
  | .integer i => .number (some (.integer i))
  | .string t => .string (some t)
  | .array items => .array (itemTrees items)
  | .object members => .object (memberTrees members)

def itemTrees : List Value → List Tree
  | [] => []
  | item :: rest => item.tree :: itemTrees rest

def memberTrees : List (Text × Value) → List (Option Text × Tree)
  | [] => []
  | (key, value) :: rest => (some key, value.tree) :: memberTrees rest

end

mutual

def Value.InRange : Value → Prop
  | .boolean _ | .string _ => True
  | .integer i => Word64 i
  | .array items => itemsInRange items
  | .object members => membersInRange members

def itemsInRange : List Value → Prop
  | [] => True
  | item :: rest => item.InRange ∧ itemsInRange rest

def membersInRange : List (Text × Value) → Prop
  | [] => True
  | (_, value) :: rest => value.InRange ∧ membersInRange rest

end

structure Layout.Blank (l : Layout) : Prop where
  newline : ∀ depth, Json.Blank (l.newline depth)
  colon : ∃ before behind, l.colon = before ++ ':' :: behind ∧ Json.Blank before ∧ Json.Blank behind

theorem compactBlank : Layout.compact.Blank where
  newline := fun _ => blankNil
  colon := ⟨[], [], rfl, blankNil, blankNil⟩

theorem prettyBlank : Layout.pretty.Blank where
  newline := fun depth c member => by
    rcases List.mem_cons.mp member with rfl | space
    · decide
    · obtain rfl := List.eq_of_mem_replicate space
      decide
  colon := ⟨[], [' '], rfl, blankNil, fun c member => by
    obtain rfl := List.mem_singleton.mp member
    decide⟩

mutual

theorem saysWritten {l : Layout} (blank : l.Blank) (depth : Nat) :
    (v : Value) → v.InRange → Says (v.write l depth) v.tree
  | .boolean true, _ => .trueWord
  | .boolean false, _ => .falseWord
  | .integer _, range => .integer range
  | .string t, _ => saysQuoted t
  | .array [], _ => .emptyList blankNil
  | .array (item :: rest), range => by
    have first := saysWritten blank (depth + 1) item range.1
    have inside := saysRest blank (depth + 1) rest range.2 first (blank.newline depth)
    have list := Says.list (blank.newline (depth + 1)) inside
    simpa [Value.write, Value.tree, itemTrees, List.append_assoc] using list
  | .object [], _ => .emptyObject blankNil
  | .object ((key, value) :: rest), range => by
    have first := saysWritten blank (depth + 1) value range.1
    have inside := saysOthers blank (depth + 1) rest range.2 key first (blank.newline depth)
    have object := Says.object (blank.newline (depth + 1)) inside
    simpa [Value.write, Value.tree, memberTrees, List.append_assoc] using object

theorem saysRest {l : Layout} (blank : l.Blank) (depth : Nat) :
    (rest : List Value) → itemsInRange rest → {text after : Text} → {tree : Tree} →
      Says text tree → Blank after →
      SaysItems (text ++ (writeItems l depth rest ++ after)) (tree :: itemTrees rest)
  | [], _, _, _, _, item, space => .last item space
  | next :: rest, range, _, _, _, item, space => by
    have first := saysWritten blank depth next range.1
    have more := SaysItems.more item blankNil (blank.newline depth)
      (saysRest blank depth rest range.2 first space)
    simpa [writeItems, itemTrees, List.append_assoc] using more

theorem saysOthers {l : Layout} (blank : l.Blank) (depth : Nat) :
    (rest : List (Text × Value)) → membersInRange rest → (key : Text) → {text after : Text} →
      {tree : Tree} → Says text tree → Blank after →
      SaysMembers (quote key ++ (l.colon ++ (text ++ (writeMembers l depth rest ++ after))))
        ((some key, tree) :: memberTrees rest)
  | [], _, key, _, _, _, value, space => by
    obtain ⟨before, behind, colon, front, back⟩ := blank.colon
    have last := SaysMembers.last (textSpelled key) front back value space
    simpa [quote, keyText, colon, writeMembers, memberTrees, List.append_assoc] using last
  | (other, next) :: rest, range, key, _, _, _, value, space => by
    obtain ⟨before, behind, colon, front, back⟩ := blank.colon
    have first := saysWritten blank depth next range.1
    have more := SaysMembers.more (textSpelled key) front back value blankNil (blank.newline depth)
      (saysOthers blank depth rest range.2 other first space)
    simpa [quote, keyText, colon, writeMembers, memberTrees, List.append_assoc] using more

end

theorem readsWritten {l : Layout} (blank : l.Blank) (depth : Nat) (v : Value) (range : v.InRange) :
    Reads (v.write l depth) v.tree := saysReads (saysWritten blank depth v range)

end ShaderReflection.Json
