import ShaderReflection.Proofs.Json.Written
/-!
A place in a text that holds a value: what the text says around that value, and the texts in front
of it and behind it. Any other value can stand in the same place.
-/
namespace ShaderReflection.Json

inductive FieldHole (name : String) (index : Nat) : (Tree → Tree) → Prop where
  | member (front back : List (Option Text × Tree)) :
    FieldHole name index fun t => .object (front ++ (some name.toList, t) :: back)
  | item (front back : List Tree) (place : front.length = index) :
    FieldHole name index fun t => .array (front ++ t :: back)

inductive ItemHole (index : Nat) : (Tree → Tree) → Prop where
  | item (front back : List Tree) (place : front.length = index) :
    ItemHole index fun t => .array (front ++ t :: back)

def Framed (before behind : Text) (around : Tree → Tree) : Prop :=
  ∀ value tree, Says value tree → Says (before ++ (value ++ behind)) (around tree)

def FramedItem (before behind : Text) (front back : List Tree) : Prop :=
  ∀ value tree, Says value tree → SaysItems (before ++ (value ++ behind)) (front ++ tree :: back)

def FramedMember (name : Option Text) (before behind : Text)
    (front back : List (Option Text × Tree)) : Prop :=
  ∀ value tree, Says value tree →
    SaysMembers (before ++ (value ++ behind)) (front ++ (name, tree) :: back)

def Placed (around : Tree → Tree) : Prop :=
  ∀ text tree, Says text (around tree) → ∃ before value behind,
    text = before ++ (value ++ behind) ∧ Says value tree ∧ Framed before behind around

def Surrounds (before behind : Text) (around : Tree → Tree) : Prop :=
  ∃ front inner outer back, Blank front ∧ Blank back ∧ Framed inner outer around ∧
    before = front ++ inner ∧ behind = outer ++ back

theorem surroundsSaid {before behind value : Text} {around : Tree → Tree} {tree : Tree}
    (surrounds : Surrounds before behind around) (said : Says value tree) :
    ∃ front text back, Blank front ∧ Blank back ∧ Says text (around tree) ∧
      before ++ (value ++ behind) = front ++ (text ++ back) := by
  obtain ⟨front, inner, outer, back, blank, blank', frame, rfl, rfl⟩ := surrounds
  exact ⟨front, _, back, blank, blank', frame value tree said, by simp⟩

section Frames
variable {before behind inner outer blanks : Text} {around within : Tree → Tree}

theorem framedInside (frame : Framed before behind around) (inside : Framed inner outer within) :
    Framed (before ++ inner) (outer ++ behind) (fun t => around (within t)) := by
  intro value tree said
  have whole := frame _ _ (inside value tree said)
  simpa only [List.append_assoc] using whole

theorem framedList (blank : Blank blanks) {front back : List Tree}
    (frame : FramedItem before behind front back) :
    Framed ('[' :: (blanks ++ before)) (behind ++ [']'])
      (fun t => .array (front ++ t :: back)) := by
  intro value tree said
  have list := Says.list blank (frame value tree said)
  simpa only [List.append_assoc, List.cons_append] using list

theorem framedObject (blank : Blank blanks) {name : Option Text}
    {front back : List (Option Text × Tree)} (frame : FramedMember name before behind front back) :
    Framed ('{' :: (blanks ++ before)) (behind ++ ['}'])
      (fun t => .object (front ++ (name, t) :: back)) := by
  intro value tree said
  have object := Says.object blank (frame value tree said)
  simpa only [List.append_assoc, List.cons_append] using object

end Frames

section Places
variable {before behind : Text}

theorem itemNext {text gap space : Text} {front back : List Tree} {tree : Tree}
    (item : Says text tree) (blank : Blank gap) (blank' : Blank space)
    (frame : FramedItem before behind front back) :
    FramedItem (text ++ (gap ++ ',' :: (space ++ before))) behind (tree :: front) back := by
  intro value other said
  have more := SaysItems.more item blank blank' (frame value other said)
  simpa only [List.append_assoc, List.cons_append] using more

theorem itemPlaced {body : Text} {items front back : List Tree} {tree : Tree}
    (said : SaysItems body items) (split : items = front ++ tree :: back) :
    ∃ before value behind, body = before ++ (value ++ behind) ∧ Says value tree ∧
      FramedItem before behind front back := by
  induction front generalizing body items with
  | nil =>
    cases said with
    | last item blank =>
      obtain ⟨rfl, rfl⟩ := List.cons.inj split
      refine ⟨[], _, _, rfl, item, fun value other said => ?_⟩
      rw [List.nil_append]
      exact .last said blank
    | more item blank blank' others =>
      obtain ⟨rfl, rfl⟩ := List.cons.inj split
      refine ⟨[], _, _, rfl, item, fun value other said => ?_⟩
      rw [List.nil_append]
      exact .more said blank blank' others
  | cons first front ih =>
    cases said with
    | last => cases front <;> cases split
    | more item blank blank' others =>
      obtain ⟨rfl, rest⟩ := List.cons.inj split
      obtain ⟨before, value, behind, rfl, inner, frame⟩ := ih others rest
      exact ⟨_, value, behind, by simp, inner, itemNext item blank blank' frame⟩

theorem memberNext {key colon colon' text gap space : Text} {name other : Option Text}
    {front back : List (Option Text × Tree)} {tree : Tree} (inside : Spelling key other)
    (gap' : Blank colon) (gap'' : Blank colon') (item : Says text tree) (blank : Blank gap)
    (blank' : Blank space) (frame : FramedMember name before behind front back) :
    FramedMember name (keyText key colon colon' ++ (text ++ (gap ++ ',' :: (space ++ before))))
      behind ((other, tree) :: front) back := by
  intro value tree' said
  have more := SaysMembers.more inside gap' gap'' item blank blank' (frame value tree' said)
  simpa only [List.append_assoc, List.cons_append] using more

theorem memberPlaced {body : Text} {members front back : List (Option Text × Tree)}
    {name : Option Text} {tree : Tree} (said : SaysMembers body members)
    (split : members = front ++ (name, tree) :: back) :
    ∃ before value behind, body = before ++ (value ++ behind) ∧ Says value tree ∧
      FramedMember name before behind front back := by
  induction front generalizing body members with
  | nil =>
    cases said with
    | last inside gap gap' item blank =>
      obtain ⟨same, rfl⟩ := List.cons.inj split
      obtain ⟨rfl, rfl⟩ := Prod.mk.inj same
      exact ⟨_, _, _, rfl, item, fun _ _ other => .last inside gap gap' other blank⟩
    | more inside gap gap' item blank blank' others =>
      obtain ⟨same, rfl⟩ := List.cons.inj split
      obtain ⟨rfl, rfl⟩ := Prod.mk.inj same
      exact ⟨_, _, _, rfl, item, fun _ _ other => .more inside gap gap' other blank blank' others⟩
  | cons first front ih =>
    cases said with
    | last => cases front <;> cases split
    | more inside gap gap' item blank blank' others =>
      obtain ⟨rfl, rest⟩ := List.cons.inj split
      obtain ⟨before, value, behind, rfl, inner, frame⟩ := ih others rest
      exact ⟨_, value, behind, by simp, inner, memberNext inside gap gap' item blank blank' frame⟩

theorem itemAlone : FramedItem [] [] [] [] := by
  intro value tree said
  simpa using SaysItems.last said blankNil

def openMembers (key : Text) : List (Text × Value) → Text
  | [] => quote key ++ [':']
  | (other, v) :: rest => quote other ++ ':' :: (v.write .compact 0 ++ ',' :: openMembers key rest)

theorem membersFramed (key : Text) : (members : List (Text × Value)) → membersInRange members →
    FramedMember (some key) (openMembers key members) [] (memberTrees members) []
  | [], _ => by
    intro value tree said
    have last := SaysMembers.last (textSpelled key) blankNil blankNil said blankNil
    simpa [openMembers, memberTrees, quote, keyText] using last
  | (other, v) :: rest, range => by
    have said := saysWritten compactBlank 0 v range.1
    have next := memberNext (textSpelled other) blankNil blankNil said blankNil blankNil
      (membersFramed key rest range.2)
    simpa [openMembers, memberTrees, quote, keyText] using next

end Places

section Placed
variable {index : Nat} {around within : Tree → Tree}

theorem listPlaced (front back : List Tree) : Placed fun t => .array (front ++ t :: back) := by
  intro text tree (said : Says text (.array (front ++ tree :: back)))
  generalize split : front ++ tree :: back = items at said
  cases said with
  | emptyList => simp at split
  | list blank said =>
    obtain ⟨before, value, behind, rfl, inner, frame⟩ := itemPlaced said split.symm
    exact ⟨_, value, _, by simp, inner, framedList blank frame⟩

theorem objectPlaced (name : Option Text) (front back : List (Option Text × Tree)) :
    Placed fun t => .object (front ++ (name, t) :: back) := by
  intro text tree (said : Says text (.object (front ++ (name, tree) :: back)))
  generalize split : front ++ (name, tree) :: back = members at said
  cases said with
  | emptyObject => simp at split
  | object blank said =>
    obtain ⟨before, value, behind, rfl, inner, frame⟩ := memberPlaced said split.symm
    exact ⟨_, value, _, by simp, inner, framedObject blank frame⟩

theorem fieldPlaced {name : String} (hole : FieldHole name index around) : Placed around := by
  cases hole with
  | member front back => exact objectPlaced _ front back
  | item front back => exact listPlaced front back

theorem entryPlaced (hole : ItemHole index around) : Placed around := by
  cases hole with
  | item front back => exact listPlaced front back

theorem insidePlaced (outer : Placed around) (inner : Placed within) :
    Placed fun t => around (within t) := by
  intro text tree said
  obtain ⟨before, part, behind, rfl, inside, frame⟩ := outer text _ said
  obtain ⟨front, value, back, rfl, said', frame'⟩ := inner part tree inside
  exact ⟨before ++ front, value, back ++ behind, by simp, said', framedInside frame frame'⟩

end Placed

end ShaderReflection.Json
