import ShaderReflection.Proofs.Json.Fields
import ShaderReflection.Proofs.Json.Frame
/-!
Decoders that pass a part of a value on to another decoder. What the part is read as can be changed
there and nowhere else, and a part that is refused makes the whole be refused.
-/
namespace ShaderReflection.Json
open Decoder (Takes Sound)

section Decoders
variable {α β : Type}

structure Decoder.Accepts (d : Decoder α) (tree : Tree) (a : α) : Prop where
  there : ∃ node : Node, node.tree? = some tree
  taken : d.Takes tree a

theorem Decoder.Sound.accepts {d : Decoder α} (sound : d.Sound) {node : Node} {tree : Tree}
    (means : node.tree? = some tree) (accepted : d.fault? node = none) :
    d.Accepts tree (d.read node) := by
  obtain ⟨tree', same, taken⟩ := sound node accepted
  obtain rfl : tree' = tree := Option.some.inj (same.symm.trans means)
  exact ⟨⟨node, means⟩, taken⟩

theorem Decoder.Sound.refuses {d : Decoder α} (sound : d.Sound) {node : Node} {tree : Tree}
    (means : node.tree? = some tree) (refused : d.fault? node ≠ none) : d.Refuses tree :=
  fun _ means' accepted => refused ((sound.accepts means' accepted).taken node means).1

theorem Decoder.Accepts.unique {d : Decoder α} {tree : Tree} {a b : α}
    (first : d.Accepts tree a) (second : d.Accepts tree b) : a = b := by
  obtain ⟨⟨node, means⟩, taken⟩ := first
  rw [← (taken node means).2, (second.taken node means).2]

structure Focus (d : Decoder α) (around : Tree → Tree) (e : Decoder β) (get : α → Option β)
    (alter : (β → β) → α → α) : Prop where
  inner : ∀ {tree a}, d.Accepts (around tree) a → ∃ b, get a = some b ∧ e.Accepts tree b
  changed : ∀ {first tree a b g}, d.Accepts (around first) a → e.Accepts first b →
    e.Takes tree (g b) → d.Takes (around tree) (alter g a)
  refused : ∀ {tree}, e.Refuses tree → d.Refuses (around tree)

end Decoders

section Texts
variable {α : Type} {d : Decoder α} {front text back : Text} {tree : Tree} (said : Says text tree)
  (before : Blank front) (behind : Blank back)
include said before behind

theorem decodedNode {a : α} (decoded : decode d (front ++ (text ++ back)) = .ok a) :
    ∃ node : Node, node.tree? = some tree ∧ d.fault? node = none ∧ d.read node = a := by
  obtain ⟨node, next, parsed, means, done⟩ := parseReads (saysReads said) before behind
  simp only [decode, parsed] at decoded
  split at decoded
  · cases decoded
  · rename_i accepted
    rw [done, List.isEmpty_nil, if_pos rfl, Except.ok.injEq] at decoded
    exact ⟨node, means, accepted, decoded⟩

theorem decodeRefused (refuses : d.Refuses tree) :
    ∃ fault, decode d (front ++ (text ++ back)) = .error fault := by
  obtain ⟨node, next, parsed, means, done⟩ := parseReads (saysReads said) before behind
  cases fault : d.fault? node with
  | none => exact absurd fault (refuses node means)
  | some f => exact ⟨f, by simp [decode, parsed, fault]⟩

end Texts

def Tree.values (tree : Tree) (index : Nat) (name : String) : List Tree :=
  match tree with
  | .object members => valuesOf name members
  | .array items => items[index]?.toList
  | _ => []

def Tree.IsRecord (fields : List Field) : Tree → Prop
  | .object members => ∀ m ∈ members, m.1.isSome = true
  | .array items => items.length ≤ fields.length
  | _ => False

theorem valuesHead (tree : Tree) (index : Nat) (name : String) :
    tree.field? index name = (tree.values index name).head? := by
  cases tree with
  | object members => exact memberOfValues
  | array items => cases found : items[index]? <;> simp [Tree.field?, Tree.values, found]
  | _ => rfl

theorem eachField {fields : List Field} {field : Field} {P : Nat → Field → Prop} :
    (∀ index f, (field :: fields)[index]? = some f → P index f) ↔
      P 0 field ∧ ∀ index f, fields[index]? = some f → P (index + 1) f := by
  constructor
  · exact fun each => ⟨each 0 field rfl, fun index f => each (index + 1) f⟩
  · rintro ⟨first, others⟩ (_ | index) f place
    · cases place
      exact first
    · exact others index f place

theorem itemsFill {fields : List Field} (checks : ∀ field ∈ fields, Checks field.fault?)
    {items : List Node} {trees : List Tree} (means : itemTrees? items = some trees) :
    itemsPass fields items ↔ trees.length ≤ fields.length ∧
      ∀ (index : Nat) (field : Field), fields[index]? = some field →
        field.Fills trees[index]?.toList := by
  induction fields generalizing items trees with
  | nil =>
    cases items with
    | nil =>
      cases means
      simp [itemsPass]
    | cons item rest =>
      obtain ⟨tree, others, -, -, rfl⟩ := itemTreesCons means
      simp [itemsPass]
  | cons field fields ih =>
    rw [List.forall_mem_cons] at checks
    rw [eachField]
    cases items with
    | nil =>
      cases means
      have empty : field.Fills [] ↔ field.required = false := by
        refine ⟨fun fills => ?_, fun optional => ⟨by simp, by simp [optional], by simp⟩⟩
        exact Bool.not_eq_true _ ▸ fun required => fills.present required rfl
      have more := @ih checks.2 [] [] rfl
      simp only [itemsPass, List.length_nil, Nat.zero_le, true_and, List.getElem?_nil,
        Option.toList_none] at more ⊢
      rw [empty, more]
    | cons item items =>
      obtain ⟨tree, others, first, rest, rfl⟩ := itemTreesCons means
      have single : field.Fills [tree] ↔ field.fault? item = none := by
        refine ⟨fun fills => fills.accepted tree List.mem_cons_self item first, fun accepted => ?_⟩
        obtain ⟨tree', same, alike⟩ := checks.1 item accepted
        obtain rfl : tree' = tree := Option.some.inj (same.symm.trans first)
        exact ⟨by simp, by simp, List.forall_mem_singleton.mpr alike⟩
      simp only [itemsPass, ih checks.2 rest, List.length_cons, Nat.add_le_add_iff_right,
        List.getElem?_cons_zero, List.getElem?_cons_succ, Option.toList_some, single]
      exact and_left_comm

section Record
variable {rname : String} {fields : List Field} (distinct : (fields.map (·.name)).Nodup)
  (checks : ∀ field ∈ fields, Checks field.fault?)
include distinct checks

theorem recordByValues {node : Node} {tree : Tree} (means : node.tree? = some tree) :
    recordFault? rname fields node = none ↔ tree.IsRecord fields ∧
      ∀ (index : Nat) (field : Field), fields[index]? = some field →
        field.Fills (tree.values index field.name) := by
  cases tree with
  | object members =>
    rw [recordAccepts checks means, fitsByFields distinct]
    refine and_congr_right fun _ => ⟨fun each index field place => ?_, fun each field member => ?_⟩
    · exact each field (List.mem_of_getElem? place)
    · obtain ⟨index, place⟩ := List.mem_iff_getElem?.mp member
      exact each index field place
  | array trees =>
    obtain ⟨items, stop, start, rfl, inner⟩ := nodeForm means
    refine (orderedPass 0).trans ((and_iff_right ⟨stop, rfl⟩).trans (itemsFill checks inner))
  | null | boolean _ =>
    obtain ⟨start, stop, rfl⟩ := nodeForm means
    simp [recordFault?, Tree.IsRecord]
  | number _ | string _ =>
    obtain ⟨x, start, stop, rfl, -⟩ := nodeForm means
    simp [recordFault?, Tree.IsRecord]

end Record

section Hole
variable {fname : String} {index : Nat} {around : Tree → Tree}
  (hole : FieldHole fname index around)
include hole

theorem holeValues : ∃ before behind, ∀ tree,
    (around tree).values index fname = before ++ tree :: behind := by
  cases hole with
  | member front back =>
    exact ⟨valuesOf fname front, valuesOf fname back, fun tree => by simp [Tree.values, valuesOf]⟩
  | item front back place => exact ⟨[], [], fun tree => by simp [Tree.values, ← place]⟩

theorem holeApart {other : String} {place : Nat} (name : other ≠ fname) (apart : place ≠ index)
    (tree tree' : Tree) :
    (around tree).values place other = (around tree').values place other := by
  cases hole with
  | member front back =>
    have differ : ¬fname.toList = other.toList := fun same => name (String.toList_inj.mp same).symm
    simp [Tree.values, valuesOf, differ]
  | item front back length =>
    subst length
    rcases Nat.lt_or_gt_of_ne apart with before | behind
    · simp [Tree.values, List.getElem?_append_left before]
    · obtain ⟨more, rfl⟩ := Nat.exists_eq_add_of_lt behind
      have rest : front.length + more + 1 - front.length = more + 1 := by omega
      simp only [Tree.values]
      rw [List.getElem?_append_right (by omega), List.getElem?_append_right (by omega), rest]
      rfl

theorem holeRecord (fields : List Field) (tree tree' : Tree) :
    (around tree).IsRecord fields ↔ (around tree').IsRecord fields := by
  cases hole with
  | member front back =>
    simp only [Tree.IsRecord, List.forall_mem_append, List.forall_mem_cons]
  | item front back => simp only [Tree.IsRecord, List.length_append, List.length_cons]

end Hole

structure OfRecord {α : Type} (d : Decoder α) (rname : String) (fields : List Field) : Prop where
  faults : d.fault? = recordFault? rname fields
  distinct : (fields.map (·.name)).Nodup
  checks : ∀ field ∈ fields, Checks field.fault?

def FieldsAlike (fields : List Field) (index : Nat) (node other : Node) : Prop :=
  ∀ {γ : Type} {name : String} {needed : Bool} {f : Decoder γ} (i : Nat) (default : γ), f.Sound →
    fields[i]? = some ⟨name, needed, f.fault?⟩ → i ≠ index →
    other.read i name f default = node.read i name f default

section Record
variable {α β : Type} {d : Decoder α} {e : Decoder β} {around : Tree → Tree}
  {rname fname : String} {fields : List Field} {required : Bool} {index : Nat}
  (record : OfRecord d rname fields) (hole : FieldHole fname index around)
include record hole

theorem othersFill {first tree : Tree} {node other : Node}
    (means : node.tree? = some (around first)) (accepted : d.fault? node = none)
    (means' : other.tree? = some (around tree))
    (names : ∀ (i : Nat) (field : Field), fields[i]? = some field → i ≠ index → field.name ≠ fname)
    (part : ∀ field, fields[index]? = some field →
      field.Fills ((around tree).values index field.name)) :
    d.fault? other = none ∧ FieldsAlike fields index node other := by
  obtain ⟨faults, distinct, checks⟩ := record
  rw [faults] at accepted ⊢
  obtain ⟨isRecord, each⟩ := (recordByValues distinct checks means).mp accepted
  constructor
  · have isRecord' := (holeRecord hole fields first tree).mp isRecord
    refine (recordByValues distinct checks means').mpr ⟨isRecord', fun i field place => ?_⟩
    by_cases same : i = index
    · subst same
      exact part field place
    · rw [holeApart hole (names i field place same) same tree first]
      exact each i field place
  · intro γ name needed f i default sound place apart
    refine fieldAlike distinct sound place accepted means means' ?_ default
    rw [valuesHead, valuesHead, holeApart hole (names i _ place apart) apart tree first]

theorem recordApart
    (apart : ∀ (i : Nat) (field : Field), fields[i]? = some field → field.name ≠ fname ∧ i ≠ index)
    (reads : ∀ node other, FieldsAlike fields index node other → d.read other = d.read node) :
    (∀ {first tree a}, d.Accepts (around first) a → d.Takes (around tree) a) ∧
      ∀ {first tree}, (∃ node : Node, node.tree? = some (around first)) →
        d.Refuses (around first) → d.Refuses (around tree) := by
  have same {first tree : Tree} {node other : Node} (means : node.tree? = some (around first))
      (accepted : d.fault? node = none) (means' : other.tree? = some (around tree)) :=
    othersFill record hole means accepted means' (fun i field place _ => (apart i field place).1)
      fun field place => absurd rfl (apart index field place).2
  constructor
  · rintro first tree a ⟨⟨node, means⟩, taken⟩ other means'
    obtain ⟨accepted, rfl⟩ := taken node means
    obtain ⟨accepted', alike⟩ := same means accepted means'
    exact ⟨accepted', reads node other alike⟩
  · rintro first tree ⟨node, means⟩ refuses other means' accepted
    exact refuses node means (same means' accepted means).1

omit hole in
theorem memberApart (front back : List (Option Text × Tree))
    (others : ∀ field ∈ fields, field.name ≠ fname)
    (reads : ∀ node other, FieldsAlike fields fields.length node other →
      d.read other = d.read node) :
    let around := fun t => Tree.object (front ++ (some fname.toList, t) :: back)
    (∀ {first tree a}, d.Accepts (around first) a → d.Takes (around tree) a) ∧
      ∀ {first tree}, (∃ node : Node, node.tree? = some (around first)) →
        d.Refuses (around first) → d.Refuses (around tree) := by
  refine recordApart record (.member front back) (fun i field place => ?_) reads
  have within := (List.getElem?_eq_some_iff.mp place).1
  exact ⟨others field (List.mem_of_getElem? place), Nat.ne_of_lt within⟩

variable (place : fields[index]? = some ⟨fname, required, e.fault?⟩)
include place

theorem partAccepted {node : Node} {tree : Tree} (means : node.tree? = some (around tree))
    (accepted : d.fault? node = none) :
    (∀ other, (around other).values index fname = [other]) ∧
      ∀ part, part.tree? = some tree → e.fault? part = none := by
  have fills := ((recordByValues record.distinct record.checks means).mp
    (record.faults ▸ accepted)).2 index _ place
  obtain ⟨before, behind, values⟩ := holeValues hole
  rw [values] at fills
  have single := fills.single
  rw [List.length_append, List.length_cons] at single
  obtain rfl : before = [] := List.length_eq_zero_iff.mp (by omega)
  obtain rfl : behind = [] := List.length_eq_zero_iff.mp (by omega)
  exact ⟨values, fills.accepted tree List.mem_cons_self⟩

omit record hole place in
theorem partThere {node : Node} {tree : Tree} (means : node.tree? = some (around tree))
    (single : (around tree).values index fname = [tree]) :
    ∃ part, node.field? index fname = some part ∧ part.tree? = some tree := by
  have found := (fieldTree means index fname).1
  rwa [valuesHead, single, List.head?_cons, Option.bind_eq_some_iff] at found

omit hole in
theorem fieldsApart (i : Nat) (field : Field) (other : fields[i]? = some field)
    (apart : i ≠ index) : field.name ≠ fname := by
  intro same
  have within : i < (fields.map (·.name)).length := by
    simpa using (List.getElem?_eq_some_iff.mp other).1
  exact apart ((List.getElem?_inj within record.distinct).mp (by simp [other, place, same]))

theorem recordFocus (sound : e.Sound) {get : α → β} {alter : (β → β) → α → α} (default : β)
    (gets : ∀ node : Node, get (d.read node) = node.read index fname e default)
    (reads : ∀ (node other : Node) (g : β → β),
      other.read index fname e default = g (node.read index fname e default) →
      FieldsAlike fields index node other → d.read other = alter g (d.read node)) :
    Focus d around e (fun a => some (get a)) alter := by
  constructor
  case inner =>
    rintro tree a ⟨⟨node, means⟩, taken⟩
    obtain ⟨accepted, rfl⟩ := taken node means
    obtain ⟨single, part⟩ := partAccepted record hole place means accepted
    obtain ⟨child, found, meaning⟩ := partThere means (single tree)
    refine ⟨_, rfl, ?_⟩
    rw [gets, Node.read, found]
    exact sound.accepts meaning (part child meaning)
  case changed =>
    rintro first tree a b g ⟨⟨node, means⟩, taken⟩ ⟨-, takenPart⟩ changed other means'
    obtain ⟨accepted, rfl⟩ := taken node means
    have single := (partAccepted record hole place means accepted).1
    obtain ⟨accepted', alike⟩ := othersFill record hole means accepted means'
      (fieldsApart record place) fun field place' => by
        obtain rfl := Option.some.inj (place'.symm.trans place)
        rw [single tree]
        exact ⟨by simp, by simp, List.forall_mem_singleton.mpr changed.accepts⟩
    refine ⟨accepted', reads node other g ?_ alike⟩
    obtain ⟨child, found, meaning⟩ := partThere means (single first)
    obtain ⟨child', found', meaning'⟩ := partThere means' (single tree)
    simp only [Node.read, found, found']
    rw [(takenPart child meaning).2, (changed child' meaning').2]
  case refused =>
    intro tree refuses node means accepted
    obtain ⟨single, part⟩ := partAccepted record hole place means accepted
    obtain ⟨child, -, meaning⟩ := partThere means (single tree)
    exact refuses child meaning (part child meaning)

end Record

section Inside
variable {α β γ : Type} {d : Decoder α} {e : Decoder β} {f : Decoder γ}
  {around within : Tree → Tree}

theorem Focus.inside {get : α → Option β} {alter : (β → β) → α → α} {pick : β → Option γ}
    {under : (γ → γ) → β → β} (outer : Focus d around e get alter)
    (part : Focus e within f pick under) :
    Focus d (fun t => around (within t)) f (fun a => (get a).bind pick)
      (fun g => alter (under g)) where
  inner accepted := by
    obtain ⟨b, got, middle⟩ := outer.inner accepted
    obtain ⟨c, picked, inner⟩ := part.inner middle
    exact ⟨c, by rw [got, Option.bind_some, picked], inner⟩
  changed accepted inner changed := by
    obtain ⟨b, -, middle⟩ := outer.inner accepted
    exact outer.changed accepted middle (part.changed middle inner changed)
  refused refuses := outer.refused (part.refused refuses)

theorem Focus.put {get : α → Option β} {alter : (β → β) → α → α}
    (focus : Focus d around e get alter) {first tree : Tree} {a : α} {b : β}
    (accepted : d.Accepts (around first) a) (taken : e.Takes tree b) :
    d.Takes (around tree) (alter (fun _ => b) a) := by
  obtain ⟨_, -, inner⟩ := focus.inner accepted
  exact focus.changed accepted inner taken

theorem acceptedItems (sound : e.Sound) {trees : List Tree} {values : List β}
    (accepted : e.list.Accepts (.array trees) values) :
    ∃ pairs : List (Tree × β), pairs.map (·.1) = trees ∧ pairs.map (·.2) = values ∧
      ∀ p ∈ pairs, e.Accepts p.1 p.2 := by
  obtain ⟨⟨node, means⟩, taken⟩ := accepted
  obtain ⟨fine, rfl⟩ := taken node means
  obtain ⟨items, stop, start, rfl, inner⟩ := nodeForm means
  have each := List.findSome?_eq_none_iff.mp (Option.or_eq_none_iff.mp fine).1
  clear means taken fine
  induction items generalizing trees with
  | nil =>
    cases inner
    exact ⟨[], rfl, rfl, List.forall_mem_nil _⟩
  | cons item rest ih =>
    obtain ⟨tree, others, first, more, rfl⟩ := itemTreesCons inner
    obtain ⟨here, there⟩ := List.forall_mem_cons.mp each
    obtain ⟨pairs, rfl, values, all⟩ := ih more there
    refine ⟨(tree, e.read item) :: pairs, rfl, ?_, ?_⟩
    · exact congrArg (e.read item :: ·) values
    · exact List.forall_mem_cons.mpr ⟨sound.accepts first here, all⟩

theorem modifyMiddle (front back : List β) (b : β) (g : β → β) :
    (front ++ b :: back).modify front.length g = front ++ g b :: back := by
  induction front with
  | nil => rfl
  | cons first rest ih => simpa using ih

theorem listFocus (sound : e.Sound) {index : Nat} (hole : ItemHole index around) :
    Focus e.list around e (fun values => values[index]?)
      (fun g values => values.modify index g) := by
  obtain ⟨front, back, rfl⟩ := hole
  have split {tree : Tree} {values : List β}
      (accepted : e.list.Accepts (.array (front ++ tree :: back)) values) :
      ∃ (before : List (Tree × β)) (b : β) (behind : List (Tree × β)),
        values = before.map (·.2) ++ b :: behind.map (·.2) ∧
        before.map (·.1) = front ∧ behind.map (·.1) = back ∧ e.Accepts tree b ∧
        ∀ p ∈ before ++ behind, e.Accepts p.1 p.2 := by
    obtain ⟨pairs, trees, rfl, all⟩ := acceptedItems sound accepted
    obtain ⟨before, rest, rfl, rfl, more⟩ := List.map_eq_append_iff.mp trees
    obtain ⟨p, behind, rfl, rfl, rfl⟩ := List.map_eq_cons_iff.mp more
    simp only [List.forall_mem_append, List.forall_mem_cons] at all
    obtain ⟨earlier, here, later⟩ := all
    have others := List.forall_mem_append.mpr ⟨earlier, later⟩
    exact ⟨before, p.2, behind, by simp, rfl, rfl, here, others⟩
  constructor
  case inner =>
    intro tree values accepted
    obtain ⟨before, b, behind, rfl, rfl, -, part, -⟩ := split accepted
    exact ⟨b, by simp, part⟩
  case changed =>
    intro first tree values b g accepted part changed
    obtain ⟨before, b', behind, rfl, rfl, rfl, part', others⟩ := split accepted
    obtain rfl := part'.unique part
    have each : ∀ p ∈ before ++ (tree, g b') :: behind, e.Takes p.1 p.2 := by
      obtain ⟨earlier, later⟩ := List.forall_mem_append.mp others
      refine List.forall_mem_append.mpr ⟨fun p member => (earlier p member).taken, ?_⟩
      exact List.forall_mem_cons.mpr ⟨changed, fun p member => (later p member).taken⟩
    have whole := Decoder.takesList each
    have length : (before.map (·.1)).length = (before.map (·.2)).length := by simp
    rw [length, modifyMiddle]
    simpa using whole
  case refused =>
    intro tree refuses node means accepted
    obtain ⟨items, stop, start, rfl, inner⟩ := nodeForm means
    have each := List.findSome?_eq_none_iff.mp (Option.or_eq_none_iff.mp accepted).1
    obtain ⟨held, -⟩ := itemTreeAt inner front.length
    rw [List.getElem?_append_right (Nat.le_refl _), Nat.sub_self, List.getElem?_cons_zero,
      Option.bind_eq_some_iff] at held
    obtain ⟨item, found, meaning⟩ := held
    exact refuses item meaning (each item (List.mem_of_getElem? found))

end Inside

end ShaderReflection.Json
