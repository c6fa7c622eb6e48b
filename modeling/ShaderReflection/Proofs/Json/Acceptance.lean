import ShaderReflection.Proofs.Json.Decoding
/-!
What a decoder accepts is whole, and it accepts and reads every other value of the same tree in the
same way. So a decoder is a partial function of what a text says, whatever its layout.
-/
namespace ShaderReflection.Json

theorem itemsWhole {items : List Node} (whole : ∀ item ∈ items, item.tree?.isSome = true) :
    itemTrees? items = some (items.map fun item => item.tree?.getD .null) := by
  induction items with
  | nil => rfl
  | cons item rest ih =>
    rw [List.forall_mem_cons] at whole
    obtain ⟨tree, means⟩ := Option.isSome_iff_exists.mp whole.1
    simp [itemTrees?, means, ih whole.2]

theorem membersWhole {members : List (Key × Node)}
    (whole : ∀ m ∈ members, m.2.tree?.isSome = true) : (memberTrees? members).isSome = true := by
  induction members with
  | nil => rfl
  | cons m rest ih =>
    rw [List.forall_mem_cons] at whole
    obtain ⟨tree, means⟩ := Option.isSome_iff_exists.mp whole.1
    obtain ⟨trees, others⟩ := Option.isSome_iff_exists.mp (ih whole.2)
    simp [memberTrees?, means, others]

theorem closedList {close : Close} (fine : close.listFault? = none) :
    ∃ stop, close = .closed stop := by
  cases close with
  | closed stop => exact ⟨stop, rfl⟩
  | cut gap place => cases fine

theorem closedMembers {close : Close} (fine : close.objectFault? = none) :
    ∃ stop, close = .closed stop := by
  cases close with
  | closed stop => exact ⟨stop, rfl⟩
  | cut gap place => cases gap <;> cases fine

mutual

theorem wholeSkipped : (node : Node) → node.skipFault? = none → node.tree?.isSome = true
  | .null _ _, _ | .boolean _ _ _, _ | .number _ _ _, _ | .string _ _ _, _ => rfl
  | .array items close start, fine => by
    obtain ⟨inner, last⟩ := Option.or_eq_none_iff.mp fine
    cases close with
    | closed stop => simp [Node.tree?, itemsWhole (itemsSkipped items inner)]
    | cut gap place => cases last
  | .object members close start, fine => by
    obtain ⟨inner, last⟩ := Option.or_eq_none_iff.mp fine
    cases close with
    | closed stop => simp [Node.tree?, membersWhole (membersSkipped members inner)]
    | cut gap place => cases gap <;> cases last
  | .broken _ _ _, fine => nomatch fine

theorem itemsSkipped : (items : List Node) → skipItems items = none →
    ∀ item ∈ items, item.tree?.isSome = true
  | [], _ => List.forall_mem_nil _
  | item :: rest, fine => by
    obtain ⟨first, others⟩ := Option.or_eq_none_iff.mp fine
    exact List.forall_mem_cons.mpr ⟨wholeSkipped item first, itemsSkipped rest others⟩

theorem membersSkipped : (members : List (Key × Node)) → skipMembers members = none →
    ∀ m ∈ members, m.2.tree?.isSome = true
  | [], _ => List.forall_mem_nil _
  | (_, node) :: rest, fine => by
    obtain ⟨first, others⟩ := Option.or_eq_none_iff.mp fine
    exact List.forall_mem_cons.mpr ⟨wholeSkipped node first, membersSkipped rest others⟩

end

mutual

theorem wholeBuffered (depth : Nat) : (node : Node) → node.bufferFault? depth = none →
    node.tree?.isSome = true
  | .null _ _, _ | .boolean _ _ _, _ | .number _ _ _, _ | .string _ _ _, _ => rfl
  | .array items close start, fine => by
    rw [Node.bufferFault?] at fine
    split at fine
    · cases fine
    · obtain ⟨inner, last⟩ := Option.or_eq_none_iff.mp fine
      obtain ⟨stop, rfl⟩ := closedList last
      simp [Node.tree?, itemsWhole (itemsBuffered (depth - 1) items inner)]
  | .object members close start, fine => by
    rw [Node.bufferFault?] at fine
    split at fine
    · cases fine
    · obtain ⟨inner, last⟩ := Option.or_eq_none_iff.mp fine
      obtain ⟨stop, rfl⟩ := closedMembers last
      simp [Node.tree?, membersWhole (membersBuffered (depth - 1) members inner)]
  | .broken _ _ _, fine => nomatch fine

theorem itemsBuffered (depth : Nat) : (items : List Node) → bufferItems depth items = none →
    ∀ item ∈ items, item.tree?.isSome = true
  | [], _ => List.forall_mem_nil _
  | item :: rest, fine => by
    obtain ⟨first, others⟩ := Option.or_eq_none_iff.mp fine
    exact List.forall_mem_cons.mpr ⟨wholeBuffered depth item first, itemsBuffered depth rest others⟩

theorem membersBuffered (depth : Nat) : (members : List (Key × Node)) →
    bufferMembers depth members = none → ∀ m ∈ members, m.2.tree?.isSome = true
  | [], _ => List.forall_mem_nil _
  | (_, node) :: rest, fine => by
    obtain ⟨first, others⟩ := Option.or_eq_none_iff.mp fine
    exact List.forall_mem_cons.mpr
      ⟨wholeBuffered depth node (Option.or_eq_none_iff.mp first).2, membersBuffered depth rest others⟩

end

def Checks (fault? : Node → Option Fault) : Prop :=
  ∀ node, fault? node = none → ∃ tree, node.tree? = some tree ∧
    ∀ other, other.tree? = some tree → fault? other = none

namespace Decoder
variable {α β : Type}

def Sound (d : Decoder α) : Prop :=
  ∀ node, d.fault? node = none → ∃ tree, node.tree? = some tree ∧ d.Takes tree (d.read node)

theorem Sound.checks {d : Decoder α} (sound : d.Sound) : Checks d.fault? := by
  intro node accepted
  obtain ⟨tree, means, taken⟩ := sound node accepted
  exact ⟨tree, means, taken.accepts⟩

theorem soundText : text.Sound := by
  intro node accepted
  cases node with
  | string value start stop =>
    cases value with
    | ok t => exact ⟨.string (some t), rfl, takesText t⟩
    | error fault => cases accepted
  | _ => simp [text] at accepted

theorem soundBoolean : boolean.Sound := by
  intro node accepted
  cases node with
  | boolean b start stop => exact ⟨.boolean b, rfl, takesBoolean b⟩
  | _ => simp [boolean] at accepted

theorem soundWord (name : String) (least greatest : Int) (convert : Int → α) :
    (word name least greatest convert).Sound := by
  intro node accepted
  cases node with
  | number value start stop =>
    cases value with
    | ok x =>
      cases x with
      | integer i =>
        by_cases range : least ≤ i ∧ i ≤ greatest
        · exact ⟨.number (some (.integer i)), rfl, takesWord name convert range⟩
        · simp [word, range] at accepted
      | float negative magnitude => simp [word] at accepted
    | error fault => simp [word] at accepted
  | _ => simp [word] at accepted

theorem takesNull (d : Decoder α) : d.nullable.Takes .null none := by
  intro node means
  obtain ⟨start, stop, rfl⟩ := nodeForm means
  exact ⟨rfl, rfl⟩

theorem soundNullable {d : Decoder α} (sound : d.Sound) : d.nullable.Sound := by
  intro node accepted
  by_cases null : node.tree? = some .null
  · obtain ⟨start, stop, rfl⟩ := nodeForm null
    exact ⟨.null, rfl, takesNull d⟩
  -- Whatever is not null is left to the decoder itself.
  · have same : d.nullable.fault? node = d.fault? node ∧ d.nullable.read node = some (d.read node) := by
      cases node with
      | null start stop => exact absurd rfl null
      | _ => exact ⟨rfl, rfl⟩
    obtain ⟨tree, means, taken⟩ := sound node (same.1 ▸ accepted)
    refine ⟨tree, means, same.2 ▸ takesSome taken ?_⟩
    rintro rfl
    exact null means

theorem soundMap {d : Decoder α} (sound : d.Sound) (f : α → β) : (d.map f).Sound := by
  intro node accepted
  obtain ⟨tree, means, taken⟩ := sound node accepted
  exact ⟨tree, means, takesMap taken f⟩

theorem soundList {d : Decoder α} (sound : d.Sound) : d.list.Sound := by
  intro node accepted
  cases node with
  | array items close start =>
    obtain ⟨inner, last⟩ := Option.or_eq_none_iff.mp accepted
    obtain ⟨stop, rfl⟩ := closedList last
    rw [List.findSome?_eq_none_iff] at inner
    have each : ∀ item ∈ items, d.Takes (item.tree?.getD .null) (d.read item) := by
      intro item member
      obtain ⟨tree, means, taken⟩ := sound item (inner item member)
      rwa [means]
    have whole : ∀ item ∈ items, item.tree?.isSome = true := by
      intro item member
      obtain ⟨tree, means, -⟩ := sound item (inner item member)
      simp [means]
    exact ⟨_, by simp [Node.tree?, itemsWhole whole], takesList each⟩
  | _ => simp [list] at accepted

theorem soundUnsigned : unsigned32.Sound := soundWord _ _ _ _

theorem soundSigned : signed32.Sound := soundWord _ _ _ _

end Decoder

def itemsPass : List Field → List Node → Prop
  | [], items => items = []
  | field :: fields, [] => field.required = false ∧ itemsPass fields []
  | field :: fields, item :: items => field.fault? item = none ∧ itemsPass fields items

theorem orderedPass {expected : String} {close : Close} {fields : List Field} {items : List Node}
    (count : Nat) : orderedFault? expected close count fields items = none ↔
      (∃ stop, close = .closed stop) ∧ itemsPass fields items := by
  induction fields generalizing count items with
  | nil =>
    cases items with
    | nil =>
      cases close with
      | closed stop => simp [orderedFault?, Close.recordFault?, itemsPass]
      | cut gap place => simp [orderedFault?, Close.recordFault?, itemsPass]
    | cons extra rest => simp [orderedFault?, itemsPass]
  | cons field fields ih =>
    cases items with
    | nil =>
      cases close with
      | closed stop => cases required : field.required <;>
          simp [orderedFault?, Close.listFault?, itemsPass, required, ih]
      | cut gap place => simp [orderedFault?, Close.listFault?, itemsPass]
    | cons item items =>
      simp only [orderedFault?, itemsPass, Option.or_eq_none_iff, ih]
      exact and_left_comm

theorem itemPasses {fields : List Field} {items : List Node} (pass : itemsPass fields items)
    {index : Nat} {field : Field} {item : Node} (field' : fields[index]? = some field)
    (item' : items[index]? = some item) : field.fault? item = none := by
  induction fields generalizing items index with
  | nil => cases field'
  | cons first fields ih =>
    cases items with
    | nil => cases item'
    | cons head items =>
      cases index with
      | zero =>
        cases field'
        cases item'
        exact pass.1
      | succ index => exact ih pass.2 (by simpa using field') (by simpa using item')

theorem itemsSound {fields : List Field} (checks : ∀ field ∈ fields, Checks field.fault?)
    {items : List Node} (pass : itemsPass fields items) :
    ∃ trees, itemTrees? items = some trees ∧
      ∀ others, itemTrees? others = some trees → itemsPass fields others := by
  induction fields generalizing items with
  | nil =>
    obtain rfl : items = [] := pass
    refine ⟨[], rfl, fun others same => ?_⟩
    cases others with
    | nil => rfl
    | cons other rest => obtain ⟨_, _, -, -, wrong⟩ := itemTreesCons same; cases wrong
  | cons field fields ih =>
    rw [List.forall_mem_cons] at checks
    cases items with
    | nil =>
      obtain ⟨trees, means, more⟩ := ih checks.2 pass.2
      cases means
      refine ⟨[], rfl, fun others same => ?_⟩
      cases others with
      | nil => exact ⟨pass.1, more [] rfl⟩
      | cons other rest => obtain ⟨_, _, -, -, wrong⟩ := itemTreesCons same; cases wrong
    | cons item items =>
      -- Other items with these trees pass one after the other.
      obtain ⟨tree, first, alike⟩ := checks.1 item pass.1
      obtain ⟨trees, means, more⟩ := ih checks.2 pass.2
      refine ⟨tree :: trees, by simp [itemTrees?, first, means], fun others same => ?_⟩
      cases others with
      | nil => simp [itemTrees?] at same
      | cons other rest =>
        obtain ⟨_, _, head, tail, equal⟩ := itemTreesCons same
        obtain ⟨rfl, rfl⟩ := List.cons.inj equal
        exact ⟨alike other head, more rest tail⟩

theorem itemTreeAt {items : List Node} {trees : List Tree} (means : itemTrees? items = some trees)
    (index : Nat) : items[index]?.bind Node.tree? = trees[index]? ∧
      items[index]?.isSome = trees[index]?.isSome := by
  induction items generalizing trees index with
  | nil =>
    cases means
    exact ⟨rfl, rfl⟩
  | cons item rest ih =>
    obtain ⟨tree, others, first, more, rfl⟩ := itemTreesCons means
    cases index with
    | zero => simp [first]
    | succ index => simpa using ih more index

theorem presentRequired {fields : List Field} {members : List (Key × Node)} {stop : Nat}
    (complete : missingFault? members stop fields = none) :
    ∀ field ∈ fields, field.required = true →
      some field.name.toList ∈ members.map (·.1.name.toOption) := by
  intro field member required
  simp only [missingFault?, Option.map_eq_none_iff, List.find?_eq_none] at complete
  have there := complete field member
  simp only [required, Bool.true_and, Bool.not_eq_true', Bool.not_eq_false, List.any_eq_true,
    keyNamed, beq_iff_eq] at there
  obtain ⟨m, inside, named⟩ := there
  exact List.mem_map.mpr ⟨m, inside, named⟩

theorem recordObject {name : String} {fields : List Field} {members : List (Key × Node)}
    {close : Close} {start : Nat} :
    recordFault? name fields (.object members close start) = none ↔
      memberFault? fields [] members = none ∧ (∃ stop, close = .closed stop) ∧
        missingFault? members close.stop fields = none := by
  simp only [recordFault?, Option.or_eq_none_iff, and_assoc]
  refine and_congr_right fun _ => and_congr_left fun _ => ⟨closedMembers, ?_⟩
  rintro ⟨stop, rfl⟩
  rfl

theorem memberAt {members : List (Key × Node)} {trees : List (Option Text × Tree)}
    (means : memberTrees? members = some trees) :
    ∀ m ∈ trees, ∃ k ∈ members, k.1.name.toOption = m.1 ∧ k.2.tree? = some m.2 := by
  induction members generalizing trees with
  | nil =>
    cases means
    exact List.forall_mem_nil _
  | cons k rest ih =>
    obtain ⟨tree, others, first, more, rfl⟩ := memberTreesCons means
    refine List.forall_mem_cons.mpr ⟨⟨k, List.mem_cons_self, rfl, first⟩, fun m member => ?_⟩
    obtain ⟨other, inside, same⟩ := ih more m member
    exact ⟨other, List.mem_cons_of_mem k inside, same⟩

theorem fieldNamed {fields : List Field} {name : Option Text} {field : Field}
    (found : fieldOf? fields name = some field) :
    field ∈ fields ∧ name = some field.name.toList := by
  obtain ⟨text, rfl, first⟩ := Option.bind_eq_some_iff.mp found
  have same := List.find?_some first
  exact ⟨List.mem_of_find?_eq_some first, by simpa using (beq_iff_eq.mp same).symm⟩

theorem memberWhole {fields : List Field} (checks : ∀ field ∈ fields, Checks field.fault?)
    {m : Key × Node} (pass : memberPasses fields m) : m.2.tree?.isSome = true := by
  unfold memberPasses at pass
  split at pass
  · rename_i field known
    obtain ⟨tree, means, -⟩ := checks field (fieldNamed known).1 m.2 pass
    simp [means]
  · exact wholeSkipped m.2 pass

theorem recordAccepts {name : String} {fields : List Field}
    (checks : ∀ field ∈ fields, Checks field.fault?) {node : Node}
    {trees : List (Option Text × Tree)} (means : node.tree? = some (.object trees)) :
    recordFault? name fields node = none ↔ FieldsFit fields trees := by
  refine ⟨fun accepted => ?_, recordFits name fields means⟩
  obtain ⟨members, stop, start, rfl, inner⟩ := nodeForm means
  obtain ⟨pass, -, complete⟩ := recordObject.mp accepted
  obtain ⟨named, distinct, -, each⟩ := membersPass.mp pass
  obtain ⟨names, -⟩ := memberTreesAt inner
  refine ⟨?_, names ▸ distinct, ?_, names ▸ presentRequired complete⟩
  · intro m member
    obtain ⟨k, inside, key, -⟩ := memberAt inner m member
    exact key ▸ named k inside
  · intro m member field known node same
    obtain ⟨k, inside, key, tree⟩ := memberAt inner m member
    have passes := each k inside
    simp only [memberPasses, key, known] at passes
    obtain ⟨found, whole, others⟩ := checks field (fieldNamed known).1 k.2 passes
    obtain rfl : found = m.2 := Option.some.inj (whole.symm.trans tree)
    exact others node same

theorem recordSound {name : String} {fields : List Field}
    (checks : ∀ field ∈ fields, Checks field.fault?) : Checks (recordFault? name fields) := by
  intro node accepted
  cases node with
  | array items close start =>
    obtain ⟨⟨stop, rfl⟩, pass⟩ := (orderedPass 0).mp accepted
    obtain ⟨trees, means, alike⟩ := itemsSound checks pass
    refine ⟨.array trees, by simp [Node.tree?, means], fun other same => ?_⟩
    obtain ⟨others, stop, start, rfl, inner⟩ := nodeForm same
    exact (orderedPass 0).mpr ⟨⟨stop, rfl⟩, alike others inner⟩
  | object members close start =>
    obtain ⟨pass, ⟨stop, rfl⟩, -⟩ := recordObject.mp accepted
    obtain ⟨-, -, -, each⟩ := membersPass.mp pass
    have whole := membersWhole fun m member => memberWhole checks (each m member)
    obtain ⟨trees, inner⟩ := Option.isSome_iff_exists.mp whole
    have means : (Node.object members (.closed stop) start).tree? = some (.object trees) := by
      simp [Node.tree?, inner]
    exact ⟨.object trees, means,
      fun other same => recordFits name fields same ((recordAccepts checks means).mp accepted)⟩
  | _ => simp [recordFault?] at accepted

def Tree.field? (tree : Tree) (index : Nat) (name : String) : Option Tree :=
  match tree with
  | .object members => memberOf? name members
  | .array items => items[index]?
  | _ => none

theorem fieldTree {node : Node} {tree : Tree} (means : node.tree? = some tree) (index : Nat)
    (name : String) : (node.field? index name).bind Node.tree? = tree.field? index name ∧
      (node.field? index name).isSome = (tree.field? index name).isSome := by
  cases tree with
  | object trees =>
    obtain ⟨members, stop, start, rfl, inner⟩ := nodeForm means
    simpa [Node.field?, Tree.field?] using memberFound inner name
  | array trees =>
    obtain ⟨items, stop, start, rfl, inner⟩ := nodeForm means
    exact itemTreeAt inner index
  | null | boolean _ =>
    obtain ⟨start, stop, rfl⟩ := nodeForm means
    exact ⟨rfl, rfl⟩
  | number _ | string _ =>
    obtain ⟨x, start, stop, rfl, -⟩ := nodeForm means
    exact ⟨rfl, rfl⟩

section Fields
variable {α : Type} {name : String} {fields : List Field} {index : Nat} {node : Node} {tree : Tree}

theorem fieldAccepted (distinct : (fields.map (·.name)).Nodup) {field : Field}
    (place : fields[index]? = some field) (accepted : recordFault? name fields node = none)
    {value : Node} (found : node.field? index field.name = some value) :
    field.fault? value = none := by
  cases node with
  | array items close start =>
    obtain ⟨-, pass⟩ := (orderedPass 0).mp accepted
    exact itemPasses pass place found
  | object members close start =>
    obtain ⟨pass, -⟩ := recordObject.mp accepted
    obtain ⟨-, -, -, each⟩ := membersPass.mp pass
    obtain ⟨m, first, rfl⟩ := Option.map_eq_some_iff.mp found
    have named := List.find?_some first
    rw [keyNamed, beq_iff_eq] at named
    have passes := each m (List.mem_of_find?_eq_some first)
    simpa only [memberPasses, named, fieldFound distinct (List.mem_of_getElem? place)] using passes
  | _ => simp [recordFault?] at accepted

theorem fieldAlike {fname : String} {required : Bool} {d : Decoder α}
    (distinct : (fields.map (·.name)).Nodup) (sound : d.Sound)
    (place : fields[index]? = some ⟨fname, required, d.fault?⟩)
    (accepted : recordFault? name fields node = none) (means : node.tree? = some tree)
    {other : Node} {tree' : Tree} (means' : other.tree? = some tree')
    (same : tree'.field? index fname = tree.field? index fname) (default : α) :
    other.read index fname d default = node.read index fname d default := by
  obtain ⟨mine, isSome⟩ := fieldTree means index fname
  obtain ⟨others, isSome'⟩ := fieldTree means' index fname
  rw [same] at others isSome'
  cases held : tree.field? index fname with
  | none =>
    rw [held, Option.isSome_none, Option.isSome_eq_false_iff, Option.isNone_iff_eq_none]
      at isSome isSome'
    simp [Node.read, isSome, isSome']
  | some part =>
    rw [held, Option.bind_eq_some_iff] at mine others
    obtain ⟨value, found, meaning⟩ := mine
    obtain ⟨value', found', meaning'⟩ := others
    obtain ⟨part', whole, taken⟩ := sound value (fieldAccepted distinct place accepted found)
    obtain rfl : part' = part := Option.some.inj (whole.symm.trans meaning)
    simp only [Node.read, found, found']
    exact (taken value' meaning').2

theorem fieldSame {fname : String} {required : Bool} {d : Decoder α}
    (distinct : (fields.map (·.name)).Nodup) (sound : d.Sound)
    (place : fields[index]? = some ⟨fname, required, d.fault?⟩)
    (accepted : recordFault? name fields node = none) (means : node.tree? = some tree)
    {other : Node} (same : other.tree? = some tree) (default : α) :
    other.read index fname d default = node.read index fname d default :=
  fieldAlike distinct sound place accepted means same rfl default

end Fields

end ShaderReflection.Json
