import ShaderReflection.Proofs.Json.Reading
/-!
What decoders take from a tree: values by their form, lists item by item, and records given as
objects, field by field. None of it depends on the places in the text.
-/
namespace ShaderReflection.Json

def Node.HasForm (node : Node) : Tree → Prop
  | .null => ∃ start stop, node = .null start stop
  | .boolean b => ∃ start stop, node = .boolean b start stop
  | .number v => ∃ x start stop, node = .number x start stop ∧ x.toOption = v
  | .string v => ∃ x start stop, node = .string x start stop ∧ x.toOption = v
  | .array trees => ∃ items stop start, node = .array items (.closed stop) start ∧
      itemTrees? items = some trees
  | .object trees => ∃ members stop start, node = .object members (.closed stop) start ∧
      memberTrees? members = some trees

theorem nodeForm {node : Node} {tree : Tree} (means : node.tree? = some tree) :
    node.HasForm tree := by
  cases node with
  | null start stop =>
    cases means
    exact ⟨start, stop, rfl⟩
  | boolean b start stop =>
    cases means
    exact ⟨start, stop, rfl⟩
  | number x start stop =>
    cases means
    exact ⟨x, start, stop, rfl, rfl⟩
  | string x start stop =>
    cases means
    exact ⟨x, start, stop, rfl, rfl⟩
  | array items close start =>
    obtain ⟨stop, trees, rfl, inner, rfl⟩ := arrayTree means
    exact ⟨items, stop, start, rfl, inner⟩
  | object members close start =>
    obtain ⟨stop, trees, rfl, inner, rfl⟩ := objectTree means
    exact ⟨members, stop, start, rfl, inner⟩
  | broken read skip start => simp [Node.tree?] at means

theorem valueOfOption {α : Type} {x : Except Fault α} {a : α} (h : x.toOption = some a) :
    x = .ok a := by
  cases x with
  | ok b => simpa [Except.toOption] using h
  | error fault => simp [Except.toOption] at h

namespace Decoder
variable {α β : Type}

def Takes (d : Decoder α) (tree : Tree) (a : α) : Prop :=
  ∀ node, node.tree? = some tree → d.fault? node = none ∧ d.read node = a

def Refuses (d : Decoder α) (tree : Tree) : Prop :=
  ∀ node, node.tree? = some tree → d.fault? node ≠ none

theorem Takes.accepts {d : Decoder α} {tree : Tree} {a : α} (taken : d.Takes tree a) :
    ∀ node, node.tree? = some tree → d.fault? node = none :=
  fun node means => (taken node means).1

theorem takesText (t : Text) : text.Takes (.string (some t)) t := by
  intro node means
  obtain ⟨x, start, stop, rfl, same⟩ := nodeForm means
  obtain rfl := valueOfOption same
  exact ⟨rfl, rfl⟩

theorem takesBoolean (b : Bool) : boolean.Takes (.boolean b) b := by
  intro node means
  obtain ⟨start, stop, rfl⟩ := nodeForm means
  exact ⟨rfl, rfl⟩

theorem takesWord (name : String) {least greatest i : Int} (convert : Int → α)
    (range : least ≤ i ∧ i ≤ greatest) :
    (word name least greatest convert).Takes (.number (some (.integer i))) (convert i) := by
  intro node means
  obtain ⟨x, start, stop, rfl, same⟩ := nodeForm means
  obtain rfl := valueOfOption same
  exact ⟨by simp [word, range], rfl⟩

theorem takesUnsigned (n : UInt32) :
    unsigned32.Takes (.number (some (.integer n.toNat))) n := by
  have range : (0 : Int) ≤ n.toNat ∧ (n.toNat : Int) ≤ 4294967295 := by
    have := n.toNat_lt
    omega
  have taken := takesWord "u32" (fun i => UInt32.ofNat i.toNat) range
  simpa only [unsigned32, Int.toNat_natCast, UInt32.ofNat_toNat] using taken

theorem takesSigned (n : Int32) : signed32.Takes (.number (some (.integer n.toInt))) n := by
  have range : -2147483648 ≤ n.toInt ∧ n.toInt ≤ 2147483647 := by
    have low := n.le_toInt
    have high := n.toInt_lt
    omega
  have taken := takesWord "i32" Int32.ofInt range
  simpa only [signed32, Int32.ofInt_toInt] using taken

theorem takesMap {d : Decoder α} {tree : Tree} {a : α} (taken : d.Takes tree a) (f : α → β) :
    (d.map f).Takes tree (f a) := by
  intro node means
  exact ⟨(taken node means).1, congrArg f (taken node means).2⟩

theorem takesSome {d : Decoder α} {tree : Tree} {a : α} (taken : d.Takes tree a)
    (some' : tree ≠ .null) : d.nullable.Takes tree (some a) := by
  intro node means
  obtain ⟨accepted, read⟩ := taken node means
  cases node with
  | null start stop => cases means; contradiction
  | _ => exact ⟨accepted, congrArg some read⟩

theorem takesItems {d : Decoder α} {γ : Type} {tree : γ → Tree} {value : γ → α} {xs : List γ}
    (taken : ∀ x ∈ xs, d.Takes (tree x) (value x)) {nodes : List Node}
    (means : itemTrees? nodes = some (xs.map tree)) :
    nodes.findSome? d.fault? = none ∧ nodes.map d.read = xs.map value := by
  induction xs generalizing nodes with
  | nil =>
    cases nodes with
    | nil => exact ⟨rfl, rfl⟩
    | cons node rest => obtain ⟨_, _, -, -, other⟩ := itemTreesCons means; cases other
  | cons x xs ih =>
    cases nodes with
    | nil => simp [itemTrees?] at means
    | cons node rest =>
      obtain ⟨first, others, hf, ho, same⟩ := itemTreesCons means
      obtain ⟨rfl, rfl⟩ := List.cons.inj same
      have head := taken x List.mem_cons_self node hf
      have tail := ih (fun y member => taken y (List.mem_cons_of_mem x member)) ho
      exact ⟨by simp [head.1, tail.1], by simp [head.2, tail.2]⟩

theorem takesList {d : Decoder α} {γ : Type} {tree : γ → Tree} {value : γ → α} {xs : List γ}
    (taken : ∀ x ∈ xs, d.Takes (tree x) (value x)) :
    d.list.Takes (.array (xs.map tree)) (xs.map value) := by
  intro node means
  obtain ⟨items, stop, start, rfl, inner⟩ := nodeForm means
  obtain ⟨accepted, read⟩ := takesItems taken inner
  exact ⟨by simp [list, accepted, Close.listFault?], by simp [list, read]⟩

end Decoder

theorem memberTreesAt {members : List (Key × Node)} {trees : List (Option Text × Tree)}
    (means : memberTrees? members = some trees) :
    members.map (·.1.name.toOption) = trees.map (·.1) ∧
      ∀ m ∈ members, ∃ tree, m.2.tree? = some tree ∧ (m.1.name.toOption, tree) ∈ trees := by
  induction members generalizing trees with
  | nil =>
    cases means
    exact ⟨rfl, fun _ member => nomatch member⟩
  | cons m rest ih =>
    obtain ⟨tree, others, ht, ho, rfl⟩ := memberTreesCons means
    obtain ⟨names, each⟩ := ih ho
    refine ⟨by simp [names], fun x member => ?_⟩
    rcases List.mem_cons.mp member with rfl | inside
    · exact ⟨tree, ht, List.mem_cons_self⟩
    · obtain ⟨t, same, found⟩ := each x inside
      exact ⟨t, same, List.mem_cons_of_mem _ found⟩

def fieldOf? (fields : List Field) (name : Option Text) : Option Field :=
  name.bind fun text => fields.find? (·.name.toList == text)

def knownNames (fields : List Field) (names : List (Option Text)) : List String :=
  names.filterMap fun name => (fieldOf? fields name).map (·.name)

theorem knownNamesCons (fields : List Field) (name : Option Text) (rest : List (Option Text)) :
    knownNames fields (name :: rest) =
      ((fieldOf? fields name).map (·.name)).toList ++ knownNames fields rest := by
  cases h : fieldOf? fields name <;> simp [knownNames, h]

def memberPasses (fields : List Field) (m : Key × Node) : Prop :=
  match fieldOf? fields m.1.name.toOption with
  | some field => field.fault? m.2 = none
  | none => m.2.skipFault? = none

theorem membersPass {fields : List Field} {members : List (Key × Node)} {seen : List String} :
    memberFault? fields seen members = none ↔
      (∀ m ∈ members, m.1.name.toOption.isSome = true) ∧
      (knownNames fields (members.map (·.1.name.toOption))).Nodup ∧
      (∀ name ∈ knownNames fields (members.map (·.1.name.toOption)), name ∉ seen) ∧
      (∀ m ∈ members, memberPasses fields m) := by
  -- What has been seen grows by the name of each known field, so the names stay distinct from it.
  induction members generalizing seen with
  | nil => simp [memberFault?, knownNames]
  | cons m rest ih =>
    obtain ⟨⟨name, stop⟩, node⟩ := m
    rw [List.map_cons, knownNamesCons, List.forall_mem_cons, List.forall_mem_cons]
    cases name with
    | error fault => simp [memberFault?, Except.toOption]
    | ok text =>
      have key : fieldOf? fields (Except.ok text : Except Fault Text).toOption =
        fields.find? (·.name.toList == text) := rfl
      have isText : (Except.ok text : Except Fault Text).toOption.isSome = true := rfl
      cases found : fields.find? (·.name.toList == text) with
      | none =>
        have head : memberPasses fields (⟨.ok text, stop⟩, node) ↔ node.skipFault? = none := by
          simp only [memberPasses, key, found]
        simp only [memberFault?, found, head, key, Option.or_eq_none_iff, ih, Option.map_none,
          Option.toList_none, List.nil_append, isText, true_and]
        exact and_left_comm.trans (and_congr_right fun _ => and_left_comm.trans
          (and_congr_right fun _ => and_left_comm))
      | some field =>
        have head : memberPasses fields (⟨.ok text, stop⟩, node) ↔ field.fault? node = none := by
          simp only [memberPasses, key, found]
        simp only [memberFault?, found, head, key, Option.map_some, Option.toList_some,
          List.singleton_append, List.nodup_cons, List.forall_mem_cons, isText, true_and]
        by_cases twice : field.name ∈ seen
        · simp [twice]
        · simp only [twice, if_false, Option.or_eq_none_iff, ih, List.mem_cons, not_or]
          grind

theorem keyNamed (key : Key) (name : String) :
    key.isNamed name = (key.name.toOption == some name.toList) := by
  obtain ⟨text, stop⟩ := key
  cases text <;> simp [Key.isNamed, Except.toOption]

theorem notMissing {fields : List Field} {members : List (Key × Node)} {stop : Nat}
    (present : ∀ field ∈ fields, field.required = true →
      some field.name.toList ∈ members.map (·.1.name.toOption)) :
    missingFault? members stop fields = none := by
  simp only [missingFault?, Option.map_eq_none_iff, List.find?_eq_none]
  intro field member missing
  simp only [Bool.and_eq_true, Bool.not_eq_true', List.any_eq_false] at missing
  obtain ⟨m, inside, named⟩ := List.mem_map.mp (present field member missing.1)
  exact missing.2 m inside (by simp [keyNamed, named])

/-- The members of an object are those of a record: every key is a text, no known field comes
twice, every required one is there, and each value is accepted by its field. -/
structure FieldsFit (fields : List Field) (trees : List (Option Text × Tree)) : Prop where
  named : ∀ m ∈ trees, m.1.isSome = true
  distinct : (knownNames fields (trees.map (·.1))).Nodup
  accepted : ∀ m ∈ trees, ∀ field, fieldOf? fields m.1 = some field →
    ∀ node, node.tree? = some m.2 → field.fault? node = none
  present : ∀ field ∈ fields, field.required = true → some field.name.toList ∈ trees.map (·.1)

theorem recordFits (name : String) (fields : List Field) {trees : List (Option Text × Tree)}
    {node : Node} (means : node.tree? = some (.object trees)) (fits : FieldsFit fields trees) :
    recordFault? name fields node = none := by
  obtain ⟨members, stop, start, rfl, inner⟩ := nodeForm means
  obtain ⟨names, each⟩ := memberTreesAt inner
  have pass : memberFault? fields [] members = none := by
    refine membersPass.mpr ⟨?_, names ▸ fits.distinct, fun _ _ => List.not_mem_nil, ?_⟩
    · intro m member
      obtain ⟨tree, -, inside⟩ := each m member
      exact fits.named _ inside
    · intro m member
      obtain ⟨tree, same, inside⟩ := each m member
      unfold memberPasses
      split
      · exact fits.accepted _ inside _ ‹_› _ same
      · exact skipWhole m.2 tree same
  simp [recordFault?, pass, Close.objectFault?, notMissing (names ▸ fits.present)]

theorem recordIncomplete (name : String) {fields : List Field} {field : Field}
    (member : field ∈ fields) (required : field.required = true)
    {trees : List (Option Text × Tree)} {node : Node} (means : node.tree? = some (.object trees))
    (missing : some field.name.toList ∉ trees.map (·.1)) :
    (recordFault? name fields node).isNone = false := by
  obtain ⟨members, stop, start, rfl, inner⟩ := nodeForm means
  rw [← (memberTreesAt inner).1] at missing
  have absent : members.any (·.1.isNamed field.name) = false := by
    simp only [List.any_eq_false, keyNamed]
    intro m inside named
    exact missing (List.mem_map.mpr ⟨m, inside, by simpa using named⟩)
  have found : (missingFault? members stop fields).isSome = true := by
    simp only [missingFault?, Option.isSome_map, List.find?_isSome]
    exact ⟨field, member, by simp [required, absent]⟩
  simp only [recordFault?, Close.stop]
  cases h : missingFault? members stop fields with
  | none => simp [h] at found
  | some fault => simp

inductive Gives (all : List Field) : List Field → List (Option Text × Tree) → Prop where
  | nil : Gives all [] []
  | given {field fields tree trees}
      (accepted : ∀ node, node.tree? = some tree → field.fault? node = none)
      (more : Gives all fields trees) :
      Gives all (field :: fields) ((some field.name.toList, tree) :: trees)
  | absent {field fields trees} (optional : field.required = false)
      (more : Gives all fields trees) : Gives all (field :: fields) trees
  | other {key fields tree trees} (unknown : fieldOf? all (some key) = none)
      (more : Gives all fields trees) : Gives all fields ((some key, tree) :: trees)

theorem fieldFound {all : List Field} (distinct : (all.map (·.name)).Nodup) {field : Field}
    (member : field ∈ all) : fieldOf? all (some field.name.toList) = some field := by
  induction all with
  | nil => cases member
  | cons first rest ih =>
    obtain ⟨fresh, others⟩ := List.nodup_cons.mp distinct
    by_cases same : first.name = field.name
    · rcases List.mem_cons.mp member with rfl | inside
      · simp [fieldOf?]
      · exact absurd (List.mem_map.mpr ⟨field, inside, same.symm⟩) fresh
    · rcases List.mem_cons.mp member with rfl | inside
      · exact absurd rfl same
      · have differ : first.name.toList ≠ field.name.toList := fun h => same (String.toList_inj.mp h)
        simpa [fieldOf?, differ] using ih others inside

theorem givesFits {all : List Field} (distinct : (all.map (·.name)).Nodup)
    {trees : List (Option Text × Tree)} (gives : Gives all all trees) : FieldsFit all trees := by
  suffices general : ∀ fields, Gives all fields trees → fields.Sublist all →
      (∀ m ∈ trees, m.1.isSome = true) ∧
      (knownNames all (trees.map (·.1))).Sublist (fields.map (·.name)) ∧
      (∀ m ∈ trees, ∀ field, fieldOf? all m.1 = some field →
        ∀ node, node.tree? = some m.2 → field.fault? node = none) ∧
      (∀ field ∈ fields, field.required = true → some field.name.toList ∈ trees.map (·.1)) by
    obtain ⟨named, known, accepted, present⟩ := general all gives (List.Sublist.refl all)
    exact ⟨named, known.nodup distinct, accepted, present⟩
  -- The induction is on the fields that are still to come, while keys are looked up among all of them.
  intro fields part below
  clear gives
  induction part with
  | nil => simp [knownNames]
  | @given field fields tree trees accepted more ih =>
    have found := fieldFound distinct (below.subset List.mem_cons_self)
    obtain ⟨named, known, others, present⟩ := ih ((List.sublist_cons_self field fields).trans below)
    refine ⟨by simpa using named, ?_, ?_, ?_⟩
    · rw [List.map_cons, knownNamesCons, found]
      exact known.cons_cons field.name
    · rw [List.forall_mem_cons]
      refine ⟨fun f same => ?_, others⟩
      obtain rfl : field = f := Option.some.inj (found.symm.trans same)
      exact accepted
    · rw [List.forall_mem_cons]
      exact ⟨fun _ => List.mem_cons_self,
        fun f member required => List.mem_cons_of_mem _ (present f member required)⟩
  | @absent field fields trees optional more ih =>
    obtain ⟨named, known, others, present⟩ := ih ((List.sublist_cons_self field fields).trans below)
    refine ⟨named, known.cons field.name, others, ?_⟩
    rw [List.forall_mem_cons]
    exact ⟨fun required => by simp [optional] at required, present⟩
  | @other key fields tree trees unknown more ih =>
    obtain ⟨named, known, others, present⟩ := ih below
    refine ⟨by simpa using named, ?_, ?_, ?_⟩
    · rw [List.map_cons, knownNamesCons, unknown]
      exact known
    · rw [List.forall_mem_cons]
      exact ⟨fun f same => by simp [unknown] at same, others⟩
    · exact fun f member required => List.mem_cons_of_mem _ (present f member required)

def memberOf? (name : String) : List (Option Text × Tree) → Option Tree
  | [] => none
  | (key, tree) :: rest => if key = some name.toList then some tree else memberOf? name rest

theorem memberFound {members : List (Key × Node)} {trees : List (Option Text × Tree)}
    (means : memberTrees? members = some trees) (name : String) :
    ((members.find? (·.1.isNamed name)).map (·.2)).bind Node.tree? = memberOf? name trees ∧
      ((members.find? (·.1.isNamed name)).isSome = (memberOf? name trees).isSome) := by
  induction members generalizing trees with
  | nil =>
    cases means
    exact ⟨rfl, rfl⟩
  | cons m rest ih =>
    obtain ⟨tree, others, ht, ho, rfl⟩ := memberTreesCons means
    rw [List.find?_cons, keyNamed]
    by_cases same : m.1.name.toOption = some name.toList
    · simp [memberOf?, same, ht]
    · have other : (m.1.name.toOption == some name.toList) = false := beq_false_of_ne same
      simpa [memberOf?, same, other] using ih ho

theorem memberOfAppend (name : String) (front back : List (Option Text × Tree)) :
    memberOf? name (front ++ back) = (memberOf? name front).or (memberOf? name back) := by
  induction front with
  | nil => rfl
  | cons m rest ih =>
    by_cases same : m.1 = some name.toList <;> simp [memberOf?, same, ih]

theorem readPresent {α : Type} {d : Decoder α} {trees : List (Option Text × Tree)} {node : Node}
    {name : String} {tree : Tree} {a : α} (means : node.tree? = some (.object trees))
    (found : memberOf? name trees = some tree) (taken : d.Takes tree a) (index : Nat)
    (default : α) : node.read index name d default = a := by
  obtain ⟨members, stop, start, rfl, inner⟩ := nodeForm means
  obtain ⟨value, -⟩ := memberFound inner name
  rw [found, Option.bind_eq_some_iff] at value
  obtain ⟨n, field, same⟩ := value
  simp only [Node.read, Node.field?, field]
  exact (taken n same).2

theorem readAbsent {α : Type} {trees : List (Option Text × Tree)} {node : Node} {name : String}
    (means : node.tree? = some (.object trees)) (found : memberOf? name trees = none)
    (d : Decoder α) (index : Nat) (default : α) : node.read index name d default = default := by
  obtain ⟨members, stop, start, rfl, inner⟩ := nodeForm means
  obtain ⟨-, isSome⟩ := memberFound inner name
  rw [found, Option.isSome_none, Option.isSome_eq_false_iff, Option.isNone_iff_eq_none] at isSome
  simp [Node.read, Node.field?, isSome]

theorem parseReads {text front back : Text} {tree : Tree} (reads : Reads text tree)
    (before : Blank front) (behind : Blank back) :
    ∃ node next, Node.parse (front ++ (text ++ back)) = (node, ⟨next, back⟩) ∧
      node.tree? = some tree ∧ (Cursor.skipSpace ⟨next, back⟩).rest = [] := by
  have stops : Stops back := by
    intro c head
    cases back with
    | nil => cases head
    | cons b more =>
      obtain rfl : b = c := by simpa using head
      exact spaceStops (behind b List.mem_cons_self)
  obtain ⟨node, next, found, means⟩ := reads.read (2 * (front ++ (text ++ back)).length + 2)
    front.length back (by simp only [List.length_append]; omega) stops
  have done : (Cursor.skipSpace ⟨next, back⟩).rest = [] := by
    have rest : (back ++ []).dropWhile isSpace = [] := List.dropWhile_append_of_pos behind
    simpa [Cursor.skipSpace] using rest
  refine ⟨node, next, ?_, means, done⟩
  rw [Node.parse, valueBehind before (opensAppend reads.opens back), Nat.zero_add, found]

theorem decodeReads {α : Type} {d : Decoder α} {text front back : Text} {tree : Tree} {a : α}
    (reads : Reads text tree) (taken : d.Takes tree a) (before : Blank front)
    (behind : Blank back) : decode d (front ++ (text ++ back)) = .ok a := by
  obtain ⟨node, next, parsed, means, done⟩ := parseReads reads before behind
  obtain ⟨accepted, read⟩ := taken node means
  simp [decode, parsed, accepted, done, read]

end ShaderReflection.Json
