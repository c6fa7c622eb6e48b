import ShaderReflection.Json.Decoder
/-!
What a JSON text says, apart from the places in it. A decoder looks at a tree with places; here is
what it finds on any tree that says a given thing, wherever its parts stand in the text.
-/
namespace ShaderReflection.Json

/-- What a JSON text says. A numeral or a string that is well-formed and stands for no number or
text is `none`. -/
inductive Tree where
  | null
  | boolean (value : Bool)
  | number (value : Option Number)
  | string (value : Option Text)
  | array (items : List Tree)
  | object (members : List (Option Text × Tree))

mutual

def Node.tree? : Node → Option Tree
  | .null _ _ => some .null
  | .boolean value _ _ => some (.boolean value)
  | .number value _ _ => some (.number value.toOption)
  | .string value _ _ => some (.string value.toOption)
  | .array items (.closed _) _ => (itemTrees? items).map .array
  | .object members (.closed _) _ => (memberTrees? members).map .object
  | _ => none

def itemTrees? : List Node → Option (List Tree)
  | [] => some []
  | item :: rest => item.tree?.bind fun tree => (itemTrees? rest).map (tree :: ·)

def memberTrees? : List (Key × Node) → Option (List (Option Text × Tree))
  | [] => some []
  | (key, node) :: rest =>
    node.tree?.bind fun tree => (memberTrees? rest).map ((key.name.toOption, tree) :: ·)

end

mutual

def Tree.fits (depth : Nat) : Tree → Bool
  | .null | .boolean _ => true
  | .number value => value.isSome
  | .string value => value.isSome
  | .array items => decide (1 < depth) && itemsFit (depth - 1) items
  | .object members => decide (1 < depth) && membersFit (depth - 1) members

def itemsFit (depth : Nat) : List Tree → Bool
  | [] => true
  | item :: rest => item.fits depth && itemsFit depth rest

def membersFit (depth : Nat) : List (Option Text × Tree) → Bool
  | [] => true
  | (name, tree) :: rest => name.isSome && tree.fits depth && membersFit depth rest

end

theorem itemTreesCons {item rest trees} (h : itemTrees? (item :: rest) = some trees) :
    ∃ tree others, item.tree? = some tree ∧ itemTrees? rest = some others ∧
      trees = tree :: others := by
  simp only [itemTrees?, Option.bind_eq_some_iff, Option.map_eq_some_iff] at h
  obtain ⟨tree, ht, others, ho, rfl⟩ := h
  exact ⟨tree, others, ht, ho, rfl⟩

theorem memberTreesCons {key node rest trees} (h : memberTrees? ((key, node) :: rest) = some trees) :
    ∃ tree others, node.tree? = some tree ∧ memberTrees? rest = some others ∧
      trees = (key.name.toOption, tree) :: others := by
  simp only [memberTrees?, Option.bind_eq_some_iff, Option.map_eq_some_iff] at h
  obtain ⟨tree, ht, others, ho, rfl⟩ := h
  exact ⟨tree, others, ht, ho, rfl⟩

theorem arrayTree {items close start tree} (h : (Node.array items close start).tree? = some tree) :
    ∃ stop trees, close = .closed stop ∧ itemTrees? items = some trees ∧ tree = .array trees := by
  cases close with
  | closed stop =>
    simp only [Node.tree?, Option.map_eq_some_iff] at h
    obtain ⟨trees, ht, rfl⟩ := h
    exact ⟨stop, trees, rfl, ht, rfl⟩
  | cut gap place => simp [Node.tree?] at h

theorem objectTree {members close start tree}
    (h : (Node.object members close start).tree? = some tree) :
    ∃ stop trees, close = .closed stop ∧ memberTrees? members = some trees ∧
      tree = .object trees := by
  cases close with
  | closed stop =>
    simp only [Node.tree?, Option.map_eq_some_iff] at h
    obtain ⟨trees, ht, rfl⟩ := h
    exact ⟨stop, trees, rfl, ht, rfl⟩
  | cut gap place => simp [Node.tree?] at h

mutual

theorem skipWhole : (node : Node) → (tree : Tree) → node.tree? = some tree →
    node.skipFault? = none
  | .null _ _, _, _ | .boolean _ _ _, _, _ | .number _ _ _, _, _ | .string _ _ _, _, _ => rfl
  | .array items close start, tree, h => by
    obtain ⟨stop, trees, rfl, ht, -⟩ := arrayTree h
    simp [Node.skipFault?, skipWholeItems items trees ht, Close.skippedListFault?]
  | .object members close start, tree, h => by
    obtain ⟨stop, trees, rfl, ht, -⟩ := objectTree h
    simp [Node.skipFault?, skipWholeMembers members trees ht, Close.skippedObjectFault?]
  | .broken _ _ _, _, h => by simp [Node.tree?] at h

theorem skipWholeItems : (items : List Node) → (trees : List Tree) →
    itemTrees? items = some trees → skipItems items = none
  | [], _, _ => rfl
  | item :: rest, trees, h => by
    obtain ⟨tree, others, ht, ho, -⟩ := itemTreesCons h
    simp [skipItems, skipWhole item tree ht, skipWholeItems rest others ho]

theorem skipWholeMembers : (members : List (Key × Node)) → (trees : List (Option Text × Tree)) →
    memberTrees? members = some trees → skipMembers members = none
  | [], _, _ => rfl
  | (key, node) :: rest, trees, h => by
    obtain ⟨tree, others, ht, ho, -⟩ := memberTreesCons h
    simp [skipMembers, skipWhole node tree ht, skipWholeMembers rest others ho]

end

theorem faultOfNone {α : Type} (value : Except Fault α) :
    faultOf? value = none ↔ value.toOption.isSome := by
  cases value <;> simp [faultOf?, Except.toOption]

mutual

theorem bufferWhole (depth : Nat) : (node : Node) → (tree : Tree) → node.tree? = some tree →
    (node.bufferFault? depth = none ↔ tree.fits depth)
  | .null _ _, _, h | .boolean _ _ _, _, h => by
    cases h
    simp [Node.bufferFault?, Tree.fits]
  | .number value _ _, _, h | .string value _ _, _, h => by
    cases h
    simp [Node.bufferFault?, Tree.fits, faultOfNone]
  | .array items close start, tree, h => by
    obtain ⟨stop, trees, rfl, ht, rfl⟩ := arrayTree h
    by_cases deep : depth ≤ 1
    · simp [Node.bufferFault?, Tree.fits, deep, Nat.not_lt.mpr deep]
    · have inner := bufferWholeItems (depth - 1) items trees ht
      simp [Node.bufferFault?, Tree.fits, deep, Close.listFault?, inner]
      omega
  | .object members close start, tree, h => by
    obtain ⟨stop, trees, rfl, ht, rfl⟩ := objectTree h
    by_cases deep : depth ≤ 1
    · simp [Node.bufferFault?, Tree.fits, deep, Nat.not_lt.mpr deep]
    · have inner := bufferWholeMembers (depth - 1) members trees ht
      simp [Node.bufferFault?, Tree.fits, deep, Close.objectFault?, inner]
      omega
  | .broken _ _ _, _, h => by simp [Node.tree?] at h

theorem bufferWholeItems (depth : Nat) : (items : List Node) → (trees : List Tree) →
    itemTrees? items = some trees → (bufferItems depth items = none ↔ itemsFit depth trees)
  | [], _, h => by
    cases h
    simp [bufferItems, itemsFit]
  | item :: rest, trees, h => by
    obtain ⟨tree, others, ht, ho, rfl⟩ := itemTreesCons h
    simp [bufferItems, itemsFit, bufferWhole depth item tree ht,
      bufferWholeItems depth rest others ho]

theorem bufferWholeMembers (depth : Nat) : (members : List (Key × Node)) →
    (trees : List (Option Text × Tree)) → memberTrees? members = some trees →
    (bufferMembers depth members = none ↔ membersFit depth trees)
  | [], _, h => by
    cases h
    simp [bufferMembers, membersFit]
  | (key, node) :: rest, trees, h => by
    obtain ⟨tree, others, ht, ho, rfl⟩ := memberTreesCons h
    simp [bufferMembers, membersFit, bufferWhole depth node tree ht, faultOfNone,
      bufferWholeMembers depth rest others ho]

end

end ShaderReflection.Json
