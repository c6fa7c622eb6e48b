import Mathlib.Data.List.Nodup
import ShaderReflection.Proofs.Files.Pieces
/-!
Trees of files as maps. A tree is sound if it is one that a file system can hold; putting something
into a directory keeps it sound. Two trees are compared by what changed from one to the other:
directories may come where nothing stood, and files change at the given locations alone.
-/
namespace ShaderReflection.FileTree
open Text

/-- What the entries of a file system satisfy: one entry at a location, every name one that can be
listed, every parent a directory, and the program inside a directory. -/
structure Sound (tree : FileTree) : Prop where
  distinct : (tree.nodes.map (·.1)).Nodup
  named : ∀ n ∈ tree.nodes, ∀ name ∈ n.1, Path.IsName name ∧ utf8Length name ≤ 255
  within : ∀ n ∈ tree.nodes, tree.isDirectoryAt n.1.dropLast = true
  working : tree.isDirectoryAt tree.cwd = true

instance (tree : FileTree) : Decidable tree.Sound :=
  decidable_of_iff ((tree.nodes.map (·.1)).Nodup ∧
      (∀ n ∈ tree.nodes, ∀ name ∈ n.1, Path.IsName name ∧ utf8Length name ≤ 255) ∧
      (∀ n ∈ tree.nodes, tree.isDirectoryAt n.1.dropLast = true) ∧
      tree.isDirectoryAt tree.cwd = true)
    ⟨fun ⟨a, b, c, d⟩ => ⟨a, b, c, d⟩, fun ⟨a, b, c, d⟩ => ⟨a, b, c, d⟩⟩

section Replaced
variable {location other : Location} (node : FileNode)

theorem replacedOther (different : other ≠ location) (nodes : List (Location × FileNode)) :
    (nodes.map fun n => if n.1 == location then (location, node) else n).find? (·.1 == other) =
      nodes.find? (·.1 == other) := by
  induction nodes with
  | nil => rfl
  | cons n rest ih =>
    rw [List.map_cons, List.find?_cons, List.find?_cons, ih]
    by_cases same : n.1 = location
    · rw [if_pos (beq_iff_eq.mpr same), same, beq_false_of_ne (Ne.symm different)]
    · rw [if_neg (by simpa using same)]

theorem replacedThere {nodes : List (Location × FileNode)}
    (there : nodes.any (·.1 == location) = true) :
    (nodes.map fun n => if n.1 == location then (location, node) else n).find? (·.1 == location) =
      some (location, node) := by
  induction nodes with
  | nil => cases there
  | cons n rest ih =>
    rw [List.map_cons, List.find?_cons]
    by_cases same : n.1 = location
    · rw [if_pos (beq_iff_eq.mpr same), beq_self_eq_true]
    · have other : (n.1 == location) = false := beq_false_of_ne same
      rw [List.any_cons, other, Bool.false_or] at there
      rw [if_neg (by simpa using same), other]
      exact ih there

end Replaced

section Nodes
variable (tree : FileTree) {location : Location}

theorem getInner (inner : location ≠ []) :
    tree.get? location = (tree.nodes.find? (·.1 == location)).map (·.2) := by
  rw [get?, if_neg (by simpa using inner)]

theorem getMember {n : Location × FileNode} (distinct : (tree.nodes.map (·.1)).Nodup)
    (member : n ∈ tree.nodes) (inner : n.1 ≠ []) : tree.get? n.1 = some n.2 := by
  rw [tree.getInner inner]
  cases found : tree.nodes.find? (·.1 == n.1) with
  | none => exact absurd (beq_self_eq_true n.1) (List.find?_eq_none.mp found n member)
  | some other =>
    have same : other.1 = n.1 := by simpa using List.find?_some found
    rw [List.inj_on_of_nodup_map distinct (List.mem_of_find?_eq_some found) member same]
    rfl

theorem memberOfGet {node : FileNode} (inner : location ≠ [])
    (found : tree.get? location = some node) : (location, node) ∈ tree.nodes := by
  rw [tree.getInner inner, Option.map_eq_some_iff] at found
  obtain ⟨n, found, rfl⟩ := found
  obtain rfl : n.1 = location := by simpa using List.find?_some found
  exact List.mem_of_find?_eq_some found

theorem getPut (inner : location ≠ []) (node : FileNode) (other : Location) :
    (tree.put location node).get? other =
      if other = location then some node else tree.get? other := by
  by_cases root : other = []
  · rw [root, if_neg (Ne.symm inner)]
    rfl
  rw [getInner _ root, tree.getInner root, put]
  split
  · rename_i there
    split
    · rename_i same
      rw [same, replacedThere node there]
      rfl
    · rename_i different
      rw [replacedOther node different]
  · rename_i absent
    rw [List.find?_append, List.find?_singleton]
    by_cases same : other = location
    · have none : tree.nodes.find? (·.1 == location) = none :=
        List.find?_eq_none.mpr fun n member this => absent (List.any_eq_true.mpr ⟨n, member, this⟩)
      rw [same, none, if_pos rfl, if_pos (beq_self_eq_true location)]
      rfl
    · rw [if_neg same, if_neg (by simpa using Ne.symm same), Option.or_none]

theorem putCwd (node : FileNode) : (tree.put location node).cwd = tree.cwd := by
  unfold put
  split <;> rfl

theorem directoryFound : tree.isDirectoryAt location = true ↔
    tree.get? location = some .directory := by
  unfold isDirectoryAt
  split
  · rename_i found
    exact ⟨fun _ => found, fun _ => rfl⟩
  · rename_i other
    exact ⟨nofun, fun found => absurd found other⟩

theorem putMember {node : FileNode} {n : Location × FileNode}
    (member : n ∈ (tree.put location node).nodes) : n ∈ tree.nodes ∨ n = (location, node) := by
  unfold put at member
  split at member
  · obtain ⟨old, inside, rfl⟩ := List.mem_map.mp member
    split
    · exact .inr rfl
    · exact .inl inside
  · rcases List.mem_append.mp member with inside | new
    · exact .inl inside
    · exact .inr (List.mem_singleton.mp new)

end Nodes

namespace Sound
variable {tree : FileTree} (sound : tree.Sound) {location : Location}
include sound

theorem namesListed (present : tree.get? location ≠ none) :
    ∀ name ∈ location, Path.IsName name ∧ utf8Length name ≤ 255 := by
  by_cases root : location = []
  · rw [root]
    exact List.forall_mem_nil _
  obtain ⟨node, found⟩ := Option.ne_none_iff_exists'.mp present
  exact sound.named _ (tree.memberOfGet root found)

theorem putSame {node : FileNode} (inner : location ≠ [])
    (found : tree.get? location = some node) : tree.put location node = tree := by
  have member := tree.memberOfGet inner found
  unfold put
  rw [if_pos (List.any_eq_true.mpr ⟨_, member, beq_self_eq_true location⟩)]
  have same : (tree.nodes.map fun n => if n.1 == location then (location, node) else n) =
      tree.nodes := by
    refine (List.map_congr_left fun n inside => ?_).trans (List.map_id _)
    split
    · rename_i this
      exact List.inj_on_of_nodup_map sound.distinct member inside (beq_iff_eq.mp this).symm
    · rfl
  rw [same]

theorem put {name : Text} {node : FileNode} (directory : tree.isDirectoryAt location = true)
    (named : Path.IsName name) (short : utf8Length name ≤ 255)
    (free : tree.isDirectoryAt (location ++ [name]) = true → node = .directory) :
    (tree.put (location ++ [name]) node).Sound := by
  have inner : location ++ [name] ≠ [] := by simp
  have standing {l : Location} (stands : tree.isDirectoryAt l = true) :
      (tree.put (location ++ [name]) node).isDirectoryAt l = true := by
    rw [directoryFound, getPut _ inner]
    split
    · rename_i same
      rw [free (same ▸ stands)]
    · exact (tree.directoryFound).mp stands
  have names : ∀ part ∈ location, Path.IsName part ∧ utf8Length part ≤ 255 := by
    refine sound.namesListed ?_
    rw [(tree.directoryFound).mp directory]
    exact Option.some_ne_none _
  constructor
  · unfold FileTree.put
    split
    · have keys : ((tree.nodes.map fun n =>
          if n.1 == location ++ [name] then (location ++ [name], node) else n).map (·.1)) =
            tree.nodes.map (·.1) := by
        rw [List.map_map]
        refine List.map_congr_left fun n _ => ?_
        by_cases same : n.1 = location ++ [name] <;> simp [same]
      rw [keys]
      exact sound.distinct
    · rename_i absent
      rw [List.map_append]
      refine sound.distinct.append (List.nodup_singleton _) ?_
      intro key old new
      obtain ⟨n, member, same⟩ := List.mem_map.mp old
      obtain rfl := List.mem_singleton.mp new
      exact absent (List.any_eq_true.mpr ⟨n, member, beq_iff_eq.mpr same⟩)
  · intro n member
    rcases tree.putMember member with old | rfl
    · exact sound.named n old
    · exact List.forall_mem_append.mpr ⟨names, List.forall_mem_singleton.mpr ⟨named, short⟩⟩
  · intro n member
    rcases tree.putMember member with old | rfl
    · exact standing (sound.within n old)
    · rw [List.dropLast_concat]
      exact standing directory
  · rw [putCwd]
    exact standing sound.working

end Sound

/-- How a tree may become another: a directory may come where nothing stood, and a file may come or
change where it is written. -/
structure Grows (written : Location → Prop) (before after : FileTree) : Prop where
  cwd : after.cwd = before.cwd
  nodes : ∀ l, after.get? l = before.get? l ∨
    before.get? l = none ∧ after.get? l = some .directory ∨
    written l ∧ before.get? l ≠ some .directory ∧
      ∃ content executable, after.get? l = some (.file content executable)

section Grows
variable {written : Location → Prop} {before after : FileTree}

theorem growsSelf (tree : FileTree) : Grows written tree tree := ⟨rfl, fun _ => .inl rfl⟩

theorem growsTrans {final : FileTree} (first : Grows written before after)
    (second : Grows written after final) : Grows written before final where
  cwd := second.cwd.trans first.cwd
  nodes l := by
    rcases second.nodes l with same | ⟨none, new⟩ | ⟨there, other, file⟩
    · rw [same]
      exact first.nodes l
    · rcases first.nodes l with same | ⟨-, old⟩ | ⟨-, -, _, _, old⟩
      · exact .inr (.inl ⟨same ▸ none, new⟩)
      · rw [none] at old
        cases old
      · rw [none] at old
        cases old
    · rcases first.nodes l with same | ⟨-, old⟩ | ⟨-, free, -⟩
      · exact .inr (.inr ⟨there, same ▸ other, file⟩)
      · exact absurd old other
      · exact .inr (.inr ⟨there, free, file⟩)

theorem growsMore {more : Location → Prop} (wider : ∀ l, written l → more l)
    (grows : Grows written before after) : Grows more before after where
  cwd := grows.cwd
  nodes l := (grows.nodes l).imp_right (.imp_right (.imp_left (wider l)))

namespace Grows
variable (grows : Grows written before after) {location : Location}
include grows

theorem directory (stands : before.isDirectoryAt location = true) :
    after.isDirectoryAt location = true := by
  rw [directoryFound] at stands ⊢
  rcases grows.nodes location with same | ⟨none, -⟩ | ⟨-, other, -⟩
  · rw [same, stands]
  · rw [none] at stands
    cases stands
  · exact absurd stands other

theorem present (stands : before.get? location ≠ none) : after.get? location ≠ none := by
  rcases grows.nodes location with same | ⟨none, -⟩ | ⟨-, -, _, _, file⟩
  · rwa [same]
  · exact absurd none stands
  · rw [file]
    exact Option.some_ne_none _

theorem kept (elsewhere : ¬written location) (stands : before.get? location ≠ none) :
    after.get? location = before.get? location := by
  rcases grows.nodes location with same | ⟨none, -⟩ | ⟨there, -⟩
  · exact same
  · exact absurd none stands
  · exact absurd there elsewhere

theorem file {content : ByteArray} {executable : Bool}
    (stands : before.get? location = some (.file content executable)) :
    ∃ content executable, after.get? location = some (.file content executable) := by
  rcases grows.nodes location with same | ⟨none, -⟩ | ⟨-, -, file⟩
  · exact ⟨content, executable, same.trans stands⟩
  · rw [none] at stands
    cases stands
  · exact file

end Grows

theorem growsDirectory {tree : FileTree} {location : Location} (inner : location ≠ [])
    (free : tree.get? location = none) : Grows written tree (tree.put location .directory) where
  cwd := tree.putCwd _
  nodes l := by
    rw [getPut _ inner]
    split
    · rename_i same
      exact .inr (.inl ⟨same ▸ free, rfl⟩)
    · exact .inl rfl

theorem growsFile {tree : FileTree} {location : Location} (inner : location ≠ [])
    (there : written location) (free : tree.isDirectoryAt location = false) (content : ByteArray)
    (executable : Bool) : Grows written tree (tree.put location (.file content executable)) where
  cwd := tree.putCwd _
  nodes l := by
    rw [getPut _ inner]
    split
    · rename_i same
      refine .inr (.inr ⟨same ▸ there, fun stands => ?_, content, executable, rfl⟩)
      rw [same, ← directoryFound, free] at stands
      cases stands
    · exact .inl rfl

end Grows
end ShaderReflection.FileTree
