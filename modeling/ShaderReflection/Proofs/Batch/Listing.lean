import Mathlib.Data.List.Sort
import ShaderReflection.Proofs.Files.Contents
/-!
The shaders of a source directory: its files of a known stage, each once and in the order of their
names, however the directory is listed.
-/
namespace ShaderReflection
open Text

namespace FileTree

def nameIn? (home location : Location) : Option Text :=
  match location.getLast? with
  | some name => if location.dropLast == home then some name else none
  | none => none

theorem nameInSome {home location : Location} {name : Text} :
    nameIn? home location = some name ↔ location = home ++ [name] := by
  rcases List.eq_nil_or_concat location with rfl | ⟨front, last, rfl⟩
  · exact ⟨nofun, fun same => by simp at same⟩
  · rw [nameIn?, List.concat_eq_append, List.getLast?_concat, List.dropLast_concat]
    dsimp only
    split
    · rename_i inside
      rw [beq_iff_eq.mp inside]
      simp
    · rename_i outside
      refine ⟨nofun, fun same => absurd ?_ outside⟩
      exact beq_iff_eq.mpr (List.append_inj' same rfl).1

variable {tree : FileTree}

theorem namesMap (tree : FileTree) (home : Location) :
    tree.namesAt home = (tree.nodes.map (·.1)).filterMap (nameIn? home) := by
  rw [List.filterMap_map]
  rfl

theorem Sound.namesOnce (sound : tree.Sound) (home : Location) : (tree.namesAt home).Nodup := by
  rw [namesMap]
  refine sound.distinct.filterMap fun a a' name first second => ?_
  rw [nameInSome.mp first, nameInSome.mp second]

theorem Sound.nameListed (sound : tree.Sound) {home : Location} {name : Text} :
    name ∈ tree.namesAt home ↔ tree.get? (home ++ [name]) ≠ none := by
  have inner : home ++ [name] ≠ [] := by simp
  rw [namesMap, List.mem_filterMap]
  constructor
  · rintro ⟨l, member, same⟩
    rw [nameInSome.mp same] at member
    obtain ⟨n, inside, location⟩ := List.mem_map.mp member
    rw [← location, tree.getMember sound.distinct inside (location ▸ inner)]
    exact Option.some_ne_none _
  · intro present
    obtain ⟨node, found⟩ := Option.ne_none_iff_exists'.mp present
    exact ⟨_, List.mem_map_of_mem (tree.memberOfGet inner found), nameInSome.mpr rfl⟩

end FileTree

namespace Batch
open FileTree

theorem textSorted (names : List Text) : (names.mergeSort textLe).Pairwise fun a b => ¬b < a := by
  have le (a b : Text) : textLe a b = true ↔ ¬b < a := by
    rw [textLe, Bool.not_eq_true', decide_eq_false_iff_not]
  have total (a b : Text) : (textLe a b || textLe b a) = true := by
    rw [Bool.or_eq_true, le, le]
    exact List.le_total a b
  have trans (a b c : Text) (first : textLe a b = true) (second : textLe b c = true) :
      textLe a c = true := by
    rw [le] at first second ⊢
    exact List.le_trans first second
  exact (List.pairwise_mergeSort trans total names).imp fun before => (le _ _).mp before

def documentName (name : Text) : Text := name ++ ".meta.json".toList

theorem documentNamed {name : Text} (named : Path.IsName name) : Path.IsName (documentName name) where
  nonempty := by simp [documentName]
  slashless := by simpa [documentName] using named.slashless
  zeroless := by simpa [documentName] using named.zeroless
  current := fun same => absurd (congrArg List.length same) (by simp [documentName])
  parent := fun same => absurd (congrArg List.length same) (by simp [documentName])

theorem documentNameInjective {a b : Text} (same : documentName a = documentName b) : a = b :=
  List.append_cancel_right same

theorem documentNameStage (name : Text) : Stage.ofPath (documentName name) = .unknown := by
  have ends : documentName name = name ++ ".meta".toList ++ '.' :: "json".toList := by
    simp [documentName]
  rw [ends]
  exact Path.stageEnd (by decide) (by decide) (by decide) _ (by decide)

theorem metadataPathJoin {name : Text} (named : Path.IsName name) (metadata source : Path) :
    metadataPath metadata (Path.join source name) = Path.join metadata (documentName name) := by
  rw [metadataPath, Path.besides, Path.fileNameJoin named]
  rfl

structure Shader (b : Batch) (home : Location) (tree : FileTree) (name : Text) : Prop where
  named : Path.IsName name
  fits : Fits b.sourceDirectory name
  known : Stage.ofPath name ≠ .unknown
  file : ∃ content executable, tree.get? (home ++ [name]) = some (.file content executable)

section Shaders
variable {b : Batch} {tree : FileTree} {home : Location}

theorem shaderMember (sound : tree.Sound) (opens : tree.Opens b.sourceDirectory home)
    {name : Text} : Shader b home tree name ↔ name ∈ tree.namesAt home ∧
      (tree.isFile (Path.join b.sourceDirectory name) &&
        Stage.ofPath (Path.join b.sourceDirectory name) != .unknown) = true := by
  rw [sound.nameListed, Bool.and_eq_true, bne_iff_ne]
  constructor
  · rintro ⟨named, fits, known, content, executable, file⟩
    rw [isFileInside opens named, Path.stageJoin named]
    exact ⟨file ▸ Option.some_ne_none _, ⟨fits, content, executable, file⟩, known⟩
  · rintro ⟨present, standing, known⟩
    have named := (sound.namesListed present name (by simp)).1
    rw [isFileInside opens named] at standing
    rw [Path.stageJoin named] at known
    exact ⟨named, standing.1, known, standing.2⟩

theorem shadersListed (sound : tree.Sound) (checked : checkPath b.sourceDirectory = .ok ())
    (opens : tree.Opens b.sourceDirectory home) :
    ∃ names : List Text, b.shaders tree = .ok (names.map (Path.join b.sourceDirectory)) ∧
      names.Pairwise (· < ·) ∧ ∀ name, name ∈ names ↔ Shader b home tree name := by
  have found : tree.resolve b.sourceDirectory = .ok home :=
    (tree.resolveFound).mpr ⟨checked, opens.walked, fun _ => opens.directory⟩
  let handled (name : Text) : Bool := tree.isFile (Path.join b.sourceDirectory name) &&
    Stage.ofPath (Path.join b.sourceDirectory name) != .unknown
  let sorted := (tree.namesAt home).mergeSort textLe
  have permuted : sorted.Perm (tree.namesAt home) := List.mergeSort_perm _ _
  refine ⟨sorted.filter handled, ?_, ?_, fun name => ?_⟩
  · simp only [shaders, list, found, opens.directory, bind, Except.bind, ↓reduceIte, pure,
      Except.pure, List.filter_map]
    rfl
  · have once : sorted.Nodup := (permuted.nodup_iff).mpr (sound.namesOnce home)
    have strict : sorted.Pairwise (· < ·) :=
      ((textSorted _).and once).imp fun {a b} both =>
        Decidable.byContradiction fun after => both.2 (List.le_antisymm both.1 after)
    exact strict.filter handled
  · rw [List.mem_filter, permuted.mem_iff, shaderMember sound opens]

theorem shadersOpen {paths : List Path} (listed : b.shaders tree = .ok paths) :
    checkPath b.sourceDirectory = .ok () ∧ ∃ home, tree.Opens b.sourceDirectory home := by
  cases found : tree.resolve b.sourceDirectory with
  | error cause =>
    rw [shaders, list, found] at listed
    cases listed
  | ok home =>
    obtain ⟨checked, walked, -⟩ := (tree.resolveFound).mp found
    refine ⟨checked, home, walked, ?_⟩
    by_contra blocked
    simp only [shaders, list, found, bind, Except.bind, Bool.eq_false_iff.mpr blocked] at listed
    cases listed

theorem shadersSame {other : FileTree} (sound : tree.Sound) (solid : other.Sound)
    (checked : checkPath b.sourceDirectory = .ok ()) (opens : tree.Opens b.sourceDirectory home)
    (opened : other.Opens b.sourceDirectory home)
    (same : ∀ name, Shader b home other name ↔ Shader b home tree name) :
    b.shaders other = b.shaders tree := by
  obtain ⟨names, listed, sorted, members⟩ := shadersListed sound checked opens
  obtain ⟨names', listed', sorted', members'⟩ := shadersListed solid checked opened
  have alike : names' = names := sorted'.eq_of_mem_iff sorted fun name => by
    rw [members, members', same]
  rw [listed, listed', alike]

section Documents
variable {after : FileTree} {written : Location → Prop} (grows : Grows written tree after)
  (documents : ∀ l, written l → ∃ front name, l = front ++ [documentName name])
include documents

theorem sourceUnwritten {front : Location} {name : Text} (known : Stage.ofPath name ≠ .unknown) :
    ¬written (front ++ [name]) := by
  intro there
  obtain ⟨other, document, same⟩ := documents _ there
  rw [List.singleton_inj.mp (List.append_inj' same rfl).2] at known
  exact known (documentNameStage document)

include grows

theorem sourceKept {front : Location} {name : Text} (known : Stage.ofPath name ≠ .unknown)
    (present : tree.get? (front ++ [name]) ≠ none) :
    after.get? (front ++ [name]) = tree.get? (front ++ [name]) :=
  grows.kept (sourceUnwritten documents known) present

theorem shaderGrows {name : Text} : Shader b home after name ↔ Shader b home tree name := by
  refine ⟨fun shader => { shader with file := ?_ }, fun shader => { shader with file := ?_ }⟩
  · obtain ⟨content, executable, file⟩ := shader.file
    rcases grows.nodes (home ++ [name]) with same | ⟨-, directory⟩ | ⟨there, -⟩
    · exact ⟨content, executable, same ▸ file⟩
    · rw [file] at directory
      cases directory
    · exact absurd there (sourceUnwritten documents shader.known)
  · obtain ⟨content, executable, file⟩ := shader.file
    exact grows.file file

end Documents
end Shaders
end Batch
end ShaderReflection
