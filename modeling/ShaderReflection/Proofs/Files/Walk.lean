import ShaderReflection.Proofs.Files.Tree
/-!
Where paths lead. A path is followed one piece after the other, and what it leads to stays found
while a tree grows. A directory is found by the pieces that lead on alone.
-/
namespace ShaderReflection.FileTree
open Text

def enter (tree : FileTree) (here : Location) (name : Text) : Except OsError Location :=
  if !tree.isDirectoryAt here then .error .notDirectory
  else if name = ['.'] then .ok here
  else if name = ['.', '.'] then .ok here.dropLast
  else if 255 < utf8Length name then .error .nameTooLong
  else if (tree.get? (here ++ [name])).isSome then .ok (here ++ [name])
  else .error .notFound

section Walk
variable (tree : FileTree) {here there : Location}

theorem walkCons (here : Location) (name : Text) (rest : List Text) :
    tree.walk here (name :: rest) = (tree.enter here name).bind fun next => tree.walk next rest := by
  rw [walk, enter]
  repeat' split
  all_goals rfl

theorem walkAppend (here : Location) (front back : List Text) :
    tree.walk here (front ++ back) = (tree.walk here front).bind fun next => tree.walk next back := by
  induction front generalizing here with
  | nil => rfl
  | cons name rest ih =>
    rw [List.cons_append, walkCons, walkCons]
    cases tree.enter here name with
    | error cause => rfl
    | ok next => exact ih next

theorem walkOne (here : Location) (name : Text) : tree.walk here [name] = tree.enter here name := by
  rw [walkCons]
  cases tree.enter here name <;> rfl

theorem walkParts {front back : List Text} (walked : tree.walk here (front ++ back) = .ok there) :
    ∃ next, tree.walk here front = .ok next ∧ tree.walk next back = .ok there := by
  rw [walkAppend] at walked
  cases before : tree.walk here front with
  | error cause =>
    rw [before] at walked
    cases walked
  | ok next =>
    rw [before] at walked
    exact ⟨next, rfl, walked⟩

theorem enterBlocked (blocked : tree.isDirectoryAt here = false) (name : Text) :
    tree.enter here name = .error .notDirectory := by
  rw [enter, if_pos (by rw [blocked]; rfl)]

theorem enterOpen {name : Text} (entered : tree.enter here name = .ok there) :
    tree.isDirectoryAt here = true := by
  by_contra blocked
  rw [tree.enterBlocked (Bool.eq_false_iff.mpr blocked)] at entered
  cases entered

section Directory
variable (directory : tree.isDirectoryAt here = true)
include directory

theorem enterCurrent : tree.enter here ['.'] = .ok here := by
  rw [enter, if_neg (by simp [directory]), if_pos rfl]

theorem enterParent : tree.enter here ['.', '.'] = .ok here.dropLast := by
  rw [enter, if_neg (by simp [directory]), if_neg (by decide), if_pos rfl]

theorem enterNamed {name : Text} (current : name ≠ ['.']) (parent : name ≠ ['.', '.']) :
    tree.enter here name =
      if 255 < utf8Length name then .error .nameTooLong
      else if (tree.get? (here ++ [name])).isSome then .ok (here ++ [name])
      else .error .notFound := by
  rw [enter, if_neg (by simp [directory]), if_neg current, if_neg parent]

end Directory

theorem enterCases {name : Text} (entered : tree.enter here name = .ok there) :
    name = ['.'] ∧ there = here ∨ name = ['.', '.'] ∧ there = here.dropLast ∨
      name ≠ ['.'] ∧ name ≠ ['.', '.'] ∧ utf8Length name ≤ 255 ∧ there = here ++ [name] ∧
        tree.get? there ≠ none := by
  have directory := tree.enterOpen entered
  by_cases current : name = ['.']
  · rw [current, tree.enterCurrent directory] at entered
    exact .inl ⟨current, (Except.ok.inj entered).symm⟩
  by_cases parent : name = ['.', '.']
  · rw [parent, tree.enterParent directory] at entered
    exact .inr (.inl ⟨parent, (Except.ok.inj entered).symm⟩)
  rw [tree.enterNamed directory current parent] at entered
  split at entered
  · cases entered
  · rename_i short
    split at entered
    · rename_i present
      obtain rfl := Except.ok.inj entered
      exact .inr (.inr ⟨current, parent, Nat.le_of_not_lt short, rfl, Option.isSome_iff_ne_none.mp present⟩)
    · cases entered

theorem walkSolid (here : Location) (names : List Text) :
    tree.walk here names = tree.walk here (Path.solid names) ∨
      ∃ last, tree.walk here (Path.solid names) = .ok last ∧ tree.isDirectoryAt last = false ∧
        tree.walk here names = .error .notDirectory := by
  induction names generalizing here with
  | nil => exact .inl rfl
  | cons name rest ih =>
    by_cases current : name = ['.']
    · rw [current, walkCons, Path.solidStay]
      by_cases directory : tree.isDirectoryAt here = true
      · rw [tree.enterCurrent directory]
        exact ih here
      · have blocked := Bool.eq_false_iff.mpr directory
        rw [tree.enterBlocked blocked]
        cases solid : Path.solid rest with
        | nil => exact .inr ⟨here, rfl, blocked, rfl⟩
        | cons next more =>
          rw [walkCons, tree.enterBlocked blocked]
          exact .inl rfl
    · rw [Path.solidStep current, walkCons, walkCons]
      cases tree.enter here name with
      | error cause => exact .inl rfl
      | ok next => exact ih next

theorem walkDirectory {names : List Text} (directory : tree.isDirectoryAt there = true) :
    tree.walk here names = .ok there ↔ tree.walk here (Path.solid names) = .ok there := by
  rcases tree.walkSolid here names with same | ⟨last, solid, blocked, failed⟩
  · rw [same]
  · rw [solid, failed]
    refine ⟨nofun, fun same => ?_⟩
    rw [Except.ok.inj same, directory] at blocked
    cases blocked

end Walk

section Kept
variable {before after : FileTree} {here there : Location}

theorem walkKept {names : List Text}
    (directories : ∀ l, before.isDirectoryAt l = true → after.isDirectoryAt l = true)
    (walked : before.walk here names = .ok there) (stays : after.get? there ≠ none) :
    after.walk here names = .ok there := by
  induction names generalizing here with
  | nil => exact walked
  | cons name rest ih =>
    rw [← List.singleton_append] at walked
    obtain ⟨next, entered, walked⟩ := before.walkParts walked
    rw [before.walkOne] at entered
    have again := ih walked
    have present : after.get? next ≠ none := by
      cases rest with
      | nil =>
        obtain rfl := Except.ok.inj walked
        exact stays
      | cons other more =>
        rw [← List.singleton_append] at walked
        obtain ⟨_, inside, -⟩ := before.walkParts walked
        rw [before.walkOne] at inside
        rw [(after.directoryFound).mp (directories _ (before.enterOpen inside))]
        exact Option.some_ne_none _
    have directory := directories _ (before.enterOpen entered)
    rw [walkCons]
    rcases before.enterCases entered with ⟨rfl, rfl⟩ | ⟨rfl, rfl⟩ | ⟨current, parent, short, rfl, -⟩
    · rw [after.enterCurrent directory]
      exact again
    · rw [after.enterParent directory]
      exact again
    · rw [after.enterNamed directory current parent, if_neg (Nat.not_lt_of_le short),
        if_pos (Option.isSome_iff_ne_none.mpr present)]
      exact again

end Kept

namespace Sound
variable {tree : FileTree} (sound : tree.Sound)
include sound

theorem originStands (path : Path) : tree.isDirectoryAt (tree.origin path) = true := by
  unfold origin
  split
  · rfl
  · exact sound.working

end Sound

theorem checkPassed {path : Path} : checkPath path = .ok () ↔
    '\x00' ∉ path ∧ path ≠ [] ∧ utf8Length path ≤ 4095 := by
  unfold checkPath
  split
  · rename_i zero
    exact ⟨nofun, fun passed => absurd (List.contains_iff_mem.mp zero) passed.1⟩
  · rename_i zeroless
    split
    · rename_i empty
      exact ⟨nofun, fun passed => absurd (List.isEmpty_iff.mp empty) passed.2.1⟩
    · rename_i some'
      split
      · rename_i long
        exact ⟨nofun, fun passed => absurd passed.2.2 (Nat.not_le_of_gt long)⟩
      · rename_i short
        refine ⟨fun _ => ⟨?_, ?_, Nat.le_of_not_lt short⟩, fun _ => rfl⟩
        · exact fun member => zeroless (List.contains_iff_mem.mpr member)
        · exact fun empty => some' (List.isEmpty_iff.mpr empty)

theorem utf8LengthPart {part whole : Text} (inside : part.Sublist whole) :
    utf8Length part ≤ utf8Length whole := by
  induction inside with
  | slnil => exact Nat.le_refl _
  | cons c _ ih => exact Nat.le_trans ih (Nat.le_add_left _ _)
  | cons_cons c _ ih => exact Nat.add_le_add_left ih _

section Resolve
variable (tree : FileTree) {path : Path} {there : Location}

theorem resolveFound : tree.resolve path = .ok there ↔ checkPath path = .ok () ∧
    tree.walk (tree.origin path) (Path.pieces path) = .ok there ∧
      (path.getLast? = some '/' → tree.isDirectoryAt there = true) := by
  unfold resolve
  cases checkPath path with
  | error cause => exact ⟨nofun, nofun⟩
  | ok _ =>
    cases tree.walk (tree.origin path) (Path.pieces path) with
    | error cause => exact ⟨nofun, fun both => nomatch both.2.1⟩
    | ok location =>
      simp only [bind, Except.bind]
      split
      · rename_i refused
        obtain ⟨slash, blocked⟩ : path.getLast? = some '/' ∧ tree.isDirectoryAt location = false := by
          simpa using refused
        refine ⟨nofun, fun ⟨_, same, directory⟩ => ?_⟩
        rw [← Except.ok.inj same, blocked] at directory
        cases directory slash
      · rename_i allowed
        have directory (slash : path.getLast? = some '/') : tree.isDirectoryAt location = true := by
          simpa [slash] using allowed
        refine ⟨fun same => ⟨trivial, same, fun slash => ?_⟩, fun both => both.2.1⟩
        rw [← Except.ok.inj same]
        exact directory slash

/-- A directory that a path leads to. The empty path leads to the working directory here. -/
structure Opens (tree : FileTree) (path : Path) (place : Location) : Prop where
  walked : tree.walk (tree.origin path) (Path.pieces path) = .ok place
  directory : tree.isDirectoryAt place = true

theorem opensSolid {place : Location} : tree.Opens path place ↔
    tree.walk (tree.origin path) (Path.solid (Path.pieces path)) = .ok place ∧
      tree.isDirectoryAt place = true := by
  refine ⟨fun opens => ⟨?_, opens.directory⟩, fun ⟨walked, directory⟩ => ⟨?_, directory⟩⟩
  · exact (tree.walkDirectory opens.directory).mp opens.walked
  · exact (tree.walkDirectory directory).mpr walked

theorem isDirectoryOpens :
    tree.isDirectory path = true ↔ checkPath path = .ok () ∧ ∃ place, tree.Opens path place := by
  unfold isDirectory
  cases found : tree.resolve path with
  | error cause =>
    refine ⟨nofun, fun ⟨checked, place, walked, directory⟩ => ?_⟩
    rw [(tree.resolveFound).mpr ⟨checked, walked, fun _ => directory⟩] at found
    cases found
  | ok location =>
    obtain ⟨checked, walked, -⟩ := (tree.resolveFound).mp found
    refine ⟨fun directory => ⟨checked, location, walked, directory⟩, fun ⟨_, place, opens⟩ => ?_⟩
    rw [Except.ok.inj (walked.symm.trans opens.walked)]
    exact opens.directory

theorem opensUnique {a b : Location} (first : tree.Opens path a) (second : tree.Opens path b) :
    a = b := Except.ok.inj (first.walked.symm.trans second.walked)

section New
variable (checked : checkPath path = .ok ()) {front : List Text} {name : Text}
  (shape : Path.pieces path = front ++ [name])
include checked shape

theorem resolveNewStops {cause : OsError}
    (failed : tree.walk (tree.origin path) front = .error cause) :
    tree.resolveNew path = .error cause := by
  rw [resolveNew, checked, shape, List.getLast?_concat, List.dropLast_concat]
  simp only [failed, bind, Except.bind]

variable {place : Location} (walked : tree.walk (tree.origin path) front = .ok place)
include walked

theorem resolveNewBlocked (blocked : tree.isDirectoryAt place = false) :
    tree.resolveNew path = .error .notDirectory := by
  rw [resolveNew, checked, shape, List.getLast?_concat, List.dropLast_concat]
  simp only [walked, bind, Except.bind, blocked, Bool.not_false, ↓reduceIte]

theorem resolveNewDots (directory : tree.isDirectoryAt place = true)
    (dots : name = ['.'] ∨ name = ['.', '.']) : tree.resolveNew path = .ok (place, none) := by
  rw [resolveNew, checked, shape, List.getLast?_concat, List.dropLast_concat]
  simp only [walked, bind, Except.bind, directory, Bool.not_true, Bool.false_eq_true, ↓reduceIte,
    if_pos dots]

theorem resolveNewNamed (directory : tree.isDirectoryAt place = true) (current : name ≠ ['.'])
    (parent : name ≠ ['.', '.']) : tree.resolveNew path =
      if 255 < utf8Length name then .error .nameTooLong else .ok (place, some name) := by
  rw [resolveNew, checked, shape, List.getLast?_concat, List.dropLast_concat]
  simp only [walked, bind, Except.bind, directory, Bool.not_true, Bool.false_eq_true, ↓reduceIte,
    if_neg (not_or.mpr ⟨current, parent⟩)]

end New

end Resolve

theorem Opens.kept {before after : FileTree} {path : Path} {place : Location}
    (opens : before.Opens path place) (cwd : after.cwd = before.cwd)
    (directories : ∀ l, before.isDirectoryAt l = true → after.isDirectoryAt l = true) :
    after.Opens path place := by
  have directory := directories place opens.directory
  have present : after.get? place ≠ none := by
    rw [(after.directoryFound).mp directory]
    exact Option.some_ne_none _
  have walked := walkKept directories opens.walked present
  rw [origin, ← cwd] at walked
  exact ⟨walked, directory⟩

theorem Grows.opens {written : Location → Prop} {before after : FileTree} {path : Path}
    {place : Location} (grows : Grows written before after) (opens : before.Opens path place) :
    after.Opens path place := opens.kept grows.cwd fun _ => grows.directory

theorem Grows.isDirectory {written : Location → Prop} {before after : FileTree} {path : Path}
    (grows : Grows written before after) (stands : before.isDirectory path = true) :
    after.isDirectory path = true := by
  obtain ⟨checked, place, opens⟩ := (before.isDirectoryOpens).mp stands
  exact (after.isDirectoryOpens).mpr ⟨checked, place, grows.opens opens⟩

end ShaderReflection.FileTree
