import ShaderReflection.Proofs.Files.Walk
/-!
Making directories. Making one follows its path, and what is missing in the end is made. Making a
directory with those on the way to it, once it was tried, changes nothing when it is tried again.
-/
namespace ShaderReflection.FileTree
open Text

def follow (tree : FileTree) (path : Path) : Except OsError Location :=
  tree.walk (tree.origin path) (Path.pieces path)

structure Lacks (tree : FileTree) (path : Path) (place : Location) (name : Text) : Prop where
  before : ∃ front, Path.pieces path = front ++ [name] ∧
    tree.walk (tree.origin path) front = .ok place
  directory : tree.isDirectoryAt place = true
  current : name ≠ ['.']
  parent : name ≠ ['.', '.']
  short : utf8Length name ≤ 255
  free : tree.get? (place ++ [name]) = none

inductive Making (tree : FileTree) (path : Path) :
    Except OsError Location → Except OsError FileTree → Prop
  | there (l : Location) : Making tree path (.ok l) (.error .alreadyExists)
  | blocked (cause : OsError) (other : cause ≠ .notFound) :
    Making tree path (.error cause) (.error cause)
  | apart (front : List Text) (name : Text) (shape : Path.pieces path = front ++ [name])
    (missing : tree.walk (tree.origin path) front = .error .notFound) :
    Making tree path (.error .notFound) (.error .notFound)
  | new (place : Location) (name : Text) (lacks : tree.Lacks path place name) :
    Making tree path (.error .notFound) (.ok (tree.put (place ++ [name]) .directory))

section Single
variable {tree : FileTree} {path parent : Path}

variable (tree) in
theorem makeDirectoryAt (checked : checkPath path = .ok ()) :
    tree.Making path (tree.follow path) (tree.makeDirectory path) := by
  unfold makeDirectory follow
  rcases List.eq_nil_or_concat (Path.pieces path) with none | ⟨front, name, shape⟩
  · simp only [resolveNew, checked, none, bind, Except.bind, walk, List.getLast?_nil]
    exact .there _
  rw [List.concat_eq_append] at shape
  rw [shape, walkAppend]
  cases walked : tree.walk (tree.origin path) front with
  | error cause =>
    rw [tree.resolveNewStops checked shape walked]
    by_cases missing : cause = .notFound
    · rw [missing] at walked ⊢
      exact .apart front name shape walked
    · exact .blocked cause missing
  | ok place =>
    change tree.Making path (tree.walk place [name]) _
    rw [walkOne]
    by_cases directory : tree.isDirectoryAt place = true
    · by_cases dots : name = ['.'] ∨ name = ['.', '.']
      · rw [tree.resolveNewDots checked shape walked directory dots]
        rcases dots with rfl | rfl
        · rw [tree.enterCurrent directory]
          exact .there _
        · rw [tree.enterParent directory]
          exact .there _
      obtain ⟨current, parent⟩ := not_or.mp dots
      rw [tree.resolveNewNamed checked shape walked directory current parent,
        tree.enterNamed directory current parent]
      split
      · exact .blocked _ (by decide)
      · rename_i short
        change tree.Making path _ (if (tree.get? (place ++ [name])).isSome then _ else _)
        split
        · exact .there _
        · rename_i free
          exact .new place name ⟨⟨front, shape, walked⟩, directory, current, parent,
            Nat.le_of_not_lt short, Option.not_isSome_iff_eq_none.mp free⟩
    · have blocked := Bool.eq_false_iff.mpr directory
      rw [tree.resolveNewBlocked checked shape walked blocked, tree.enterBlocked blocked]
      exact .blocked _ (by decide)

theorem followSolid (path : Path) : tree.follow path =
      tree.walk (tree.origin path) (Path.solid (Path.pieces path)) ∨
    ∃ last, tree.walk (tree.origin path) (Path.solid (Path.pieces path)) = .ok last ∧
      tree.isDirectoryAt last = false ∧ tree.follow path = .error .notDirectory :=
  tree.walkSolid _ _

theorem lacksSolid {place : Location} {name : Text} (lacks : tree.Lacks path place name) :
    ∃ front, Path.solid (Path.pieces path) = front ++ [name] ∧
      tree.walk (tree.origin path) front = .ok place := by
  obtain ⟨front, shape, walked⟩ := lacks.before
  refine ⟨Path.solid front, ?_, (tree.walkDirectory lacks.directory).mp walked⟩
  rw [shape, Path.solidAppend, Path.solidStep lacks.current]
  rfl

theorem madeStands {made : FileTree} (done : tree.makeDirectory path = .ok made) :
    checkPath path = .ok () ∧ ∃ place name, tree.Lacks path place name ∧
      made = tree.put (place ++ [name]) .directory := by
  have checked : checkPath path = .ok () := by
    cases outcome : checkPath path with
    | ok _ => rfl
    | error cause =>
      rw [makeDirectory, resolveNew, outcome] at done
      cases done
  have making := tree.makeDirectoryAt checked
  rw [done] at making
  generalize tree.follow path = followed at making
  cases making with
  | new place name lacks => exact ⟨checked, place, name, lacks, rfl⟩

section Parent
variable (sound : tree.Sound) (child : Path.IsParent parent path)
include child

theorem parentOrigin : tree.origin parent = tree.origin path := by
  rw [origin, origin, child.absolute]

theorem lacksParent {place : Location} {name : Text} (lacks : tree.Lacks path place name) :
    tree.Opens parent place := by
  obtain ⟨front, shape, walked⟩ := lacksSolid lacks
  rw [opensSolid, parentOrigin child, child.steps, shape, List.dropLast_concat]
  exact ⟨walked, lacks.directory⟩

theorem checkParent (checked : checkPath path = .ok ()) (some' : parent ≠ []) :
    checkPath parent = .ok () := by
  obtain ⟨zeroless, -, short⟩ := checkPassed.mp checked
  exact checkPassed.mpr ⟨fun zero => zeroless (child.part.subset zero), some',
    Nat.le_trans (utf8LengthPart child.part) short⟩

include sound

theorem solidParent {here : Except OsError Location}
    (walked : tree.walk (tree.origin parent) (Path.solid (Path.pieces parent)) = here)
    (other : ∀ place, here = .ok place → tree.isDirectoryAt place = false) :
    ∃ name, tree.walk (tree.origin path) (Path.solid (Path.pieces path)) =
      here.bind fun place => tree.enter place name := by
  rw [parentOrigin child, child.steps] at walked
  rcases List.eq_nil_or_concat (Path.solid (Path.pieces path)) with none | ⟨front, name, shape⟩
  · rw [none] at walked
    have blocked := other _ walked.symm
    rw [sound.originStands] at blocked
    cases blocked
  · rw [List.concat_eq_append] at shape
    rw [shape, List.dropLast_concat] at walked
    refine ⟨name, ?_⟩
    rw [shape, walkAppend, walked]
    simp only [walkOne]

theorem followBelow {cause : OsError} (failed : tree.follow parent = .error cause ∨
      ∃ place, tree.follow parent = .ok place ∧ tree.isDirectoryAt place = false ∧
        cause = .notDirectory) : tree.follow path = .error cause := by
  have stops (stopped : tree.walk (tree.origin path) (Path.solid (Path.pieces path)) =
      .error cause) : tree.follow path = .error cause := by
    rcases tree.followSolid path with same | ⟨last, walked, -⟩
    · rw [same, stopped]
    · rw [stopped] at walked
      cases walked
  have file {place : Location}
      (walked : tree.walk (tree.origin parent) (Path.solid (Path.pieces parent)) = .ok place)
      (blocked : tree.isDirectoryAt place = false) (kind : cause = .notDirectory) :
      tree.follow path = .error cause := by
    obtain ⟨name, next⟩ := solidParent sound child walked fun l same => by
      rw [← Except.ok.inj same, blocked]
    refine stops ?_
    rw [next, kind]
    exact tree.enterBlocked blocked name
  rcases failed with failed | ⟨place, found, blocked, kind⟩
  · rcases tree.followSolid parent with same | ⟨last, walked, blocked, other⟩
    · rw [failed] at same
      obtain ⟨name, next⟩ := solidParent sound child same.symm nofun
      exact stops next
    · exact file walked blocked (Except.error.inj (failed.symm.trans other))
  · rcases tree.followSolid parent with same | ⟨last, -, -, other⟩
    · rw [found] at same
      exact file same.symm blocked kind
    · rw [found] at other
      cases other

theorem opensParent {place : Location} (opens : tree.Opens path place) :
    ∃ above, tree.Opens parent above := by
  cases found : tree.follow parent with
  | ok above =>
    by_cases directory : tree.isDirectoryAt above = true
    · exact ⟨above, found, directory⟩
    · have failed := followBelow sound child
        (.inr ⟨above, found, Bool.eq_false_iff.mpr directory, rfl⟩)
      rw [follow, opens.walked] at failed
      cases failed
  | error cause =>
    have failed := followBelow sound child (.inl found)
    rw [follow, opens.walked] at failed
    cases failed

theorem parentReady (ready : (∃ made, tree.makeDirectory path = .ok made) ∨
    tree.isDirectory path = true) : parent = [] ∨ tree.isDirectory parent = true := by
  refine or_iff_not_imp_left.mpr fun some' => (tree.isDirectoryOpens).mpr ?_
  rcases ready with ⟨made, done⟩ | stands
  · obtain ⟨checked, place, name, lacks, -⟩ := madeStands done
    exact ⟨checkParent child checked some', place, lacksParent child lacks⟩
  · obtain ⟨checked, place, opens⟩ := (tree.isDirectoryOpens).mp stands
    exact ⟨checkParent child checked some', opensParent sound child opens⟩

theorem refusedBelow (checked : checkPath path = .ok ()) (some' : parent ≠ [])
    (away : tree.isDirectory parent = false) {cause : OsError}
    (failed : tree.makeDirectory parent = .error cause) :
    tree.makeDirectory path = .error cause ∨
      cause = .alreadyExists ∧ tree.makeDirectory path = .error .notDirectory := by
  have above := checkParent child checked some'
  have closed {place : Location} : ¬tree.Opens parent place := fun opens => by
    rw [(tree.isDirectoryOpens).mpr ⟨above, place, opens⟩] at away
    cases away
  have making := tree.makeDirectoryAt checked
  have makingAbove := tree.makeDirectoryAt above
  rw [failed] at makingAbove
  cases reached : tree.follow parent with
  | ok place =>
    rw [reached] at makingAbove
    cases makingAbove
    have blocked := Bool.eq_false_iff.mpr fun directory => closed ⟨reached, directory⟩
    rw [followBelow sound child (.inr ⟨place, reached, blocked, rfl⟩)] at making
    generalize tree.makeDirectory path = outcome at making ⊢
    cases making
    exact .inr ⟨rfl, rfl⟩
  | error other =>
    rw [reached] at makingAbove
    rw [followBelow sound child (.inl reached)] at making
    generalize tree.makeDirectory path = outcome at making ⊢
    left
    cases makingAbove with
    | blocked _ present =>
      cases making with
      | blocked => rfl
      | _ => exact absurd rfl present
    | apart =>
      cases making with
      | blocked _ present => exact absurd rfl present
      | apart => rfl
      | new place name lacks => exact absurd (lacksParent child lacks) closed

end Parent

section Made
variable {made : FileTree}

theorem lacksGrows {place : Location} {name : Text} (lacks : tree.Lacks path place name) :
    Grows (fun _ => False) tree (tree.put (place ++ [name]) .directory) :=
  growsDirectory (by simp) lacks.free

theorem madeGrows (done : tree.makeDirectory path = .ok made) :
    Grows (fun _ => False) tree made := by
  obtain ⟨-, place, name, lacks, rfl⟩ := madeStands done
  exact lacksGrows lacks

theorem madeSound (sound : tree.Sound) (done : tree.makeDirectory path = .ok made) :
    made.Sound := by
  obtain ⟨checked, place, name, lacks, rfl⟩ := madeStands done
  obtain ⟨front, shape, -⟩ := lacks.before
  have member : name ∈ Path.pieces path := by simp [shape]
  obtain ⟨some', slashless, inside⟩ := Path.pieceSolid member
  have zeroless : '\x00' ∉ name := fun zero => (checkPassed.mp checked).1 (inside zero)
  exact sound.put lacks.directory ⟨some', slashless, zeroless, lacks.current, lacks.parent⟩
    lacks.short fun _ => rfl

theorem madeDirectory (done : tree.makeDirectory path = .ok made) :
    made.isDirectory path = true := by
  obtain ⟨checked, place, name, lacks, rfl⟩ := madeStands done
  obtain ⟨front, shape, walked⟩ := lacks.before
  have grows := lacksGrows lacks
  have stands := grows.directory lacks.directory
  have found : (tree.put (place ++ [name]) .directory).get? (place ++ [name]) =
      some .directory := by
    rw [getPut _ (by simp), if_pos rfl]
  refine (isDirectoryOpens _).mpr ⟨checked, place ++ [name], ?_, (directoryFound _).mpr found⟩
  have before : (tree.put (place ++ [name]) .directory).walk
      ((tree.put (place ++ [name]) .directory).origin path) front = .ok place := by
    rw [origin, grows.cwd, ← origin]
    exact walkKept (fun _ => grows.directory) walked ((directoryFound _).mp stands ▸ Option.some_ne_none _)
  rw [shape, walkAppend, before]
  change (tree.put (place ++ [name]) .directory).walk place [name] = _
  rw [walkOne, enterNamed _ stands lacks.current lacks.parent,
    if_neg (Nat.not_lt_of_le lacks.short), if_pos (by rw [found]; rfl)]

end Made

theorem existing (stands : tree.isDirectory path = true) :
    tree.makeDirectory path = .error .alreadyExists := by
  obtain ⟨checked, place, opens⟩ := (tree.isDirectoryOpens).mp stands
  have making := tree.makeDirectoryAt checked
  rw [follow, opens.walked] at making
  generalize tree.makeDirectory path = outcome at making ⊢
  cases making
  rfl

end Single

/-! Making a directory with those on the way. -/

section Every
variable {tree : FileTree} {path : Path}

theorem withinStands (steps : Nat) (stands : path = [] ∨ tree.isDirectory path = true) :
    makeDirectoriesWithin steps tree path = (tree, .ok ()) := by
  cases steps with
  | zero => rfl
  | succ steps =>
    rcases stands with rfl | stands
    · rfl
    · rw [makeDirectoriesWithin, existing stands]
      simp only [stands, ↓reduceIte, ite_self]

theorem withinMade (steps : Nat) (some' : path ≠ []) {made : FileTree}
    (done : tree.makeDirectory path = .ok made) :
    makeDirectoriesWithin (steps + 1) tree path = (made, .ok ()) := by
  rw [makeDirectoriesWithin, if_neg (by simpa using some'), done]

theorem withinRefused (steps : Nat) (some' : path ≠ []) {cause : OsError}
    (refused : tree.makeDirectory path = .error cause) (other : cause ≠ .notFound) :
    makeDirectoriesWithin (steps + 1) tree path =
      (tree, if tree.isDirectory path then .ok () else .error cause) := by
  rw [makeDirectoriesWithin, if_neg (by simpa using some'), refused]
  cases cause <;> first | rfl | exact absurd rfl other

theorem withinParent (steps : Nat) (some' : path ≠ []) {parent : Path}
    (above : Path.parent? path = some parent)
    (missing : tree.makeDirectory path = .error .notFound) :
    makeDirectoriesWithin (steps + 1) tree path =
      match makeDirectoriesWithin steps tree parent with
      | (below, .error cause) => (below, .error cause)
      | (below, .ok ()) => match below.makeDirectory path with
        | .ok made => (made, .ok ())
        | .error cause => (below, if below.isDirectory path then .ok () else .error cause) := by
  rw [makeDirectoriesWithin, if_neg (by simpa using some'), missing]
  generalize Path.parent? path = found at above
  subst above
  rfl

theorem withinRootless (steps : Nat) (some' : path ≠ []) (above : Path.parent? path = none)
    (missing : tree.makeDirectory path = .error .notFound) :
    makeDirectoriesWithin (steps + 1) tree path = (tree, .error .notFound) := by
  rw [makeDirectoriesWithin, if_neg (by simpa using some'), missing]
  generalize Path.parent? path = found at above
  subst above
  rfl

theorem withinKeeps (steps : Nat) (sound : tree.Sound) {after : FileTree}
    {result : Except OsError Unit} (tried : makeDirectoriesWithin steps tree path = (after, result)) :
    after.Sound ∧ Grows (fun _ => False) tree after := by
  induction steps generalizing tree path after result with
  | zero =>
    cases tried
    exact ⟨sound, growsSelf tree⟩
  | succ steps ih =>
    by_cases some' : path = []
    · rw [withinStands _ (.inl some')] at tried
      cases tried
      exact ⟨sound, growsSelf tree⟩
    cases made : tree.makeDirectory path with
    | ok done =>
      rw [withinMade steps some' made] at tried
      cases tried
      exact ⟨madeSound sound made, madeGrows made⟩
    | error cause =>
      by_cases missing : cause = .notFound
      · rw [missing] at made
        cases above : Path.parent? path with
        | none =>
          rw [withinRootless steps some' above made] at tried
          cases tried
          exact ⟨sound, growsSelf tree⟩
        | some parent =>
          rw [withinParent steps some' above made] at tried
          cases before : makeDirectoriesWithin steps tree parent with
          | mk below outcome =>
            obtain ⟨solid, grows⟩ := ih sound before
            rw [before] at tried
            cases outcome with
            | error other =>
              cases tried
              exact ⟨solid, grows⟩
            | ok _ =>
              dsimp only at tried
              cases again : below.makeDirectory path with
              | ok done =>
                rw [again] at tried
                cases tried
                exact ⟨madeSound solid again, growsTrans grows (madeGrows again)⟩
              | error other =>
                rw [again] at tried
                cases tried
                exact ⟨solid, grows⟩
      · rw [withinRefused steps some' made missing] at tried
        cases tried
        exact ⟨sound, growsSelf tree⟩

/-- How a second try may end: like the first, or where the first told that something else stands on
the way, told as no directory. -/
def Repeats (first second : Except OsError Unit) : Prop :=
  second = first ∨ first = .error .alreadyExists ∧ second = .error .notDirectory

theorem repeatsTrans {a b c : Except OsError Unit} (first : Repeats a b) (second : Repeats b c) :
    Repeats a c := by
  rcases first with rfl | ⟨rfl, rfl⟩
  · exact second
  · rcases second with rfl | ⟨same, -⟩
    · exact .inr ⟨rfl, rfl⟩
    · cases same

theorem repeatsOk {second : Except OsError Unit} (repeats : Repeats (.ok ()) second) :
    second = .ok () := by
  rcases repeats with same | ⟨failed, -⟩
  · exact same
  · cases failed

theorem repeatsError {first : OsError} {second : Except OsError Unit}
    (repeats : Repeats (.error first) second) : ∃ cause, second = .error cause := by
  rcases repeats with same | ⟨-, same⟩
  · exact ⟨_, same⟩
  · exact ⟨_, same⟩

theorem missingChecked (some' : path ≠ [])
    (missing : tree.makeDirectory path = .error .notFound) : checkPath path = .ok () := by
  cases outcome : checkPath path with
  | ok _ => rfl
  | error cause =>
    rw [makeDirectory, resolveNew, outcome] at missing
    obtain rfl := Except.error.inj missing
    unfold checkPath at outcome
    rw [if_neg (c := path.isEmpty = true) (by simpa using some')] at outcome
    split at outcome
    · cases outcome
    · split at outcome <;> cases outcome

section Below
variable {below : FileTree} {parent : Path} (above : Path.parent? path = some parent)
  (some' : path ≠ []) {steps : Nat}
include above some'

theorem againRefused (sound : below.Sound) (checked : checkPath path = .ok ())
    (enough : parent.length < steps) {cause : OsError}
    (once : makeDirectoriesWithin steps below parent = (below, .error cause)) :
    ∃ again, makeDirectoriesWithin (steps + 1) below path = (below, again) ∧
      Repeats (.error cause) again := by
  have child := Path.parentOf above
  obtain ⟨fuel, rfl⟩ := Nat.exists_eq_succ_of_ne_zero (Nat.ne_of_gt (Nat.zero_lt_of_lt enough))
  have away : ¬(parent = [] ∨ below.isDirectory parent = true) := by
    intro stands
    rw [withinStands _ stands] at once
    cases once
  obtain ⟨others, apart⟩ := not_or.mp away
  have child := Path.parentOf above
  cases made : below.makeDirectory path with
  | ok done => exact absurd (parentReady sound child (.inl ⟨done, made⟩)) away
  | error found =>
    by_cases missing : found = .notFound
    · rw [missing] at made
      exact ⟨_, by rw [withinParent _ some' above made, once], .inl rfl⟩
    have closed : below.isDirectory path = false :=
      Bool.eq_false_iff.mpr fun stands => away (parentReady sound child (.inr stands))
    refine ⟨.error found, by rw [withinRefused _ some' made missing, closed]; rfl, ?_⟩
    cases madeParent : below.makeDirectory parent with
    | ok done =>
      rw [withinMade _ others madeParent] at once
      cases once
    | error kind =>
      have refused := refusedBelow sound child checked others (Bool.eq_false_iff.mpr apart) madeParent
      rw [made] at refused
      have present : kind ≠ .notFound := by
        rintro rfl
        rcases refused with same | ⟨other, -⟩
        · exact missing (Except.error.inj same)
        · cases other
      rw [withinRefused _ others madeParent present, Bool.eq_false_iff.mpr apart] at once
      cases once
      rcases refused with same | ⟨rfl, same⟩
      · exact .inl (by rw [Except.error.inj same])
      · exact .inr ⟨rfl, by rw [Except.error.inj same]⟩

theorem againReady (once : makeDirectoriesWithin steps below parent = (below, .ok ()))
    {cause : OsError} (refused : below.makeDirectory path = .error cause) :
    makeDirectoriesWithin (steps + 1) below path =
      (below, if below.isDirectory path then .ok () else .error cause) := by
  by_cases missing : cause = .notFound
  · rw [missing] at refused ⊢
    rw [withinParent _ some' above refused, once]
    dsimp only
    rw [refused]
  · exact withinRefused _ some' refused missing

end Below

theorem withinAgain (steps : Nat) (enough : path.length < steps) (sound : tree.Sound)
    {after : FileTree} {result : Except OsError Unit}
    (tried : makeDirectoriesWithin steps tree path = (after, result)) :
    ∃ again, makeDirectoriesWithin steps after path = (after, again) ∧ Repeats result again := by
  induction steps generalizing tree path after result with
  | zero => cases enough
  | succ steps ih =>
    have same (still : after = tree) :
        ∃ again, makeDirectoriesWithin (steps + 1) after path = (after, again) ∧ Repeats result again :=
      ⟨result, by rw [still, tried, still], .inl rfl⟩
    have stands (directory : after.isDirectory path = true) (fine : result = .ok ()) :
        ∃ again, makeDirectoriesWithin (steps + 1) after path = (after, again) ∧ Repeats result again :=
      ⟨.ok (), withinStands _ (.inr directory), .inl fine.symm⟩
    by_cases some' : path = []
    · refine same ?_
      rw [withinStands _ (.inl some')] at tried
      exact (Prod.mk.inj tried).1.symm
    cases made : tree.makeDirectory path with
    | ok done =>
      rw [withinMade steps some' made] at tried
      cases tried
      exact stands (madeDirectory made) rfl
    | error cause =>
      by_cases missing : cause = .notFound
      · rw [missing] at made
        cases above : Path.parent? path with
        | none =>
          refine same ?_
          rw [withinRootless steps some' above made] at tried
          exact (Prod.mk.inj tried).1.symm
        | some parent =>
          rw [withinParent steps some' above made] at tried
          have child := Path.parentOf above
          have fewer : parent.length < steps := by
            have shorter := child.shorter
            omega
          cases before : makeDirectoriesWithin steps tree parent with
          | mk below outcome =>
            obtain ⟨solid, grows⟩ := withinKeeps steps sound before
            obtain ⟨again, once, repeats⟩ := ih fewer sound before
            rw [before] at tried
            cases outcome with
            | error other =>
              cases tried
              obtain ⟨kind, rfl⟩ := repeatsError repeats
              obtain ⟨final, twice, alike⟩ :=
                againRefused above some' solid (missingChecked some' made) fewer once
              exact ⟨final, twice, repeatsTrans repeats alike⟩
            | ok _ =>
              dsimp only at tried
              rw [repeatsOk repeats] at once
              cases finally' : below.makeDirectory path with
              | ok done =>
                rw [finally'] at tried
                cases tried
                exact stands (madeDirectory finally') rfl
              | error kind =>
                rw [finally'] at tried
                cases tried
                exact ⟨_, againReady above some' once finally', .inl rfl⟩
      · refine same ?_
        rw [withinRefused steps some' made missing] at tried
        exact (Prod.mk.inj tried).1.symm

theorem withinReady (steps : Nat) {after : FileTree}
    (tried : makeDirectoriesWithin (steps + 1) tree path = (after, .ok ())) :
    path = [] ∨ after.isDirectory path = true := by
  refine or_iff_not_imp_left.mpr fun some' => ?_
  -- Where making the directory itself is refused, the answer tells whether it is one.
  have refused {t : FileTree} {cause : OsError}
      (ended : (t, if t.isDirectory path then .ok () else Except.error cause) = (after, .ok ())) :
      after.isDirectory path = true := by
    by_cases stands : t.isDirectory path = true
    · rwa [← (Prod.mk.inj ended).1]
    · rw [if_neg stands] at ended
      cases ended
  cases made : tree.makeDirectory path with
  | ok done =>
    rw [withinMade steps some' made] at tried
    cases tried
    exact madeDirectory made
  | error cause =>
    by_cases missing : cause = .notFound
    · rw [missing] at made
      cases above : Path.parent? path with
      | none =>
        rw [withinRootless steps some' above made] at tried
        cases tried
      | some parent =>
        rw [withinParent steps some' above made] at tried
        cases before : makeDirectoriesWithin steps tree parent with
        | mk below outcome =>
          rw [before] at tried
          cases outcome with
          | error other => cases tried
          | ok _ =>
            dsimp only at tried
            cases again : below.makeDirectory path with
            | ok done =>
              rw [again] at tried
              cases tried
              exact madeDirectory again
            | error kind =>
              rw [again] at tried
              exact refused tried
    · rw [withinRefused steps some' made missing] at tried
      exact refused tried

end Every

section Directories
variable {tree after : FileTree} {path : Path} {result : Except OsError Unit}

def Stands (tree : FileTree) (path : Path) : Prop := path = [] ∨ tree.isDirectory path = true

theorem makeStanding (stands : tree.Stands path) : tree.makeDirectories path = (tree, .ok ()) :=
  withinStands _ stands

theorem makeReady (tried : tree.makeDirectories path = (after, .ok ())) : after.Stands path :=
  withinReady _ tried

theorem makeKeeps (sound : tree.Sound) (tried : tree.makeDirectories path = (after, result)) :
    after.Sound ∧ Grows (fun _ => False) tree after := withinKeeps _ sound tried

theorem makeAgain (sound : tree.Sound) (tried : tree.makeDirectories path = (after, result)) :
    ∃ again, after.makeDirectories path = (after, again) ∧ Repeats result again :=
  withinAgain _ (Nat.lt_succ_self _) sound tried

theorem Grows.stands {written : Location → Prop} (grows : Grows written tree after)
    (stands : tree.Stands path) : after.Stands path := stands.imp_right grows.isDirectory

theorem Sound.standsOpen (sound : tree.Sound) (stands : tree.Stands path) :
    ∃ place, tree.Opens path place := by
  rcases stands with rfl | stands
  · exact ⟨tree.cwd, rfl, sound.working⟩
  · exact ((tree.isDirectoryOpens).mp stands).2

end Directories
end ShaderReflection.FileTree
