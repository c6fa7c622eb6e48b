import ShaderReflection.Batch
import ShaderReflection.Proofs.Text.Splitting
/-!
Paths as lists of names. Joining a name adds one piece, a parent lacks the last one that is no dot,
and the extension of a path is decided by its last piece alone.
-/
namespace ShaderReflection
open Text

namespace Path

structure IsName (name : Text) : Prop where
  nonempty : name ≠ []
  slashless : '/' ∉ name
  zeroless : '\x00' ∉ name
  current : name ≠ ['.']
  parent : name ≠ ['.', '.']

instance (name : Text) : Decidable (IsName name) :=
  decidable_of_iff (name ≠ [] ∧ '/' ∉ name ∧ '\x00' ∉ name ∧ name ≠ ['.'] ∧ name ≠ ['.', '.'])
    ⟨fun ⟨a, b, c, d, e⟩ => ⟨a, b, c, d, e⟩, fun ⟨a, b, c, d, e⟩ => ⟨a, b, c, d, e⟩⟩

def solid (pieces : List Text) : List Text := pieces.filter fun piece => piece != ['.']

theorem piecesAt (front back : Text) : pieces (front ++ '/' :: back) = pieces front ++ pieces back := by
  have split : splitOn '/' (front ++ '/' :: back) = splitOn '/' front ++ splitOn '/' back :=
    splitSeparator (p := (· == '/')) (beq_self_eq_true '/') front back
  rw [pieces, split, List.filter_append, pieces, pieces]

theorem piecesNil : pieces [] = [] := rfl

theorem piecesOne {name : Text} (some' : name ≠ []) (slashless : '/' ∉ name) :
    pieces name = [name] := by
  simp [pieces, splitOnNone slashless, some']

theorem pieceSolid {path piece : Text} (member : piece ∈ pieces path) :
    piece ≠ [] ∧ '/' ∉ piece ∧ piece ⊆ path := by
  obtain ⟨inside, some'⟩ := List.mem_filter.mp member
  refine ⟨by simpa using some', fun slash => ?_, (pieceInfix inside).subset⟩
  exact nomatch pieceUnparted inside '/' slash

section Join
variable {name : Text} (named : IsName name) (directory : Path)
include named

theorem nameRelative : isAbsolute name = false := by
  obtain ⟨c, r, rfl⟩ := List.exists_cons_of_ne_nil named.nonempty
  have other := named.slashless
  simp only [List.mem_cons, not_or] at other
  simp [isAbsolute, Ne.symm other.1]

theorem joinCases : (directory = [] ∧ join directory name = name) ∨
    (∃ front, directory = front ++ ['/'] ∧ join directory name = front ++ '/' :: name) ∨
    (directory ≠ [] ∧ join directory name = directory ++ '/' :: name) := by
  rw [join, nameRelative named]
  by_cases none : directory = []
  · exact .inl ⟨none, by simp [none]⟩
  by_cases ended : directory.getLast? = some '/'
  · obtain ⟨front, rfl⟩ := List.getLast?_eq_some_iff.mp ended
    exact .inr (.inl ⟨front, rfl, by simp⟩)
  · exact .inr (.inr ⟨none, by simp [none, ended]⟩)

theorem piecesJoin : pieces (join directory name) = pieces directory ++ [name] := by
  have one := piecesOne named.nonempty named.slashless
  rcases joinCases named directory with ⟨rfl, same⟩ | ⟨front, rfl, same⟩ | ⟨-, same⟩
  · rw [same, one, piecesNil, List.nil_append]
  · rw [same, piecesAt, one, piecesAt, piecesNil, List.append_nil]
  · rw [same, piecesAt, one]

theorem joinAbsolute : isAbsolute (join directory name) = isAbsolute directory := by
  rcases joinCases named directory with ⟨rfl, same⟩ | ⟨front, rfl, same⟩ | ⟨some', same⟩
  · rw [same, nameRelative named]
    rfl
  · rw [same]
    cases front <;> rfl
  · obtain ⟨c, r, rfl⟩ := List.exists_cons_of_ne_nil some'
    rw [same]
    rfl

theorem joinEnd : (join directory name).getLast? ≠ some '/' := by
  have last : name.getLast? ≠ some '/' := fun ends =>
    named.slashless (List.mem_of_getLast? ends)
  obtain ⟨c, r, rfl⟩ := List.exists_cons_of_ne_nil named.nonempty
  have behind (front : Text) : (front ++ '/' :: c :: r).getLast? = (c :: r).getLast? := by
    rw [List.getLast?_append, List.getLast?_cons_cons]
    simp [List.getLast?_cons]
  rcases joinCases named directory with ⟨-, same⟩ | ⟨front, -, same⟩ | ⟨-, same⟩
  · rwa [same]
  · rwa [same, behind]
  · rwa [same, behind]

theorem joinNonempty : join directory name ≠ [] := by
  rcases joinCases named directory with ⟨-, same⟩ | ⟨front, -, same⟩ | ⟨-, same⟩ <;>
    simp [same, named.nonempty]

theorem joinZeroless (zeroless : '\x00' ∉ directory) : '\x00' ∉ join directory name := by
  have clean := named.zeroless
  rcases joinCases named directory with ⟨-, same⟩ | ⟨front, rfl, same⟩ | ⟨-, same⟩
  · rwa [same]
  · simp only [List.mem_append, not_or] at zeroless
    simp [same, clean, zeroless.1]
  · simp [same, clean, zeroless]

end Join

theorem joinInjective {directory a b : Path} (first : IsName a) (second : IsName b)
    (same : join directory a = join directory b) : a = b := by
  have pieces := congrArg pieces same
  rw [piecesJoin first, piecesJoin second] at pieces
  exact List.singleton_inj.mp (List.append_cancel_left pieces)

theorem componentsEnd {path last : Text} {front : List Text} (shape : pieces path = front ++ [last])
    (other : last ≠ ['.']) : (components path).getLast? = componentOf? last := by
  have some' : ∃ c, componentOf? last = some c := by
    rw [componentOf?, if_neg other]
    split <;> exact ⟨_, rfl⟩
  obtain ⟨c, found⟩ := some'
  have steps : (pieces path).filterMap componentOf? = front.filterMap componentOf? ++ [c] := by
    rw [shape, List.filterMap_append]
    simp [found]
  rw [components, steps, found]
  split
  · exact List.getLast?_concat (l := Component.root :: _)
  · split
    · exact List.getLast?_concat (l := Component.current :: _)
    · exact List.getLast?_concat

theorem fileNameEnd {path last : Text} {front : List Text} (shape : pieces path = front ++ [last])
    (current : last ≠ ['.']) (parent : last ≠ ['.', '.']) : fileName? path = some last := by
  rw [fileName?, componentsEnd shape current, componentOf?, if_neg current, if_neg parent]

theorem fileNameJoin {name : Text} (named : IsName name) (directory : Path) :
    fileName? (join directory name) = some name :=
  fileNameEnd (piecesJoin named directory) named.current named.parent

theorem lastPiece {back : Text} (some' : back ≠ []) (slashless : '/' ∉ back) (front : Text) :
    ∃ more last, pieces (front ++ back) = more ++ [last ++ back] := by
  obtain ⟨more, last, before⟩ := splitLast (p := (· == '/')) front
  have one : splitWhere (· == '/') back = back :: [] := splitOnNone slashless
  have split := splitAppend before one
  refine ⟨more.filter fun piece => !piece.isEmpty, last, ?_⟩
  rw [pieces, splitOn, split, List.filter_append]
  simp [some']

theorem extensionEnd {extension : Text} (some' : extension ≠ []) (slashless : '/' ∉ extension)
    (dotless : '.' ∉ extension) (front : Text) :
    extension? (front ++ '.' :: extension) = none ∨
      extension? (front ++ '.' :: extension) = some extension := by
  have whole : '/' ∉ '.' :: extension := by simp [slashless]
  obtain ⟨more, last, shape⟩ := lastPiece (List.cons_ne_nil '.' extension) whole front
  obtain ⟨init, c, split⟩ := (List.eq_nil_or_concat extension).resolve_left some'
  have undotted (front : Text) : last ++ '.' :: extension ≠ front ++ ['.'] := by
    rw [split, List.concat_eq_append, ← List.cons_append, ← List.append_assoc]
    intro same
    obtain rfl := List.singleton_inj.mp (List.append_inj' same rfl).2
    exact dotless (by simp [split])
  rw [extension?, fileNameEnd shape (undotted []) (undotted ['.']), Option.bind_some,
    afterLastAt dotless]
  dsimp only
  split
  · exact .inr rfl
  · exact .inl rfl

theorem stageEnd {extension : Text} (some' : extension ≠ []) (slashless : '/' ∉ extension)
    (dotless : '.' ∉ extension) (front : Text) (strange : Stage.ofExtension extension = .unknown) :
    Stage.ofPath (front ++ '.' :: extension) = .unknown := by
  rcases extensionEnd some' slashless dotless front with none | found
  · rw [Stage.ofPath, none]
  · rw [Stage.ofPath, found]
    exact strange

theorem stageJoin {name : Text} (named : IsName name) (directory : Path) :
    Stage.ofPath (join directory name) = Stage.ofPath name := by
  have alone : fileName? name = some name :=
    fileNameEnd (List.nil_append [name] ▸ piecesOne named.nonempty named.slashless) named.current named.parent
  rw [Stage.ofPath, Stage.ofPath, extension?, extension?, fileNameJoin named, alone]

theorem besidesEnd (directory path : Path) (suffix : Text) :
    ∃ front, besides directory path suffix = front ++ suffix := by
  rw [besides, join]
  split
  · exact ⟨_, rfl⟩
  · split
    · exact ⟨directory ++ (fileName? path).getD path, by rw [List.append_assoc]⟩
    · exact ⟨directory ++ '/' :: (fileName? path).getD path, by simp⟩

theorem joinSublist (separator : Text) {some' all : List Text} (part : some'.Sublist all) :
    (joinWith separator some').Sublist (joinWith separator all) := by
  induction part with
  | slnil => exact .refl _
  | @cons few all w _ ih =>
    cases all with
    | nil => exact ih.trans (List.nil_sublist _)
    | cons next more =>
      rw [joinCons]
      exact (ih.trans (List.sublist_append_right _ _)).trans (List.sublist_append_right _ _)
  | @cons_cons few all w part ih =>
    cases all with
    | nil =>
      obtain rfl := List.sublist_nil.mp part
      exact .refl _
    | cons next more =>
      rw [joinCons]
      cases few with
      | nil => exact List.sublist_append_left w _
      | cons first rest =>
        rw [joinCons]
        exact (List.Sublist.refl w).append ((List.Sublist.refl separator).append ih)

theorem splitJoined (mark : Char) (t : Text) : joinWith [mark] (splitOn mark t) = t := by
  induction t with
  | nil => rfl
  | cons c r ih =>
    obtain ⟨first, rest, shape⟩ := splitNonempty (p := (· == mark)) r
    rw [splitOn, shape] at ih
    rw [splitOn, splitWhere, shape]
    split
    · rename_i same
      rw [joinCons, ih, beq_iff_eq.mp same]
      rfl
    · rw [consHead]
      cases rest with
      | nil => rw [joinWith, ← ih, joinWith]
      | cons next more =>
        rw [joinCons] at ih ⊢
        rw [List.cons_append, ih]

theorem piecesJoined {steps : List Text} (each : ∀ w ∈ steps, w ≠ [] ∧ '/' ∉ w) :
    pieces (joinWith ['/'] steps) = steps := by
  induction steps with
  | nil => rfl
  | cons w rest ih =>
    obtain ⟨⟨some', slashless⟩, others⟩ := List.forall_mem_cons.mp each
    cases rest with
    | nil => exact piecesOne some' slashless
    | cons next more =>
      rw [joinCons, List.singleton_append, piecesAt, piecesOne some' slashless, ih others,
        List.singleton_append]

theorem solidStay (rest : List Text) : solid (['.'] :: rest) = solid rest :=
  List.filter_cons_of_neg (by simp)

theorem solidStep {w : Text} (leads : w ≠ ['.']) (rest : List Text) :
    solid (w :: rest) = w :: solid rest := List.filter_cons_of_pos (by simpa using leads)

theorem solidAppend (front back : List Text) : solid (front ++ back) = solid front ++ solid back :=
  List.filter_append front back

theorem solidSublist (steps : List Text) : (solid steps).Sublist steps := List.filter_sublist

theorem solidSelf {steps : List Text} (each : ∀ w ∈ steps, w ≠ ['.']) : solid steps = steps :=
  List.filter_eq_self.mpr fun w member => bne_iff_ne.mpr (each w member)

theorem solidEach {steps : List Text} : ∀ w ∈ solid steps, w ≠ ['.'] :=
  fun _ member => bne_iff_ne.mp (List.mem_filter.mp member).2

theorem componentTexts (steps : List Text) :
    (steps.filterMap componentOf?).map Component.toText = solid steps := by
  induction steps with
  | nil => rfl
  | cons w rest ih =>
    by_cases current : w = ['.']
    · rw [List.filterMap_cons, current, solidStay]
      exact ih
    · rw [List.filterMap_cons, solidStep current, componentOf?, if_neg current, ← ih]
      by_cases parent : w = ['.', '.']
      · rw [if_pos parent, parent]
        rfl
      · rw [if_neg parent]
        rfl

theorem relativeText {steps : List Component} (relative : .root ∉ steps) :
    ofComponents steps = joinWith ['/'] (steps.map Component.toText) := by
  cases steps with
  | nil => rfl
  | cons c rest =>
    cases c with
    | root => exact absurd List.mem_cons_self relative
    | _ => rfl

theorem stepsRelative (pieces : List Text) : .root ∉ pieces.filterMap componentOf? := by
  intro member
  obtain ⟨piece, -, found⟩ := List.mem_filterMap.mp member
  unfold componentOf? at found
  split at found
  · cases found
  · split at found <;> cases found

theorem parentShown {path parent : Path} (found : parent? path = some parent) :
    components path ≠ [] ∧ components path ≠ [.root] ∧
      parent = ofComponents (components path).dropLast := by
  unfold parent? at found
  split at found
  · cases found
  · cases found
  · rename_i some' other
    exact ⟨some', other, (Option.some.inj found).symm⟩

theorem parentWritten {path parent : Path} (found : parent? path = some parent) :
    (∃ r, path = '/' :: r ∧ solid (pieces path) ≠ [] ∧
        parent = '/' :: joinWith ['/'] (solid (pieces path)).dropLast) ∨
      isAbsolute path = false ∧
        ((∃ rest, pieces path = ['.'] :: rest ∧
            parent = joinWith ['/'] (['.'] :: solid rest).dropLast) ∨
          solid (pieces path) ≠ [] ∧ parent = joinWith ['/'] (solid (pieces path)).dropLast) := by
  obtain ⟨some', other, shown⟩ := parentShown found
  have texts := componentTexts (pieces path)
  have relative : .root ∉ ((pieces path).filterMap componentOf?).dropLast :=
    fun member => stepsRelative _ ((List.dropLast_sublist _).subset member)
  unfold components at some' other shown
  dsimp only at some' other shown
  split at some'
  · rename_i absolute
    rw [if_pos absolute] at other shown
    have steps : (pieces path).filterMap componentOf? ≠ [] := fun none => other (by rw [none])
    rw [List.dropLast_cons_of_ne_nil steps, ofComponents, List.map_dropLast, texts] at shown
    obtain ⟨r, rfl⟩ := List.head?_eq_some_iff.mp (beq_iff_eq.mp absolute)
    refine .inl ⟨r, rfl, ?_, shown⟩
    rw [← texts]
    exact fun none => steps (List.map_eq_nil_iff.mp none)
  · rename_i absolute
    refine .inr ⟨Bool.eq_false_iff.mpr absolute, ?_⟩
    rw [if_neg absolute] at shown
    split at some'
    · rename_i first
      rw [if_pos first] at shown
      obtain ⟨rest, shape⟩ := List.head?_eq_some_iff.mp first
      refine .inl ⟨rest, shape, ?_⟩
      rw [relativeText ?_, List.map_dropLast, List.map_cons, texts, shape, solidStay] at shown
      · exact shown
      · intro member
        rcases List.mem_cons.mp ((List.dropLast_sublist _).subset member) with same | inside
        · cases same
        · exact stepsRelative _ inside
    · rename_i first
      rw [if_neg first, relativeText relative, List.map_dropLast, texts] at shown
      refine .inr ⟨?_, shown⟩
      rw [← texts]
      exact fun none => some' (List.map_eq_nil_iff.mp none)

structure IsParent (parent path : Path) : Prop where
  part : parent.Sublist path
  shorter : parent.length < path.length
  absolute : isAbsolute parent = isAbsolute path
  steps : solid (pieces parent) = (solid (pieces path)).dropLast

theorem joinedRelative {steps : List Text} (each : ∀ w ∈ steps, w ≠ [] ∧ '/' ∉ w) :
    isAbsolute (joinWith ['/'] steps) = false := by
  cases steps with
  | nil => rfl
  | cons w rest =>
    obtain ⟨some', slashless⟩ := each w List.mem_cons_self
    obtain ⟨c, r, rfl⟩ := List.exists_cons_of_ne_nil some'
    have other : c ≠ '/' := fun same => slashless (same ▸ List.mem_cons_self)
    cases rest with
    | nil => simp [joinWith, isAbsolute, other]
    | cons next more => simp [joinCons, isAbsolute, other]

theorem parentOf {path parent : Path} (found : parent? path = some parent) :
    IsParent parent path := by
  -- Pieces of the path that are joined again give a part of its text.
  have each {steps : List Text} (part : steps.Sublist (pieces path)) :
      ∀ w ∈ steps, w ≠ [] ∧ '/' ∉ w := fun w member =>
    have whole := pieceSolid (part.subset member)
    ⟨whole.1, whole.2.1⟩
  have inside {steps : List Text} (part : steps.Sublist (pieces path)) :
      (joinWith ['/'] steps).Sublist path := by
    have joined := joinSublist ['/'] (part.trans List.filter_sublist)
    rwa [splitJoined] at joined
  have still (steps : List Text) : solid (solid steps).dropLast = (solid steps).dropLast :=
    solidSelf fun w member => solidEach w ((List.dropLast_sublist _).subset member)
  have shorter {p : Path} (part : p.Sublist path) (some' : solid (pieces path) ≠ [])
      (fewer : solid (pieces p) = (solid (pieces path)).dropLast) : p.length < path.length := by
    refine Nat.lt_of_le_of_ne part.length_le fun same => ?_
    rw [part.eq_of_length same] at fewer
    have sizes := congrArg List.length fewer
    have positive := List.length_pos_iff.mpr some'
    rw [List.length_dropLast] at sizes
    omega
  have front := (List.dropLast_sublist _).trans (solidSublist (pieces path))
  rcases parentWritten found with ⟨r, rfl, some', rfl⟩ | ⟨relative, ⟨rest, shape, rfl⟩ | ⟨some', rfl⟩⟩
  · have slash (t : Text) : pieces ('/' :: t) = pieces t := piecesAt [] t
    have joined := joinSublist ['/'] ((slash r ▸ front).trans List.filter_sublist)
    rw [splitJoined] at joined
    have part := joined.cons_cons '/'
    have steps : solid (pieces ('/' :: joinWith ['/'] (solid (pieces ('/' :: r))).dropLast)) =
        (solid (pieces ('/' :: r))).dropLast := by
      rw [slash, piecesJoined (each front), still]
    exact ⟨part, shorter part some' steps, rfl, steps⟩
  · have few : (['.'] :: solid rest).dropLast.Sublist (pieces path) :=
      (List.dropLast_sublist _).trans (shape ▸ (solidSublist rest).cons_cons ['.'])
    have steps : solid (pieces (joinWith ['/'] (['.'] :: solid rest).dropLast)) =
        (solid (pieces path)).dropLast := by
      rw [piecesJoined (each few), shape, solidStay]
      cases more : solid rest with
      | nil => rfl
      | cons w others => rw [List.dropLast_cons_of_ne_nil (List.cons_ne_nil w others), solidStay,
          ← more, still]
    refine ⟨inside few, ?_, by rw [joinedRelative (each few), relative], steps⟩
    by_cases none : solid rest = []
    · rw [none]
      refine List.length_pos_iff.mpr fun empty => ?_
      rw [empty, piecesNil] at shape
      cases shape
    · refine shorter (inside few) ?_ steps
      rwa [shape, solidStay]
  · have steps : solid (pieces (joinWith ['/'] (solid (pieces path)).dropLast)) =
        (solid (pieces path)).dropLast := by
      rw [piecesJoined (each front), still]
    exact ⟨inside front, shorter (inside front) some' steps,
      by rw [joinedRelative (each front), relative], steps⟩

end Path

theorem documentStage (directory path : Path) :
    Stage.ofPath (metadataPath directory path) = .unknown := by
  obtain ⟨front, same⟩ := Path.besidesEnd directory path ".meta.json".toList
  have ends : front ++ ".meta.json".toList = front ++ ".meta".toList ++ '.' :: "json".toList := by
    simp
  rw [metadataPath, same, ends]
  exact Path.stageEnd (by decide) (by decide) (by decide) _ (by decide)

theorem artifactStage (x : Extractor) (path : Path) :
    Stage.ofPath (x.artifactPath path) = .unknown := by
  obtain ⟨front, same⟩ := Path.besidesEnd x.artifactDirectory path ".spv".toList
  rw [Extractor.artifactPath, same]
  have strange : Stage.ofExtension "spv".toList = .unknown := by decide
  exact Path.stageEnd (by decide) (by decide) (by decide) _ strange

end ShaderReflection
