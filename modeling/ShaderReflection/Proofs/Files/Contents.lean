import ShaderReflection.Proofs.Files.Directories
/-!
Files of a directory. A path that is a directory's joined with a name leads to that name in the
directory, so reading and writing it concern one location.
-/
namespace ShaderReflection.FileTree
open Text

def executableAt (tree : FileTree) (location : Location) : Bool :=
  match tree.get? location with
  | some (.file _ executable) => executable
  | _ => false

def bytesOf (text : Text) : ByteArray := (String.ofList text).toUTF8

theorem textOfBytes (text : Text) : String.fromUTF8? (bytesOf text) = some (String.ofList text) :=
  dif_pos (String.ofList text).isValidUTF8

structure Fits (directory name : Path) : Prop where
  checked : checkPath (Path.join directory name) = .ok ()
  short : utf8Length name ≤ 255

section Inside
variable {tree : FileTree} {directory : Path} {place : Location} (opens : tree.Opens directory place)
  {name : Text} (named : Path.IsName name)
include opens named

theorem walkInside : tree.walk (tree.origin (Path.join directory name))
    (Path.pieces (Path.join directory name)) = tree.enter place name := by
  rw [origin, Path.joinAbsolute named, ← origin, Path.piecesJoin named, walkAppend, opens.walked]
  exact tree.walkOne place name

theorem resolveInside {there : Location} :
    tree.resolve (Path.join directory name) = .ok there ↔
      Fits directory name ∧ there = place ++ [name] ∧ tree.get? there ≠ none := by
  rw [resolveFound, walkInside opens named, tree.enterNamed opens.directory named.current named.parent]
  refine ⟨fun ⟨checked, entered, _⟩ => ?_, fun ⟨⟨checked, short⟩, same, present⟩ => ?_⟩
  · split at entered
    · cases entered
    · rename_i short
      split at entered
      · rename_i present
        obtain rfl := Except.ok.inj entered
        exact ⟨⟨checked, Nat.le_of_not_lt short⟩, rfl, Option.isSome_iff_ne_none.mp present⟩
      · cases entered
  · rw [same] at present ⊢
    rw [if_neg (Nat.not_lt_of_le short), if_pos (Option.isSome_iff_ne_none.mpr present)]
    exact ⟨checked, rfl, fun slash => absurd slash (Path.joinEnd named directory)⟩

theorem resolveEnter : tree.resolve (Path.join directory name) =
    (checkPath (Path.join directory name)).bind fun _ => tree.enter place name := by
  have unslashed : ((Path.join directory name).getLast? == some '/') = false :=
    beq_false_of_ne (Path.joinEnd named directory)
  rw [resolve, walkInside opens named, unslashed]
  cases checkPath (Path.join directory name) with
  | error cause => rfl
  | ok _ => cases tree.enter place name <;> rfl

theorem readAlike {other : FileTree} (opened : other.Opens directory place)
    (same : other.get? (place ++ [name]) = tree.get? (place ++ [name])) :
    other.readBytes (Path.join directory name) = tree.readBytes (Path.join directory name) := by
  have entered : other.enter place name = tree.enter place name := by
    rw [other.enterNamed opened.directory named.current named.parent,
      tree.enterNamed opens.directory named.current named.parent, same]
  rw [readBytes, readBytes, resolveEnter opens named, resolveEnter opened named, entered]
  cases checkPath (Path.join directory name) with
  | error cause => rfl
  | ok _ =>
    cases found : tree.enter place name with
    | error cause => rfl
    | ok there =>
      rcases tree.enterCases found with ⟨dots, -⟩ | ⟨dots, -⟩ | ⟨-, -, -, rfl, -⟩
      · exact absurd dots named.current
      · exact absurd dots named.parent
      · simp only [bind, Except.bind, same]

theorem isFileInside : tree.isFile (Path.join directory name) = true ↔
    Fits directory name ∧ ∃ content executable,
      tree.get? (place ++ [name]) = some (.file content executable) := by
  unfold isFile
  cases found : tree.resolve (Path.join directory name) with
  | error cause =>
    refine ⟨nofun, fun ⟨fits, content, executable, file⟩ => ?_⟩
    rw [(resolveInside opens named).mpr ⟨fits, rfl, file ▸ Option.some_ne_none _⟩] at found
    cases found
  | ok there =>
    obtain ⟨fits, rfl, -⟩ := (resolveInside opens named).mp found
    dsimp only
    split
    · rename_i content executable file
      exact ⟨fun _ => ⟨fits, content, executable, file⟩, fun _ => rfl⟩
    · rename_i other
      exact ⟨nofun, fun ⟨_, content, executable, file⟩ => absurd file (other content executable)⟩

theorem readInside {content : ByteArray} {executable : Bool} (fits : Fits directory name)
    (file : tree.get? (place ++ [name]) = some (.file content executable)) :
    tree.readBytes (Path.join directory name) = .ok content := by
  have found := (resolveInside opens named).mpr ⟨fits, rfl, file ▸ Option.some_ne_none _⟩
  simp only [readBytes, found, bind, Except.bind, file]

theorem writeInside (content : ByteArray) :
    tree.writeBytes (Path.join directory name) content =
      (checkPath (Path.join directory name)).bind fun _ =>
        if 255 < utf8Length name then .error .nameTooLong
        else if tree.isDirectoryAt (place ++ [name]) then .error .isDirectory
        else .ok (tree.put (place ++ [name])
          (.file content (tree.executableAt (place ++ [name])))) := by
  cases checked : checkPath (Path.join directory name) with
  | error cause => rw [writeBytes, resolveNew, checked]; rfl
  | ok _ =>
    have walked := opens.walked
    rw [origin, ← Path.joinAbsolute named, ← origin] at walked
    rw [writeBytes, tree.resolveNewNamed checked (Path.piecesJoin named directory) walked
      opens.directory named.current named.parent]
    have unslashed : ((Path.join directory name).getLast? == some '/') = false :=
      beq_false_of_ne (Path.joinEnd named directory)
    simp only [Except.bind]
    split
    · rfl
    · simp only [bind, Except.bind, unslashed, Bool.false_or]
      rfl

theorem writeDone {content : ByteArray} {after : FileTree}
    (done : tree.writeBytes (Path.join directory name) content = .ok after) :
    Fits directory name ∧ tree.isDirectoryAt (place ++ [name]) = false ∧
      after = tree.put (place ++ [name]) (.file content (tree.executableAt (place ++ [name]))) := by
  rw [writeInside opens named] at done
  cases checked : checkPath (Path.join directory name) with
  | error cause =>
    rw [checked] at done
    cases done
  | ok _ =>
    rw [checked] at done
    simp only [Except.bind] at done
    split at done
    · cases done
    · rename_i short
      split at done
      · cases done
      · rename_i free
        exact ⟨⟨checked, Nat.le_of_not_lt short⟩, Bool.eq_false_iff.mpr free, (Except.ok.inj done).symm⟩

theorem writeAlike {other : FileTree} (opened : other.Opens directory place)
    (same : other.isDirectoryAt (place ++ [name]) = tree.isDirectoryAt (place ++ [name]))
    (content : ByteArray) :
    (∃ cause, tree.writeBytes (Path.join directory name) content = .error cause ∧
      other.writeBytes (Path.join directory name) content = .error cause) ∨
    ∃ after afterOther, tree.writeBytes (Path.join directory name) content = .ok after ∧
      other.writeBytes (Path.join directory name) content = .ok afterOther := by
  rw [writeInside opens named, writeInside opened named, same]
  cases checkPath (Path.join directory name) with
  | error cause => exact .inl ⟨cause, rfl, rfl⟩
  | ok _ =>
    simp only [Except.bind]
    split
    · exact .inl ⟨_, rfl, rfl⟩
    · split
      · exact .inl ⟨_, rfl, rfl⟩
      · exact .inr ⟨_, _, rfl, rfl⟩

section Written
variable {content : ByteArray} {after : FileTree}
  (done : tree.writeBytes (Path.join directory name) content = .ok after)
include done

theorem writtenFile : after.get? (place ++ [name]) =
    some (.file content (tree.executableAt (place ++ [name]))) := by
  obtain ⟨-, -, rfl⟩ := writeDone opens named done
  rw [getPut _ (by simp), if_pos rfl]

theorem writtenElsewhere {l : Location} (other : l ≠ place ++ [name]) :
    after.get? l = tree.get? l := by
  obtain ⟨-, -, rfl⟩ := writeDone opens named done
  rw [getPut _ (by simp), if_neg other]

theorem writtenGrows : Grows (· = place ++ [name]) tree after := by
  obtain ⟨-, free, rfl⟩ := writeDone opens named done
  refine growsFile (by simp) ?_ free content _
  exact rfl

theorem writtenSound (sound : tree.Sound) : after.Sound := by
  obtain ⟨fits, free, rfl⟩ := writeDone opens named done
  refine sound.put opens.directory named fits.short fun stands => ?_
  rw [free] at stands
  cases stands

end Written

theorem writeHeld {content : ByteArray} {executable : Bool} (sound : tree.Sound)
    (fits : Fits directory name)
    (file : tree.get? (place ++ [name]) = some (.file content executable)) :
    tree.writeBytes (Path.join directory name) content = .ok tree := by
  have free : tree.isDirectoryAt (place ++ [name]) = false := by
    rw [isDirectoryAt, file]
  rw [writeInside opens named, fits.checked, executableAt, file]
  simp only [Except.bind, free, if_neg (Nat.not_lt_of_le fits.short), Bool.false_eq_true, ↓reduceIte]
  rw [sound.putSame (by simp) file]

end Inside
end ShaderReflection.FileTree
