import ShaderReflection.Proofs.Document.Accepted
import ShaderReflection.Proofs.Document.RoundTrip
import ShaderReflection.Proofs.Json.Fields
/-!
A metadata document by its two parts. The diagnostics alone decide whether it can be read; the
interface is there if its four lists are, and nothing else in the document matters.
-/
namespace ShaderReflection.Document
open Json

/-- A text that is an object with the members, and that can be taken in as a whole: its strings are
texts, its numbers are in range, and it is not nested too deeply. -/
inductive Holds : Text → List (Option Text × Tree) → Prop where
  | object {front text back : Text} {members : List (Option Text × Tree)} (before : Blank front)
    (said : Says text (.object members)) (behind : Blank back)
    (fits : (Tree.object members).fits maxDepth = true) : Holds (front ++ (text ++ back)) members

structure Diagnosed (members : List (Option Text × Tree)) (d : Diagnostics) : Prop where
  stdout : valuesOf "stdout" members = [.string (some d.stdout)]
  stderr : valuesOf "stderr" members = [.string (some d.stderr)]
  exitCode : valuesOf "returncode" members = [.number (some (.integer d.exitCode.toInt))]

def DecodesOne {α : Type} (d : Decoder α) (values : List Tree) (a : α) : Prop :=
  ∃ tree text, values = [tree] ∧ Says text tree ∧ decode d text = .ok a

structure Interfaced (members : List (Option Text × Tree)) (i : Interface) : Prop where
  uniforms : DecodesOne uniforms.list (valuesOf "uniforms" members) i.uniforms
  inputs : DecodesOne attributes.list (valuesOf "in_attributes" members) i.inputs
  outputs : DecodesOne attributes.list (valuesOf "out_attributes" members) i.outputs
  structs : DecodesOne structs.list (valuesOf "structs" members) i.structs

section Once
variable {α : Type} {d : Decoder α} {values : List Tree}

theorem decodedTakes (sound : d.Sound) {text : Text} {tree : Tree} {a : α} (said : Says text tree)
    (decoded : decode d text = .ok a) : d.Takes tree a := by
  obtain ⟨node, next, parsed, means, done⟩ := parseReads (saysReads said) blankNil blankNil
  rw [List.nil_append, List.append_nil] at parsed
  simp only [decode, parsed] at decoded
  split at decoded
  · cases decoded
  · rename_i accepted
    obtain ⟨tree', same, taken⟩ := sound node accepted
    obtain rfl : tree' = tree := Option.some.inj (same.symm.trans means)
    rw [done, List.isEmpty_nil, if_pos rfl, Except.ok.injEq] at decoded
    exact decoded ▸ taken

theorem takesDecoded {text : Text} {tree : Tree} {a : α} (said : Says text tree)
    (taken : d.Takes tree a) : decode d text = .ok a := by
  have decoded := decodeReads (saysReads said) taken blankNil blankNil
  rwa [List.nil_append, List.append_nil] at decoded

theorem givenDecoded (sound : d.Sound) {a : α} (default : α) (one : DecodesOne d values a) :
    Given d true default values a := by
  obtain ⟨tree, text, rfl, said, decoded⟩ := one
  exact .value (decodedTakes sound said decoded)

theorem decodesOnce {name : String} (sound : d.Sound)
    (said : ∀ tree ∈ values, ∃ text, Says text tree)
    (fills : Field.Fills ⟨name, true, d.fault?⟩ values) : ∃ a, DecodesOne d values a := by
  obtain ⟨single, present, accepted⟩ := fills
  obtain ⟨tree, rfl⟩ := List.length_eq_one_iff.mp
    (Nat.le_antisymm single (List.length_pos_iff.mpr (present rfl)))
  -- The value is of the grammar, so it is a text of its own, which the decoder accepts.
  obtain ⟨text, inner⟩ := said tree List.mem_cons_self
  obtain ⟨node, next, -, means, -⟩ := parseReads (saysReads inner) blankNil blankNil
  obtain ⟨tree', same, taken⟩ := sound node (accepted tree List.mem_cons_self node means)
  obtain rfl : tree' = tree := Option.some.inj (same.symm.trans means)
  exact ⟨d.read node, tree', text, rfl, inner, takesDecoded inner taken⟩

end Once

theorem textOnce {values : List Tree} {t : Text} (one : DecodesOne Decoder.text values t) :
    values = [.string (some t)] := by
  obtain ⟨tree, text, rfl, said, decoded⟩ := one
  obtain ⟨node, next, -, means, -⟩ := parseReads (saysReads said) blankNil blankNil
  obtain ⟨accepted, read⟩ := decodedTakes Decoder.soundText said decoded node means
  cases node with
  | string value start stop =>
    cases value with
    | ok t' =>
      cases means
      cases read
      rfl
    | error fault => cases accepted
  | _ => simp [Decoder.text] at accepted

theorem signedOnce {values : List Tree} {n : Int32} (one : DecodesOne Decoder.signed32 values n) :
    values = [.number (some (.integer n.toInt))] := by
  obtain ⟨tree, text, rfl, said, decoded⟩ := one
  obtain ⟨node, next, -, means, -⟩ := parseReads (saysReads said) blankNil blankNil
  obtain ⟨accepted, read⟩ := decodedTakes Decoder.soundSigned said decoded node means
  cases node with
  | number value start stop =>
    cases value with
    | ok x =>
      cases x with
      | integer i =>
        cases means
        cases read
        by_cases range : -2147483648 ≤ i ∧ i ≤ 2147483647
        · have back : (Int32.ofInt i).toInt = i :=
            Int32.toInt_ofInt_of_le (by omega) (by omega)
          simp [Decoder.signed32, Decoder.word, back, Except.toOption]
        · simp [Decoder.signed32, Decoder.word, range] at accepted
      | float negative magnitude => simp [Decoder.signed32, Decoder.word] at accepted
    | error fault => simp [Decoder.signed32, Decoder.word] at accepted
  | _ => simp [Decoder.signed32, Decoder.word] at accepted

theorem fitsKeys {depth : Nat} {members : List (Option Text × Tree)}
    (fits : membersFit depth members = true) : ∀ m ∈ members, m.1.isSome = true := by
  induction members with
  | nil => exact List.forall_mem_nil _
  | cons m rest ih =>
    simp only [membersFit, Bool.and_eq_true] at fits
    exact List.forall_mem_cons.mpr ⟨fits.1.1, ih fits.2⟩

theorem objectKeys {depth : Nat} {members : List (Option Text × Tree)}
    (fits : (Tree.object members).fits depth = true) : ∀ m ∈ members, m.1.isSome = true := by
  simp only [Tree.fits, Bool.and_eq_true] at fits
  exact fitsKeys fits.2

section Parts
variable {members : List (Option Text × Tree)} {node : Node}

theorem diagnosedTaken (keys : ∀ m ∈ members, m.1.isSome = true)
    (means : node.tree? = some (.object members)) {d : Diagnostics}
    (diagnosed : Diagnosed members d) :
    diagnostics.fault? node = none ∧ diagnostics.read node = d := by
  obtain ⟨stdout, stderr, exitCode⟩ := diagnosed
  have first : Given Decoder.text true [] (valuesOf "stdout" members) d.stdout :=
    stdout ▸ .value (Decoder.takesText d.stdout)
  have second : Given Decoder.text true [] (valuesOf "stderr" members) d.stderr :=
    stderr ▸ .value (Decoder.takesText d.stderr)
  have third : Given Decoder.signed32 true 0 (valuesOf "returncode" members) d.exitCode :=
    exitCode ▸ .value (Decoder.takesSigned d.exitCode)
  constructor
  · refine recordFits "Diagnostics" diagnosticsFields means
      ((fitsByFields (by decide)).mpr ⟨keys, ?_⟩)
    simp [diagnosticsFields, givenFills first, givenFills second, givenFills third]
  · simp only [diagnostics]
    rw [givenRead first means, givenRead second means, givenRead third means]

theorem interfacedTaken (keys : ∀ m ∈ members, m.1.isSome = true)
    (means : node.tree? = some (.object members)) {i : Interface}
    (interfaced : Interfaced members i) :
    interface.fault? node = none ∧ interface.read node = i := by
  have first := givenDecoded soundUniforms [] interfaced.uniforms
  have second := givenDecoded soundAttributes [] interfaced.inputs
  have third := givenDecoded soundAttributes [] interfaced.outputs
  have fourth := givenDecoded soundStructs [] interfaced.structs
  constructor
  · refine recordFits "ShaderInterface" interfaceFields means
      ((fitsByFields (by decide)).mpr ⟨keys, ?_⟩)
    simp [interfaceFields, givenFills first, givenFills second, givenFills third,
      givenFills fourth]
  · simp only [interface]
    rw [givenRead first means, givenRead second means, givenRead third means,
      givenRead fourth means]

theorem valuesSaid (said : ∀ m ∈ members, ∃ text, Says text m.2) (name : String) :
    ∀ tree ∈ valuesOf name members, ∃ text, Says text tree :=
  fun _ inside => said _ (valueMember.mp inside)

theorem takenDiagnosed (said : ∀ m ∈ members, ∃ text, Says text m.2)
    (means : node.tree? = some (.object members)) (accepted : diagnostics.fault? node = none) :
    ∃ d, Diagnosed members d := by
  have fits := (recordAccepts diagnosticsChecks means).mp accepted
  have each := ((fitsByFields (by decide)).mp fits).2
  simp only [diagnosticsFields, List.forall_mem_cons] at each
  obtain ⟨first, second, third, -⟩ := each
  obtain ⟨stdout, one⟩ := decodesOnce Decoder.soundText (valuesSaid said "stdout") first
  obtain ⟨stderr, two⟩ := decodesOnce Decoder.soundText (valuesSaid said "stderr") second
  obtain ⟨exitCode, three⟩ := decodesOnce Decoder.soundSigned (valuesSaid said "returncode") third
  exact ⟨⟨stdout, stderr, exitCode⟩, textOnce one, textOnce two, signedOnce three⟩

theorem takenInterfaced (said : ∀ m ∈ members, ∃ text, Says text m.2)
    (means : node.tree? = some (.object members)) (accepted : interface.fault? node = none) :
    ∃ i, Interfaced members i := by
  have fits := (recordAccepts interfaceChecks means).mp accepted
  have each := ((fitsByFields (by decide)).mp fits).2
  simp only [interfaceFields, List.forall_mem_cons] at each
  obtain ⟨first, second, third, fourth, -⟩ := each
  obtain ⟨uniforms, one⟩ := decodesOnce soundUniforms (valuesSaid said "uniforms") first
  obtain ⟨inputs, two⟩ := decodesOnce soundAttributes (valuesSaid said "in_attributes") second
  obtain ⟨outputs, three⟩ := decodesOnce soundAttributes (valuesSaid said "out_attributes") third
  obtain ⟨structs, four⟩ := decodesOnce soundStructs (valuesSaid said "structs") fourth
  exact ⟨⟨uniforms, inputs, outputs, structs⟩, one, two, three, four⟩

end Parts

structure Parts (members : List (Option Text × Tree)) (m : Metadata) : Prop where
  diagnosed : Diagnosed members m.diagnostics
  interfaced : ∀ i, m.interface? = some i ↔ Interfaced members i

theorem partsTaken {members : List (Option Text × Tree)} {node : Node}
    (said : ∀ m ∈ members, ∃ text, Says text m.2) (means : node.tree? = some (.object members))
    (fits : (Tree.object members).fits maxDepth = true) (m : Metadata) :
    metadata.fault? node = none ∧ metadata.read node = m ↔ Parts members m := by
  have keys : ∀ m ∈ members, m.1.isSome = true := objectKeys fits
  rw [metadataAccepts means fits]
  constructor
  · rintro ⟨accepted, rfl⟩
    obtain ⟨d, diagnosed⟩ := takenDiagnosed said means accepted
    refine ⟨?_, fun i => ⟨fun present => ?_, fun interfaced => ?_⟩⟩
    · change Diagnosed members (diagnostics.read node)
      rwa [(diagnosedTaken keys means diagnosed).2]
    · simp only [metadata, Option.ite_none_right_eq_some, Option.isNone_iff_eq_none,
        Option.some.injEq] at present
      obtain ⟨i', interfaced⟩ := takenInterfaced said means present.1
      rw [← present.2, (interfacedTaken keys means interfaced).2]
      exact interfaced
    · obtain ⟨taken, read⟩ := interfacedTaken keys means interfaced
      simp [metadata, taken, read]
  · rintro ⟨diagnosed, interfaced⟩
    obtain ⟨accepted, read⟩ := diagnosedTaken keys means diagnosed
    obtain ⟨d, i⟩ := m
    refine ⟨accepted, ?_⟩
    simp only [metadata, read, Metadata.mk.injEq, true_and]
    cases fault : interface.fault? node with
    | none =>
      obtain ⟨i', inside⟩ := takenInterfaced said means fault
      rw [(interfacedTaken keys means inside).2]
      exact ((interfaced i').mpr inside).symm
    | some fault' =>
      cases i with
      | none => rfl
      | some i =>
        have taken := (interfacedTaken keys means ((interfaced i).mp rfl)).1
        simp [fault] at taken

theorem diagnosedParts {members : List (Option Text × Tree)} {node : Node}
    (said : ∀ m ∈ members, ∃ text, Says text m.2) (means : node.tree? = some (.object members))
    (fits : (Tree.object members).fits maxDepth = true) {d : Diagnostics}
    (diagnosed : Diagnosed members d) : ∃ m, Parts members m ∧ m.diagnostics = d := by
  have keys : ∀ m ∈ members, m.1.isSome = true := objectKeys fits
  obtain ⟨accepted, read⟩ := diagnosedTaken keys means diagnosed
  rw [← metadataAccepts means fits] at accepted
  exact ⟨metadata.read node, (partsTaken said means fits _).mp ⟨accepted, rfl⟩, read⟩

section Whole
variable {text : Text} {members : List (Option Text × Tree)} (holds : Holds text members)
include holds

theorem partsRead (m : Metadata) : readMetadata text = .ok m ↔ Parts members m := by
  obtain ⟨before, said, behind, fits⟩ := holds
  obtain ⟨node, next, parsed, means, done⟩ := parseReads (saysReads said) before behind
  rw [← partsTaken (memberSays said) means fits m]
  cases fault : metadata.fault? node <;> simp [readMetadata, decode, parsed, fault, done]

theorem partsOption (m : Metadata) : (readMetadata text).toOption = some m ↔ Parts members m := by
  rw [← partsRead holds m]
  cases readMetadata text <;> simp [Except.toOption]

theorem diagnosticsRead (d : Diagnostics) :
    (readMetadata text).toOption.map (·.diagnostics) = some d ↔ Diagnosed members d := by
  simp only [Option.map_eq_some_iff, partsOption holds]
  constructor
  · rintro ⟨m, parts, rfl⟩
    exact parts.diagnosed
  · obtain ⟨before, said, behind, fits⟩ := holds
    obtain ⟨node, next, -, means, -⟩ := parseReads (saysReads said) before behind
    exact diagnosedParts (memberSays said) means fits

end Whole

def diagnosticsNames : List String := ["stdout", "stderr", "returncode"]

def interfaceNames : List String := ["uniforms", "in_attributes", "out_attributes", "structs"]

def Alike (names : List String) (members others : List (Option Text × Tree)) : Prop :=
  ∀ name ∈ names, (valuesOf name members).Perm (valuesOf name others)

section Alike
variable {members others : List (Option Text × Tree)}

theorem Alike.symm {names : List String} (same : Alike names members others) :
    Alike names others members := fun name member => (same name member).symm

theorem decodesAlike {α : Type} {d : Decoder α} {values values' : List Tree}
    (same : values.Perm values') {a : α} (one : DecodesOne d values a) : DecodesOne d values' a := by
  obtain ⟨tree, text, rfl, said, decoded⟩ := one
  exact ⟨tree, text, (List.singleton_perm.mp same).symm, said, decoded⟩

theorem diagnosedAlike (same : Alike diagnosticsNames members others) {d : Diagnostics}
    (diagnosed : Diagnosed members d) : Diagnosed others d := by
  simp only [Alike, diagnosticsNames, List.forall_mem_cons] at same
  obtain ⟨first, second, third, -⟩ := same
  rw [diagnosed.stdout, List.singleton_perm] at first
  rw [diagnosed.stderr, List.singleton_perm] at second
  rw [diagnosed.exitCode, List.singleton_perm] at third
  exact ⟨first.symm, second.symm, third.symm⟩

theorem interfacedAlike (same : Alike interfaceNames members others) {i : Interface}
    (interfaced : Interfaced members i) : Interfaced others i := by
  simp only [Alike, interfaceNames, List.forall_mem_cons] at same
  obtain ⟨first, second, third, fourth, -⟩ := same
  exact ⟨decodesAlike first interfaced.uniforms, decodesAlike second interfaced.inputs,
    decodesAlike third interfaced.outputs, decodesAlike fourth interfaced.structs⟩

theorem partsAlike (same : Alike (diagnosticsNames ++ interfaceNames) members others)
    {m : Metadata} (parts : Parts members m) : Parts others m := by
  obtain ⟨first, second⟩ := List.forall_mem_append.mp same
  exact ⟨diagnosedAlike first parts.diagnosed, fun i => (parts.interfaced i).trans
    ⟨interfacedAlike second, interfacedAlike (Alike.symm second)⟩⟩

variable {text text' : Text} (holds : Holds text members) (holds' : Holds text' others)
include holds holds'

theorem diagnosticsSame (same : Alike diagnosticsNames members others) :
    (readMetadata text).toOption.map (·.diagnostics) =
      (readMetadata text').toOption.map (·.diagnostics) := by
  ext d
  rw [diagnosticsRead holds, diagnosticsRead holds']
  exact ⟨diagnosedAlike same, diagnosedAlike same.symm⟩

theorem metadataSame (same : Alike (diagnosticsNames ++ interfaceNames) members others) :
    (readMetadata text).toOption = (readMetadata text').toOption := by
  ext m
  rw [partsOption holds, partsOption holds']
  exact ⟨partsAlike same, partsAlike same.symm⟩

end Alike

theorem metadataParts {text : Text} {members : List (Option Text × Tree)}
    (holds : Holds text members) :
    ((∃ m, readMetadata text = .ok m) ↔ ∃ d, Diagnosed members d) ∧
    (∀ m, readMetadata text = .ok m ↔ Diagnosed members m.diagnostics ∧
      ∀ i, m.interface? = some i ↔ Interfaced members i) ∧
    (∀ text' others, Holds text' others →
      (Alike diagnosticsNames members others →
        (readMetadata text).toOption.map (·.diagnostics) =
          (readMetadata text').toOption.map (·.diagnostics)) ∧
      (Alike (diagnosticsNames ++ interfaceNames) members others ∨ members.Perm others →
        (readMetadata text).toOption = (readMetadata text').toOption)) := by
  refine ⟨⟨?_, ?_⟩, fun m => (partsRead holds m).trans ⟨?_, ?_⟩,
    fun text' others holds' => ⟨diagnosticsSame holds holds', ?_⟩⟩
  · rintro ⟨m, read⟩
    exact ⟨m.diagnostics, ((partsRead holds m).mp read).diagnosed⟩
  · rintro ⟨d, diagnosed⟩
    obtain ⟨m, read, -⟩ := Option.map_eq_some_iff.mp ((diagnosticsRead holds d).mpr diagnosed)
    exact ⟨m, valueOfOption read⟩
  · exact fun parts => ⟨parts.diagnosed, parts.interfaced⟩
  · exact fun ⟨diagnosed, interfaced⟩ => ⟨diagnosed, interfaced⟩
  · rintro (same | same)
    · exact metadataSame holds holds' same
    · exact metadataSame holds holds' fun name _ => valuesPerm same

theorem metadataPartsBroken :
    let text := "\x7b\"uniforms\":[\x7b\x7d],\"stdout\":\"o\",\"stderr\":\"\",\"returncode\":1\x7d".toList
    let text' := "\x7b\"returncode\":1,\"stderr\":\"\",\"x\":[],\"stdout\":\"o\",".toList ++
      "\"uniforms\":[\x7b\x7d]\x7d".toList
    readMetadata text = .ok (Metadata.failed ⟨"o".toList, [], 1⟩) ∧
      (readMetadata text).toOption = (readMetadata text').toOption := by
  intro text text'
  let members : List (Text × Value) := [("uniforms".toList, .array [.object []]),
    ("stdout".toList, .string ['o']), ("stderr".toList, .string []), ("returncode".toList, .integer 1)]
  let others : List (Text × Value) := [("returncode".toList, .integer 1),
    ("stderr".toList, .string []), ("x".toList, .array []), ("stdout".toList, .string ['o']),
    ("uniforms".toList, .array [.object []])]
  have held (members : List (Text × Value)) (range : membersInRange members)
      (fits : (Value.object members).tree.fits maxDepth = true) :
      Holds ((Value.object members).render Layout.compact) (memberTrees members) := by
    have said := saysWritten compactBlank 0 (.object members) range
    have whole := Holds.object blankNil said blankNil fits
    rwa [List.nil_append, List.append_nil] at whole
  have holds : Holds text (memberTrees members) :=
    (by decide +kernel : text = (Value.object members).render Layout.compact) ▸
      held members (by simp [members, membersInRange, itemsInRange, Value.InRange, Word64, longLimit]) rfl
  have holds' : Holds text' (memberTrees others) :=
    (by decide +kernel : text' = (Value.object others).render Layout.compact) ▸
      held others (by simp [others, membersInRange, itemsInRange, Value.InRange, Word64, longLimit]) rfl
  obtain ⟨-, parts, same⟩ := metadataParts holds
  refine ⟨(parts _).mpr ⟨⟨rfl, rfl, rfl⟩, fun i => ⟨fun built => ?_, fun interfaced => ?_⟩⟩, ?_⟩
  · cases built
  · obtain ⟨tree, inner, none', -⟩ := interfaced.inputs
    cases none'
  · refine (same text' (memberTrees others) holds').2 (.inl fun name member => ?_)
    have equal : ∀ name ∈ diagnosticsNames ++ interfaceNames,
        valuesOf name (memberTrees members) = valuesOf name (memberTrees others) := by
      simp [diagnosticsNames, interfaceNames, members, others, memberTrees, valuesOf]
    rw [equal name member]

end ShaderReflection.Document
