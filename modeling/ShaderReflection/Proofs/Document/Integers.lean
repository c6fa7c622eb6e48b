import ShaderReflection.Proofs.Document.Spots
import ShaderReflection.Proofs.Document.RoundTrip
/-!
Integers in documents, of any length. Where a document asks for an integer, a literal of the right
range is read as it is and every other numeral is refused; in a metadata document this costs the
interface, or the whole document if the numeral is too great for any number.
-/
namespace ShaderReflection.Document
open Json Json.Decoder

def Fitting (around : Tree → Tree) : Prop :=
  ∀ {depth first}, (around first).fits depth = true →
    ∃ inner, ∀ tree, (around tree).fits depth = tree.fits inner

section Fitting
variable {around within : Tree → Tree}

theorem itemsFitAppend (depth : Nat) (front back : List Tree) :
    itemsFit depth (front ++ back) = (itemsFit depth front && itemsFit depth back) := by
  induction front with
  | nil => rfl
  | cons item rest ih => simp [itemsFit, ih, Bool.and_assoc]

theorem listFitting (front back : List Tree) : Fitting fun t => .array (front ++ t :: back) := by
  intro depth first fits
  simp only [Tree.fits, itemsFitAppend, itemsFit, Bool.and_eq_true] at fits
  obtain ⟨deep, before, -, behind⟩ := fits
  exact ⟨depth - 1, fun tree => by simp [Tree.fits, itemsFitAppend, itemsFit, deep, before, behind]⟩

theorem objectFitting (name : String) (front back : List (Option Text × Tree)) :
    Fitting fun t => .object (front ++ (some name.toList, t) :: back) := by
  intro depth first fits
  simp only [Tree.fits, membersFitAppend, membersFit, Bool.and_eq_true] at fits
  obtain ⟨deep, before, -, behind⟩ := fits
  exact ⟨depth - 1,
    fun tree => by simp [Tree.fits, membersFitAppend, membersFit, deep, before, behind]⟩

theorem fieldFitting {name : String} {index : Nat} (hole : FieldHole name index around) :
    Fitting around := by
  cases hole with
  | member front back => exact objectFitting name front back
  | item front back => exact listFitting front back

theorem entryFitting {index : Nat} (hole : ItemHole index around) : Fitting around := by
  cases hole with
  | item front back => exact listFitting front back

theorem insideFitting (outer : Fitting around) (inner : Fitting within) :
    Fitting fun t => around (within t) := by
  intro depth first fits
  obtain ⟨middle, same⟩ := outer fits
  obtain ⟨least, same'⟩ := inner ((same _).symm.trans fits)
  exact ⟨least, fun tree => (same _).trans (same' tree)⟩

end Fitting

theorem spotFitting {place : Part → FieldPlace} {s : Spot} {k : Nat} {around : Tree → Tree}
    (hole : SpotHole place s k around) : Fitting around := by
  obtain ⟨part, item, field⟩ := hole
  exact insideFitting (fieldFitting part) (insideFitting (entryFitting item) (fieldFitting field))

section Metadata
variable {members : List (Option Text × Tree)}

theorem metadataRefuses {tree : Tree}
    (apart : tree.fits maxDepth = false ∨ diagnostics.Refuses tree) : metadata.Refuses tree := by
  intro node means accepted
  cases node with
  | object inside close start =>
    obtain ⟨whole, diagnosed⟩ := Option.or_eq_none_iff.mp accepted
    rcases apart with deep | refuses
    · rw [(bufferWhole maxDepth _ tree means).mp whole] at deep
      cases deep
    · exact refuses _ means diagnosed
  | _ => cases accepted

theorem metadataGives {node : Node} {tree : Tree} (means : node.tree? = some tree)
    (accepted : metadata.fault? node = none) :
    (∃ members, tree = .object members) ∧ tree.fits maxDepth = true ∧
      diagnostics.Accepts tree (metadata.read node).diagnostics ∧
      Listed tree (metadata.read node).interface? := by
  cases node with
  | object inside close start =>
    obtain ⟨whole, diagnosed⟩ := Option.or_eq_none_iff.mp accepted
    obtain ⟨stop, members, rfl, inner, rfl⟩ := objectTree means
    refine ⟨⟨members, rfl⟩, (bufferWhole maxDepth _ _ means).mp whole,
      soundDiagnostics.accepts means diagnosed, ?_⟩
    simp only [metadata]
    cases fault : interface.fault? (.object inside (.closed stop) start) with
    | none => exact (soundInterface.accepts means fault).taken
    | some f => exact soundInterface.refuses means (by simp [fault])
  | _ => cases accepted

theorem diagnosticsApart {name : String} (other : name ∉ diagnosticsFields.map (·.name))
    (front back : List (Option Text × Tree)) {first : Tree} {d : Diagnostics}
    (accepted : diagnostics.Accepts (.object (front ++ (some name.toList, first) :: back)) d)
    (tree : Tree) : diagnostics.Takes (.object (front ++ (some name.toList, tree) :: back)) d := by
  refine (memberApart diagnosticsRecord front back (fun field member same => ?_) ?_).1 accepted
  · exact other (List.mem_map.mpr ⟨field, member, same⟩)
  · intro node other alike
    simp only [diagnostics]
    rw [alike 0 _ soundText rfl (by decide), alike 1 _ soundText rfl (by decide),
      alike 2 _ soundSigned rfl (by decide)]

theorem listedApart {name : String} (other : name ∉ interfaceFields.map (·.name))
    (front back : List (Option Text × Tree)) {first : Tree} {x : Option Interface}
    (there : ∃ node : Node,
      node.tree? = some (.object (front ++ (some name.toList, first) :: back)))
    (listed : Listed (.object (front ++ (some name.toList, first) :: back)) x) (tree : Tree) :
    Listed (.object (front ++ (some name.toList, tree) :: back)) x := by
  obtain ⟨taken, refused⟩ := memberApart interfaceLists.record front back
    (fun field member same => other (List.mem_map.mpr ⟨field, member, same⟩))
    fun node other alike => by
      simp only [interface]
      rw [alike 0 _ soundUniforms rfl (by decide), alike 1 _ soundAttributes rfl (by decide),
        alike 2 _ soundAttributes rfl (by decide), alike 3 _ soundStructs rfl (by decide)]
  cases x with
  | some x => exact taken ⟨there, listed⟩
  | none => exact refused there listed

end Metadata

structure ReadsExactly {α : Type} (read : Text → Except Fault α) (before behind : Text)
    (InRange : Int → Prop) (result : Int → α) : Prop where
  taken : ∀ i, InRange i → read (before ++ (Text.signedDecimal i ++ behind)) = .ok (result i)
  missed : ∀ literal number, Misses InRange literal number →
    ∃ fault, read (before ++ (literal ++ behind)) = .error fault

/-- A metadata document with another numeral for an integer of its interface: one that misses the
range costs the interface, and the whole document if no number is as great. -/
structure ReadsInterface (before behind : Text) (s : Spot) (k : Nat) (d : Diagnostics)
    (x : Interface) : Prop where
  taken : ∀ i, s.InRange i →
    readMetadata (before ++ (Text.signedDecimal i ++ behind)) = .ok ⟨d, some (s.put k i x)⟩
  dropped : ∀ literal number, Misses s.InRange literal (some number) →
    readMetadata (before ++ (literal ++ behind)) = .ok ⟨d, none⟩
  failed : ∀ literal, Misses s.InRange literal none →
    ∃ fault, readMetadata (before ++ (literal ++ behind)) = .error fault

structure OtherwiseValid {α : Type} (read : Text → Except Fault α) (before behind : Text)
    (around : Tree → Tree) (a : α) : Prop where
  surrounds : Surrounds before behind around
  valid : ∃ value tree, Says value tree ∧ read (before ++ (value ++ behind)) = .ok a

section Texts
variable {around : Tree → Tree} {before behind : Text} (surrounds : Surrounds before behind around)
include surrounds

section Decoders
variable {α : Type} {d : Decoder α} {literal : Text} {tree : Tree} (said : Says literal tree)
include said

theorem surroundsTaken {a : α} (taken : d.Takes (around tree) a) :
    decode d (before ++ (literal ++ behind)) = .ok a := by
  obtain ⟨front, text, back, blank, blank', whole, same⟩ := surroundsSaid surrounds said
  rw [same]
  exact decodeReads (saysReads whole) taken blank blank'

theorem surroundsRefused (refuses : d.Refuses (around tree)) :
    ∃ fault, decode d (before ++ (literal ++ behind)) = .error fault := by
  obtain ⟨front, text, back, blank, blank', whole, same⟩ := surroundsSaid surrounds said
  rw [same]
  exact decodeRefused whole blank blank' refuses

theorem surroundsNode {a : α} (decoded : decode d (before ++ (literal ++ behind)) = .ok a) :
    ∃ node : Node, node.tree? = some (around tree) ∧ d.fault? node = none ∧ d.read node = a := by
  obtain ⟨front, text, back, blank, blank', whole, same⟩ := surroundsSaid surrounds said
  exact decodedNode whole blank blank' (same ▸ decoded)

end Decoders

variable {value : Text} {tree : Tree} (said : Says value tree)
include said

theorem analyzerExact {s : Spot} {k : Nat} (hole : SpotHole analyzerPlace s k around)
    {x : Interface} (valid : readAnalyzer (before ++ (value ++ behind)) = .ok x) :
    ReadsExactly readAnalyzer before behind s.InRange (fun i => s.put k i x) ∧
      k < s.part.size x := by
  obtain ⟨node, means, fine, rfl⟩ := surroundsNode surrounds said valid
  have accepted := soundAnalyzer.accepts means fine
  have exact' := spotExact analyzerLists hole
  refine ⟨⟨fun i range => ?_, fun literal number misses => ?_⟩, ?_⟩
  · exact surroundsTaken surrounds (saysLiteral i) (exact'.taken accepted range)
  · exact surroundsRefused surrounds (missesSays misses) (exact'.missed misses)
  · obtain ⟨part, item, field⟩ := hole
    exact entryHeld analyzerLists part item accepted

theorem exitCodeReads (hole : FieldHole "returncode" 2 around) {m : Metadata}
    (valid : readMetadata (before ++ (value ++ behind)) = .ok m) :
    ReadsExactly readMetadata before behind (fun i => -2147483648 ≤ i ∧ i ≤ 2147483647)
      (fun i => { m with diagnostics := { m.diagnostics with exitCode := Int32.ofInt i } }) := by
  obtain ⟨node, means, accepted, rfl⟩ := surroundsNode surrounds said valid
  obtain ⟨⟨members, object⟩, fits, diagnosed, listed⟩ := metadataGives means accepted
  have exact' := exitCodeExact hole
  obtain ⟨inner, same⟩ := fieldFitting hole fits
  cases hole with
  | item => cases object
  | member front back =>
    refine ⟨fun i range => ?_, fun literal number misses => ?_⟩
    · have word : Word64 i := ⟨by omega, by simp only [longLimit]; omega⟩
      have number : (Numeral.ofInt i).value? = some (.integer i) := decimalValue word
      refine surroundsTaken surrounds (saysLiteral i) (metadataTakes ?_ ?_ ?_)
      · rw [same, number]
        rfl
      · exact exact'.taken diagnosed range
      · exact listedApart (by decide) front back ⟨node, means⟩ listed _
    · exact surroundsRefused surrounds (missesSays misses)
        (metadataRefuses (.inr (exact'.missed misses)))

theorem interfaceReads {s : Spot} {k : Nat} (hole : SpotHole interfacePlace s k around)
    {d : Diagnostics} {x : Interface}
    (valid : readMetadata (before ++ (value ++ behind)) = .ok ⟨d, some x⟩) :
    ReadsInterface before behind s k d x ∧ k < s.part.size x := by
  obtain ⟨node, means, fine, same⟩ := surroundsNode surrounds said valid
  obtain ⟨⟨members, object⟩, fits, diagnosed, listed⟩ := metadataGives means fine
  rw [same] at diagnosed listed
  have accepted : interface.Accepts (around tree) x := ⟨⟨node, means⟩, listed⟩
  have exact' := spotExact interfaceLists hole
  obtain ⟨inner, alike⟩ := spotFitting hole fits
  obtain ⟨part, item, field⟩ := hole
  have held := entryHeld interfaceLists part item accepted
  have other : (interfacePlace s.part).1 ∉ diagnosticsFields.map (·.name) := by
    cases s <;> decide
  cases part with
  | item => cases object
  | member front back =>
    have elsewhere := diagnosticsApart other front back diagnosed
    refine ⟨⟨fun i range => ?_, fun literal number misses => ?_, fun literal misses => ?_⟩, held⟩
    · have number : (Numeral.ofInt i).value? = some (.integer i) := decimalValue (rangeWord range)
      refine surroundsTaken surrounds (saysLiteral i) (metadataTakes ?_ (elsewhere _) ?_)
      · rw [alike, number]
        rfl
      · exact exact'.taken accepted range
    · refine surroundsTaken surrounds (missesSays misses) (metadataTakes ?_ (elsewhere _) ?_)
      · rw [alike]
        rfl
      · exact exact'.missed misses
    · refine surroundsRefused surrounds (missesSays misses) (metadataRefuses (.inl ?_))
      rw [alike]
      rfl

end Texts

theorem integersExact :
    (∀ {s k around before behind x}, SpotHole analyzerPlace s k around →
      OtherwiseValid readAnalyzer before behind around x →
        ReadsExactly readAnalyzer before behind s.InRange (fun i => s.put k i x) ∧
        ∀ i, s.InRange i → s.value? k (s.put k i x) = some i) ∧
    (∀ {around before behind m}, FieldHole "returncode" 2 around →
      OtherwiseValid readMetadata before behind around m →
        ReadsExactly readMetadata before behind (fun i => -2147483648 ≤ i ∧ i ≤ 2147483647)
          (fun i => { m with diagnostics := { m.diagnostics with exitCode := Int32.ofInt i } })) ∧
    (∀ i : Int, -2147483648 ≤ i ∧ i ≤ 2147483647 → (Int32.ofInt i).toInt = i) ∧
    (∀ {s k around before behind d x}, SpotHole interfacePlace s k around →
      OtherwiseValid readMetadata before behind around ⟨d, some x⟩ →
        ReadsInterface before behind s k d x ∧
        ∀ i, s.InRange i → s.value? k (s.put k i x) = some i) ∧
    (∀ i : Int, i.natAbs < 10 ^ 307 → ∃ number, (Numeral.ofInt i).value? = some number) ∧
    (∀ i : Int, 2 * 10 ^ 309 ≤ i.natAbs → (Numeral.ofInt i).value? = none) ∧
    (∀ {place s k around}, SpotHole place s k around → Placed around) ∧
    (∀ {around}, FieldHole "returncode" 2 around → Placed around) := by
  refine ⟨?analyzer, ?exitCode, fun i => signedBack, ?interface, fun i => integerNumber,
    fun i => integerTooGreat, spotPlaced, fieldPlaced⟩
  case analyzer =>
    rintro s k around before behind x hole ⟨surrounds, value, tree, said, valid⟩
    obtain ⟨reads, held⟩ := analyzerExact surrounds said hole valid
    exact ⟨reads, fun i range => spotValue range held⟩
  case exitCode =>
    rintro around before behind m hole ⟨surrounds, value, tree, said, valid⟩
    exact exitCodeReads surrounds said hole valid
  case interface =>
    rintro s k around before behind d x hole ⟨surrounds, value, tree, said, valid⟩
    obtain ⟨reads, held⟩ := interfaceReads surrounds said hole valid
    exact ⟨reads, fun i range => spotValue range held⟩

theorem integersExactUniform :
    let entry := "\x7b\"type_name\":\"int\",\"name\":\"n\",\"count\":".toList
    let before := "\x7b\"inputs\":[],\"outputs\":[],\"structs\":[],\"uniforms\":[".toList ++ entry
    let before' := "\x7b\"stdout\":\"\",\"stderr\":\"\",\"returncode\":0,\"structs\":[],".toList ++
      "\"in_attributes\":[],\"out_attributes\":[],\"uniforms\":[".toList ++ entry
    let behind := "\x7d]\x7d".toList
    readAnalyzer (before ++ (Text.signedDecimal 4294967295 ++ behind)) =
        .ok { uniforms := [{ typeName := .int, name := ['n'], count := 4294967295 }] } ∧
      (∃ fault, readAnalyzer (before ++ (Text.signedDecimal 18446744073709551617 ++ behind)) =
        .error fault) ∧
      readMetadata (before' ++ (Text.signedDecimal 4294967296 ++ behind)) =
        .ok ⟨⟨[], [], 0⟩, none⟩ ∧
      ∃ fault, readMetadata (before' ++ (Text.signedDecimal (10 ^ 400) ++ behind)) =
        .error fault := by
  intro entry before before' behind
  let named : List (Text × Value) :=
    [("type_name".toList, .string "int".toList), ("name".toList, .string ['n'])]
  let lists : List (Text × Value) :=
    [("inputs".toList, .array []), ("outputs".toList, .array []), ("structs".toList, .array [])]
  let others : List (Text × Value) := [("stdout".toList, .string []), ("stderr".toList, .string []),
    ("returncode".toList, .integer 0), ("structs".toList, .array []),
    ("in_attributes".toList, .array []), ("out_attributes".toList, .array [])]
  have inner := framedInside (framedList blankNil itemAlone)
    (framedObject blankNil (membersFramed "count".toList named ⟨trivial, trivial, trivial⟩))
  have surrounds : Surrounds before behind _ := ⟨[], _, _, [], blankNil, blankNil,
    framedInside (framedObject blankNil (membersFramed "uniforms".toList lists
      ⟨trivial, trivial, trivial, trivial⟩)) inner, by decide +kernel, by decide +kernel⟩
  have surrounds' : Surrounds before' behind _ := ⟨[], _, _, [], blankNil, blankNil,
    framedInside (framedObject blankNil (membersFramed "uniforms".toList others
      ⟨trivial, trivial, ⟨by decide, by decide⟩, trivial, trivial, trivial, trivial⟩)) inner,
    by decide +kernel, by decide +kernel⟩
  have two : Says (Text.signedDecimal 2) (.number (some (.integer 2))) :=
    .integer ⟨by decide, by decide⟩
  have read : readAnalyzer (before ++ (Text.signedDecimal 2 ++ behind)) =
      .ok { uniforms := [{ typeName := .int, name := ['n'], count := 2 }] } :=
    valueOfOption (by decide +kernel)
  have read' : readMetadata (before' ++ (Text.signedDecimal 2 ++ behind)) =
      .ok ⟨⟨[], [], 0⟩, some { uniforms := [{ typeName := .int, name := ['n'], count := 2 }] }⟩ :=
    valueOfOption (by decide +kernel)
  obtain ⟨analyzer, -, -, interface, -, great, -⟩ := integersExact
  have count : FieldHole "count" 2 _ := .member (memberTrees named) []
  have hole : SpotHole analyzerPlace .count 0 _ :=
    .entry (.member (memberTrees lists) []) (.item [] [] rfl) count
  have hole' : SpotHole interfacePlace .count 0 _ :=
    .entry (.member (memberTrees others) []) (.item [] [] rfl) count
  have reads := (analyzer hole ⟨surrounds, _, _, two, read⟩).1
  have reads' := (interface hole' ⟨surrounds', _, _, two, read'⟩).1
  have outside {i : Int} (above : 4294967295 < i) :
      Misses Spot.count.InRange (Text.signedDecimal i) (Numeral.ofInt i).value? :=
    .outside fun range => Int.not_le.mpr above range.2
  have missed := outside (by decide : (4294967295 : Int) < 18446744073709551617)
  have dropped := outside (by decide : (4294967295 : Int) < 4294967296)
  have failed := outside (by decide +kernel : (4294967295 : Int) < 10 ^ 400)
  have number : (Numeral.ofInt 4294967296).value? = some (.integer 4294967296) :=
    decimalValue ⟨by decide, by decide⟩
  rw [number] at dropped
  rw [great (10 ^ 400) (by decide +kernel)] at failed
  have refused := reads'.failed _ failed
  exact ⟨reads.taken 4294967295 ⟨by decide, by decide⟩, reads.missed _ _ missed,
    reads'.dropped _ _ dropped, refused⟩

theorem greatIntegerFails :
    let before := "\x7b\"stdout\":\"\",\"stderr\":\"\",\"returncode\":0,\"structs\":[],".toList ++
      "\"in_attributes\":[],\"out_attributes\":[],\"uniforms\":[".toList ++
      "\x7b\"type_name\":\"int\",\"name\":\"n\",\"count\":".toList
    let behind := "\x7d]\x7d".toList
    readMetadata (before ++ ("2".toList ++ behind)) =
        .ok ⟨⟨[], [], 0⟩, some { uniforms := [{ typeName := .int, name := ['n'], count := 2 }] }⟩ ∧
      readMetadata (before ++ ("4294967296".toList ++ behind)) = .ok ⟨⟨[], [], 0⟩, none⟩ ∧
      Text.signedDecimal (10 ^ 400) = '1' :: List.replicate 400 '0' ∧
      ∀ d, readMetadata (before ++ ('1' :: List.replicate 400 '0' ++ behind)) ≠ .ok ⟨d, none⟩ := by
  intro before behind
  have fails : (readMetadata (before ++ ('1' :: List.replicate 400 '0' ++ behind))).toOption =
      none := by decide +kernel
  refine ⟨valueOfOption (by decide +kernel), valueOfOption (by decide +kernel), by decide +kernel,
    fun d read => ?_⟩
  rw [read] at fails
  cases fails

end ShaderReflection.Document
