import ShaderReflection.Proofs.Document.Accepted
import ShaderReflection.Proofs.Json.Literal
/-!
The integers of an interface, and where they stand in a document. The decoders of records and lists
leave each of them to a decoder of words, so a literal of the right range is taken for what it is
and any other numeral makes the whole be refused.
-/
namespace ShaderReflection.Document
open Json Json.Decoder

inductive Part where
  | uniforms
  | inputs
  | outputs
  | structs

inductive Spot where
  | inputLocation
  | outputLocation
  | count
  | binding
  | size
  | alignment

abbrev FieldPlace := String × Nat

def analyzerPlace : Part → FieldPlace
  | .inputs => ("inputs", 0)
  | .outputs => ("outputs", 1)
  | .structs => ("structs", 2)
  | .uniforms => ("uniforms", 3)

def interfacePlace : Part → FieldPlace
  | .uniforms => ("uniforms", 0)
  | .inputs => ("in_attributes", 1)
  | .outputs => ("out_attributes", 2)
  | .structs => ("structs", 3)

namespace Spot

def part : Spot → Part
  | inputLocation => .inputs
  | outputLocation => .outputs
  | count | binding => .uniforms
  | size | alignment => .structs

def field : Spot → FieldPlace
  | inputLocation | outputLocation => ("location", 2)
  | count => ("count", 2)
  | binding => ("binding", 3)
  | size => ("size", 2)
  | alignment => ("alignment", 3)

def InRange : Spot → Int → Prop
  | binding, i => -2147483648 ≤ i ∧ i ≤ 2147483647
  | _, i => 0 ≤ i ∧ i ≤ 4294967295

def put (s : Spot) (k : Nat) (i : Int) (x : Interface) : Interface :=
  let word := UInt32.ofNat i.toNat
  match s with
  | inputLocation => { x with inputs := x.inputs.modify k ({ · with location := some word }) }
  | outputLocation => { x with outputs := x.outputs.modify k ({ · with location := some word }) }
  | count => { x with uniforms := x.uniforms.modify k ({ · with count := word }) }
  | binding =>
    { x with uniforms := x.uniforms.modify k ({ · with binding := some (Int32.ofInt i) }) }
  | size => { x with structs := x.structs.modify k ({ · with size := some word }) }
  | alignment => { x with structs := x.structs.modify k ({ · with alignment := some word }) }

def value? (s : Spot) (k : Nat) (x : Interface) : Option Int :=
  let ofWord (n : UInt32) : Int := n.toNat
  match s with
  | inputLocation => (x.inputs[k]?.bind (·.location)).map ofWord
  | outputLocation => (x.outputs[k]?.bind (·.location)).map ofWord
  | count => (x.uniforms[k]?.map (·.count)).map ofWord
  | binding => (x.uniforms[k]?.bind (·.binding)).map Int32.toInt
  | size => (x.structs[k]?.bind (·.size)).map ofWord
  | alignment => (x.structs[k]?.bind (·.alignment)).map ofWord

end Spot

inductive SpotHole (place : Part → FieldPlace) (s : Spot) (k : Nat) : (Tree → Tree) → Prop where
  | entry {outer list record} (part : FieldHole (place s.part).1 (place s.part).2 outer)
    (item : ItemHole k list) (field : FieldHole s.field.1 s.field.2 record) :
    SpotHole place s k fun t => outer (list (record t))

theorem spotPlaced {place : Part → FieldPlace} {s : Spot} {k : Nat} {around : Tree → Tree}
    (hole : SpotHole place s k around) : Placed around := by
  obtain ⟨part, item, field⟩ := hole
  exact insidePlaced (fieldPlaced part) (insidePlaced (entryPlaced item) (fieldPlaced field))

theorem attributeRecord : OfRecord attributes "Attribute" attributeFields :=
  ⟨rfl, by decide, attributeChecks⟩

theorem uniformRecord : OfRecord uniforms "Uniform" uniformFields :=
  ⟨rfl, by decide, uniformChecks⟩

theorem structRecord : OfRecord structs "StructDef" structFields :=
  ⟨rfl, by decide, structChecks⟩

theorem diagnosticsRecord : OfRecord diagnostics "Diagnostics" diagnosticsFields :=
  ⟨rfl, by decide, diagnosticsChecks⟩

section Entries
variable {around : Tree → Tree}

theorem locationFocus (hole : FieldHole "location" 2 around) :
    Focus attributes around unsigned32.nullable (some ·.location)
      (fun g a => { a with location := g a.location }) := by
  refine recordFocus attributeRecord hole rfl soundLocation none
    (fun _ => rfl) ?_
  intro node other g here there
  simp only [attributes]
  rw [here, there 0 _ soundTypeName rfl (by decide), there 1 _ soundText rfl (by decide)]

theorem countFocus (hole : FieldHole "count" 2 around) :
    Focus uniforms around unsigned32 (some ·.count)
      (fun g u => { u with count := g u.count }) := by
  refine recordFocus uniformRecord hole rfl soundUnsigned 1
    (fun _ => rfl) ?_
  intro node other g here there
  simp only [uniforms]
  rw [here, there 0 _ soundTypeName rfl (by decide), there 1 _ soundText rfl (by decide),
    there 3 _ soundBinding rfl (by decide), there 4 _ soundBoolean rfl (by decide)]

theorem bindingFocus (hole : FieldHole "binding" 3 around) :
    Focus uniforms around signed32.nullable (some ·.binding)
      (fun g u => { u with binding := g u.binding }) := by
  refine recordFocus uniformRecord hole rfl soundBinding none
    (fun _ => rfl) ?_
  intro node other g here there
  simp only [uniforms]
  rw [here, there 0 _ soundTypeName rfl (by decide), there 1 _ soundText rfl (by decide),
    there 2 _ soundUnsigned rfl (by decide), there 4 _ soundBoolean rfl (by decide)]

theorem sizeFocus (hole : FieldHole "size" 2 around) :
    Focus structs around unsigned32.nullable (some ·.size)
      (fun g d => { d with size := g d.size }) := by
  refine recordFocus structRecord hole rfl soundLocation none
    (fun _ => rfl) ?_
  intro node other g here there
  simp only [structs]
  rw [here, there 0 _ soundText rfl (by decide), there 1 _ soundMembers rfl (by decide),
    there 3 _ soundLocation rfl (by decide)]

theorem alignmentFocus (hole : FieldHole "alignment" 3 around) :
    Focus structs around unsigned32.nullable (some ·.alignment)
      (fun g d => { d with alignment := g d.alignment }) := by
  refine recordFocus structRecord hole rfl soundLocation none
    (fun _ => rfl) ?_
  intro node other g here there
  simp only [structs]
  rw [here, there 0 _ soundText rfl (by decide), there 1 _ soundMembers rfl (by decide),
    there 2 _ soundLocation rfl (by decide)]

theorem exitCodeFocus (hole : FieldHole "returncode" 2 around) :
    Focus diagnostics around signed32 (some ·.exitCode)
      (fun g d => { d with exitCode := g d.exitCode }) := by
  refine recordFocus diagnosticsRecord hole rfl soundSigned 0
    (fun _ => rfl) ?_
  intro node other g here there
  simp only [diagnostics]
  rw [here, there 0 _ soundText rfl (by decide), there 1 _ soundText rfl (by decide)]

end Entries

def listFault? : Part → Node → Option Fault
  | .uniforms => uniforms.list.fault?
  | .inputs | .outputs => attributes.list.fault?
  | .structs => structs.list.fault?

structure ReadsLists (d : Decoder Interface) (rname : String) (fields : List Field)
    (place : Part → FieldPlace) : Prop where
  record : OfRecord d rname fields
  held : ∀ part, fields[(place part).2]? = some ⟨(place part).1, true, listFault? part⟩
  apart : ∀ {part other}, part ≠ other → (place part).2 ≠ (place other).2
  read : ∀ node : Node, d.read node =
    { uniforms := node.read (place .uniforms).2 (place .uniforms).1 uniforms.list []
      inputs := node.read (place .inputs).2 (place .inputs).1 attributes.list []
      outputs := node.read (place .outputs).2 (place .outputs).1 attributes.list []
      structs := node.read (place .structs).2 (place .structs).1 structs.list [] }

theorem analyzerLists : ReadsLists analyzer "AnalyzerDocument" analyzerFields analyzerPlace where
  record := ⟨rfl, by decide, analyzerChecks⟩
  held part := by cases part <;> rfl
  apart {part other} differ := by
    cases part <;> cases other <;> first | exact absurd rfl differ | decide
  read _ := rfl

theorem interfaceLists : ReadsLists interface "ShaderInterface" interfaceFields interfacePlace where
  record := ⟨rfl, by decide, interfaceChecks⟩
  held part := by cases part <;> rfl
  apart {part other} differ := by
    cases part <;> cases other <;> first | exact absurd rfl differ | decide
  read _ := rfl

section ReadsLists
variable {d : Decoder Interface} {rname : String} {fields : List Field} {place : Part → FieldPlace}
  (lists : ReadsLists d rname fields place) {around : Tree → Tree}
include lists

theorem uniformsFocus (hole : FieldHole (place .uniforms).1 (place .uniforms).2 around) :
    Focus d around uniforms.list (some ·.uniforms)
      (fun g x => { x with uniforms := g x.uniforms }) := by
  refine recordFocus lists.record hole (lists.held .uniforms) soundUniforms []
    (fun node => by rw [lists.read]) ?_
  intro node other g here there
  rw [lists.read, lists.read, here,
    there _ _ soundAttributes (lists.held .inputs) (lists.apart nofun),
    there _ _ soundAttributes (lists.held .outputs) (lists.apart nofun),
    there _ _ soundStructs (lists.held .structs) (lists.apart nofun)]

theorem inputsFocus (hole : FieldHole (place .inputs).1 (place .inputs).2 around) :
    Focus d around attributes.list (some ·.inputs)
      (fun g x => { x with inputs := g x.inputs }) := by
  refine recordFocus lists.record hole (lists.held .inputs) soundAttributes []
    (fun node => by rw [lists.read]) ?_
  intro node other g here there
  rw [lists.read, lists.read, here,
    there _ _ soundUniforms (lists.held .uniforms) (lists.apart nofun),
    there _ _ soundAttributes (lists.held .outputs) (lists.apart nofun),
    there _ _ soundStructs (lists.held .structs) (lists.apart nofun)]

theorem outputsFocus (hole : FieldHole (place .outputs).1 (place .outputs).2 around) :
    Focus d around attributes.list (some ·.outputs)
      (fun g x => { x with outputs := g x.outputs }) := by
  refine recordFocus lists.record hole (lists.held .outputs) soundAttributes []
    (fun node => by rw [lists.read]) ?_
  intro node other g here there
  rw [lists.read, lists.read, here,
    there _ _ soundUniforms (lists.held .uniforms) (lists.apart nofun),
    there _ _ soundAttributes (lists.held .inputs) (lists.apart nofun),
    there _ _ soundStructs (lists.held .structs) (lists.apart nofun)]

theorem structsFocus (hole : FieldHole (place .structs).1 (place .structs).2 around) :
    Focus d around structs.list (some ·.structs)
      (fun g x => { x with structs := g x.structs }) := by
  refine recordFocus lists.record hole (lists.held .structs) soundStructs []
    (fun node => by rw [lists.read]) ?_
  intro node other g here there
  rw [lists.read, lists.read, here,
    there _ _ soundUniforms (lists.held .uniforms) (lists.apart nofun),
    there _ _ soundAttributes (lists.held .inputs) (lists.apart nofun),
    there _ _ soundAttributes (lists.held .outputs) (lists.apart nofun)]

end ReadsLists

inductive Misses (InRange : Int → Prop) : Text → Option Number → Prop where
  | outside {i : Int} (outside : ¬InRange i) :
    Misses InRange (Text.signedDecimal i) (Numeral.ofInt i).value?
  | other {x : Numeral} {text : Text} (written : NumeralText x text) (free : x.NoInteger) :
    Misses InRange (signed x.negative text) x.float?

theorem missesSays {InRange : Int → Prop} {text : Text} {number : Option Number}
    (misses : Misses InRange text number) : Says text (.number number) := by
  cases misses with
  | outside => exact saysLiteral _
  | other written free => exact saysFloat written free

structure Exact {α : Type} (d : Decoder α) (around : Tree → Tree) (InRange : Int → Prop)
    (put : Int → α → α) : Prop where
  taken : ∀ {first a i}, d.Accepts (around first) a → InRange i →
    d.Takes (around (.number (Numeral.ofInt i).value?)) (put i a)
  missed : ∀ {text number}, Misses InRange text number → d.Refuses (around (.number number))

section Exact
variable {α β : Type} {d : Decoder α} {around : Tree → Tree} {name : String} {least greatest : Int}
  {convert : Int → β} (fits : -9223372036854775808 ≤ least ∧ greatest < longLimit)

theorem missesWord {text : Text} {number : Option Number}
    (misses : Misses (fun i => least ≤ i ∧ i ≤ greatest) text number) :
    (Decoder.word name least greatest convert).Refuses (.number number) := by
  cases misses with
  | outside outside => exact wordRefused outside
  | other => exact refusesFloat _

include fits

theorem wordHere {i : Int} (range : least ≤ i ∧ i ≤ greatest) :
    (Decoder.word name least greatest convert).Takes (.number (Numeral.ofInt i).value?)
      (convert i) :=
  wordTaken range ⟨by omega, by omega⟩

theorem exactWord {get : α → Option β} {alter : (β → β) → α → α}
    (focus : Focus d around (Decoder.word name least greatest convert) get alter) :
    Exact d around (fun i => least ≤ i ∧ i ≤ greatest) (fun i => alter fun _ => convert i) where
  taken accepted range := focus.put accepted (wordHere fits range)
  missed misses := focus.refused (missesWord misses)

theorem exactNullable {get : α → Option (Option β)} {alter : (Option β → Option β) → α → α}
    (focus : Focus d around (Decoder.word name least greatest convert).nullable get alter) :
    Exact d around (fun i => least ≤ i ∧ i ≤ greatest)
      (fun i => alter fun _ => some (convert i)) where
  taken accepted range := focus.put accepted (takesSome (wordHere fits range) nofun)
  missed misses := focus.refused (refusesNullable (missesWord misses) nofun)

end Exact

theorem rangeWord {s : Spot} {i : Int} (range : s.InRange i) : Word64 i := by
  have bounds : -9223372036854775808 ≤ i ∧ i ≤ 4294967295 := by
    cases s <;> simp only [Spot.InRange] at range <;> omega
  exact ⟨bounds.1, by simp only [longLimit]; omega⟩

theorem spotExact {d : Decoder Interface} {rname : String} {fields : List Field}
    {place : Part → FieldPlace} (lists : ReadsLists d rname fields place) {s : Spot} {k : Nat}
    {around : Tree → Tree} (hole : SpotHole place s k around) :
    Exact d around s.InRange (s.put k) := by
  have unsigned : -9223372036854775808 ≤ (0 : Int) ∧ (4294967295 : Int) < longLimit := by decide
  have signed : -9223372036854775808 ≤ (-2147483648 : Int) ∧ (2147483647 : Int) < longLimit := by
    decide
  obtain ⟨part, item, field⟩ := hole
  cases s with
  | inputLocation =>
    exact exactNullable unsigned ((inputsFocus lists part).inside
      ((listFocus soundAttribute item).inside (locationFocus field)))
  | outputLocation =>
    exact exactNullable unsigned ((outputsFocus lists part).inside
      ((listFocus soundAttribute item).inside (locationFocus field)))
  | count =>
    exact exactWord unsigned ((uniformsFocus lists part).inside
      ((listFocus soundUniform item).inside (countFocus field)))
  | binding =>
    exact exactNullable signed ((uniformsFocus lists part).inside
      ((listFocus soundUniform item).inside (bindingFocus field)))
  | size =>
    exact exactNullable unsigned ((structsFocus lists part).inside
      ((listFocus soundStruct item).inside (sizeFocus field)))
  | alignment =>
    exact exactNullable unsigned ((structsFocus lists part).inside
      ((listFocus soundStruct item).inside (alignmentFocus field)))

def Part.size : Part → Interface → Nat
  | .uniforms, x => x.uniforms.length
  | .inputs, x => x.inputs.length
  | .outputs, x => x.outputs.length
  | .structs, x => x.structs.length

theorem entryHeld {d : Decoder Interface} {rname : String} {fields : List Field}
    {place : Part → FieldPlace} (lists : ReadsLists d rname fields place) {part : Part} {k : Nat}
    {outer list : Tree → Tree} (hole : FieldHole (place part).1 (place part).2 outer)
    (item : ItemHole k list) {first : Tree} {x : Interface}
    (accepted : d.Accepts (outer (list first)) x) : k < part.size x := by
  have within {γ : Type} {values : List γ} {b : γ} (got : (some values).bind (·[k]?) = some b) :
      k < values.length := (List.getElem?_eq_some_iff.mp got).1
  cases part with
  | uniforms =>
    have focus := (uniformsFocus lists hole).inside (listFocus soundUniform item)
    obtain ⟨u, got, -⟩ := focus.inner accepted
    exact within got
  | inputs =>
    have focus := (inputsFocus lists hole).inside (listFocus soundAttribute item)
    obtain ⟨a, got, -⟩ := focus.inner accepted
    exact within got
  | outputs =>
    have focus := (outputsFocus lists hole).inside (listFocus soundAttribute item)
    obtain ⟨a, got, -⟩ := focus.inner accepted
    exact within got
  | structs =>
    have focus := (structsFocus lists hole).inside (listFocus soundStruct item)
    obtain ⟨t, got, -⟩ := focus.inner accepted
    exact within got

theorem signedBack {i : Int} (range : -2147483648 ≤ i ∧ i ≤ 2147483647) :
    (Int32.ofInt i).toInt = i :=
  Int32.toInt_ofInt_of_le (by omega) (by omega)

theorem unsignedBack {i : Int} (range : 0 ≤ i ∧ i ≤ 4294967295) :
    ((UInt32.ofNat i.toNat).toNat : Int) = i := by
  have small : i.toNat < UInt32.size := by
    rw [UInt32.size]
    omega
  rw [UInt32.toNat_ofNat_of_lt' small]
  omega

theorem spotValue {s : Spot} {k : Nat} {i : Int} {x : Interface} (range : s.InRange i)
    (held : k < s.part.size x) : s.value? k (s.put k i x) = some i := by
  have modified {γ : Type} (values : List γ) (within : k < values.length) (f : γ → γ) :
      (values.modify k f)[k]? = some (f values[k]) := by
    rw [List.getElem?_modify_eq, List.getElem?_eq_getElem within]
    rfl
  cases s with
  | inputLocation =>
    have entry := modified x.inputs held
    simp only [Spot.value?, Spot.put, entry, Option.bind_some, Option.map_some, unsignedBack range]
  | outputLocation =>
    have entry := modified x.outputs held
    simp only [Spot.value?, Spot.put, entry, Option.bind_some, Option.map_some, unsignedBack range]
  | count =>
    have entry := modified x.uniforms held
    simp only [Spot.value?, Spot.put, entry, Option.map_some, unsignedBack range]
  | binding =>
    have entry := modified x.uniforms held
    simp only [Spot.value?, Spot.put, entry, Option.bind_some, Option.map_some, signedBack range]
  | size | alignment =>
    have entry := modified x.structs held
    simp only [Spot.value?, Spot.put, entry, Option.bind_some, Option.map_some, unsignedBack range]

theorem exitCodeExact {around : Tree → Tree} (hole : FieldHole "returncode" 2 around) :
    Exact diagnostics around (fun i => -2147483648 ≤ i ∧ i ≤ 2147483647)
      (fun i d => { d with exitCode := Int32.ofInt i }) :=
  exactWord (by decide) (exitCodeFocus hole)

end ShaderReflection.Document
