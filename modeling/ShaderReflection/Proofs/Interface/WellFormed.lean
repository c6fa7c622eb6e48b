import ShaderReflection.Proofs.Interface.Names
import ShaderReflection.Proofs.Interface.Nesting
/-!
What a scan reports is well formed, whatever text is scanned. Inputs and outputs are identifiers,
the words of struct definitions are made of identifier characters, and the name of a uniform is an
identifier with at most nine names of members behind it.
-/
namespace ShaderReflection
open Text

namespace Glsl

structure PlainAttribute (a : Attribute) : Prop where
  typed : ∃ token, isIdentifier token = true ∧ a.typeName = TypeName.ofText token
  named : isIdentifier a.name = true
  unlocated : a.location = none

structure PlainUniform (u : Uniform) : Prop where
  single : u.count = 1
  unbound : u.binding = none
  unpushed : u.pushConstant = false
  typed : WordText u.typeName.toText
  named : ∃ first others, splitOn '.' u.name = first :: others ∧ others.length ≤ 9 ∧
    isIdentifier first = true ∧ ∀ part ∈ first :: others, WordText part

structure PlainInterface (i : Interface) : Prop where
  inputs : ∀ a ∈ i.inputs, PlainAttribute a
  outputs : ∀ a ∈ i.outputs, PlainAttribute a
  uniforms : ∀ u ∈ i.uniforms, PlainUniform u
  structs : ∀ d ∈ i.structs, d.Spelled WordText WordText

theorem attributePlain {keyword line : Text} {a : Attribute}
    (member : a ∈ lineAttributes keyword line) : PlainAttribute a := by
  obtain ⟨type, name, typed, named, rfl⟩ := attributeSource member
  exact ⟨⟨type, typed, rfl⟩, named, rfl⟩

theorem declaredPlain {line : Text} {u : Uniform} (member : u ∈ lineUniforms line) :
    PlainUniform u := by
  obtain ⟨type, name, typed, named, rfl⟩ := uniformSource member
  have word := identifierWord typed
  refine ⟨rfl, rfl, rfl, ?_, name, [], splitOnNone (identifierLacks named rfl), Nat.zero_le 9,
    named, List.forall_mem_singleton.mpr (identifierWord named)⟩
  rwa [TypeName.writtenType word.nonempty]

theorem leafPlain {structs : List StructDef} (table : ∀ d ∈ structs, d.Spelled WordText WordText)
    {u : Uniform} (named : isIdentifier u.name = true) {way : Descent}
    (leaf : LeafOf structs u.typeName way) : PlainUniform (way.uniform u.name) := by
  obtain ⟨d, ⟨-, front, back, split, -⟩, descends⟩ := leaf.descends
  have own := (table d (split ▸ List.mem_append_right front List.mem_cons_self)).members
  have spelled := descentMembers (fun d member => (table d member).members) own descends
  have words : ∀ part ∈ way.names, WordText part :=
    List.forall_mem_map.mpr fun m member =>
      spelled m member m.name (by simp [StructMember.spellings])
  have undotted : ∀ part ∈ way.names, '.' ∉ part := fun part member =>
    wordUndotted (words part member).chars
  have short : way.names.length ≤ 9 := by simpa [Descent.names, Descent.length] using leaf.short
  have typed := spelled way.member (by simp) way.member.typeName.toText
    (by simp [StructMember.spellings])
  refine ⟨rfl, rfl, rfl, typed, u.name, way.names, ?_, short, named,
    List.forall_mem_cons.mpr ⟨identifierWord named, words⟩⟩
  rw [uniformNamed, dottedParts (identifierLacks named rfl) undotted]

theorem scanPlain (source : Text) {stage : Stage} (raster : stage.isRaytracing = false) :
    ∃ i, scan source stage = .ok i ∧ PlainInterface i := by
  have accepted : declarations source stage =
      .ok (apart stage.hasAttributes .idle (lines source)) := by
    rw [declarations, raster, sourceApart]
    rfl
  have structs : ∀ d ∈ scanStructs source, d.Spelled WordText WordText := fun _ => structSpelled
  have attributes {keyword : Text} : ∀ a ∈ (if stage.hasAttributes then
      (lines source).flatMap (lineAttributes keyword) else []), PlainAttribute a := by
    intro a member
    split at member
    · obtain ⟨line, -, found⟩ := List.mem_flatMap.mp member
      exact attributePlain found
    · cases member
  refine ⟨_, by rw [scan, accepted]; rfl, attributes, attributes, fun v member => ?_, structs⟩
  rcases flattenMember.mp member with ⟨plain, -⟩ | ⟨u, inside, way, leaf, rfl⟩
  · obtain ⟨line, -, found⟩ := List.mem_flatMap.mp plain
    exact declaredPlain found
  · obtain ⟨line, -, found⟩ := List.mem_flatMap.mp inside
    obtain ⟨type, name, -, named, rfl⟩ := uniformSource found
    exact leafPlain structs named leaf

theorem scanPlainNested :
    let source := "struct S \x7b S s; int é n; \x7d;\nuniform S u[2] \x7d\x7b in vec3 a, out".toList
    ∃ i, scan source .vertex = .ok i ∧ PlainInterface i ∧
      i.inputs = [⟨.vec3, "a".toList, none⟩] ∧
      "u.s.s.s.s.s.s.s.s.s".toList ∈ i.uniforms.map (·.name) := by
  intro source
  obtain ⟨i, scanned, plain⟩ := @scanPlain source .vertex rfl
  have inputs : (scan source .vertex).map (·.inputs) = .ok [⟨.vec3, "a".toList, none⟩] := by decide
  have deep : (scan source .vertex).map
      (fun i => decide ("u.s.s.s.s.s.s.s.s.s".toList ∈ i.uniforms.map (·.name))) = .ok true := by
    decide
  rw [scanned] at inputs deep
  exact ⟨i, scanned, plain, Except.ok.inj inputs, of_decide_eq_true (Except.ok.inj deep)⟩

end Glsl
end ShaderReflection
