import ShaderReflection.Document.Read
import ShaderReflection.Proofs.Json.Acceptance
/-!
The decoders of documents are sound: what they accept is whole, and they go by what a text says,
not by how it says it.
-/
namespace ShaderReflection.Document
open Json Json.Decoder

theorem soundRecord {α : Type} {d : Decoder α} {name : String} (fields : List Field)
    (record : d.fault? = recordFault? name fields) (checks : ∀ field ∈ fields, Checks field.fault?)
    (reads : ∀ node other tree, recordFault? name fields node = none → node.tree? = some tree →
      other.tree? = some tree → d.read other = d.read node) : d.Sound := by
  intro node accepted
  rw [record] at accepted
  obtain ⟨tree, means, alike⟩ := recordSound checks node accepted
  refine ⟨tree, means, fun other same => ⟨?_, reads node other tree accepted means same⟩⟩
  rw [record]
  exact alike other same

theorem soundTypeName : typeName.Sound := soundMap soundText TypeName.ofText

theorem soundLocation : unsigned32.nullable.Sound := soundNullable soundUnsigned

theorem soundBinding : signed32.nullable.Sound := soundNullable soundSigned

theorem attributeChecks : ∀ field ∈ attributeFields, Checks field.fault? := by
  simp [attributeFields, soundTypeName.checks, soundText.checks, soundLocation.checks]

theorem soundAttribute : attributes.Sound := by
  refine soundRecord attributeFields rfl attributeChecks
    fun node other tree accepted means same => ?_
  simp only [attributes]
  rw [fieldSame (by decide) soundTypeName rfl accepted means same,
    fieldSame (by decide) soundText rfl accepted means same,
    fieldSame (by decide) soundLocation rfl accepted means same]

theorem uniformChecks : ∀ field ∈ uniformFields, Checks field.fault? := by
  simp [uniformFields, soundTypeName.checks, soundText.checks, soundUnsigned.checks,
    soundBinding.checks, soundBoolean.checks]

theorem soundUniform : uniforms.Sound := by
  refine soundRecord uniformFields rfl uniformChecks fun node other tree accepted means same => ?_
  simp only [uniforms]
  rw [fieldSame (by decide) soundTypeName rfl accepted means same,
    fieldSame (by decide) soundText rfl accepted means same,
    fieldSame (by decide) soundUnsigned rfl accepted means same,
    fieldSame (by decide) soundBinding rfl accepted means same,
    fieldSame (by decide) soundBoolean rfl accepted means same]

theorem soundMember : members.Sound := by
  refine soundRecord memberFields rfl ?_ fun node other tree accepted means same => ?_
  · simp [memberFields, soundTypeName.checks, soundText.checks]
  · simp only [members]
    rw [fieldSame (by decide) soundTypeName rfl accepted means same,
      fieldSame (by decide) soundText rfl accepted means same]

theorem soundMembers : members.list.Sound := soundList soundMember

theorem structChecks : ∀ field ∈ structFields, Checks field.fault? := by
  simp [structFields, soundText.checks, soundMembers.checks, soundLocation.checks]

theorem soundStruct : structs.Sound := by
  refine soundRecord structFields rfl structChecks fun node other tree accepted means same => ?_
  simp only [structs]
  rw [fieldSame (by decide) soundText rfl accepted means same,
    fieldSame (by decide) soundMembers rfl accepted means same,
    fieldSame (by decide) soundLocation rfl accepted means same,
    fieldSame (by decide) soundLocation rfl accepted means same]

theorem soundAttributes : attributes.list.Sound := soundList soundAttribute

theorem soundUniforms : uniforms.list.Sound := soundList soundUniform

theorem soundStructs : structs.list.Sound := soundList soundStruct

theorem analyzerChecks : ∀ field ∈ analyzerFields, Checks field.fault? := by
  simp [analyzerFields, soundAttributes.checks, soundStructs.checks, soundUniforms.checks]

theorem soundAnalyzer : analyzer.Sound := by
  refine soundRecord analyzerFields rfl analyzerChecks fun node other tree accepted means same => ?_
  simp only [analyzer]
  rw [fieldSame (by decide) soundAttributes rfl accepted means same,
    fieldSame (by decide) soundAttributes rfl accepted means same,
    fieldSame (by decide) soundStructs rfl accepted means same,
    fieldSame (by decide) soundUniforms rfl accepted means same]

theorem diagnosticsChecks : ∀ field ∈ diagnosticsFields, Checks field.fault? := by
  simp [diagnosticsFields, soundText.checks, soundSigned.checks]

theorem soundDiagnostics : diagnostics.Sound := by
  refine soundRecord diagnosticsFields rfl diagnosticsChecks
    fun node other tree accepted means same => ?_
  simp only [diagnostics]
  rw [fieldSame (by decide) soundText rfl accepted means same,
    fieldSame (by decide) soundText rfl accepted means same,
    fieldSame (by decide) soundSigned rfl accepted means same]

theorem interfaceChecks : ∀ field ∈ interfaceFields, Checks field.fault? := by
  simp [interfaceFields, soundAttributes.checks, soundStructs.checks, soundUniforms.checks]

theorem soundInterface : interface.Sound := by
  refine soundRecord interfaceFields rfl interfaceChecks
    fun node other tree accepted means same => ?_
  simp only [interface]
  rw [fieldSame (by decide) soundUniforms rfl accepted means same,
    fieldSame (by decide) soundAttributes rfl accepted means same,
    fieldSame (by decide) soundAttributes rfl accepted means same,
    fieldSame (by decide) soundStructs rfl accepted means same]

end ShaderReflection.Document
