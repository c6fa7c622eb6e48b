import ShaderReflection.Proofs.Dump.Separation
import ShaderReflection.Proofs.Glsl.StructNames
/-!
The names that a scan reports. Types and names of declared variables are identifiers, and the names
of structs and of their members are made of identifier characters, whatever the source holds.
-/
namespace ShaderReflection.Glsl
open Text

namespace Declared

theorem uniformNamed {d : Declared} {u : Uniform} (found : d.uniform? = some u) :
    ∃ type name, d = .named type name ∧ u = ⟨TypeName.ofText type, name, 1, none, false⟩ := by
  cases d with
  | named type name => exact ⟨type, name, rfl, (Option.some.inj found).symm⟩
  | _ => cases found

theorem attributeNamed {d : Declared} {a : Attribute} (found : d.attribute? = some a) :
    ∃ type name, d = .named type name ∧ a = ⟨TypeName.ofText type, name, none⟩ := by
  cases d with
  | named type name => exact ⟨type, name, rfl, (Option.some.inj found).symm⟩
  | _ => cases found

end Declared

theorem declaredIdentifiers {line : Line} {keyword type name : Text}
    (found : line.declared keyword = .named type name) :
    isIdentifier type = true ∧ isIdentifier name = true := by
  unfold Line.declared at found
  split at found
  · cases found
  · split at found
    · cases found
    · dsimp only at found
      split at found
      · rename_i identifiers
        obtain ⟨rfl, rfl⟩ := Declared.named.inj found
        exact Bool.and_eq_true_iff.mp identifiers
      · cases found

theorem uniformSource {line : Text} {u : Uniform} (member : u ∈ lineUniforms line) :
    ∃ type name, isIdentifier type = true ∧ isIdentifier name = true ∧
      u = ⟨TypeName.ofText type, name, 1, none, false⟩ := by
  obtain ⟨type, name, found, rfl⟩ := Declared.uniformNamed (Option.mem_toList.mp member)
  obtain ⟨typed, named⟩ := declaredIdentifiers found
  exact ⟨type, name, typed, named, rfl⟩

theorem attributeSource {keyword line : Text} {a : Attribute}
    (member : a ∈ lineAttributes keyword line) :
    ∃ type name, isIdentifier type = true ∧ isIdentifier name = true ∧
      a = ⟨TypeName.ofText type, name, none⟩ := by
  obtain ⟨type, name, found, rfl⟩ := Declared.attributeNamed (Option.mem_toList.mp member)
  obtain ⟨typed, named⟩ := declaredIdentifiers found
  exact ⟨type, name, typed, named, rfl⟩

theorem uniformIdentifier {line : Text} {u : Uniform} (member : u ∈ lineUniforms line) :
    isIdentifier u.name = true := by
  obtain ⟨_, _, -, named, rfl⟩ := uniformSource member
  exact named

theorem identifierWord {w : Text} (identifier : isIdentifier w = true) : WordText w :=
  ⟨identifierNonempty identifier, identifierChars identifier⟩

theorem structSpelled {source : Text} {d : StructDef} (member : d ∈ scanStructs source) :
    d.Spelled WordText WordText := by
  obtain ⟨span, -, found⟩ := List.mem_filterMap.mp member
  obtain ⟨head, rest, read⟩ := readParts found
  exact spelledImp (spanSpelled read) (fun _ => gatheredWord) fun _ => gatheredWord

theorem scannedMembers {source : Text} {d : StructDef} (member : d ∈ scanStructs source) :
    ∀ m ∈ d.members, m.name ≠ [] ∧ ∀ c ∈ m.name, isWordChar c = true := by
  intro m inside
  have word := (structSpelled member).members m inside m.name (by simp [StructMember.spellings])
  exact ⟨word.nonempty, word.chars⟩

end ShaderReflection.Glsl
