import ShaderReflection.Proofs.Document.RoundTrip
import ShaderReflection.Proofs.Extraction.Verdict
/-!
Metadata is complete if it has an interface exactly where the exit code is 0. Extraction gives no
other metadata, and a document keeps this, but reading one does not check it: the diagnostics and
the interface are read apart from each other.
-/
namespace ShaderReflection.Document
open Json
open Extractor (Complete)

theorem readApart {text : Text} {m : Metadata} (read : readMetadata text = .ok m) :
    decode diagnostics text = .ok m.diagnostics ∧
      ∀ i, m.interface? = some i ↔ decode interface text = .ok i := by
  unfold readMetadata decode at read
  generalize parsed : Node.parse text = found at read
  obtain ⟨node, after⟩ := found
  dsimp only at read
  split at read
  · cases read
  rename_i accepted
  split at read
  case isFalse => cases read
  rename_i done
  obtain rfl := Except.ok.inj read
  have decoded {α : Type} (d : Decoder α) (a : α) :
      decode d text = .ok a ↔ d.fault? node = none ∧ d.read node = a := by
    cases fault : d.fault? node <;> simp [decode, parsed, done, fault]
  constructor
  · refine (decoded diagnostics _).mpr ⟨?_, rfl⟩
    cases node with
    | object members close start => exact (Option.or_eq_none_iff.mp accepted).2
    | _ => simp [metadata] at accepted
  · intro i
    rw [decoded]
    simp [metadata]

theorem completeCanonical (m : Metadata) : Complete m.canonical ↔ Complete m := by
  simp [Complete, Metadata.canonical]

theorem readComplete {text : Text} {m : Metadata} (read : readMetadata text = .ok m) :
    decode diagnostics text = .ok m.diagnostics ∧
      (∀ i, m.interface? = some i ↔ decode interface text = .ok i) ∧
      (Complete m ↔ (m.diagnostics.exitCode = 0 ↔ ∃ i, decode interface text = .ok i)) ∧
      (∀ o, text = pretty o → (Complete m ↔ Complete o)) ∧
      ∀ (x : Extractor) path source backend s o,
        ((x.extractText path source backend).perform s).1 = .ok o → text = pretty o →
          m = o ∧ Complete m := by
  have written {o : Metadata} (same : text = pretty o) : m = o.canonical := by
    rw [same, pretty, readRendered prettyBlank o] at read
    exact (Except.ok.inj read).symm
  obtain ⟨reads, given⟩ := readApart read
  refine ⟨reads, given, ?_, fun o same => ?_, fun x path source backend s o decided same => ?_⟩
  · rw [Complete, Option.isSome_iff_exists, exists_congr given]
  · rw [written same, completeCanonical]
  · rw [x.verdictIs] at decided
    have own := builtUnreserved (x.verdictBuilt path source backend decided)
    rw [written same, Metadata.canonicalSelf own]
    exact ⟨rfl, x.verdictComplete path source backend decided⟩

theorem readCompleteReordered :
    let text := "\x7b\"structs\":[],\"returncode\":0,\"uniforms\":[],\"x\":1,\"out_attributes\":[],".toList ++
      "\"stderr\":\"\",\"in_attributes\":[],\"stdout\":\"o\"\x7d".toList
    readMetadata text = .ok ⟨⟨"o".toList, [], 0⟩, some {}⟩ ∧
      Complete ⟨⟨"o".toList, [], 0⟩, some {}⟩ := by
  intro text
  have read : readMetadata text = .ok ⟨⟨"o".toList, [], 0⟩, some {}⟩ :=
    valueOfOption (by decide +kernel)
  obtain ⟨-, given, complete, -⟩ := readComplete read
  exact ⟨read, complete.mpr ⟨fun _ => ⟨{}, (given {}).mp rfl⟩, fun _ => rfl⟩⟩

theorem incompleteRead :
    let failed := "\x7b\"stdout\":\"\",\"stderr\":\"\",\"returncode\":1,\"uniforms\":[],".toList ++
      "\"in_attributes\":[],\"out_attributes\":[],\"structs\":[]\x7d".toList
    let bare := "\x7b\"stdout\":\"\",\"stderr\":\"\",\"returncode\":0\x7d".toList
    readMetadata failed = .ok ⟨⟨[], [], 1⟩, some {}⟩ ∧ ¬Complete ⟨⟨[], [], 1⟩, some {}⟩ ∧
      readMetadata bare = .ok ⟨⟨[], [], 0⟩, none⟩ ∧ ¬Complete ⟨⟨[], [], 0⟩, none⟩ := by
  intro failed bare
  refine ⟨valueOfOption (by decide +kernel), ?_, valueOfOption (by decide +kernel), ?_⟩
  · exact fun complete => absurd (complete.mpr rfl) (by decide)
  · exact fun complete => nomatch complete.mp rfl

end ShaderReflection.Document
