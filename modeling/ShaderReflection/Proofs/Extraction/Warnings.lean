import Mathlib.Data.List.Count
import ShaderReflection.Proofs.Extraction.Verdict
import ShaderReflection.Proofs.Interface.Duplicates
/-!
The warnings of an extraction. Whatever a backend finds is returned as it is; the names that it
lists more than once are warned about, each of them once for its list.
-/
namespace ShaderReflection

def Step.Notes {ε α : Type} (P : Notice → Prop) (x : Step ε α) : Prop :=
  ∀ s, ∃ added, (x.perform s).2.notices = s.notices ++ added ∧ ∀ n ∈ added, P n

section Notes
variable {ε α β : Type} {P : Notice → Prop}

theorem notesNothing {x : Step ε α} (same : ∀ s, (x.perform s).2.notices = s.notices) :
    x.Notes P := fun s => ⟨[], by rw [same, List.append_nil], List.forall_mem_nil _⟩

theorem notesPure (a : α) : (pure a : Step ε α).Notes P := notesNothing fun _ => rfl

theorem notesThrow (e : ε) : (throw e : Step ε α).Notes P := notesNothing fun _ => rfl

theorem notesNote {notices : List Notice} (holds : ∀ n ∈ notices, P n) :
    (Step.note notices : Step ε Unit).Notes P := fun _ => ⟨notices, rfl, holds⟩

theorem notesRun (x : Extractor) (program : Path) (arguments : List Text) :
    (x.run program arguments).Notes P := by
  refine notesNothing fun s => ?_
  rw [performRun]
  cases x.runner program arguments s.tree with
  | mk outcome tree => cases outcome <;> rfl

theorem notesArtifacts (x : Extractor) : x.makeArtifactDirectory.Notes P := by
  refine notesNothing fun s => ?_
  unfold Step.perform Extractor.makeArtifactDirectory
  cases s.tree.makeDirectories x.artifactDirectory with
  | mk tree result => cases result <;> rfl

end Notes

def Notice.Unrelated (n : Notice) : Prop := ∀ path listing name, n ≠ .duplicate path listing name

theorem debugUnrelated {n : Notice} (debug : n.level = .debug) : n.Unrelated := by
  rintro path listing name rfl
  cases debug

namespace Extractor

def extractBy (x : Extractor) (path : Path) (source : Text) :
    Backend → Step ExtractError Metadata
  | .source => x.extractSource path source (Stage.ofPath path)
  | .linker => x.extractLinked path source (Stage.ofPath path)
  | .spirv => x.extractAnalyzed path (Stage.ofPath path)

def Silent (x : Step ExtractError Metadata) : Prop :=
  ∀ s, ∃ added, (x.perform s).2.notices = s.notices ++ added ∧ (∀ n ∈ added, n.Unrelated) ∧
    ∀ m, (x.perform s).1 = .ok m → m.interface?.isSome = true → ∀ n ∈ added, n.level = .debug

theorem silentDebug {x : Step ExtractError Metadata} (notes : x.Notes (·.level = .debug)) :
    Silent x := by
  intro s
  obtain ⟨added, notices, debug⟩ := notes s
  exact ⟨added, notices, fun n member => debugUnrelated (debug n member), fun _ _ _ => debug⟩

section Backends
variable (x : Extractor) (path : Path) (source : Text) (stage : Stage)

theorem silentUnsupported (e : UnsupportedStage) : Silent (unsupported path e) := by
  intro s
  refine ⟨[.unsupported path e], rfl, ?_, ?_⟩
  · exact List.forall_mem_singleton.mpr nofun
  · rintro m ⟨⟩ some'
    cases some'

theorem silentAfter {ε : Type} {first : Step ExtractError ε} {next : ε → Step ExtractError Metadata}
    (notes : first.Notes (·.level = .debug)) (silent : ∀ a, Silent (next a)) :
    Silent (first >>= next) := by
  intro s
  obtain ⟨added, notices, debug⟩ := notes s
  rw [performBind]
  cases performed : first.perform s with
  | mk ending after =>
    rw [performed] at notices
    cases ending with
    | error e => exact ⟨added, notices, fun n member => debugUnrelated (debug n member), nofun⟩
    | ok a =>
      obtain ⟨more, others, unrelated, quiet⟩ := silent a after
      refine ⟨added ++ more, by rw [others, notices, List.append_assoc], ?_, ?_⟩
      · have apart := fun n member => debugUnrelated (debug n member)
        exact List.forall_mem_append.mpr ⟨apart, unrelated⟩
      · exact fun m ended some' => List.forall_mem_append.mpr ⟨debug, quiet m ended some'⟩

theorem silentPure (m : Metadata) : Silent (pure m) := silentDebug (notesPure m)

theorem silentSource : Silent (x.extractSource path source stage) := by
  unfold extractSource
  refine silentAfter (notesNote ?_) fun _ => ?_
  · simp [Notice.level]
  cases Glsl.scan source stage with
  | error e => exact silentUnsupported path e
  | ok i => exact silentAfter (notesRun x _ _) fun d => silentPure _

theorem silentLinked : Silent (x.extractLinked path source stage) := by
  unfold extractLinked
  split
  · exact silentUnsupported path _
  refine silentAfter (notesRun x _ _) fun d => ?_
  split
  · exact silentPure _
  refine silentAfter (notesNote ?_) fun _ => ?_
  · simp [Notice.level]
  cases Dump.reflection d.stdout source stage with
  | error e => exact silentUnsupported path e
  | ok i => exact silentPure _

theorem silentAnalyzed : Silent (x.extractAnalyzed path stage) := by
  unfold extractAnalyzed
  refine silentAfter (notesArtifacts x) fun _ => silentAfter (notesRun x _ _) fun d => ?_
  split
  · exact silentPure _
  refine silentAfter (notesRun x _ _) fun analysis => ?_
  split
  · exact silentPure _
  cases Document.readAnalyzer analysis.stdout with
  | error fault => exact silentDebug (notesThrow _)
  | ok i =>
    exact silentAfter (notesNote (List.forall_mem_singleton.mpr rfl)) fun _ => silentPure _

theorem silentBy (backend : Backend) : Silent (x.extractBy path source backend) := by
  cases backend with
  | source => exact x.silentSource path source _
  | linker => exact x.silentLinked path source _
  | spirv => exact x.silentAnalyzed path _

theorem alikeBy (backend : Backend) : (x.extractBy path source backend).Alike (· = ·) := by
  have tools : x.runsAlike (· = ·) := by
    rintro program arguments a _ rfl
    exact ⟨rfl, rfl⟩
  cases backend with
  | source => exact x.alikeSource tools path source _
  | linker => exact x.alikeLinked tools path source _
  | spirv => exact x.alikeAnalyzed tools (by rintro a _ rfl; exact ⟨rfl, rfl⟩) path _

theorem textPerformed (known : Stage.ofPath path ≠ .unknown) (backend : Backend) (s : Session) :
    (x.extractText path source backend).perform s =
      match (x.extractBy path source backend).perform
        (s.noteAll [.extracting path (Stage.ofPath path) backend]) with
      | (.ok m, after) => (.ok m, after.noteAll (duplicateNotices path m))
      | (.error e, after) => (.error e, after) := by
  have reported (y : Step ExtractError Metadata) (s : Session) :
      (do let m ← y; Step.note (duplicateNotices path m); return m : Step _ _).perform s =
        match y.perform s with
        | (.ok m, after) => (.ok m, after.noteAll (duplicateNotices path m))
        | (.error e, after) => (.error e, after) := by
    rw [performBind]
    cases y.perform s with
    | mk ending after => cases ending <;> rfl
  unfold extractText
  dsimp only
  rw [if_neg known, performBind]
  cases backend <;> exact reported _ _

end Backends

section Reported
variable (path : Path)

theorem warnedOnce (i : Interface) (l : Interface.Listing) (name : Text) :
    (i.duplicates.map fun d => Notice.duplicate path d.1 d.2).count (.duplicate path l name) =
      if 2 ≤ (i.names l).count name then 1 else 0 := by
  have separate : Function.Injective fun d : Interface.Listing × Text =>
      Notice.duplicate path d.1 d.2 := by
    rintro ⟨_, _⟩ ⟨_, _⟩ ⟨⟩
    rfl
  have counted := List.count_map_of_injective i.duplicates _ separate (l, name)
  rw [counted, List.Nodup.count (i.duplicatesOnce)]
  simp only [Interface.duplicatesListed]

theorem warningsCounted {others : List Notice} (unrelated : ∀ n ∈ others, n.Unrelated)
    (m : Metadata) (l : Interface.Listing) (name : Text) :
    (others ++ duplicateNotices path m).count (.duplicate path l name) =
      if 2 ≤ (m.interface.names l).count name then 1 else 0 := by
  have none : others.count (.duplicate path l name) = 0 :=
    List.count_eq_zero.mpr fun member => unrelated _ member path l name rfl
  rw [List.count_append, none, Nat.zero_add]
  exact warnedOnce path m.interface l name

theorem noticesInOrder (x : Extractor) (source : Text) (backend : Backend) (s : Session)
    (known : Stage.ofPath path ≠ .unknown) :
    ∃ others, (∀ n ∈ others, n.Unrelated) ∧
      match (x.extractText path source backend).perform s with
      | (.error _, after) => after.notices = s.notices ++ others
      | (.ok m, after) => ((x.extractBy path source backend).perform s).1 = .ok m ∧
        after.notices = s.notices ++ (others ++ duplicateNotices path m) ∧
        (m.interface?.isSome = true → ∀ n ∈ others, n.level = .debug) := by
  let begun := s.noteAll [.extracting path (Stage.ofPath path) backend]
  obtain ⟨added, notices, unrelated, quiet⟩ := x.silentBy path source backend begun
  have same := (x.alikeBy path source backend begun s rfl).1
  have start : Notice.Unrelated (.extracting path (Stage.ofPath path) backend) := nofun
  refine ⟨_, List.forall_mem_cons.mpr ⟨start, unrelated⟩, ?_⟩
  rw [x.textPerformed path source known backend s]
  cases performed : (x.extractBy path source backend).perform begun with
  | mk ending after =>
    rw [performed] at notices quiet same
    have noticed : after.notices =
        s.notices ++ .extracting path (Stage.ofPath path) backend :: added := by
      rw [notices]
      simp [begun, Session.noteAll]
    cases ending with
    | error e => exact noticed
    | ok m =>
      refine ⟨same.symm, ?_, fun some' => List.forall_mem_cons.mpr ⟨rfl, quiet m rfl some'⟩⟩
      rw [← List.append_assoc, ← noticed]
      rfl

end Reported

theorem duplicatesWarned :
    (∀ i : Interface, ∃ uniforms inputs outputs : List Text,
      Interface.Reports (i.uniforms.map (·.name)) uniforms ∧
      Interface.Reports (i.inputs.map (·.name)) inputs ∧
      Interface.Reports (i.outputs.map (·.name)) outputs ∧
      i.duplicates = uniforms.map (.uniforms, ·) ++ inputs.map (.inputs, ·) ++
        outputs.map (.outputs, ·)) ∧
    ∀ (x : Extractor) (path : Path) (source : Text) (backend : Backend) (s : Session),
      match (x.extractText path source backend).perform s with
      | (.error _, after) => ∃ others, after.notices = s.notices ++ others ∧
        ∀ n ∈ others, n.Unrelated
      | (.ok m, after) => ((x.extractBy path source backend).perform s).1 = .ok m ∧
        ∃ others, after.notices = s.notices ++ (others ++ duplicateNotices path m) ∧
          (∀ n ∈ others, n.Unrelated) ∧
          (m.interface?.isSome = true → ∀ n ∈ others, n.level = .debug) ∧
          ∀ name,
            (others ++ duplicateNotices path m).count (.duplicate path .uniforms name) =
              (if 2 ≤ (m.interface.uniforms.map (·.name)).count name then 1 else 0) ∧
            (others ++ duplicateNotices path m).count (.duplicate path .inputs name) =
              (if 2 ≤ (m.interface.inputs.map (·.name)).count name then 1 else 0) ∧
            (others ++ duplicateNotices path m).count (.duplicate path .outputs name) =
              if 2 ≤ (m.interface.outputs.map (·.name)).count name then 1 else 0 := by
  refine ⟨fun i => ?_, fun x path source backend s => ?_⟩
  · have reported (names : List Text) := Interface.repeatsReport names
    refine ⟨_, _, _, reported _, reported _, reported _, ?_⟩
    simp only [Interface.duplicates, Interface.names, List.flatMap_cons, List.flatMap_nil,
      List.append_nil, List.append_assoc]
  by_cases known : Stage.ofPath path = .unknown
  · rw [x.unknownStage path source s backend known]
    exact ⟨[], (List.append_nil _).symm, List.forall_mem_nil _⟩
  · obtain ⟨others, unrelated, noticed⟩ := noticesInOrder path x source backend s known
    cases performed : (x.extractText path source backend).perform s with
    | mk ending after =>
      rw [performed] at noticed
      cases ending with
      | error e => exact ⟨others, noticed, unrelated⟩
      | ok m =>
        obtain ⟨same, notices, quiet⟩ := noticed
        have counted := warningsCounted path unrelated m
        exact ⟨same, others, notices, unrelated, quiet, fun name =>
          ⟨counted .uniforms name, counted .inputs name, counted .outputs name⟩⟩

end Extractor
end ShaderReflection
