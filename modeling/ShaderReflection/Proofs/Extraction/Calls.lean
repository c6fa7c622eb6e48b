import ShaderReflection.Extraction
/-!
Tools that are called one after the other until one cannot be started or rejects the shader, and
what such a run of calls decides. A computation follows a plan of calls if it makes just these calls
and ends as their reports say.
-/
namespace ShaderReflection

structure Report where
  call : Call
  outcome : Except OsError Diagnostics

def Report.Accepted (r : Report) : Prop := ∃ d, r.outcome = .ok d ∧ d.exitCode = 0

/-- Makes the calls of a plan in order, up to the first that is not accepted. Gives the reports and
the files that the last call leaves. -/
def ToolRunner.carryOut (runner : ToolRunner) : List Call → FileTree → List Report × FileTree
  | [], tree => ([], tree)
  | call :: rest, tree =>
    match runner call.program call.arguments tree with
    | (.error cause, after) => ([⟨call, .error cause⟩], after)
    | (.ok d, after) =>
      if d.exitCode = 0 then
        (⟨call, .ok d⟩ :: (carryOut runner rest after).1, (carryOut runner rest after).2)
      else ([⟨call, .ok d⟩], after)

def conclude (finish : List Diagnostics → Except ExtractError Metadata) :
    List Report → Except ExtractError Metadata
  | [] => finish []
  | ⟨call, .error cause⟩ :: _ => .error (.launchTool call.program cause)
  | ⟨_, .ok d⟩ :: rest =>
    if d.exitCode = 0 then conclude (fun ds => finish (d :: ds)) rest
    else .ok (Metadata.failed d)

section Reports
variable (runner : ToolRunner) (finish : List Diagnostics → Except ExtractError Metadata)

theorem launchFailure (call : Call) (cause : OsError) : ¬(Report.mk call (.error cause)).Accepted :=
  fun ⟨_, same, _⟩ => nomatch same

theorem rejection {d : Diagnostics} (call : Call) (code : d.exitCode ≠ 0) :
    ¬(Report.mk call (.ok d)).Accepted := by
  rintro ⟨other, same, zero⟩
  cases same
  exact code zero

theorem callsInOrder (plan : List Call) (tree : FileTree) :
    (runner.carryOut plan tree).1.map (·.call) <+: plan := by
  induction plan generalizing tree with
  | nil => exact List.prefix_rfl
  | cons call rest ih =>
    unfold ToolRunner.carryOut
    split
    · exact ⟨rest, rfl⟩
    · rename_i d after _
      split
      · exact List.prefix_cons_inj call |>.mpr (ih after)
      · exact ⟨rest, rfl⟩

theorem stopsThere {plan : List Call} {tree : FileTree} {before after : List Report} {r : Report}
    (made : (runner.carryOut plan tree).1 = before ++ r :: after) (failed : ¬r.Accepted) :
    after = [] ∧ ∀ b ∈ before, b.Accepted := by
  induction plan generalizing tree before with
  | nil => cases before <;> cases made
  | cons call rest ih =>
    have single {x : Report} (same : [x] = before ++ r :: after) :
        after = [] ∧ ∀ b ∈ before, b.Accepted := by
      cases before with
      | nil => exact ⟨(List.cons.inj same).2.symm, List.forall_mem_nil _⟩
      | cons b more => cases more <;> cases same
    unfold ToolRunner.carryOut at made
    split at made
    · exact single made
    · rename_i d _ _
      split at made
      · rename_i zero
        cases before with
        | nil =>
          obtain ⟨rfl, -⟩ := List.cons.inj made
          exact absurd ⟨d, rfl, zero⟩ failed
        | cons b more =>
          obtain ⟨rfl, others⟩ := List.cons.inj made
          obtain ⟨last, accepted⟩ := ih others
          exact ⟨last, List.forall_mem_cons.mpr ⟨⟨d, rfl, zero⟩, accepted⟩⟩
      · exact single made

theorem allCallsMade {plan : List Call} {tree : FileTree}
    (accepted : ∀ r ∈ (runner.carryOut plan tree).1, r.Accepted) :
    (runner.carryOut plan tree).1.map (·.call) = plan := by
  induction plan generalizing tree with
  | nil => rfl
  | cons call rest ih =>
    unfold ToolRunner.carryOut at accepted ⊢
    split at accepted
    · exact absurd (accepted _ List.mem_cons_self) (launchFailure call _)
    · split at accepted
      · rw [if_pos ‹_›, List.map_cons, ih (List.forall_mem_cons.mp accepted).2]
      · exact absurd (accepted _ List.mem_cons_self) (rejection call ‹_›)

theorem failureDecides (other : List Diagnostics → Except ExtractError Metadata) {r : Report}
    (failed : ¬r.Accepted) (after : List Report) :
    conclude finish (r :: after) = conclude other [r] := by
  obtain ⟨call, outcome⟩ := r
  cases outcome with
  | error cause => rfl
  | ok d =>
    have code : d.exitCode ≠ 0 := fun zero => failed ⟨d, rfl, zero⟩
    rw [conclude, if_neg code, conclude, if_neg code]

theorem concludesFailure {before after : List Report} {r : Report}
    (accepted : ∀ b ∈ before, b.Accepted) (failed : ¬r.Accepted) :
    conclude finish (before ++ r :: after) = conclude finish [r] := by
  induction before generalizing finish with
  | nil => exact failureDecides finish finish failed after
  | cons b more ih =>
    rw [List.forall_mem_cons] at accepted
    obtain ⟨⟨d, same, zero⟩, others⟩ := accepted
    obtain ⟨call, outcome⟩ := b
    cases same
    rw [List.cons_append, conclude, if_pos zero, ih _ others]
    exact failureDecides _ finish failed []

theorem concludesAccepted {reports : List Report} (accepted : ∀ r ∈ reports, r.Accepted) :
    ∃ ds, reports.map (·.outcome) = ds.map .ok ∧ (∀ d ∈ ds, d.exitCode = 0) ∧
      conclude finish reports = finish ds := by
  induction reports generalizing finish with
  | nil => exact ⟨[], rfl, List.forall_mem_nil _, rfl⟩
  | cons r rest ih =>
    rw [List.forall_mem_cons] at accepted
    obtain ⟨⟨d, same, zero⟩, others⟩ := accepted
    obtain ⟨ds, outcomes, zeros, ending⟩ := ih (fun ds => finish (d :: ds)) others
    obtain ⟨call, outcome⟩ := r
    cases same
    refine ⟨d :: ds, ?_, List.forall_mem_cons.mpr ⟨zero, zeros⟩, ?_⟩
    · rw [List.map_cons, outcomes, List.map_cons]
    · rw [conclude, if_pos zero, ending]

theorem concludesDocument {reports : List Report} {m : Metadata}
    (ended : conclude finish reports = .ok m) :
    (∃ d, m = Metadata.failed d) ∨ ∃ ds, finish ds = .ok m := by
  induction reports generalizing finish with
  | nil => exact .inr ⟨[], ended⟩
  | cons r rest ih =>
    obtain ⟨call, outcome⟩ := r
    cases outcome with
    | error cause => cases ended
    | ok d =>
      rw [conclude] at ended
      split at ended
      · obtain failed | ⟨ds, finished⟩ := ih _ ended
        · exact .inl failed
        · exact .inr ⟨d :: ds, finished⟩
      · exact .inl ⟨d, (Except.ok.inj ended).symm⟩

end Reports

def Step.perform {ε α : Type} (x : Step ε α) (s : Session) : Except ε α × Session :=
  match x s with
  | .ok a after => (.ok a, after)
  | .error e after => (.error e, after)

theorem performBind {ε α β : Type} (x : Step ε α) (f : α → Step ε β) (s : Session) :
    (x >>= f).perform s = match x.perform s with
      | (.ok a, after) => (f a).perform after
      | (.error e, after) => (.error e, after) := by
  simp only [Step.perform, bind, EStateM.bind]
  cases x s <;> rfl

theorem performAbort {ε α β : Type} {x : Step ε α} {f : α → Step ε β} {s after : Session} {e : ε}
    (failed : x.perform s = (.error e, after)) : (x >>= f).perform s = (.error e, after) := by
  rw [performBind, failed]

def Session.left (s : Session) (call : Call) (tree : FileTree) : Session :=
  { s.called call with tree := tree }

theorem performRun (x : Extractor) (program : Path) (arguments : List Text) (s : Session) :
    (x.run program arguments).perform s = match x.runner program arguments s.tree with
      | (.ok d, tree) => (.ok d, s.left ⟨program, arguments⟩ tree)
      | (.error cause, tree) =>
        (.error (.launchTool program cause), s.left ⟨program, arguments⟩ tree) := by
  simp only [Step.perform, Extractor.run]
  cases x.runner program arguments s.tree with
  | mk outcome tree => cases outcome <;> rfl

structure Follows (runner : ToolRunner) (x : Step ExtractError Metadata) (plan : List Call)
    (finish : List Diagnostics → Except ExtractError Metadata) (s : Session) (start : FileTree) :
    Prop where
  result : (x.perform s).1 = conclude finish (runner.carryOut plan start).1
  calls : (x.perform s).2.calls = s.calls ++ (runner.carryOut plan start).1.map (·.call)
  tree : (x.perform s).2.tree = (runner.carryOut plan start).2

section Follows
variable {x : Extractor} {plan : List Call} {s : Session} {start : FileTree}
  {finish : List Diagnostics → Except ExtractError Metadata}

theorem followsPure {m : Metadata} (same : finish [] = .ok m) :
    Follows x.runner (pure m) [] finish s s.tree :=
  ⟨same.symm, (List.append_nil s.calls).symm, rfl⟩

theorem followsThrow {e : ExtractError} (same : finish [] = .error e) :
    Follows x.runner (throw e) [] finish s s.tree :=
  ⟨same.symm, (List.append_nil s.calls).symm, rfl⟩

theorem followsAfter {β : Type} {first : Step ExtractError β} {next : β → Step ExtractError Metadata}
    {b : β} {ready : Session} (performed : first.perform s = (.ok b, ready))
    (calls : ready.calls = s.calls) (follows : Follows x.runner (next b) plan finish ready start) :
    Follows x.runner (first >>= next) plan finish s start := by
  have same : (first >>= next).perform s = (next b).perform ready := by
    rw [performBind, performed]
  obtain ⟨result, made, tree⟩ := follows
  rw [← same] at result made tree
  rw [calls] at made
  exact ⟨result, made, tree⟩

theorem followsNote {notices : List Notice} {y : Step ExtractError Metadata}
    (follows : Follows x.runner y plan finish (s.noteAll notices) start) :
    Follows x.runner (do Step.note notices; y) plan finish s start :=
  have noted : (Step.note notices : Step ExtractError Unit).perform s = (.ok (), s.noteAll notices) :=
    rfl
  followsAfter noted rfl follows

theorem followsRemark {y : Step ExtractError Metadata} (notices : Metadata → List Notice)
    (follows : Follows x.runner y plan finish s start) :
    Follows x.runner (do let m ← y; Step.note (notices m); return m) plan finish s start := by
  obtain ⟨result, calls, tree⟩ := follows
  constructor
  all_goals
    rw [performBind]
    cases outcome : y.perform s with
    | mk ending after =>
      rw [outcome] at result calls tree
      cases ending <;> assumption

theorem followsCall {program : Path} {arguments : List Text}
    {next : Diagnostics → Step ExtractError Metadata}
    (rejected : ∀ d, d.exitCode ≠ 0 → next d = pure (Metadata.failed d))
    (accepted : ∀ d after, d.exitCode = 0 →
      Follows x.runner (next d) plan (fun ds => finish (d :: ds)) after after.tree) :
    Follows x.runner (x.run program arguments >>= next) (⟨program, arguments⟩ :: plan) finish s
      s.tree := by
  cases ran : x.runner program arguments s.tree with
  | mk outcome tree =>
    have performed := performRun x program arguments s
    rw [ran] at performed
    cases outcome with
    | error cause =>
      constructor <;> rw [performBind, performed] <;>
        simp [ToolRunner.carryOut, ran, conclude, Session.left, Session.called]
    | ok d =>
      by_cases code : d.exitCode = 0
      · have follows := accepted d (s.left ⟨program, arguments⟩ tree) code
        constructor <;> rw [performBind, performed]
        · simpa [ToolRunner.carryOut, ran, conclude, code, Session.left] using follows.result
        · simpa [ToolRunner.carryOut, ran, code, Session.left, Session.called] using follows.calls
        · simpa [ToolRunner.carryOut, ran, code, Session.left] using follows.tree
      · constructor <;> rw [performBind, performed] <;>
          simp [ToolRunner.carryOut, ran, conclude, code, rejected, Session.left, Session.called,
            Step.perform, pure, EStateM.pure]

end Follows
end ShaderReflection
