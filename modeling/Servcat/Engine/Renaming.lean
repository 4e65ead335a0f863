/-
Graphs that differ in the names and in the order of their steps: the engine
takes the same way on both.
-/
import Servcat.Engine.Routing
import Servcat.Model.Forward

namespace Servcat

def StepKind.rename (f : String → String) : StepKind → StepKind
  | .question fieldKey inputType required options next =>
      .question fieldKey inputType required options (f next)
  | .branch condition onTrue onFalse => .branch condition (f onTrue) (f onFalse)
  | .waitForApproval resolution onApprove onReject timeoutSeconds =>
      .waitForApproval resolution (f onApprove) (f onReject) timeoutSeconds
  | .submitTicket next => .submitTicket (f next)
  | .end outcome => .end outcome

def Step.rename (f : String → String) (s : Step) : Step :=
  ⟨f s.id, s.label, s.kind.rename f⟩

def EngineError.rename (f : String → String) : EngineError → EngineError
  | .unknownStep stepId => .unknownStep (f stepId)
  | .wrongStepKind stepId expected found =>
      .wrongStepKind (f stepId) expected found
  | .unexpectedField stepId expected actual =>
      .unexpectedField (f stepId) expected actual
  | .emptyGraph => .emptyGraph
  | .tooManySteps limit => .tooManySteps limit

/-- The steps of the second graph are those of the first one, renamed and
in some order; the names are distinct in both, and all references of the
first resolve. -/
structure Renamed (f : String → String)
    (graph graph' : WorkflowGraph) : Prop where
  distinct : (stepIds graph.steps).Nodup
  resolves : graph.Resolves
  injective : ∀ a ∈ stepIds graph.steps, ∀ b ∈ stepIds graph.steps,
    f a = f b → a = b
  entry : graph'.entryStepId = f graph.entryStepId
  steps : graph'.steps.Perm (graph.steps.map (Step.rename f))

namespace Renamed

variable {f r : String → String} {graph graph' : WorkflowGraph}
  {stepId : String}

theorem stepIds_perm (h : Renamed f graph graph') :
    (stepIds graph'.steps).Perm ((stepIds graph.steps).map f) := by
  have hids := h.steps.map Step.id
  rw [List.map_map] at hids
  unfold stepIds
  rw [List.map_map]
  exact hids

theorem distinct' (h : Renamed f graph graph') : (stepIds graph'.steps).Nodup :=
  h.stepIds_perm.nodup_iff.mpr
    ((List.nodup_map_iff_inj_on h.distinct).mpr
      fun a ha b hb => h.injective a ha b hb)

/-- A lookup of a renamed id finds the renamed step. -/
theorem step (h : Renamed f graph graph') (hid : stepId ∈ stepIds graph.steps) :
    ∃ s ∈ graph.steps, graph.step stepId = some s ∧
      graph'.step (f stepId) = some (s.rename f) := by
  obtain ⟨s, hs, rfl⟩ := List.mem_map.mp hid
  have hmem : s.rename f ∈ graph'.steps :=
    h.steps.mem_iff.mpr (List.mem_map_of_mem hs)
  exact ⟨s, hs, WorkflowGraph.step_of_mem h.distinct hs,
    WorkflowGraph.step_of_mem h.distinct' hmem⟩

theorem target_mem (h : Renamed f graph graph') {s : Step}
    (hs : s ∈ graph.steps) {edge : EdgeKind × String}
    (hedge : edge ∈ s.kind.edges) : edge.2 ∈ stepIds graph.steps :=
  WorkflowGraph.step_isSome_iff.mp (h.resolves.2 s hs edge hedge)

theorem refl (hdistinct : (stepIds graph.steps).Nodup)
    (hresolves : graph.Resolves) :
    Renamed id graph graph where
  distinct := hdistinct
  resolves := hresolves
  injective _ _ _ _ hab := hab
  entry := rfl
  steps := by
    have hsame : graph.steps.map (Step.rename id) = graph.steps := by
      rw [List.map_congr_left (g := id), List.map_id]
      intro s _
      obtain ⟨id, label, kind⟩ := s
      cases kind <;> rfl
    rw [hsame]

theorem mem_stepIds_iff (h : Renamed f graph graph') :
    stepId ∈ stepIds graph'.steps ↔ ∃ id ∈ stepIds graph.steps, f id = stepId :=
  h.stepIds_perm.mem_iff.trans List.mem_map

/-- The references of the renamed graph resolve as well. -/
theorem resolves' (h : Renamed f graph graph') : graph'.Resolves := by
  have hmem : ∀ {id : String}, id ∈ stepIds graph.steps →
      (graph'.step (f id)).isSome = true := by
    intro id hid
    exact WorkflowGraph.step_isSome_iff.mpr
      (h.mem_stepIds_iff.mpr ⟨id, hid, rfl⟩)
  constructor
  · rw [h.entry]
    exact hmem (WorkflowGraph.step_isSome_iff.mp h.resolves.1)
  · intro s' hs' edge hedge
    obtain ⟨s, hs, rfl⟩ := List.mem_map.mp (h.steps.mem_iff.mp hs')
    obtain ⟨source, hsource, rfl⟩ : ∃ source ∈ s.kind.edges,
        (source.1, f source.2) = edge := by
      have hedges : (s.kind.rename f).edges = s.kind.edges.map fun e =>
          (e.1, f e.2) := by
        cases s.kind <;> rfl
      rw [Step.rename, hedges] at hedge
      exact List.mem_map.mp hedge
    exact hmem (h.target_mem hs hsource)

/-- One renaming after another. -/
theorem trans {graph'' : WorkflowGraph} (h : Renamed f graph graph')
    (h' : Renamed r graph' graph'') : Renamed (r ∘ f) graph graph'' where
  distinct := h.distinct
  resolves := h.resolves
  injective a ha b hb hab := h.injective a ha b hb
    (h'.injective (f a) (h.mem_stepIds_iff.mpr ⟨a, ha, rfl⟩) (f b)
      (h.mem_stepIds_iff.mpr ⟨b, hb, rfl⟩) hab)
  entry := by rw [h'.entry, h.entry, Function.comp_apply]
  steps := by
    have hcomp : graph.steps.map (Step.rename (r ∘ f)) =
        (graph.steps.map (Step.rename f)).map (Step.rename r) := by
      rw [List.map_map]
      apply List.map_congr_left
      intro s _
      obtain ⟨id, label, kind⟩ := s
      cases kind <;> rfl
    rw [hcomp]
    exact h'.steps.trans (h.steps.map (Step.rename r))

end Renamed

namespace Engine

variable {f : String → String} {graph graph' : WorkflowGraph} {stepId : String}

/-- What a call returns, with the names of the other graph. -/
def renameReturned (f : String → String) : Returned → Returned
  | .ok (stepId, outcome) => .ok (f stepId, outcome)
  | .error e => .error (e.rename f)

theorem autoAdvanceLoop_renamed (h : Renamed f graph graph') (answers : Answers)
    (rounds : ℕ) (hid : stepId ∈ stepIds graph.steps) :
    autoAdvanceLoop graph' answers rounds (f stepId) =
      renameReturned f (autoAdvanceLoop graph answers rounds stepId) := by
  induction rounds generalizing stepId with
  | zero => rfl
  | succ rounds ih =>
      obtain ⟨s, hs, hstep, hstep'⟩ := h.step hid
      unfold autoAdvanceLoop
      simp only [find, hstep, hstep', bind, Except.bind]
      cases hkind : s.kind with
      | branch condition onTrue onFalse =>
          simp only [Step.rename, hkind, StepKind.rename]
          obtain ⟨edge, hedge, htarget⟩ := branch_follows hkind answers
          rw [← apply_ite f, ← htarget]
          exact ih (h.target_mem hs hedge)
      | _ =>
          simp [Step.rename, hkind, StepKind.rename, renameReturned, pure,
            Except.pure]

theorem start_renamed (h : Renamed f graph graph') :
    start graph' = renameReturned f (start graph) := by
  have hentry : graph.entryStepId ∈ stepIds graph.steps :=
    WorkflowGraph.step_isSome_iff.mp h.resolves.1
  obtain ⟨s, -, hstep, hstep'⟩ := h.step hentry
  unfold start
  rw [h.entry, hstep, hstep']
  exact autoAdvanceLoop_renamed h [] maxAutoSteps hentry

/-- A call at corresponding steps leaves the same answers and returns what
corresponds. -/
theorem perform_renamed (h : Renamed f graph graph')
    (hid : stepId ∈ stepIds graph.steps) (answers : Answers) (call : Call) :
    call.perform graph' (f stepId) answers =
      ((call.perform graph stepId answers).1,
        renameReturned f (call.perform graph stepId answers).2) := by
  obtain ⟨s, hs, hstep, hstep'⟩ := h.step hid
  have hadvance : ∀ edge ∈ s.kind.edges, ∀ answers,
      autoAdvance graph' (f edge.2) answers =
        renameReturned f (autoAdvance graph edge.2 answers) := by
    intro edge hedge answers
    exact autoAdvanceLoop_renamed h answers maxAutoSteps (h.target_mem hs hedge)
  cases call with
  | submitAnswer fieldKey value =>
      simp only [Call.perform, Engine.submitAnswer, find, hstep, hstep',
        Step.rename]
      cases hkind : s.kind with
      | question expected inputType required options next =>
          simp only [StepKind.rename]
          by_cases hfield : fieldKey = expected
          · have hnext : (EdgeKind.next, next) ∈ s.kind.edges := by
              simp [hkind, StepKind.edges]
            simp [hfield, hadvance _ hnext]
          · simp [hfield, renameReturned, EngineError.rename]
      | _ => rfl
  | resumeAfterApproval decision =>
      simp only [Call.perform, Engine.resumeAfterApproval, find, hstep, hstep',
        Step.rename, bind, Except.bind]
      cases hkind : s.kind with
      | waitForApproval resolution onApprove onReject timeoutSeconds =>
          have happrove : (EdgeKind.onApprove, onApprove) ∈ s.kind.edges := by
            simp [hkind, StepKind.edges]
          have hreject : (EdgeKind.onReject, onReject) ∈ s.kind.edges := by
            simp [hkind, StepKind.edges]
          cases decision with
          | approve => exact congrArg _ (hadvance _ happrove answers)
          | reject => exact congrArg _ (hadvance _ hreject answers)
      | _ => rfl
  | resumeAfterTicketDispatch =>
      simp only [Call.perform, Engine.resumeAfterTicketDispatch, find,
        hstep, hstep', Step.rename, bind, Except.bind]
      cases hkind : s.kind with
      | submitTicket next =>
          have hnext : (EdgeKind.next, next) ∈ s.kind.edges := by
            simp [hkind, StepKind.edges]
          exact congrArg _ (hadvance _ hnext answers)
      | _ => rfl

/-- The steps that calls return are there. -/
theorem mem_of_outcomeAt {outcome : Outcome}
    (h : OutcomeAt graph stepId outcome) :
    stepId ∈ stepIds graph.steps := by
  obtain ⟨s, hs, -⟩ := h
  exact WorkflowGraph.step_isSome_iff.mp (by rw [hs]; rfl)

/-- Sessions that begin at corresponding steps go on in correspondence. -/
theorem session_renamed (h : Renamed f graph graph')
    (hid : stepId ∈ stepIds graph.steps) (answers : Answers)
    (calls : List Call) :
    session graph' (f stepId) answers calls =
      (session graph stepId answers calls).map (renameReturned f) := by
  induction calls generalizing stepId answers with
  | nil => rfl
  | cons call rest ih =>
      simp only [session, List.map_cons]
      rw [perform_renamed h hid]
      cases hreturned : (call.perform graph stepId answers).2 with
      | error e => exact congrArg _ (ih hid _)
      | ok result =>
          have hnext : result.1 ∈ stepIds graph.steps :=
            mem_of_outcomeAt (Call.perform_ok hreturned)
          exact congrArg _ (ih hnext _)

end Engine

end Servcat
