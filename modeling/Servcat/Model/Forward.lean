/-
Graphs whose arrows all lead to later steps: every reference resolves, and no
step can be reached from itself.
-/
import Servcat.Model.Workflow
import Mathlib.Logic.Relation

namespace Servcat

/-- Some step called `source` points to `target`. -/
def WorkflowGraph.Arrow (graph : WorkflowGraph)
    (source target : String) : Prop :=
  ∃ s ∈ graph.steps, s.id = source ∧ ∃ edge ∈ s.kind.edges, edge.2 = target

/-- No step id leads back to itself. -/
def WorkflowGraph.Acyclic (graph : WorkflowGraph) : Prop :=
  ∀ id, ¬Relation.TransGen graph.Arrow id id

/-- The ids in order of the steps. -/
def stepIds (steps : List Step) : List String :=
  steps.map Step.id

/-- Every arrow of a step leads to a step further down the list. -/
def Forward : List Step → Prop
  | [] => True
  | s :: rest => (∀ edge ∈ s.kind.edges, edge.2 ∈ stepIds rest) ∧ Forward rest

theorem WorkflowGraph.step_isSome_iff {graph : WorkflowGraph} {id : String} :
    (graph.step id).isSome = true ↔ id ∈ stepIds graph.steps := by
  simp [WorkflowGraph.step, stepIds]

/-- Under distinct ids a lookup finds the very step. -/
theorem WorkflowGraph.step_of_mem {graph : WorkflowGraph}
    (hdistinct : (stepIds graph.steps).Nodup) {s : Step}
    (hs : s ∈ graph.steps) : graph.step s.id = some s := by
  unfold WorkflowGraph.step
  generalize graph.steps = steps at hdistinct hs
  induction steps with
  | nil => cases hs
  | cons first rest ih =>
      obtain ⟨hnew, hdistinct⟩ := List.nodup_cons.mp hdistinct
      rcases List.mem_cons.mp hs with rfl | hs
      · simp
      · have hne : first.id ≠ s.id := by
          intro heq
          rw [heq] at hnew
          exact hnew (List.mem_map_of_mem hs)
        simpa [List.find?_cons, hne] using ih hdistinct hs

namespace Forward

theorem target_mem {steps : List Step} (h : Forward steps) {s : Step}
    (hs : s ∈ steps) {edge : EdgeKind × String} (hedge : edge ∈ s.kind.edges) :
    edge.2 ∈ stepIds steps := by
  induction steps with
  | nil => cases hs
  | cons first rest ih =>
      obtain ⟨hfirst, hrest⟩ := h
      rcases List.mem_cons.mp hs with rfl | hs
      · exact List.mem_cons_of_mem _ (hfirst edge hedge)
      · exact List.mem_cons_of_mem _ (ih hrest hs)

theorem resolves {graph : WorkflowGraph} (h : Forward graph.steps)
    (hentry : graph.entryStepId ∈ stepIds graph.steps) : graph.Resolves := by
  refine ⟨WorkflowGraph.step_isSome_iff.mpr hentry, ?_⟩
  intro s hs edge hedge
  exact WorkflowGraph.step_isSome_iff.mpr (h.target_mem hs hedge)

/-- An arrow leads to an id that stands later in the list. -/
theorem idxOf_lt {steps : List Step} (h : Forward steps)
    (hdistinct : (stepIds steps).Nodup) {s : Step} (hs : s ∈ steps)
    {edge : EdgeKind × String} (hedge : edge ∈ s.kind.edges) :
    (stepIds steps).idxOf s.id < (stepIds steps).idxOf edge.2 := by
  induction steps with
  | nil => cases hs
  | cons first rest ih =>
      obtain ⟨hfirst, hrest⟩ := h
      obtain ⟨hnew, hdistinct⟩ := List.nodup_cons.mp hdistinct
      have htail : ∀ id ∈ stepIds rest,
          (stepIds (first :: rest)).idxOf id = (stepIds rest).idxOf id + 1 := by
        intro id hid
        apply List.idxOf_cons_ne
        rintro rfl
        exact hnew hid
      rcases List.mem_cons.mp hs with rfl | hs
      · rw [htail _ (hfirst edge hedge)]
        simp [stepIds]
      · rw [htail _ (List.mem_map_of_mem hs),
          htail _ (hrest.target_mem hs hedge)]
        exact Nat.succ_lt_succ (ih hrest hdistinct hs)

theorem acyclic {graph : WorkflowGraph} (h : Forward graph.steps)
    (hdistinct : (stepIds graph.steps).Nodup) : graph.Acyclic := by
  have hlt : ∀ source target, Relation.TransGen graph.Arrow source target →
      (stepIds graph.steps).idxOf source <
        (stepIds graph.steps).idxOf target := by
    intro source target hpath
    induction hpath with
    | single harrow =>
        obtain ⟨s, hs, rfl, edge, hedge, rfl⟩ := harrow
        exact h.idxOf_lt hdistinct hs hedge
    | tail _ harrow ih =>
        obtain ⟨s, hs, rfl, edge, hedge, rfl⟩ := harrow
        exact ih.trans (h.idxOf_lt hdistinct hs hedge)
  intro id hcycle
  exact Nat.lt_irrefl _ (hlt id id hcycle)

end Forward

end Servcat
