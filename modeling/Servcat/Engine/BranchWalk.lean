/-
What the loop that resolves branches computes: the walk over branch steps, as
far as its rounds reach, and how the limit relates to cycles of branches.
-/
import Servcat.Engine
import Servcat.Keyed.Issued
import Servcat.Model.Forward
import Servcat.Walks.Steps
import Mathlib.Data.Finset.Dedup
import Mathlib.Data.List.Nodup

namespace Servcat

open Walks

def StepKind.isBranch : StepKind → Bool
  | .branch .. => true
  | _ => false

namespace Engine

/-- `stepId` names a branch: the first step with that id is one. -/
def BranchAt (graph : WorkflowGraph) (stepId : String) : Prop :=
  ∃ s, graph.step stepId = some s ∧ s.kind.isBranch = true

/-- Where the branch called `stepId` leads under the answers. -/
def branchTarget (graph : WorkflowGraph) (answers : Answers) (stepId : String) :
    Option String :=
  match graph.step stepId with
  | some s =>
      match s.kind with
      | .branch condition onTrue onFalse =>
          some (if evalCondition condition answers then onTrue else onFalse)
      | _ => none
  | none => none

/-- The ids `s(0), s(1), ...` that the branches lead through from `stepId`. -/
def branchWalk (graph : WorkflowGraph) (answers : Answers) (stepId : String) :
    ℕ → Option String :=
  walk (branchTarget graph answers) stepId

variable {graph : WorkflowGraph} {answers : Answers} {stepId : String}

theorem branchTarget_isSome_iff :
    (branchTarget graph answers stepId).isSome = true ↔
      BranchAt graph stepId := by
  unfold branchTarget BranchAt
  cases hs : graph.step stepId with
  | none => simp
  | some s => cases hkind : s.kind <;> simp [hkind, StepKind.isBranch]

/-- A walk over branches stops where the step is missing or is no branch. -/
theorem branchTarget_eq_none_iff :
    branchTarget graph answers stepId = none ↔
      graph.step stepId = none ∨ ∃ outcome, OutcomeAt graph stepId outcome := by
  unfold branchTarget OutcomeAt
  cases hs : graph.step stepId with
  | none => simp
  | some s => cases hkind : s.kind <;> simp [hkind, outcomeOf]

/-- One round at a branch leads on to its target. -/
theorem autoAdvanceLoop_branch {target : String}
    (h : branchTarget graph answers stepId = some target) (rounds : ℕ) :
    autoAdvanceLoop graph answers (rounds + 1) stepId =
      autoAdvanceLoop graph answers rounds target := by
  unfold branchTarget at h
  cases hs : graph.step stepId with
  | none => simp [hs] at h
  | some s =>
      cases hkind : s.kind with
      | branch condition onTrue onFalse =>
          simp only [hs, hkind, Option.some.injEq] at h
          subst h
          simp [autoAdvanceLoop, find, hs, hkind, bind, Except.bind]
      | _ => simp [hs, hkind] at h

theorem autoAdvanceLoop_outcome {outcome : Outcome}
    (h : OutcomeAt graph stepId outcome) (rounds : ℕ) :
    autoAdvanceLoop graph answers (rounds + 1) stepId = .ok
      (stepId, outcome) := by
  obtain ⟨s, hs, hout⟩ := h
  cases hkind : s.kind with
  | branch => simp [hkind, outcomeOf] at hout
  | _ =>
      simp only [hkind, outcomeOf, Option.some.injEq] at hout
      subst hout
      simp [autoAdvanceLoop, find, hs, hkind, bind, Except.bind, pure,
        Except.pure]

theorem autoAdvanceLoop_missing (h : graph.step stepId = none) (rounds : ℕ) :
    autoAdvanceLoop graph answers (rounds + 1) stepId = .error
      (.unknownStep stepId) := by
  simp [autoAdvanceLoop, find, h, bind, Except.bind]

/-- After `k` branches the loop stands at the `k`-th id with `k`
rounds fewer. -/
theorem autoAdvanceLoop_walk {k : ℕ} {target : String}
    (h : branchWalk graph answers stepId k = some target) (rounds : ℕ) :
    autoAdvanceLoop graph answers (rounds + k) stepId =
      autoAdvanceLoop graph answers rounds target := by
  induction k generalizing target rounds with
  | zero =>
      obtain rfl := Option.some.inj h
      rfl
  | succ k ih =>
      obtain ⟨mid, hmid, hstep⟩ := Option.bind_eq_some_iff.mp h
      rw [show rounds + (k + 1) = (rounds + 1) + k by omega, ih hmid]
      exact autoAdvanceLoop_branch hstep rounds

section Advance

variable {k : ℕ} {target : String}

theorem autoAdvance_walk (hk : k ≤ maxAutoSteps)
    (h : branchWalk graph answers stepId k = some target) :
    autoAdvance graph stepId answers =
      autoAdvanceLoop graph answers (maxAutoSteps - k) target := by
  rw [← autoAdvanceLoop_walk h, Nat.sub_add_cancel hk]
  rfl

theorem autoAdvance_outcome {outcome : Outcome} (hk : k < maxAutoSteps)
    (h : branchWalk graph answers stepId k = some target)
    (hat : OutcomeAt graph target outcome) :
    autoAdvance graph stepId answers = .ok (target, outcome) := by
  rw [autoAdvance_walk hk.le h, ← @autoAdvanceLoop_outcome _ answers _ _ hat
    (maxAutoSteps - k - 1), Nat.sub_add_cancel (by omega)]

theorem autoAdvance_missing (hk : k < maxAutoSteps)
    (h : branchWalk graph answers stepId k = some target)
    (hmissing : graph.step target = none) :
    autoAdvance graph stepId answers = .error (.unknownStep target) := by
  rw [autoAdvance_walk hk.le h, ← @autoAdvanceLoop_missing _ answers _ hmissing
    (maxAutoSteps - k - 1), Nat.sub_add_cancel (by omega)]

theorem autoAdvance_limit
    (h : branchWalk graph answers stepId maxAutoSteps = some target) :
    autoAdvance graph stepId answers = .error (.tooManySteps maxAutoSteps) := by
  rw [autoAdvance_walk le_rfl h, Nat.sub_self]
  rfl

end Advance

/-- The first `n` ids of the walk are all there and name branches. -/
def OverBranches (graph : WorkflowGraph) (answers : Answers) (stepId : String)
    (n : ℕ) : Prop :=
  ∀ j < n, ∃ id, branchWalk graph answers stepId j = some id ∧ BranchAt graph id

theorem overBranches_iff {n : ℕ} :
    OverBranches graph answers stepId n ↔
      ∃ id, branchWalk graph answers stepId n = some id := by
  constructor
  · intro hover
    rcases walk_or_stops (branchTarget graph answers) stepId n with
      h | ⟨k, hk, b, hstops⟩
    · exact h
    · obtain ⟨id, hid, hbranch⟩ := hover k hk
      obtain rfl := Option.some.inj (hid.symm.trans hstops.1)
      rw [← @branchTarget_isSome_iff _ answers, hstops.2] at hbranch
      cases hbranch
  · rintro ⟨id, hid⟩ j hj
    obtain ⟨c, hc, hstep⟩ := exists_step_of_lt hid hj
    exact ⟨c, hc, (branchTarget_isSome_iff).mp hstep⟩

/-- A call that advances meets its first step that is no branch within the
limit, meets a missing step within the limit, or finds branches up to it. -/
theorem autoAdvance_cases (graph : WorkflowGraph) (stepId : String)
    (answers : Answers) :
    (∃ k ≤ 255, ∃ target outcome,
      branchWalk graph answers stepId k = some target ∧
        OutcomeAt graph target outcome ∧
        autoAdvance graph stepId answers = .ok (target, outcome)) ∨
      (∃ k ≤ 255, ∃ target, branchWalk graph answers stepId k = some target ∧
        graph.step target = none ∧
        autoAdvance graph stepId answers = .error (.unknownStep target)) ∨
      OverBranches graph answers stepId 256 ∧
        autoAdvance graph stepId answers = .error (.tooManySteps 256) := by
  rcases walk_or_stops (branchTarget graph answers) stepId 256 with
    ⟨id, hid⟩ | ⟨k, hk, target, hwalk, hstop⟩
  · exact .inr (.inr ⟨(overBranches_iff).mpr ⟨id, hid⟩, autoAdvance_limit hid⟩)
  · rcases branchTarget_eq_none_iff.mp hstop with hmissing | ⟨outcome, hat⟩
    · exact .inr (.inl ⟨k, Nat.le_of_lt_succ hk, target, hwalk, hmissing,
        autoAdvance_missing hk hwalk hmissing⟩)
    · exact .inl ⟨k, Nat.le_of_lt_succ hk, target, outcome, hwalk, hat,
        autoAdvance_outcome hk hwalk hat⟩

section Results

variable {target : String} {outcome : Outcome}

theorem autoAdvance_eq_ok_iff :
    autoAdvance graph stepId answers = .ok (target, outcome) ↔
      ∃ k ≤ 255, OverBranches graph answers stepId k ∧
        branchWalk graph answers stepId k = some target ∧
        OutcomeAt graph target outcome := by
  constructor
  · intro h
    rcases autoAdvance_cases graph stepId answers with
      ⟨k, hk, _, _, hwalk, hat, heq⟩ | ⟨_, _, _, _, _, heq⟩ | ⟨_, heq⟩
    · rw [h] at heq
      obtain ⟨rfl, rfl⟩ := Prod.mk.inj (Except.ok.inj heq)
      exact ⟨k, hk, (overBranches_iff).mpr ⟨_, hwalk⟩, hwalk, hat⟩
    · cases h.symm.trans heq
    · cases h.symm.trans heq
  · rintro ⟨k, hk, -, hwalk, hat⟩
    exact autoAdvance_outcome (Nat.lt_succ_of_le hk) hwalk hat

theorem autoAdvance_eq_unknownStep_iff :
    autoAdvance graph stepId answers = .error (.unknownStep target) ↔
      ∃ k ≤ 255, OverBranches graph answers stepId k ∧
        branchWalk graph answers stepId k = some target ∧
        graph.step target = none := by
  constructor
  · intro h
    rcases autoAdvance_cases graph stepId answers with
      ⟨_, _, _, _, _, _, heq⟩ | ⟨k, hk, _, hwalk, hmissing, heq⟩ | ⟨_, heq⟩
    · cases h.symm.trans heq
    · rw [h] at heq
      obtain rfl := EngineError.unknownStep.inj (Except.error.inj heq)
      exact ⟨k, hk, (overBranches_iff).mpr ⟨_, hwalk⟩, hwalk, hmissing⟩
    · cases h.symm.trans heq
  · rintro ⟨k, hk, -, hwalk, hmissing⟩
    exact autoAdvance_missing (Nat.lt_succ_of_le hk) hwalk hmissing

theorem autoAdvance_eq_tooManySteps_iff :
    autoAdvance graph stepId answers = .error (.tooManySteps 256) ↔
      OverBranches graph answers stepId 256 := by
  constructor
  · intro h
    rcases autoAdvance_cases graph stepId answers with
      ⟨_, _, _, _, _, _, heq⟩ | ⟨_, _, _, _, _, heq⟩ | ⟨hover, _⟩
    · cases h.symm.trans heq
    · cases h.symm.trans heq
    · exact hover
  · intro hover
    obtain ⟨id, hid⟩ := (overBranches_iff).mp hover
    exact autoAdvance_limit hid

end Results

/-- The loop computes the walk over the branches as far as 255 of them. -/
theorem autoAdvance_iff_walk (graph : WorkflowGraph) (stepId : String)
    (answers : Answers) :
    (∀ target outcome,
      autoAdvance graph stepId answers = .ok (target, outcome) ↔
      ∃ k ≤ 255, OverBranches graph answers stepId k ∧
        branchWalk graph answers stepId k = some target ∧
        OutcomeAt graph target outcome) ∧
    (∀ target, autoAdvance graph stepId answers = .error (.unknownStep target) ↔
      ∃ k ≤ 255, OverBranches graph answers stepId k ∧
        branchWalk graph answers stepId k = some target ∧
        graph.step target = none) ∧
    (autoAdvance graph stepId answers = .error (.tooManySteps 256) ↔
      OverBranches graph answers stepId 256) :=
  ⟨fun _ _ => autoAdvance_eq_ok_iff, fun _ => autoAdvance_eq_unknownStep_iff,
    autoAdvance_eq_tooManySteps_iff⟩

section Cycles

/-- The ids of the branches of the graph. -/
def branchIds (graph : WorkflowGraph) : List String :=
  stepIds (graph.steps.filter fun s => s.kind.isBranch)

theorem branchIds_length (graph : WorkflowGraph) :
    (branchIds graph).length = graph.steps.countP fun s => s.kind.isBranch := by
  rw [List.countP_eq_length_filter]
  exact List.length_map _

theorem BranchAt.mem_branchIds (h : BranchAt graph stepId) :
    stepId ∈ branchIds graph := by
  obtain ⟨s, hs, hbranch⟩ := h
  have hid : s.id = stepId := by simpa using List.find?_some hs
  rw [← hid]
  exact List.mem_map_of_mem
    (List.mem_filter.mpr ⟨List.mem_of_find?_eq_some hs, hbranch⟩)

theorem tooManySteps_iff_repeats
    (hcount : (graph.steps.countP fun s => s.kind.isBranch) ≤ 255) :
    autoAdvance graph stepId answers = .error (.tooManySteps 256) ↔
      Repeats (branchTarget graph answers) stepId := by
  rw [autoAdvance_eq_tooManySteps_iff]
  constructor
  · intro hover
    have hcard : (branchIds graph).toFinset.card ≤ 255 := by
      apply (List.toFinset_card_le _).trans
      rw [branchIds_length]
      exact hcount
    apply repeats_of_mem _ hcard
    intro k hk
    obtain ⟨id, hid, hbranch⟩ := hover k (Nat.lt_succ_of_le hk)
    exact ⟨id, List.mem_toFinset.mpr hbranch.mem_branchIds, hid⟩
  · intro hrepeats
    exact (overBranches_iff).mpr (hrepeats.forever 256)

/-- The name of the `i`-th branch of a chain. -/
def linkId (i : ℕ) : String :=
  "link" ++ toString i

/-- `n` branches in a row from the one called `i` on, and an end. -/
def branchChain (i : ℕ) : ℕ → List Step
  | 0 => [⟨linkId i, "Done", .end .completed⟩]
  | n + 1 =>
      ⟨linkId i, "Next", .branch (.exists "any") (linkId (i + 1))
        (linkId (i + 1))⟩ :: branchChain (i + 1) n

theorem stepIds_branchChain (i n : ℕ) :
    stepIds (branchChain i n) = (List.range' i (n + 1)).map linkId := by
  induction n generalizing i with
  | zero => rfl
  | succ n ih =>
      rw [List.range'_succ, List.map_cons, ← ih (i + 1)]
      rfl

theorem branchChain_distinct (i n : ℕ) : (stepIds (branchChain i n)).Nodup := by
  rw [stepIds_branchChain]
  exact List.Nodup.map (Keyed.append_toString_injective "link")
    List.nodup_range'

theorem branchChain_forward (i n : ℕ) : Forward (branchChain i n) := by
  induction n generalizing i with
  | zero => simp [branchChain, Forward, StepKind.edges]
  | succ n ih =>
      refine ⟨?_, ih (i + 1)⟩
      intro edge hedge
      have htarget : edge.2 = linkId (i + 1) := by
        rcases List.mem_pair.mp hedge with rfl | rfl <;> rfl
      rw [htarget, stepIds_branchChain]
      exact List.mem_map_of_mem (by simp)

theorem countP_branchChain (i n : ℕ) :
    ((branchChain i n).countP fun s => s.kind.isBranch) = n := by
  induction n generalizing i with
  | zero => rfl
  | succ n ih =>
      rw [branchChain, List.countP_cons, ih]
      rfl

theorem mem_branchChain {i n k : ℕ} (hk : k < n) :
    ⟨linkId (i + k), "Next",
      .branch (.exists "any") (linkId (i + k + 1)) (linkId (i + k + 1))⟩ ∈
        branchChain i n := by
  induction n generalizing i k with
  | zero => cases hk
  | succ n ih =>
      cases k with
      | zero => exact List.mem_cons_self
      | succ k =>
          have hmem := @ih (i + 1) k (Nat.lt_of_succ_lt_succ hk)
          rw [show i + 1 + k = i + (k + 1) by omega] at hmem
          exact List.mem_cons_of_mem _ hmem

theorem branchWalk_branchChain {n k : ℕ} (hk : k ≤ n) (answers : Answers) :
    branchWalk ⟨linkId 0, branchChain 0 n⟩ answers (linkId 0) k =
      some (linkId k) := by
  induction k with
  | zero => rfl
  | succ k ih =>
      have hmem := @mem_branchChain 0 n k hk
      rw [Nat.zero_add] at hmem
      have hstep := @WorkflowGraph.step_of_mem ⟨linkId 0, branchChain 0 n⟩
        (branchChain_distinct 0 n) _ hmem
      have htarget : branchTarget ⟨linkId 0, branchChain 0 n⟩ answers
          (linkId k) = some (linkId (k + 1)) := by
        unfold branchTarget
        rw [hstep]
        exact congrArg some (ite_self _)
      have hwalk := ih (Nat.le_of_succ_le hk)
      unfold branchWalk at hwalk ⊢
      rw [walk, hwalk, Option.bind_some, htarget]

/-- Up to 255 branches, the limit is met exactly by walks that go round; from
256 on, a chain of branches without any cycle meets it too. -/
theorem tooManySteps_iff_cycle :
    (∀ graph : WorkflowGraph,
      (graph.steps.countP fun s => s.kind.isBranch) ≤ 255 →
        ∀ stepId answers,
          autoAdvance graph stepId answers = .error (.tooManySteps 256) ↔
            ∃ i j id, i < j ∧ branchWalk graph answers stepId i = some id ∧
              branchWalk graph answers stepId j = some id) ∧
    ∀ n ≥ 256, ∃ graph : WorkflowGraph,
      (graph.steps.countP fun s => s.kind.isBranch) = n ∧ graph.Resolves ∧
        graph.Acyclic ∧ ∃ stepId answers,
          autoAdvance graph stepId answers = .error (.tooManySteps 256) := by
  constructor
  · intro graph hcount stepId answers
    exact tooManySteps_iff_repeats hcount
  · intro n hn
    have hforward := branchChain_forward 0 n
    refine ⟨⟨linkId 0, branchChain 0 n⟩, countP_branchChain 0 n, ?_, ?_,
      linkId 0, [], ?_⟩
    · apply hforward.resolves
      rw [stepIds_branchChain]
      exact List.mem_map_of_mem (by simp)
    · exact hforward.acyclic (branchChain_distinct 0 n)
    · exact (autoAdvance_eq_tooManySteps_iff).mpr
        ((overBranches_iff).mpr ⟨_, branchWalk_branchChain hn []⟩)

/-- Two branches that lead to each other. -/
def branchLoop : WorkflowGraph where
  entryStepId := "a"
  steps := [⟨"a", "A", .branch (.exists "never") "b" "b"⟩,
    ⟨"b", "B", .branch (.exists "never") "a" "a"⟩]

theorem tooManySteps_iff_cycle_branchLoop :
    autoAdvance branchLoop "a" [] = .error (.tooManySteps 256) ∧
      ∃ graph : WorkflowGraph,
        (graph.steps.countP fun s => s.kind.isBranch) = 256 ∧ graph.Resolves ∧
          graph.Acyclic ∧ ∃ stepId answers,
            autoAdvance graph stepId answers = .error (.tooManySteps 256) := by
  constructor
  · apply (tooManySteps_iff_cycle.1 branchLoop (by decide) "a" []).mpr
    exact ⟨0, 2, "a", by decide, rfl, rfl⟩
  · exact tooManySteps_iff_cycle.2 256 le_rfl

end Cycles

end Engine

end Servcat
