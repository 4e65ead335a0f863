/-
The graphs of the starter catalog: what their workflows demand, and that every
run of the engine on them keeps to it.
-/
import Servcat.CatalogSeed
import Servcat.Engine.Plans

namespace Servcat

namespace CatalogSeed

open Engine

/-- The id of the `k`-th question. -/
def questionId (k : ℕ) : String :=
  "q" ++ toString k

/-- Where the questions numbered from `k` on begin, or what comes after them. -/
def firstId (nextAfter : String) (k : ℕ) : List SeedQuestion → String
  | [] => nextAfter
  | _ :: _ => questionId k

def questionStep (k : ℕ) (q : SeedQuestion) (next : String) : Step where
  id := questionId k
  label := q.label
  kind := .question q.fieldKey q.inputType q.required
    (q.options.map fun o => ⟨o.value, o.label⟩) next

/-- The steps of the questions, numbered from `k` on. -/
def questionSteps (nextAfter : String) (k : ℕ) : List SeedQuestion → List Step
  | [] => []
  | q :: rest =>
      questionStep k q (firstId nextAfter (k + 1) rest) ::
        questionSteps nextAfter (k + 1) rest

/-- The loop over indices gives each question its number and its successor. -/
theorem appendQuestions_eq (steps : List Step) (questions : List SeedQuestion)
    (nextAfter : String) :
    appendQuestions steps questions nextAfter =
      steps ++ questionSteps nextAfter 1 questions := by
  have hloop : ∀ k (questions : List SeedQuestion),
      (questions.mapIdx fun i q => questionStep (k + i) q
        (if i + 1 < questions.length then questionId (k + i + 1)
         else nextAfter)) =
        questionSteps nextAfter k questions := by
    intro k questions
    induction questions generalizing k with
    | nil => rfl
    | cons q rest ih =>
        rw [List.mapIdx_cons, questionSteps, ← ih (k + 1)]
        congr 1
        · cases rest <;> simp [firstId]
        · simp only [List.length_cons, Nat.add_lt_add_iff_right]
          simp only [Nat.add_assoc, Nat.add_comm 1]
  unfold appendQuestions
  rw [← hloop 1 questions]
  simp [questionStep, questionId, Nat.add_comm 1, Nat.add_assoc]

/-- The first step after the questions. -/
def tailEntry : WorkflowPattern → String
  | .simpleTicket => "submit"
  | .infoOnly => "end_completed"
  | _ => "manager_approval"

/-- The steps after the questions do not depend on them. -/
def tailSteps (pattern : WorkflowPattern) : List Step :=
  buildSteps pattern []

theorem buildSteps_eq (pattern : WorkflowPattern)
    (questions : List SeedQuestion) :
    buildSteps pattern questions =
      questionSteps (tailEntry pattern) 1 questions ++ tailSteps pattern := by
  cases pattern <;>
    simp only [tailSteps, buildSteps, twoApprovals, pushSubmitAndEnds,
      appendQuestions_eq, questionSteps, tailEntry, List.nil_append,
      List.append_assoc]

theorem tailSteps_entry (pattern : WorkflowPattern) :
    ∃ s rest, tailSteps pattern = s :: rest ∧ s.id = tailEntry pattern := by
  cases pattern <;> exact ⟨_, _, rfl, rfl⟩

theorem buildGraph_entry (pattern : WorkflowPattern)
    (questions : List SeedQuestion) :
    (buildGraph pattern questions).entryStepId =
      firstId (tailEntry pattern) 1 questions := by
  obtain ⟨s, rest, htail, hid⟩ := tailSteps_entry pattern
  cases questions <;>
    simp [buildGraph, buildSteps_eq, questionSteps, htail, firstId, hid,
    questionStep]

theorem stepIds_questionSteps (nextAfter : String) (k : ℕ)
    (questions : List SeedQuestion) :
    stepIds (questionSteps nextAfter k questions) =
      (List.range' k questions.length).map questionId := by
  induction questions generalizing k with
  | nil => rfl
  | cons q rest ih =>
      rw [List.length_cons, List.range'_succ, List.map_cons, ← ih (k + 1)]
      rfl

/-- No id after the questions is the id of a question. -/
theorem questionId_not_mem_tail (pattern : WorkflowPattern) (k : ℕ) :
    questionId k ∉ stepIds (tailSteps pattern) := by
  have hfirst : (questionId k).toList.head? = some 'q' := by
    simp [questionId]
  have htail : ∀ id ∈ stepIds (tailSteps pattern),
      id.toList.head? ≠ some 'q' := by
    cases pattern <;> decide
  exact fun hmem => htail _ hmem hfirst

theorem buildGraph_distinct (pattern : WorkflowPattern)
    (questions : List SeedQuestion) :
    (stepIds (buildGraph pattern questions).steps).Nodup := by
  have hquestions := List.Nodup.map (Keyed.append_toString_injective "q")
    (@List.nodup_range' 1 questions.length 1 Nat.one_pos)
  have htail : (stepIds (tailSteps pattern)).Nodup := by
    cases pattern <;> decide
  change (stepIds (buildSteps pattern questions)).Nodup
  rw [buildSteps_eq, stepIds, List.map_append]
  refine List.nodup_append.mpr ⟨?_, htail, ?_⟩
  · change (stepIds _).Nodup
    rw [stepIds_questionSteps]
    exact hquestions
  · rintro id hid _ hother rfl
    change id ∈ stepIds _ at hid
    rw [stepIds_questionSteps] at hid
    obtain ⟨k, -, rfl⟩ := List.mem_map.mp hid
    exact questionId_not_mem_tail pattern k hother

/-- Questions lead to the next one and the last one to what comes after them. -/
theorem questionSteps_forward {nextAfter : String} {tail : List Step}
    (htail : Forward tail) (hnext : nextAfter ∈ stepIds tail) (k : ℕ)
    (questions : List SeedQuestion) :
    Forward (questionSteps nextAfter k questions ++ tail) ∧
      firstId nextAfter k questions ∈
        stepIds (questionSteps nextAfter k questions ++ tail) := by
  induction questions generalizing k with
  | nil => exact ⟨htail, hnext⟩
  | cons q rest ih =>
      obtain ⟨hforward, hfirst⟩ := ih (k + 1)
      refine ⟨⟨?_, hforward⟩, List.mem_cons_self⟩
      intro edge hedge
      obtain rfl := List.mem_singleton.mp hedge
      exact hfirst

theorem tailSteps_forward (pattern : WorkflowPattern) :
    Forward (tailSteps pattern) := by
  cases pattern <;>
    simp [-String.reduceAppend, tailSteps, buildSteps, twoApprovals,
      pushSubmitAndEnds, appendQuestions, managerApproval, endStep, Forward,
      StepKind.edges, stepIds]

theorem buildGraph_forward (pattern : WorkflowPattern)
    (questions : List SeedQuestion) :
    Forward (buildGraph pattern questions).steps ∧
      (buildGraph pattern questions).entryStepId ∈
        stepIds (buildGraph pattern questions).steps := by
  have hnext : tailEntry pattern ∈ stepIds (tailSteps pattern) := by
    obtain ⟨s, rest, htail, hid⟩ := tailSteps_entry pattern
    rw [htail, ← hid]
    exact List.mem_cons_self
  rw [buildGraph_entry]
  change Forward (buildSteps pattern questions) ∧
    _ ∈ stepIds (buildSteps pattern questions)
  rw [buildSteps_eq]
  exact questionSteps_forward (tailSteps_forward pattern) hnext 1 questions

/-- The approvals a pattern asks for, in order. -/
def approvals : WorkflowPattern → List ApproverResolution
  | .simpleTicket => []
  | .managerApprovalTicket => [.managerOfRequester]
  | .securityApprovalTicket =>
      [.managerOfRequester, .roleInDepartment .approver]
  | .financeApprovalTicket => [.managerOfRequester, .roleInDepartment .approver]
  | .infoOnly => []

/-- One ticket, or none where there is only information to give. -/
def tickets : WorkflowPattern → List Outcome
  | .infoOnly => []
  | _ => [.readyToSubmitTicket]

/-- What a request goes through when everyone approves of it. -/
def course (pattern : WorkflowPattern)
    (questions : List SeedQuestion) : List Outcome :=
  questions.map (fun q => .awaitingAnswer q.fieldKey) ++
    (approvals pattern).map
      (fun resolution => .awaitingApproval resolution none) ++
    tickets pattern ++ [.finished .completed]

def ticketPlan : WorkflowPattern → Plan
  | .infoOnly => .finish .completed
  | _ => .ticket (.finish .completed)

def approvalPlan (pattern : WorkflowPattern) : Plan :=
  (approvals pattern).foldr
    (fun resolution rest => .approval resolution none rest (.finish .rejected))
    (ticketPlan pattern)

/-- The questions in the order of the file, then the approvals, then
the ticket. -/
def plan (pattern : WorkflowPattern) (questions : List SeedQuestion) : Plan :=
  questions.foldr (fun q rest => .ask q.fieldKey rest) (approvalPlan pattern)

theorem plan_course (pattern : WorkflowPattern)
    (questions : List SeedQuestion) :
    (plan pattern questions).course = course pattern questions := by
  induction questions with
  | nil => cases pattern <;> rfl
  | cons q rest ih =>
      have hcons : (plan pattern (q :: rest)).course =
          .awaitingAnswer q.fieldKey :: (plan pattern rest).course := rfl
      rw [hcons, ih]
      rfl

theorem plan_guarded (pattern : WorkflowPattern)
    (questions : List SeedQuestion) : (plan pattern questions).Guarded := by
  induction questions with
  | nil =>
      cases pattern <;>
        simp [plan, approvalPlan, approvals, ticketPlan, Plan.Guarded]
  | cons q rest ih => exact ih

section Realised

variable {graph : WorkflowGraph} {pattern : WorkflowPattern}

theorem questionSteps_realise {tail : Plan} {nextAfter : String}
    (hdistinct : (stepIds graph.steps).Nodup)
    (htail : Realises graph nextAfter tail) {k : ℕ}
    {questions : List SeedQuestion}
    (hsub : questionSteps nextAfter k questions ⊆ graph.steps) :
    Realises graph (firstId nextAfter k questions)
      (questions.foldr (fun q rest => .ask q.fieldKey rest) tail) := by
  induction questions generalizing k with
  | nil => exact htail
  | cons q rest ih =>
      obtain ⟨hfirst, hrest⟩ := List.cons_subset.mp hsub
      exact ⟨q.label, q.inputType, q.required, _, _,
        WorkflowGraph.step_of_mem hdistinct hfirst, ih hrest⟩

theorem tailSteps_realise (hdistinct : (stepIds graph.steps).Nodup)
    (hsub : tailSteps pattern ⊆ graph.steps) :
    Realises graph (tailEntry pattern) (approvalPlan pattern) := by
  have hstep : ∀ s ∈ tailSteps pattern, graph.step s.id = some s :=
    fun s hs => WorkflowGraph.step_of_mem hdistinct (hsub hs)
  cases pattern <;>
    simp [-String.reduceAppend, tailSteps, buildSteps, twoApprovals,
      pushSubmitAndEnds, appendQuestions, managerApproval, endStep] at hstep <;>
    simp [-String.reduceAppend, approvalPlan, approvals, ticketPlan, Realises,
      tailEntry, hstep]

theorem buildGraph_realises (pattern : WorkflowPattern)
    (questions : List SeedQuestion) :
    Realises (buildGraph pattern questions)
      (buildGraph pattern questions).entryStepId (plan pattern questions) := by
  have hdistinct := buildGraph_distinct pattern questions
  have hsteps : (buildGraph pattern questions).steps =
      questionSteps (tailEntry pattern) 1 questions ++ tailSteps pattern :=
    buildSteps_eq pattern questions
  rw [buildGraph_entry]
  apply questionSteps_realise hdistinct
  · apply tailSteps_realise hdistinct
    rw [hsteps]
    exact List.subset_append_right _ _
  · rw [hsteps]
    exact List.subset_append_left _ _

end Realised

theorem course_finished {pattern : WorkflowPattern}
    {questions : List SeedQuestion} {before : List Outcome} {e : EndOutcome}
    (h : before ++ [.finished e] <+: course pattern questions) :
    before ++ [.finished e] = course pattern questions := by
  have hnot : .finished e ∉ questions.map
      (fun q => Outcome.awaitingAnswer q.fieldKey) ++
      (approvals pattern).map
        (fun resolution => .awaitingApproval resolution none) ++
      tickets pattern := by
    cases pattern <;> simp [approvals, tickets]
  rcases List.prefix_concat_iff.mp h with heq | hbegins
  · exact heq
  · exact absurd (hbegins.subset (by simp)) hnot

/-- The graph of a seeded item is well formed, and whatever calls are made on
it, the run asks the questions in order, then for the approvals in order, then
files the ticket; a rejection ends it before. -/
theorem buildGraph_honours (pattern : WorkflowPattern)
    (questions : List SeedQuestion) :
    (stepIds (buildGraph pattern questions).steps).Nodup ∧
    (buildGraph pattern questions).Resolves ∧
    (buildGraph pattern questions).Acyclic ∧
    (∃ result, Engine.start (buildGraph pattern questions) = .ok result) ∧
    ∀ current outcome history,
      Traced (buildGraph pattern questions) current outcome history →
        (∀ call answers,
          (∃ result,
            (call.perform (buildGraph pattern questions) current answers).2 =
            .ok result) ↔ Asks outcome call) ∧
        (¬Rejected history →
          history.map Prod.fst ++ [outcome] <+: course pattern questions ∧
          ∀ e, outcome = .finished e →
            history.map Prod.fst ++ [outcome] = course pattern questions) ∧
        (Rejected history →
          outcome = .finished .rejected ∧
          .readyToSubmitTicket ∉ history.map Prod.fst ∧
          history.map Prod.fst <+: course pattern questions) := by
  have hdistinct := buildGraph_distinct pattern questions
  obtain ⟨hforward, hentry⟩ := buildGraph_forward pattern questions
  have hrealises := buildGraph_realises pattern questions
  refine ⟨hdistinct, hforward.resolves hentry, hforward.acyclic hdistinct,
    ⟨_, hrealises.start⟩, ?_⟩
  intro current outcome history hrun
  obtain ⟨rest, hafter, rfl, hrest⟩ := hrun.keeps hrealises
  refine ⟨fun call answers => hrest.perform_ok_iff, ?_, ?_⟩
  · intro hall
    have hcourse := Plan.course_after hafter hall
    rw [plan_course] at hcourse
    obtain ⟨later, hlater⟩ := rest.course_eq_cons
    have hbegins : history.map Prod.fst ++
        [rest.outcome] <+: course pattern questions :=
      ⟨later, by rw [hcourse, hlater, List.append_assoc]; rfl⟩
    refine ⟨hbegins, ?_⟩
    intro e he
    rw [he] at hbegins ⊢
    exact course_finished hbegins
  · intro hrejected
    obtain ⟨rfl, hticket, hbegins⟩ :=
      (plan_guarded pattern questions).after_rejection hafter hrejected
    rw [plan_course] at hbegins
    exact ⟨rfl, hticket, hbegins⟩

/-- A computer is asked for, and the manager says no. -/
def refusedComputer : List (Outcome × Call) :=
  [(.awaitingAnswer "model", .submitAnswer "model" (.string "laptop")),
   (.awaitingApproval .managerOfRequester none, .resumeAfterApproval .reject)]

theorem buildGraph_honours_refused :
    .readyToSubmitTicket ∉ refusedComputer.map Prod.fst ∧
      refusedComputer.map Prod.fst <+:
        course .managerApprovalTicket
          [⟨"model", "Which model?", .text, true, []⟩] := by
  have hstart : Traced
      (buildGraph .managerApprovalTicket
      [⟨"model", "Which model?", .text, true, []⟩])
      "q1" (.awaitingAnswer "model") [] :=
    .start rfl
  have hanswered := @Traced.accepted _ _ "manager_approval" _
    (.awaitingApproval .managerOfRequester none) _ hstart []
    (.submitAnswer "model" (.string "laptop")) rfl
  have hrefused :=
    @Traced.accepted _ _ "end_rejected" _ (.finished .rejected) _ hanswered []
      (.resumeAfterApproval .reject) rfl
  obtain ⟨-, -, -, -, hruns⟩ :=
    buildGraph_honours .managerApprovalTicket
      [⟨"model", "Which model?", .text, true, []⟩]
  obtain ⟨-, -, hrejected⟩ := hruns _ _ refusedComputer hrefused
  exact (hrejected ⟨_, List.mem_cons_of_mem _ List.mem_cons_self, rfl⟩).2

end CatalogSeed

end Servcat
