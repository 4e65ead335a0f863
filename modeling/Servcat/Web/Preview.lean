/-
The questions that the page of a catalog item announces: when the loop that
collects them ends, and that the engine then asks the same ones.
-/
import Servcat.Engine.Runs
import Servcat.Model.Forward
import Servcat.Walks.Steps
import Mathlib.Data.Finset.Dedup

namespace Servcat

open Walks

structure QuestionPreview where
  label : String
  required : Bool
deriving DecidableEq, Repr

/-- The loop of `previewQuestions` with the number of rounds left. -/
def previewLoop (graph : WorkflowGraph) :
    ℕ → Option Step → List QuestionPreview → Option (List QuestionPreview)
  | _, none, questions => some questions
  | 0, some _, _ => none
  | rounds + 1, some step, questions =>
      match step.kind with
      | .question _ _ required _ next =>
          previewLoop graph rounds (graph.step next)
            (questions ++ [⟨step.label, required⟩])
      | _ => some questions

/-- The questions at the head of the workflow, if the loop ends within
the rounds. -/
def previewQuestions (graph : WorkflowGraph) (rounds : ℕ) :
    Option (List QuestionPreview) :=
  previewLoop graph rounds (graph.step graph.entryStepId) []

/-- The id that the question called `stepId` leads to. -/
def questionNext (graph : WorkflowGraph) (stepId : String) : Option String :=
  match graph.step stepId with
  | some s =>
      match s.kind with
      | .question _ _ _ _ next => some next
      | _ => none
  | none => none

/-- `stepId` names a question with this field key, successor and preview. -/
structure QuestionAt (graph : WorkflowGraph) (stepId fieldKey next : String)
    (preview : QuestionPreview) : Prop where
  question : ∃ inputType options, graph.step stepId =
    some ⟨stepId, preview.label, .question fieldKey inputType preview.required
      options next⟩

section Loop

variable {graph : WorkflowGraph} {stepId fieldKey next : String}
  {preview : QuestionPreview} {questions result : List QuestionPreview}

theorem QuestionAt.next_eq (h : QuestionAt graph stepId fieldKey next preview) :
    questionNext graph stepId = some next := by
  obtain ⟨inputType, options, hs⟩ := h.question
  simp [questionNext, hs]

theorem questionNext_eq_some (h : questionNext graph stepId = some next) :
    ∃ fieldKey preview, QuestionAt graph stepId fieldKey next preview := by
  unfold questionNext at h
  cases hs : graph.step stepId with
  | none => simp [hs] at h
  | some s =>
      have hid : s.id = stepId := by simpa using List.find?_some hs
      obtain ⟨id, label, kind⟩ := s
      cases kind with
      | question fieldKey inputType required options target =>
          simp only [hs, Option.some.injEq] at h
          subst h
          subst hid
          exact ⟨fieldKey, ⟨label, required⟩, ⟨inputType, options, hs⟩⟩
      | _ => simp [hs] at h

theorem mem_stepIds_of_questionNext
    (h : (questionNext graph stepId).isSome = true) :
    stepId ∈ stepIds graph.steps := by
  obtain ⟨next, hnext⟩ := Option.isSome_iff_exists.mp h
  obtain ⟨_, _, hat⟩ := questionNext_eq_some hnext
  obtain ⟨_, _, hs⟩ := hat.question
  exact WorkflowGraph.step_isSome_iff.mp (by rw [hs]; rfl)

/-- One round at a question collects it and goes on at its successor. -/
theorem previewLoop_question (h : QuestionAt graph stepId fieldKey next preview)
    (rounds : ℕ) (questions : List QuestionPreview) :
    previewLoop graph (rounds + 1) (graph.step stepId) questions =
      previewLoop graph rounds (graph.step next) (questions ++ [preview]) := by
  obtain ⟨inputType, options, hs⟩ := h.question
  rw [hs]
  rfl

theorem previewLoop_stop (h : questionNext graph stepId = none) (rounds : ℕ)
    (questions : List QuestionPreview) :
    previewLoop graph (rounds + 1) (graph.step stepId) questions =
      some questions := by
  unfold questionNext at h
  cases hs : graph.step stepId with
  | none => rfl
  | some s =>
      cases hkind : s.kind with
      | question => simp [hs, hkind] at h
      | _ => simp [previewLoop, hkind]

/-- Without rounds the loop ends only where there is no step. -/
theorem previewLoop_zero
    (h : previewLoop graph 0 (graph.step stepId) questions = some result) :
    questionNext graph stepId = none ∧ result = questions := by
  cases hs : graph.step stepId with
  | none =>
      rw [hs] at h
      exact ⟨by simp [questionNext, hs], (Option.some.inj h).symm⟩
  | some s =>
      rw [hs] at h
      cases h

/-- The questions from `stepId` on, up to a step that is missing or
asks nothing. -/
inductive Asked (graph : WorkflowGraph) : String → List QuestionPreview → Prop
  | stop {stepId : String} (hstop : questionNext graph stepId = none) :
      Asked graph stepId []
  | ask {stepId fieldKey next : String} {preview : QuestionPreview}
      {rest : List QuestionPreview}
      (hat : QuestionAt graph stepId fieldKey next preview)
      (hrest : Asked graph next rest) : Asked graph stepId (preview :: rest)

theorem previewLoop_asked {rounds : ℕ}
    (h : previewLoop graph rounds (graph.step stepId) questions = some result) :
    ∃ asked, result = questions ++ asked ∧ Asked graph stepId asked := by
  induction rounds generalizing stepId questions with
  | zero =>
      obtain ⟨hstop, rfl⟩ := previewLoop_zero h
      exact ⟨[], (List.append_nil _).symm, .stop hstop⟩
  | succ rounds ih =>
      cases hnext : questionNext graph stepId with
      | none =>
          rw [previewLoop_stop hnext] at h
          obtain rfl := Option.some.inj h
          exact ⟨[], (List.append_nil _).symm, .stop hnext⟩
      | some next =>
          obtain ⟨fieldKey, preview, hat⟩ := questionNext_eq_some hnext
          rw [previewLoop_question hat] at h
          obtain ⟨asked, rfl, hasked⟩ := ih h
          exact ⟨preview :: asked, by simp, .ask hat hasked⟩

theorem previewQuestions_asked {rounds : ℕ}
    (h : previewQuestions graph rounds = some result) :
    Asked graph graph.entryStepId result := by
  obtain ⟨asked, rfl, hasked⟩ := previewLoop_asked h
  exact hasked

theorem Asked.stops (h : Asked graph stepId result) :
    ∃ last, Stops (questionNext graph) stepId result.length last := by
  induction h with
  | @stop stepId hstop => exact ⟨stepId, .stay hstop⟩
  | ask hat hrest ih =>
      obtain ⟨last, hlast⟩ := ih
      exact ⟨last, hlast.cons hat.next_eq⟩

/-- One round for each question and one to stop are enough. -/
theorem previewLoop_of_stops {k : ℕ} {last : String}
    (h : Stops (questionNext graph) stepId k last) :
    ∃ result, previewLoop graph (k + 1) (graph.step stepId) questions =
      some result := by
  induction k generalizing stepId questions with
  | zero =>
      obtain rfl := Option.some.inj h.1
      exact ⟨questions, previewLoop_stop h.2 0 questions⟩
  | succ k ih =>
      obtain ⟨next, hnext⟩ : ∃ next, questionNext graph stepId = some next := by
        obtain ⟨c, hc, hstep⟩ := exists_step_of_lt h.1 (Nat.succ_pos k)
        obtain rfl := Option.some.inj hc
        exact Option.isSome_iff_exists.mp hstep
      obtain ⟨fieldKey, preview, hat⟩ := questionNext_eq_some hnext
      rw [previewLoop_question hat]
      exact ih (h.tail hnext)

end Loop

/-- The loop comes to an end exactly if the questions from the entry on, each
followed by its successor, do not lead back to one of them. -/
theorem previewQuestions_ends_iff (graph : WorkflowGraph) :
    (∃ rounds questions, previewQuestions graph rounds = some questions) ↔
      ¬∃ i j id, i < j ∧
        walk (questionNext graph) graph.entryStepId i = some id ∧
        walk (questionNext graph) graph.entryStepId j = some id := by
  have hiff :=
    exists_stops_iff (stepIds graph.steps).toFinset (a := graph.entryStepId)
      fun id hid =>
        List.mem_toFinset.mpr (@mem_stepIds_of_questionNext graph id hid)
  apply Iff.trans _ hiff
  constructor
  · rintro ⟨rounds, questions, h⟩
    obtain ⟨last, hlast⟩ := (previewQuestions_asked h).stops
    exact ⟨questions.length, last, hlast⟩
  · rintro ⟨k, last, hlast⟩
    obtain ⟨questions, h⟩ := previewLoop_of_stops hlast
    exact ⟨k + 1, questions, h⟩

/-- Two questions that lead to each other. -/
def askForever : WorkflowGraph where
  entryStepId := "site"
  steps := [⟨"site", "Which site?", .question "site" .text true [] "floor"⟩,
    ⟨"floor", "Which floor?", .question "floor" .text true [] "site"⟩,
    ⟨"done", "Done", .end .completed⟩]

theorem previewQuestions_askForever :
    ¬∃ rounds questions,
      previewQuestions askForever rounds = some questions := by
  rintro ⟨rounds, questions, h⟩
  obtain ⟨last, hlast⟩ := (previewQuestions_asked h).stops
  have hrepeats : Repeats (questionNext askForever) "site" :=
    ⟨0, 2, "site", by decide, rfl, rfl⟩
  exact hrepeats.not_stops hlast

namespace Engine

/-- What `start` and the answers to the questions asked return, one after
another, until there are no values left or no question is asked. -/
def interviewFrom (graph : WorkflowGraph) :
    Returned → Answers → List JsonValue → List Returned
  | .ok (stepId, .awaitingAnswer fieldKey), answers, value :: rest =>
      let (answers', returned) :=
        submitAnswer graph stepId answers fieldKey value
      .ok (stepId, .awaitingAnswer fieldKey) ::
        interviewFrom graph returned answers' rest
  | returned, _, _ => [returned]

def interview (graph : WorkflowGraph)
    (values : List JsonValue) : List Returned :=
  interviewFrom graph (start graph) [] values

variable {graph : WorkflowGraph} {stepId fieldKey next : String}
  {preview : QuestionPreview}

/-- Advancing to a question stops at it in the first round. -/
theorem autoAdvance_question (h : QuestionAt graph stepId fieldKey next preview)
    (answers : Answers) :
    autoAdvance graph stepId answers = .ok
      (stepId, .awaitingAnswer fieldKey) := by
  obtain ⟨inputType, options, hs⟩ := h.question
  simp [autoAdvance, maxAutoSteps, autoAdvanceLoop, find, hs, bind,
    Except.bind, pure, Except.pure]

theorem submitAnswer_question
    (h : QuestionAt graph stepId fieldKey next preview) (answers : Answers)
    (value : JsonValue) :
    submitAnswer graph stepId answers fieldKey value =
      (answers.insert fieldKey value,
        autoAdvance graph next (answers.insert fieldKey value)) := by
  obtain ⟨inputType, options, hs⟩ := h.question
  simp [submitAnswer, find, hs]

/-- Each question of the interview is answered where it was asked, and the last
answer leads to the step at which the preview stops. -/
theorem interviewFrom_asked {questions : List QuestionPreview}
    (h : Asked graph stepId questions) {values : List JsonValue}
    (hvalues : values.length = questions.length) (answers : Answers) :
    ∃ ids : ℕ → String, ids 0 = stepId ∧
      (∀ i (hi : i < questions.length), ∃ fieldKey,
        QuestionAt graph (ids i) fieldKey (ids (i + 1)) questions[i] ∧
        (interviewFrom graph (autoAdvance graph stepId answers) answers
          values)[i]? = some (.ok (ids i, .awaitingAnswer fieldKey))) ∧
      questionNext graph (ids questions.length) = none ∧
      ∃ answers',
        (interviewFrom graph (autoAdvance graph stepId answers) answers
        values)[questions.length]? =
          some (autoAdvance graph (ids questions.length) answers') := by
  induction h generalizing values answers with
  | @stop stepId hstop =>
      obtain rfl := List.length_eq_zero_iff.mp hvalues
      refine ⟨fun _ => stepId, rfl,
        fun i hi => absurd hi (Nat.not_lt_zero i), hstop, answers, ?_⟩
      simp [interviewFrom]
  | @ask stepId fieldKey next preview rest hat hrest ih =>
      obtain ⟨value, values, rfl⟩ :=
        List.exists_cons_of_length_eq_add_one hvalues
      have hvalues : values.length = rest.length := Nat.succ.inj hvalues
      obtain ⟨ids, hfirst, hids, hlast, hend⟩ :=
        ih hvalues (JsonMap.insert answers fieldKey value)
      have hround : interviewFrom graph
          (autoAdvance graph stepId answers) answers (value :: values) =
            .ok (stepId, .awaitingAnswer fieldKey) ::
              interviewFrom graph
                (autoAdvance graph next (JsonMap.insert answers fieldKey value))
                (JsonMap.insert answers fieldKey value) values := by
        rw [autoAdvance_question hat, interviewFrom, submitAnswer_question hat]
      rw [hround]
      let ids' : ℕ → String := fun i => i.casesOn stepId ids
      refine ⟨ids', rfl, ?_, hlast, hend⟩
      intro i hi
      cases i with
      | zero =>
          refine ⟨fieldKey, ?_, rfl⟩
          show QuestionAt graph stepId fieldKey (ids 0) preview
          rw [hfirst]
          exact hat
      | succ i => exact hids i (Nat.lt_of_succ_lt_succ hi)

/-- As many values as the preview lists questions are asked for at just these
questions, in their order and with nothing in between. -/
theorem interview_follows_preview {rounds : ℕ}
    {questions : List QuestionPreview}
    (h : previewQuestions graph rounds = some questions)
    {values : List JsonValue} (hvalues : values.length = questions.length) :
    ∃ ids : ℕ → String, ids 0 = graph.entryStepId ∧
      (∀ i (hi : i < questions.length), ∃ fieldKey,
        QuestionAt graph (ids i) fieldKey (ids (i + 1)) questions[i] ∧
        (interview graph values)[i]? =
          some (.ok (ids i, .awaitingAnswer fieldKey))) ∧
      (0 < questions.length →
        ∃ answers, (interview graph values)[questions.length]? =
          some (autoAdvance graph (ids questions.length) answers)) ∧
      ∀ s, graph.step (ids questions.length) = some s →
        ∀ fieldKey inputType required options next,
          s.kind ≠ .question fieldKey inputType required options next := by
  have hasked := previewQuestions_asked h
  have hnone : ∀ {id : String}, questionNext graph id = none →
      ∀ s, graph.step id = some s → ∀ fieldKey inputType required options next,
        s.kind ≠ .question fieldKey inputType required options next := by
    intro id hstop s hs fieldKey inputType required options next hkind
    simp [questionNext, hs, hkind] at hstop
  cases hentry : graph.step graph.entryStepId with
  | none =>
      -- the workflow is empty: nothing is announced, and `start` fails
      cases hasked with
      | stop hstop =>
          exact ⟨fun _ => graph.entryStepId, rfl,
            fun i hi => absurd hi (Nat.not_lt_zero i), fun hpos => absurd hpos
              (Nat.lt_irrefl 0), hnone hstop⟩
      | ask hat _ =>
          obtain ⟨_, _, hs⟩ := hat.question
          rw [hentry] at hs
          cases hs
  | some s =>
      have hstart : start graph = autoAdvance graph graph.entryStepId [] := by
        simp [start, hentry]
      obtain ⟨ids, hfirst, hids, hlast, hend⟩ :=
        interviewFrom_asked hasked hvalues []
      rw [← hstart] at hids hend
      exact ⟨ids, hfirst, hids, fun _ => hend, hnone hlast⟩

/-- Two questions before a branch. -/
def askTwice : WorkflowGraph where
  entryStepId := "site"
  steps := [⟨"site", "Which site?", .question "site" .text true [] "note"⟩,
    ⟨"note", "Anything else?", .question "note" .textArea false [] "check"⟩,
    ⟨"check", "Note given", .branch (.exists "note") "done" "site"⟩,
    ⟨"done", "Done", .end .completed⟩]

theorem interview_follows_preview_askTwice :
    previewQuestions askTwice 3 = some
      [⟨"Which site?", true⟩, ⟨"Anything else?", false⟩] ∧
    ∃ ids : ℕ → String, ids 0 = "site" ∧
      (∀ i (hi : i < 2), ∃ fieldKey,
        QuestionAt askTwice (ids i) fieldKey (ids (i + 1))
          ([⟨"Which site?", true⟩, ⟨"Anything else?", false⟩] : List
            QuestionPreview)[i] ∧
        (interview askTwice [.string "north", .null])[i]? =
          some (.ok (ids i, .awaitingAnswer fieldKey))) ∧
      (0 < 2 → ∃ answers, (interview askTwice [.string "north", .null])[2]? =
        some (autoAdvance askTwice (ids 2) answers)) ∧
      ∀ s, askTwice.step (ids 2) = some s →
        ∀ fieldKey inputType required options next,
          s.kind ≠ .question fieldKey inputType required options next := by
  have hpreview : previewQuestions askTwice 3 =
      some [⟨"Which site?", true⟩, ⟨"Anything else?", false⟩] := rfl
  exact ⟨hpreview, interview_follows_preview hpreview rfl⟩

end Engine

end Servcat
