/-
What a call of `submit_answer` leaves in the caller's answers, and what holds of
the answers that come together over such calls.
-/
import Servcat.Engine

namespace Servcat

/-- The fields of a question step. -/
structure Question where
  fieldKey : String
  inputType : InputType
  required : Bool
  options : List QuestionOption
  next : String
deriving Repr

def StepKind.question? : StepKind → Option Question
  | .question fieldKey inputType required options next =>
      some { fieldKey, inputType, required, options, next }
  | _ => none

/-- The question this step asks, if there is such a step and it is
a question. -/
def WorkflowGraph.question? (graph : WorkflowGraph)
    (stepId : String) : Option Question :=
  (graph.step stepId).bind fun s => s.kind.question?

namespace Engine

variable {graph : WorkflowGraph} {current fieldKey : String} {answers : Answers}
  {value : JsonValue}

/-- An answer to the question that is asked is stored before the
walk goes on. -/
theorem submitAnswer_of_question {q : Question}
    (hq : graph.question? current = some q) (hkey : q.fieldKey = fieldKey) :
    submitAnswer graph current answers fieldKey value =
      (answers.insert fieldKey value,
        autoAdvance graph q.next (answers.insert fieldKey value)) := by
  obtain ⟨s, hstep, hkind⟩ := Option.bind_eq_some_iff.mp hq
  have hfind : find graph current = .ok s := find_eq_ok_iff.mpr hstep
  cases hs : s.kind with
  | question expected inputType required options next =>
      rw [hs] at hkind
      cases hkind
      change expected = fieldKey at hkey
      simp [submitAnswer, hfind, hs, hkey]
  | _ =>
      rw [hs] at hkind
      cases hkind

variable (answers value) in
/-- Anything else is declined as it is. -/
theorem submitAnswer_declined
    (h : ∀ q, graph.question? current = some q → q.fieldKey ≠ fieldKey) :
    ∃ e, submitAnswer graph current answers fieldKey value =
      (answers, .error e) := by
  unfold submitAnswer
  cases hfind : find graph current with
  | error e => exact ⟨e, rfl⟩
  | ok s =>
      cases hs : s.kind with
      | question expected inputType required options next =>
          have hq : graph.question? current =
              some { fieldKey := expected, inputType, required, options,
                     next } := by
            rw [WorkflowGraph.question?, find_eq_ok_iff.mp hfind,
              Option.bind_some, hs]
            rfl
          have hne : fieldKey ≠ expected := Ne.symm (h _ hq)
          exact ⟨.unexpectedField current expected fieldKey, by simp [hs, hne]⟩
      | _ =>
          exact ⟨.wrongStepKind current "question" (kindName s.kind),
            by simp [hs]⟩

/-- When a call fails, either the answer was not accepted and the answers
are what they were, or it was, and then they hold it although the walk from
there failed. -/
theorem submitAnswer_error {e : EngineError}
    (h : (submitAnswer graph current answers fieldKey value).2 = .error e) :
    (∀ q, graph.question? current = some q → q.fieldKey = fieldKey →
      autoAdvance graph q.next (answers.insert fieldKey value) = .error e ∧
        (submitAnswer graph current answers fieldKey value).1 =
          answers.insert fieldKey value) ∧
      ((∀ q, graph.question? current = some q → q.fieldKey ≠ fieldKey) →
        (submitAnswer graph current answers fieldKey value).1 = answers) := by
  constructor
  · intro q hq hkey
    rw [submitAnswer_of_question hq hkey] at h ⊢
    exact ⟨h, rfl⟩
  · intro hdeclined
    obtain ⟨e', heq⟩ := submitAnswer_declined answers value hdeclined
    rw [heq]

/-- A question whose arrow leads to no step. -/
def dangling : WorkflowGraph where
  entryStepId := "ask"
  steps := [⟨"ask", "ask", .question "reason" .text true [] "nowhere"⟩]

theorem submitAnswer_error_declined :
    (submitAnswer dangling "ask" [("reason", .string "new")] "cost" .null).1 =
      [("reason", .string "new")] :=
  (submitAnswer_error (e := .unexpectedField "ask" "reason" "cost") rfl).2
    fun q hq => by
      cases hq
      decide

/-- The walk fails, and the answers are no longer what they were. -/
theorem submitAnswer_error_stored :
    submitAnswer dangling "ask" [("reason", .string "old")] "reason"
      (.string "new") =
      ([("reason", .string "new")], .error (.unknownStep "nowhere")) := by
  decide

end Engine

/-- Every stored answer satisfies `P`. -/
def EachAnswer (P : String → JsonValue → Prop) (answers : Answers) : Prop :=
  ∀ fieldKey value, answers.get? fieldKey = some value → P fieldKey value

namespace EachAnswer

variable {P : String → JsonValue → Prop} {answers : Answers}

theorem nil : EachAnswer P [] :=
  fun _ _ h => by cases h

theorem insert {fieldKey : String} {value : JsonValue}
    (h : EachAnswer P answers) (hvalue : P fieldKey value) :
    EachAnswer P (answers.insert fieldKey value) := by
  intro key value' hget
  rw [JsonMap.get?_insert] at hget
  split at hget
  · rename_i heq
    subst heq
    cases hget
    exact hvalue
  · exact h key value' hget

/-- A call that succeeds stores the answer to the question at the
current step. -/
theorem submitAnswer {graph : WorkflowGraph} {current fieldKey : String}
    {value : JsonValue} {answers' : Answers} {result : String × Outcome}
    (h : EachAnswer P answers)
    (hvalue : ∀ q, graph.question? current = some q → q.fieldKey = fieldKey →
      P fieldKey value)
    (hsubmit : Engine.submitAnswer graph current answers fieldKey value =
      (answers', .ok result)) : EachAnswer P answers' := by
  by_cases hasks : ∃ q, graph.question? current = some q ∧ q.fieldKey = fieldKey
  · obtain ⟨q, hq, hkey⟩ := hasks
    rw [Engine.submitAnswer_of_question hq hkey, Prod.mk.injEq] at hsubmit
    obtain ⟨rfl, -⟩ := hsubmit
    exact h.insert (hvalue q hq hkey)
  · push Not at hasks
    obtain ⟨e, heq⟩ := Engine.submitAnswer_declined answers value hasks
    rw [heq] at hsubmit
    cases hsubmit

end EachAnswer

end Servcat
