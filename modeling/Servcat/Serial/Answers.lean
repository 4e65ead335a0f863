/-
The answers that requests collect over runs, through the API and
through the web form.
-/
import Servcat.Sample
import Servcat.Serial.Stranding
import Servcat.Web.AnswerForm

namespace Servcat

open Atomic Keyed

/-- This question is what the request waits for its user to answer. -/
structure Db.Asks (db : Db) (instanceId : Uuid) (requester : User)
    (fieldKey : String) (q : Question) : Prop where
  row : ∃ row definition, db.instances.find? instanceId = some row ∧
    row.requesterUserId = requester.id ∧ row.status = .inProgress ∧
    db.definitions.find? row.workflowDefinitionId = some definition ∧
    definition.graph.question? row.currentStepId = some q
  fieldKey : q.fieldKey = fieldKey

/-- A property of the answers stored for a request, of the identifiers of the
request and of its definition. -/
abbrev AnswerProperty := Uuid → Uuid → String → JsonValue → Prop

/-- The answers are in an object, and each has the property. -/
def Core.Stores (P : AnswerProperty) (c : Core) : Prop :=
  ∀ id row, (c.view id).row = some row →
    ∃ answers, row.answersJson = .object answers ∧
    EachAnswer (P id row.workflowDefinitionId) answers

/-- An answer that an operation submits to a question has the property. -/
def Operation.Offers (P : AnswerProperty) (db : Db) : Operation → Prop
  | .submit instanceId requester fieldKey value => ∀ row q,
      db.instances.find? instanceId = some row →
        db.Asks instanceId requester fieldKey q →
        P instanceId row.workflowDefinitionId fieldKey value
  | _ => True

section Operations

variable {deps : Deps} {definition : WorkflowDefinition}
  {instanceId requesterUserId : Uuid} {answers : Answers} {P : AnswerProperty}
  {c c' : Core}

theorem Core.Stores.touched (hc : c.Stores P) (h : c.Touches instanceId c')
    (hrow : ∀ row, (c'.view instanceId).row = some row → ∃ answers,
      row.answersJson = .object answers ∧
        EachAnswer (P instanceId row.workflowDefinitionId)
          answers) : c'.Stores P := by
  intro id row hid
  by_cases hsame : id = instanceId
  · subst hsame
    exact hrow row hid
  · rw [h.others id hsame] at hid
    exact hc id row hid

/-- A drive stores the answers it was given, or nothing. -/
theorem Driven.stores {result : Except EngineError (String × Outcome)}
    {x : Exit ApiError WorkflowInstance} {row : WorkflowInstance}
    (h : Driven deps definition instanceId requesterUserId answers
      result c x c')
    (hc : c.Stores P) (hrow : (c.view instanceId).row = some row)
    (hanswers : ∀ r, result = .ok r →
      EachAnswer (P instanceId row.workflowDefinitionId)
        answers) : c'.Stores P := by
  refine hc.touched h.touches fun row' hrow' => ?_
  cases result with
  | error e =>
      cases h
      exact hc instanceId row' hrow'
  | ok r =>
      rcases h.saved_or_derails with
        ⟨stepId, status, now, hsaved, -⟩ | ⟨hsame, -⟩
      · rw [hrow', hrow, Option.map_some, Option.some.injEq] at hsaved
        subst hsaved
        exact ⟨answers, rfl, hanswers r rfl⟩
      · exact hc instanceId row' (hsame ▸ hrow')

theorem Resumed.stores {stepId : String} {decision : ApprovalDecision}
    {x : Exit ApiError WorkflowInstance}
    (h : Resumed deps instanceId stepId decision c x c')
    (hc : c.Stores P) : c'.Stores P := by
  cases h with
  | unknown | undefined => exact hc
  | @driven row definition _ _ hrow hdefinition hdriven =>
      obtain ⟨answers, hjson, hanswers⟩ := hc instanceId row hrow
      refine hdriven.stores hc hrow fun _ _ => ?_
      rw [hjson]
      exact hanswers

theorem Performed.stores {op : Operation}
    {x : Exit ApiError (Option WorkflowInstance)} (h : Performed deps op c x c')
    (hc : c.Stores P) (hop : op.Offers P c.db) :
    c'.Stores P := by
  cases h with
  | declined | skipped => exact hc
  | started _ _ _ hinsert hdriven =>
      have hview := congrArg View.row (Core.view_created hinsert)
      refine hdriven.stores ?_ hview fun _ _ => .nil
      refine hc.touched (Core.touches_created hinsert) fun row hrow => ?_
      cases hview.symm.trans hrow
      exact ⟨[], rfl, .nil⟩
  | submitted hrow hrequester hstatus hdefinition hengine hdriven =>
      obtain ⟨answers, hjson, hanswers⟩ := hc _ _ hrow
      rw [hjson] at hengine
      refine hdriven.stores hc hrow fun r hr => ?_
      subst hr
      refine hanswers.submitAnswer (fun q hq hkey => ?_) hengine
      exact hop _ q hrow
        ⟨⟨_, _, hrow, hrequester, hstatus, hdefinition, hq⟩, hkey⟩
  | decided happroval huser hpending hresumed => exact hresumed.stores hc
  | expired hpending hresumed | expiryPanicked hpending hresumed =>
      exact hresumed.stores hc
  | expiryFailed hpending hresumed => exact hresumed.stores hc

end Operations

section Form

variable {deps : Deps} {rounds : Nat} {w : World} {id : Uuid} {user : User}

theorem Orchestrator.submitAnswer_wp {fieldKey : String} {value : JsonValue} :
    wp Input.Admitted (submitAnswer deps rounds id user fieldKey value)
      (fun _ w' => ∃ y,
        Performed deps (.submit id user fieldKey value) w.core y w'.core)
      w := by
  refine wp_mono (fun x w' hx => ?_) ((wp_bind _ _ _ _).mp Request.submit_wp)
  cases x <;> exact ⟨_, hx⟩

/-- The web form submits what its text says to the question that is asked. -/
theorem Web.submitAnswer_wp {form : AnswerForm} :
    wp Input.Admitted (submitAnswer deps rounds user id form)
      (fun _ w' => w'.core = w.core ∨ ∃ row definition y,
        w.db.instances.find? id = some row ∧
        w.db.definitions.find? row.workflowDefinitionId = some definition ∧
        Performed deps (.submit id user form.fieldKey (coerceAnswer
          ((definition.graph.question? row.currentStepId).map
            Question.inputType)
          form.value)) w.core y w'.core) w := by
  unfold submitAnswer
  refine wp_read (wp_okOr (fun _ => .inl rfl) fun row hrow => ?_)
  refine wp_read (wp_okOr (fun _ => .inl rfl) fun definition hdefinition => ?_)
  simp only [bind_inputTypeOf]
  refine (wp_bind _ _ _ _).mpr
    (wp_mono (fun x w' hx => ?_) Orchestrator.submitAnswer_wp)
  obtain ⟨y, hperformed⟩ := hx
  cases x <;> exact .inr ⟨row, definition, y, hrow, hdefinition, hperformed⟩

end Form

/-- One operation through the API or one use of the web form, among those that
may be made in this state, or a drift. -/
inductive AnswerStep (deps : Deps) (guard : World → Operation → Prop)
    (formGuard : World → Uuid → User → Web.AnswerForm → Prop) :
    World → World → Prop
  | serial {w w' : World} (h : SerialStep deps guard w w') :
      AnswerStep deps guard formGuard w w'
  | form {w w' : World} {id : Uuid} {user : User} {form : Web.AnswerForm}
      {rounds : Nat} {x : Exit ApiError String}
      (hguard : formGuard w id user form)
      (h : Runs Input.Admitted
      (Web.submitAnswer deps rounds user id form) w x w') :
      AnswerStep deps guard formGuard w w'

/-- What is submitted through the API answers the question that is asked. -/
def offersAdmissible (w : World) : Operation → Prop
  | .submit instanceId requester fieldKey value =>
      ∀ q, w.db.Asks instanceId requester fieldKey q → q.Admissible value
  | _ => True

/-- What is submitted through the web form answers the question
that is asked. -/
def formFits (w : World) (id : Uuid) (user : User)
    (form : Web.AnswerForm) : Prop :=
  ∀ q, w.db.Asks id user form.fieldKey q → q.FormFits form.value

/-- The answer is admissible for a question of the definition that
asks for it. -/
def Db.Fitting (db : Db) :
    AnswerProperty := fun _ definitionId fieldKey value =>
  ∃ graph stepId q, db.graphOf definitionId = some graph ∧
    graph.question? stepId = some q ∧ q.fieldKey = fieldKey ∧ q.Admissible value

/-- The answer is there already, or it is admissible for the question that the
request waits for. -/
def Db.Supplied (db : Db) : AnswerProperty := fun id _ fieldKey value =>
  (∃ row, ∃ answers : Answers, db.instances.find? id = some row ∧
    row.answersJson = .object answers ∧ answers.get? fieldKey = some value) ∨
  ∃ row graph q, db.instances.find? id = some row ∧
    db.graphOf row.workflowDefinitionId = some graph ∧
    graph.question? row.currentStepId = some q ∧ q.fieldKey = fieldKey ∧
      q.Admissible value

section Steps

variable {deps : Deps} {w w' : World}

theorem Db.Asks.supplied {db : Db} {id : Uuid} {requester : User}
    {fieldKey : String} {q : Question} {value : JsonValue}
    (h : db.Asks id requester fieldKey q) (hvalue : q.Admissible value)
    (definitionId : Uuid) : db.Supplied id definitionId fieldKey value := by
  obtain ⟨⟨row, definition, hrow, -, -, hdefinition, hq⟩, hkey⟩ := h
  exact .inr ⟨row, definition.graph, q, hrow, Db.graphOf_of_find? hdefinition,
    hq, hkey, hvalue⟩

theorem AnswerStep.graphOf {guard : World → Operation → Prop}
    {formGuard : World → Uuid → User → Web.AnswerForm → Prop}
    (h : AnswerStep deps guard formGuard w w') {definitionId : Uuid}
    {graph : WorkflowGraph} (hgraph : w.db.graphOf definitionId = some graph) :
    w'.db.graphOf definitionId = some graph := by
  have hperformed : ∀ {op x}, Performed deps op w.core x w'.core →
      w'.db.graphOf definitionId = some graph := by
    intro op x h
    have hdefinitions : w'.db.definitions = w.db.definitions := h.sameCatalog.1
    rw [Db.graphOf, hdefinitions]
    exact hgraph
  cases h with
  | serial h =>
      cases h with
      | drift hdrift => exact hdrift.graphOf hgraph
      | operation _ h => exact hperformed h.performed
  | form _ hrun =>
      rcases hrun.ensures Web.submitAnswer_wp with heq | ⟨_, _, _, _, _, h⟩
      · have hdb : w'.db = w.db := congrArg Core.db heq
        rw [hdb]
        exact hgraph
      · exact hperformed h

/-- What a step stores it found or was given, as an answer that fits. -/
theorem AnswerStep.stores {P : AnswerProperty}
    (h : AnswerStep deps offersAdmissible formFits w w') (hw : w.core.Stores P)
    (hP : ∀ row id requester fieldKey q value,
      w.db.instances.find? id = some row →
      w.db.Asks id requester fieldKey q → q.Admissible value →
        P id row.workflowDefinitionId fieldKey value) : w'.core.Stores P := by
  have hoffers : ∀ {op}, offersAdmissible w op → op.Offers P w.core.db := by
    intro op hguard
    cases op with
    | submit =>
        exact fun row q hrow hq => hP row _ _ _ q _ hrow hq (hguard q hq)
    | _ => trivial
  cases h with
  | serial h =>
      cases h with
      | drift hdrift =>
          intro id row hrow
          replace hrow : w'.db.instances.find? id = some row := hrow
          rw [hdrift.instances] at hrow
          exact hw id row hrow
      | operation hguard h => exact h.performed.stores hw (hoffers hguard)
  | @form id user form rounds x hguard hrun =>
      rcases hrun.ensures Web.submitAnswer_wp with
        heq | ⟨row, definition, y, hrow, hdefinition, hperformed⟩
      · rw [heq]
        exact hw
      · refine hperformed.stores hw (hoffers fun q hq => ?_)
        obtain ⟨row', definition', hrow', -, -, hdefinition', hask⟩ := hq.row
        cases hrow.symm.trans hrow'
        cases hdefinition.symm.trans hdefinition'
        rw [hask, Option.map_some]
        exact (q.admissible_coerceAnswer form.value).mpr (hguard q hq)

/-- If every submission answers the question that is asked, every stored answer
is admissible for a question of the workflow that asks for it, and each was for
the question that the request was waiting for when the answer came. -/
theorem answers_fit {w₀ : World} (h₀ : w₀.Initial)
    (hrun : Relation.ReflTransGen
      (AnswerStep deps offersAdmissible formFits) w₀ w) :
    w.core.Stores w.db.Fitting ∧
      ∀ w', AnswerStep deps offersAdmissible formFits w w' →
        w'.core.Stores w.db.Supplied := by
  have hfits : w.core.Stores w.db.Fitting := by
    induction hrun with
    | refl =>
        intro id row hrow
        replace hrow : w₀.db.instances.find? id = some row := hrow
        rw [h₀.instances] at hrow
        cases hrow
    | @tail v w' _ hstep ih =>
        have hstores := hstep.stores ih
          fun row id requester fieldKey q value hrow hq hvalue => by
          obtain ⟨⟨row', definition, hrow', -, -, hdefinition, hask⟩,
              hkey⟩ := hq
          cases hrow.symm.trans hrow'
          exact ⟨_, _, q, Db.graphOf_of_find? hdefinition, hask, hkey, hvalue⟩
        intro id row hrow
        obtain ⟨answers, hjson, hanswers⟩ := hstores id row hrow
        refine ⟨answers, hjson, fun fieldKey value hget => ?_⟩
        obtain ⟨graph, stepId, q, hgraph, hrest⟩ := hanswers fieldKey value hget
        exact ⟨graph, stepId, q, hstep.graphOf hgraph, hrest⟩
  refine ⟨hfits, fun w' hstep => hstep.stores (fun id row hrow => ?_) ?_⟩
  · obtain ⟨answers, hjson, -⟩ := hfits id row hrow
    exact ⟨answers, hjson,
      fun fieldKey value hget => .inl ⟨row, answers, hrow, hjson, hget⟩⟩
  · exact fun row id requester fieldKey q value _ hq hvalue =>
      hq.supplied hvalue _

end Steps

namespace Reason

theorem asks : (Sample.run [.start Sample.item.id Sample.requester] 1
    (Sample.world Sample.questionThenApproval)).isSome = true := by
  decide

/-- A request that waits for a reason. -/
def asked : World :=
  (Sample.run [.start Sample.item.id Sample.requester] 1
    (Sample.world Sample.questionThenApproval)).get asks

/-- The state after its requester entered this text. -/
def entered (text : String) : Option (Exit ApiError String × World) :=
  runAlone Input.Admitted
    (Web.submitAnswer Sample.deps 9 Sample.requester (Sample.id 102)
      ⟨"reason", text⟩)
    (Sample.inputs 0 200) asked

theorem asked_serial {guard : World → Operation → Prop}
    {formGuard : World → Uuid → User → Web.AnswerForm → Prop}
    (hguard : guard (Sample.world Sample.questionThenApproval)
      (.start Sample.item.id Sample.requester)) :
    AnswerStep Sample.deps guard formGuard
      (Sample.world Sample.questionThenApproval) asked :=
  .serial (Sample.step_of_run hguard trivial (Option.some_get _).symm)

theorem entered_form {text : String} {result : Exit ApiError String × World}
    {guard : World → Operation → Prop}
    {formGuard : World → Uuid → User → Web.AnswerForm → Prop}
    (hguard : formGuard asked (Sample.id 102) Sample.requester ⟨"reason", text⟩)
    (h : entered text = some result) :
    AnswerStep Sample.deps guard formGuard asked result.2 :=
  .form hguard (runs_of_runAlone h)

/-- The question that the request waits for. -/
def question : Question :=
  ⟨"reason", .text, true, [], "approve"⟩

theorem eq_of_question? {stepId : String} {q : Question}
    (h : Sample.questionThenApproval.question? stepId = some q) :
    q = question := by
  obtain ⟨s, hs, hkind⟩ := Option.bind_eq_some_iff.mp h
  have hmem := List.mem_of_find?_eq_some hs
  simp only [Sample.questionThenApproval, List.mem_cons, List.not_mem_nil,
    or_false] at hmem
  rcases hmem with rfl | rfl | rfl | rfl | rfl
  · exact (Option.some.inj hkind).symm
  all_goals cases hkind

theorem eq_of_asks {q : Question}
    (h : asked.db.Asks (Sample.id 102) Sample.requester "reason" q) :
    q = question := by
  obtain ⟨row, definition, hrow, -, -, hdefinition, hq⟩ := h.row
  obtain rfl := Option.some.inj hrow
  obtain rfl := Option.some.inj hdefinition
  exact eq_of_question? hq

end Reason

open Reason in
theorem answers_fit_entered :
    let w := ((entered "broken").get (by decide)).2
    w.db.instances.rows.map WorkflowInstance.answersJson =
      [.object [("reason", .string "broken")]] ∧
    w.core.Stores w.db.Fitting ∧
      ∀ w', AnswerStep Sample.deps offersAdmissible formFits w w' →
        w'.core.Stores w.db.Supplied := by
  intro w
  have hform : AnswerStep Sample.deps offersAdmissible formFits asked w := by
    refine entered_form (fun q hq => ?_) (Option.some_get _).symm
    rw [eq_of_asks hq]
    exact fun _ => by decide
  refine ⟨by decide, ?_⟩
  exact answers_fit (Sample.initial _)
    (.tail (.single (asked_serial trivial)) hform)

open Reason in
/-- The reason is required, and white space is stored for it. -/
theorem answers_blank :
    let w := ((entered "  ").get (by decide)).2
    (Sample.world Sample.questionThenApproval).Initial ∧
    Relation.ReflTransGen (AnswerStep Sample.deps anyOperation
      fun _ _ _ _ => True) (Sample.world Sample.questionThenApproval) w ∧
    w.db.instances.rows.map WorkflowInstance.answersJson =
      [.object [("reason", .string "  ")]] ∧
    ¬ w.core.Stores w.db.Fitting := by
  intro w
  refine ⟨Sample.initial _, .tail (.single (asked_serial trivial))
    (entered_form trivial (Option.some_get _).symm), by
      decide, fun hstores => ?_⟩
  obtain ⟨answers, hjson, hanswers⟩ := hstores (Sample.id 102) _ rfl
  obtain rfl := JsonValue.object.inj hjson
  obtain ⟨graph, stepId, q, hgraph, hq, -, hadmissible, -⟩ :=
    hanswers "reason" (.string "  ") rfl
  obtain rfl := Option.some.inj hgraph
  rw [eq_of_question? hq] at hadmissible
  have hblank : trim isWhitespace "  " = "" := by decide
  exact hadmissible rfl hblank

end Servcat
