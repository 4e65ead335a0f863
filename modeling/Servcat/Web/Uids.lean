/-
The `_uid` values of the builder's steps.  A counter hands them out; a load that
is rejected leaves the steps that were there and a counter that has begun anew.
-/
import Servcat.Keyed.Issued
import Servcat.Web.Editing

namespace Servcat

open JsValue (parse)

namespace Builder

open Keyed (Issued)

/-- The name that `newStep` makes of the counter. -/
def uidOf (k : ℕ) : String :=
  "n" ++ toString k

theorem uidOf_injective : Function.Injective uidOf :=
  Keyed.append_toString_injective "n"

def uids (b : Builder) : List String :=
  b.steps.map BuilderStep.uid

section Edits

/-- What the change of one step keeps. -/
theorem map_modify {β : Type} {g : BuilderStep → β}
    {f : BuilderStep → BuilderStep} (hf : ∀ s, g (f s) = g s)
    (steps : List BuilderStep) (index : ℕ) :
    (steps.modify index f).map g = steps.map g := by
  apply List.ext_getElem?
  intro i
  rw [List.getElem?_map, List.getElem?_map, List.getElem?_modify]
  cases steps[i]? with
  | none => rfl
  | some s =>
      show some (g (if index = i then f s else s)) = some (g s)
      split
      · rw [hf]
      · rfl

theorem uids_addStep (b : Builder) (kind : StepTag) :
    (b.addStep kind).uids = b.uids ++ [uidOf (b.stepCounter + 1)] := by
  simp [uids, addStep, newStep, uidOf]

theorem commitIdChange_same (b : Builder) (index : ℕ) (oldId : JsValue)
    (newId : String) :
    (b.commitIdChange index oldId newId).uids = b.uids ∧
      (b.commitIdChange index oldId newId).stepCounter = b.stepCounter := by
  unfold commitIdChange
  split
  · exact ⟨rfl, rfl⟩
  · split
    · exact ⟨rfl, rfl⟩
    · split
      · exact ⟨rfl, rfl⟩
      · refine ⟨(map_modify ?_ _ index).trans ?_, rfl⟩
        · exact fun _ => rfl
        · rw [List.map_map]
          rfl

theorem uid_setText (step : BuilderStep) (value : String) (field : TextField) :
    (setText step value field).uid = step.uid := by
  cases field <;> rfl

theorem onListChange_same (b : Builder) (uid : String) (edit : Edit) :
    (b.onListChange uid edit).uids = b.uids ∧
      (b.onListChange uid edit).stepCounter = b.stepCounter := by
  unfold onListChange
  split
  · exact ⟨rfl, rfl⟩
  · rename_i index hindex
    cases edit with
    | id value =>
        dsimp only
        split
        · exact ⟨rfl, rfl⟩
        · exact commitIdChange_same b index _ _
    | optionValue | optionLabel | required | conditionValueType =>
        refine ⟨map_modify ?_ _ _, rfl⟩
        exact fun _ => rfl
    | text field value =>
        exact ⟨map_modify (fun s => uid_setText s value field) _ _, rfl⟩

/-- A step that is taken out and put back. -/
theorem perm_move {steps : List BuilderStep} {index place : ℕ}
    {step : BuilderStep} (h : steps[index]? = some step)
    (hplace : place ≤ steps.length - 1) :
    List.Perm ((steps.eraseIdx index).insertIdx place step) steps := by
  obtain ⟨hlt, rfl⟩ := List.getElem?_eq_some_iff.mp h
  have hlength : (steps.eraseIdx index).length = steps.length - 1 :=
    List.length_eraseIdx_of_lt hlt
  exact (List.perm_insertIdx _ _ (by omega)).trans
    (List.getElem_cons_eraseIdx_perm hlt)

theorem deleteStep_subperm (b : Builder) (index : ℕ) (id : JsValue)
    (confirmed : Bool) :
    (b.deleteStep index id confirmed).uids.Subperm b.uids ∧
      (b.deleteStep index id confirmed).stepCounter = b.stepCounter := by
  have hdeleted :
      ((b.steps.eraseIdx index).map BuilderStep.uid).Subperm b.uids :=
    ((List.eraseIdx_sublist b.steps index).map BuilderStep.uid).subperm
  unfold deleteStep
  dsimp only
  split
  · exact ⟨hdeleted, rfl⟩
  · split
    · exact ⟨.refl _, rfl⟩
    · split
      · exact ⟨hdeleted, rfl⟩
      · exact ⟨.refl _, rfl⟩

theorem onListClick_subperm (b : Builder) (uid : String) (click : Click) :
    (b.onListClick uid click).uids.Subperm b.uids ∧
      (b.onListClick uid click).stepCounter = b.stepCounter := by
  unfold onListClick
  split
  · exact ⟨.refl _, rfl⟩
  · rename_i index hindex
    split
    · exact ⟨.refl _, rfl⟩
    · rename_i step hstep
      cases click with
      | deleteStep confirmed =>
          exact deleteStep_subperm b index step.id confirmed
      | setEntry => exact ⟨.refl _, rfl⟩
      | addOption | removeOption | toggleCollapse =>
          refine ⟨(List.Perm.of_eq (map_modify ?_ _ _)).subperm, rfl⟩
          exact fun _ => rfl
      | moveUp =>
          dsimp only
          split
          · refine ⟨((perm_move hstep ?_).map BuilderStep.uid).subperm, rfl⟩
            have := (List.getElem?_eq_some_iff.mp hstep).1
            omega
          · exact ⟨.refl _, rfl⟩
      | moveDown =>
          dsimp only
          split
          · exact ⟨((perm_move hstep (by omega)).map
              BuilderStep.uid).subperm, rfl⟩
          · exact ⟨.refl _, rfl⟩

end Edits

section Loading

/-- Whether a condition, a rule or the fields of a kind can be loaded does not
depend on the step they are loaded into. -/
theorem hydrateCondition_isSome (s t : BuilderStep) (condition : JsValue) :
    (hydrateCondition s condition).isSome =
      (hydrateCondition t condition).isSome := by
  unfold hydrateCondition
  dsimp only
  generalize condition.or _ = condition
  cases condition.get? "op" with
  | none => rfl
  | some op =>
      simp only [Option.bind_eq_bind, Option.bind_some]
      cases simpleOp? op with
      | none => rfl
      | some simple =>
          cases textOf? condition "field_key" with
          | none => rfl
          | some fieldKey =>
              cases simple with
              | «exists» => rfl
              | «in» =>
                  cases condition.get? "values" with
                  | none => rfl
                  | some values =>
                      simp only [Option.bind_some]
                      cases values.or (.array [] []) with
                      | array _ values =>
                          simp only
                          cases JsValue.itemTexts? values <;> rfl
                      | _ => rfl
              | equals | notEquals =>
                  cases condition.get? "value" with
                  | none => rfl
                  | some value =>
                      simp only [Option.bind_some]
                      cases textOrBlank? value <;> rfl

theorem hydrateApproverResolution_isSome (s t : BuilderStep)
    (resolution : JsValue) :
    (hydrateApproverResolution s resolution).isSome =
      (hydrateApproverResolution t resolution).isSome := by
  unfold hydrateApproverResolution
  dsimp only
  generalize resolution.or _ = resolution
  cases resolution.get? "type" with
  | none => rfl
  | some type =>
      simp only [Option.bind_eq_bind, Option.bind_some]
      split
      · cases textOf? resolution "user_id" <;> rfl
      · cases resolution.get? "role" <;> rfl
      · rfl

theorem isSome_bind_congr {α β : Type} {x y : Option α} {f g : α → Option β}
    (h : x.isSome = y.isSome) (hfg : ∀ a b, (f a).isSome = (g b).isSome) :
    (x.bind f).isSome = (y.bind g).isSome := by
  cases x with
  | none =>
      cases y with
      | none => rfl
      | some b => cases h
  | some a =>
      cases y with
      | none => cases h
      | some b => exact hfg a b

theorem hydrateFields_isSome {s t : BuilderStep} (h : s.kind = t.kind)
    (k : JsValue) :
    (hydrateFields s k).isSome = (hydrateFields t k).isSome := by
  unfold hydrateFields
  rw [h]
  simp only [Option.bind_eq_bind]
  split
  · cases k.get? "options" with
    | none => rfl
    | some options =>
        simp only [Option.bind_some]
        split
        · simp only [Option.isSome_bind, Option.isSome_some]
        · rfl
  · cases k.get? "condition" with
    | none => rfl
    | some condition =>
        simp only [Option.bind_some]
        exact isSome_bind_congr (hydrateCondition_isSome s t condition)
          fun _ _ =>
          isSome_bind_congr rfl fun _ _ => isSome_bind_congr rfl fun _ _ => rfl
  · cases k.get? "approver_resolution" with
    | none => rfl
    | some resolution =>
        simp only [Option.bind_some]
        refine isSome_bind_congr
          (hydrateApproverResolution_isSome s t resolution) fun _ _ =>
          isSome_bind_congr rfl fun _ _ => isSome_bind_congr rfl fun _ _ => ?_
        simp only [Option.isSome_bind, Option.isSome_some]
  · exact isSome_bind_congr rfl fun _ _ => rfl
  · exact isSome_bind_congr rfl fun _ _ => rfl
  · rfl

theorem hydrateStep_isSome (stepCounter : ℕ) (kind s : JsValue) :
    (hydrateStep stepCounter kind s).isSome =
      (hydrateStep 0 kind s).isSome := by
  unfold hydrateStep
  simp only [Option.bind_eq_bind]
  refine isSome_bind_congr rfl fun _ _ => isSome_bind_congr rfl fun _ _ => ?_
  cases s.get? "kind" with
  | none => rfl
  | some k =>
      simp only [Option.bind_some]
      exact hydrateFields_isSome (by rfl) _

/-- The number of steps that the loader makes of a list before it rejects one,
or of the whole list; that of which it rejects the fields is made. -/
def stepsMade : List JsValue → ℕ
  | [] => 0
  | s :: rest =>
      match hydrateKind s with
      | none => 0
      | some kind =>
          if (hydrateStep 0 kind s).isSome then stepsMade rest + 1 else 1

/-- The loader rejects none of the steps. -/
def loadable (items : List JsValue) : Bool :=
  items.all fun s => (hydrateKind s).any fun kind =>
    (hydrateStep 0 kind s).isSome

/-- A load that is rejected leaves the counter at the number of
steps it made. -/
theorem hydrateSteps_eq (stepCounter : ℕ) (items : List JsValue) :
    (hydrateSteps stepCounter items).1 = stepCounter + stepsMade items ∧
      (hydrateSteps stepCounter items).2.isSome = loadable items := by
  induction items generalizing stepCounter with
  | nil => exact ⟨rfl, rfl⟩
  | cons s rest ih =>
      obtain ⟨hcounter, hloaded⟩ := ih (stepCounter + 1)
      simp only [hydrateSteps, stepsMade, loadable, List.all_cons]
      cases hydrateKind s with
      | none => exact ⟨rfl, rfl⟩
      | some kind =>
          have hstep := hydrateStep_isSome (stepCounter + 1) kind s
          simp only [Option.any_some, ← hstep]
          cases hydrateStep (stepCounter + 1) kind s with
          | none => exact ⟨rfl, rfl⟩
          | some step =>
              refine ⟨?_, ?_⟩
              · show (hydrateSteps (stepCounter + 1) rest).1 = _
                rw [hcounter]
                simp only [Option.isSome_some, if_true]
                omega
              · rw [← loadable] at *
                simpa using hloaded

theorem hydrateStep_uid {stepCounter : ℕ} {kind s : JsValue}
    {step : BuilderStep} (h : hydrateStep stepCounter kind s = some step) :
    step.uid = uidOf stepCounter := by
  simp only [hydrateStep, Option.bind_eq_bind, Option.bind_eq_some_iff] at h
  obtain ⟨id, -, label, -, k, -, h⟩ := h
  exact (hydrateFields_same h).uid

/-- A load that succeeds numbers its steps from one. -/
theorem uids_hydrateSteps {stepCounter stepCounter' : ℕ} {items : List JsValue}
    {steps : List BuilderStep}
    (h : hydrateSteps stepCounter items = (stepCounter', some steps)) :
    stepCounter' = stepCounter + steps.length ∧
      steps.map BuilderStep.uid =
        (List.range' (stepCounter + 1) steps.length).map uidOf := by
  induction items generalizing stepCounter steps with
  | nil =>
      obtain ⟨rfl, hnil⟩ := Prod.mk.inj h
      obtain rfl := Option.some.inj hnil
      exact ⟨rfl, rfl⟩
  | cons s rest ih =>
      rw [hydrateSteps] at h
      split at h
      · cases h
      · split at h
        · cases h
        · rename_i step hstep
          obtain ⟨hcounter, hsteps⟩ := Prod.mk.inj h
          obtain ⟨rest', hrest, rfl⟩ := Option.map_eq_some_iff.mp hsteps
          obtain ⟨hcounter', huids⟩ := ih (Prod.ext hcounter hrest)
          refine ⟨by simp only [List.length_cons]; omega, ?_⟩
          rw [List.map_cons, huids, hydrateStep_uid hstep, List.length_cons,
            List.range'_succ, List.map_cons]

/-- What is loaded has the numbers from one. -/
theorem issued_of_loaded {b loaded : Builder} {graph : JsValue}
    (h : b.hydrateFromGraph graph = (loaded, true)) :
    Issued uidOf loaded.stepCounter loaded.uids := by
  unfold hydrateFromGraph at h
  split at h
  · cases h
  · rename_i items hitems
    split at h
    · cases h
    · rename_i stepCounter steps hsteps
      obtain ⟨rfl, -⟩ := Prod.mk.inj h
      obtain ⟨hcounter, huids⟩ := uids_hydrateSteps hsteps
      rw [Nat.zero_add] at hcounter huids
      show Issued uidOf stepCounter (steps.map BuilderStep.uid)
      rw [huids, hcounter]
      exact .first uidOf_injective steps.length

/-- What is rejected leaves the steps as they were. -/
theorem uids_of_rejected {b rejected : Builder} {graph : JsValue}
    (h : b.hydrateFromGraph graph = (rejected, false)) :
    rejected.uids = b.uids ∧
      (rejected.stepCounter = b.stepCounter ∨
        ∃ items, stepsOf? graph = some items ∧ loadable items = false ∧
          rejected.stepCounter = stepsMade items) := by
  unfold hydrateFromGraph at h
  split at h
  · obtain ⟨rfl, -⟩ := Prod.mk.inj h
    exact ⟨rfl, .inl rfl⟩
  · rename_i items hitems
    obtain ⟨hcounter, hloaded⟩ := hydrateSteps_eq 0 items
    split at h
    · rename_i stepCounter hsteps
      obtain ⟨rfl, -⟩ := Prod.mk.inj h
      rw [hsteps] at hcounter hloaded
      exact ⟨rfl, .inr ⟨items, hitems, hloaded.symm, by simpa using hcounter⟩⟩
    · cases h

end Loading

section Runs

/-- A load is not rejected on account of one of its steps or, where it is, it
has made as many steps by then as the numbers of those that stay. -/
def Resumable (b : Builder) : Action → Prop
  | .loadFromTextarea (some json) =>
      ∀ items, stepsOf? (parse [] json) = some items →
        loadable items = true ∨ ∀ k, uidOf k ∈ b.uids → k ≤ stepsMade items
  | _ => True

/-- The builders that a user can reach from the page by actions that meet a
condition. -/
inductive Edited (P : Builder → Action → Prop) : Builder → Prop where
  | opened (prefill : Option (Option JsonValue)) : Edited P (main prefill)
  | acted {b : Builder} (h : Edited P b) (action : Action) (hP : P b action) :
      Edited P (b.act action)

theorem issued_main (prefill : Option (Option JsonValue)) :
    Issued uidOf (main prefill).stepCounter (main prefill).uids := by
  have hstarter : Issued uidOf starterExample.stepCounter starterExample.uids :=
    .first uidOf_injective 2
  unfold main
  split
  · exact hstarter
  · exact hstarter
  · split
    · rename_i loaded hloaded
      exact issued_of_loaded hloaded
    · exact hstarter

/-- One action. -/
theorem issued_act {b : Builder} (h : Issued uidOf b.stepCounter b.uids)
    (action : Action) (hresumable : b.Resumable action) :
    Issued uidOf (b.act action).stepCounter (b.act action).uids := by
  cases action with
  | addStep kind =>
      show Issued uidOf (b.stepCounter + 1) (b.addStep kind).uids
      rw [uids_addStep]
      exact h.issue uidOf_injective
  | change card edit =>
      simp only [act]
      cases b.steps[card]? with
      | none => exact h
      | some step =>
          obtain ⟨huids, hcounter⟩ := b.onListChange_same step.uid edit
          rw [huids, hcounter]
          exact h
  | click card click =>
      simp only [act]
      cases b.steps[card]? with
      | none => exact h
      | some step =>
          dsimp only
          split
          · exact h
          · obtain ⟨huids, hcounter⟩ := b.onListClick_subperm step.uid click
            rw [hcounter]
            exact h.subperm huids
  | loadFromTextarea json =>
      cases json with
      | none => exact h
      | some json =>
          show Issued uidOf (b.hydrateFromGraph (parse [] json)).1.stepCounter
            (b.hydrateFromGraph (parse [] json)).1.uids
          cases hloaded : b.hydrateFromGraph (parse [] json) with
          | mk b' loaded =>
              cases loaded with
              | true => exact issued_of_loaded hloaded
              | false =>
                  obtain ⟨huids, hcounter⟩ := uids_of_rejected hloaded
                  show Issued uidOf b'.stepCounter b'.uids
                  rw [huids]
                  rcases hcounter with
                    hcounter | ⟨items, hitems, hrejected, hcounter⟩
                  · rw [hcounter]
                    exact h
                  · rw [hcounter]
                    rcases hresumable items hitems with haccepted | hcovered
                    · rw [hrejected] at haccepted
                      cases haccepted
                    · exact h.restart hcovered

/-- A run. -/
theorem Edited.issued {b : Builder} (h : Edited Resumable b) :
    Issued uidOf b.stepCounter b.uids := by
  induction h with
  | opened prefill => exact issued_main prefill
  | acted _ action hresumable ih => exact issued_act ih action hresumable

theorem findStepByUid_of_nodup {b : Builder} (h : b.uids.Nodup) {card : ℕ}
    {step : BuilderStep} (hstep : b.steps[card]? = some step) :
    b.findStepByUid step.uid = some card := by
  obtain ⟨hlt, rfl⟩ := List.getElem?_eq_some_iff.mp hstep
  rw [findStepByUid, List.findIdx?_eq_some_iff_getElem]
  refine ⟨hlt, by simp, ?_⟩
  intro j hj
  have hne := List.nodup_iff_getElem?_ne_getElem?.mp h j card hj
    (by simpa [uids] using hlt)
  simpa [uids, List.getElem?_eq_getElem, hlt, hj.trans hlt] using hne

/-- Every card is the card of the step that its `_uid` finds. -/
theorem Edited.uids_distinct {b : Builder} (h : Edited Resumable b) :
    b.uids.Nodup ∧ ∀ card step, b.steps[card]? = some step →
      b.findStepByUid step.uid = some card :=
  ⟨h.issued.nodup, fun _ _ => findStepByUid_of_nodup h.issued.nodup⟩

theorem uids_addSteps (b : Builder) (kind : StepTag) (n : ℕ) :
    ((List.replicate n (.addStep kind)).foldl act b).uids =
      b.uids ++ (List.range' (b.stepCounter + 1) n).map uidOf := by
  induction n generalizing b with
  | zero => simp
  | succ n ih =>
      rw [List.replicate_succ, List.foldl_cons, ih]
      show (b.addStep kind).uids ++
        (List.range' (b.stepCounter + 1 + 1) n).map uidOf = _
      rw [uids_addStep, List.range'_succ, List.map_cons, List.append_assoc,
        List.singleton_append]

/-- A load that is not resumable can be followed by steps of which one has a
`_uid` that is there already. -/
theorem repeats_of_not_resumable {b : Builder} {action : Action}
    (h : ¬b.Resumable action) (kind : StepTag) :
    ∃ n, ¬((List.replicate n (.addStep kind)).foldl act
      (b.act action)).uids.Nodup := by
  cases action with
  | addStep | change | click => exact absurd trivial h
  | loadFromTextarea json =>
      cases json with
      | none => exact absurd trivial h
      | some json =>
          simp only [Resumable, not_forall, not_or, Bool.not_eq_true] at h
          obtain ⟨items, hitems, hrejected, k, hk, hlt⟩ := h
          obtain ⟨hcounter, hloaded⟩ := hydrateSteps_eq 0 items
          have hact : b.act (.loadFromTextarea (some json)) =
              { b with stepCounter := stepsMade items } := by
            show (b.hydrateFromGraph (parse [] json)).1 = _
            rw [hydrateFromGraph, hitems]
            cases hsteps : hydrateSteps 0 items with
            | mk stepCounter steps =>
                rw [hsteps] at hcounter hloaded
                cases steps with
                | none =>
                    obtain rfl : stepCounter = stepsMade items := by
                      simpa using hcounter
                    simp only [hsteps]
                | some steps =>
                    rw [hrejected] at hloaded
                    cases hloaded
          refine ⟨k - stepsMade items, ?_⟩
          rw [hact, uids_addSteps]
          exact Keyed.not_nodup_of_lt hk (Nat.lt_of_not_le hlt)

/-- A graph of which the loader rejects the first step. -/
def unknownKind : JsonValue :=
  .object
    [("steps",
      .array [.object [("kind", .object [("type", .string "script")])]])]

/-- The starter example, after a load that is rejected and a new step. -/
def afterUnknownKind : Builder :=
  (starterExample.act (.loadFromTextarea (some unknownKind))).act
    (.addStep .question)

/-- The new step has the `_uid` of the first one, and its card
finds that one. -/
theorem uids_afterUnknownKind :
    Edited (fun _ _ => True) afterUnknownKind ∧
    afterUnknownKind.uids = ["n1", "n2", "n1"] ∧
      afterUnknownKind.findStepByUid "n1" = some 0 :=
  ⟨((Edited.opened none).acted _ trivial).acted _ trivial, by decide,
    by decide⟩

/-- Two steps, and one of an unknown kind. -/
def laterUnknownKind : JsonValue :=
  .object [("steps", .array
    [.object [("kind", .object [("type", .string "end")])],
      .object [("kind", .object [("type", .string "end")])],
      .object [("kind", .object [("type", .string "script")])]])]

theorem uids_distinct_laterUnknownKind :
    (((main none).act (.loadFromTextarea (some laterUnknownKind))).act
      (.addStep .question)).uids.Nodup ∧
      ∀ card step,
        (((main none).act (.loadFromTextarea (some laterUnknownKind))).act
        (.addStep .question)).steps[card]? = some step →
          (((main none).act (.loadFromTextarea (some laterUnknownKind))).act
            (.addStep .question)).findStepByUid step.uid = some card := by
  refine Edited.uids_distinct
    (((Edited.opened none).acted _ ?_).acted _ trivial)
  intro items hitems
  right
  intro k hk
  have hmade : (stepsOf? (parse [] laterUnknownKind)).map stepsMade =
      some 2 := by
    decide
  rw [hitems] at hmade
  rw [Option.some.inj hmade]
  rcases List.mem_cons.mp hk with hk | hk
  · exact (uidOf_injective (hk : uidOf k = uidOf 1)).trans_le (by decide)
  · rcases List.mem_cons.mp hk with hk | hk
    · exact (uidOf_injective (hk : uidOf k = uidOf 2)).le
    · cases hk

end Runs

end Builder

end Servcat
