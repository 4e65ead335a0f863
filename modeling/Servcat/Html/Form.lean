/-
A form that a browser submits as it was sent.  A field is sent as HTML text, and
what is submitted is not always the text that was sent.
-/
import Mathlib.Data.List.Basic

namespace Html

/-- The line ends of a page become line feeds. -/
def lineFeeds : List Char → List Char
  | '\r' :: '\n' :: text => '\n' :: lineFeeds text
  | '\r' :: text => '\n' :: lineFeeds text
  | c :: text => c :: lineFeeds text
  | [] => []

/-- The null character becomes the replacement character. -/
def replaced (c : Char) : Char :=
  if c.toNat = 0 then Char.ofNat 0xFFFD else c

def parsed (text : List Char) : List Char :=
  (lineFeeds text).map replaced

/-- A text input holds one line. -/
def textInput (value : String) : String :=
  String.ofList ((parsed value.toList).filter (· ≠ '\n'))

/-- A line end as it is submitted. -/
def submitted (c : Char) : List Char :=
  if c = '\n' then ['\r', '\n'] else [c]

/-- A line feed right after the tag of a textarea is not part of its value. -/
def afterTag : List Char → List Char
  | '\n' :: value => value
  | value => value

def textarea (content : String) : String :=
  String.ofList ((afterTag (parsed content.toList)).flatMap submitted)

/-- A text that a text input keeps as it is. -/
def Plain (text : String) : Prop :=
  ∀ c ∈ text.toList, c ≠ '\n' ∧ c ≠ '\r' ∧ c.toNat ≠ 0

instance : DecidablePred Plain := fun text =>
  List.decidableBAll _ text.toList

/-- A line of a text that is not empty. -/
def Line (text : List Char) : Prop :=
  text ≠ [] ∧ '\n' ∉ text ∧ '\r' ∉ text

instance : DecidablePred Line := fun _ =>
  inferInstanceAs (Decidable (_ ∧ _ ∧ _))

theorem lineFeeds_eq_self {text : List Char}
    (h : '\r' ∉ text) : lineFeeds text = text := by
  induction text with
  | nil => rfl
  | cons c text ih =>
      rw [List.mem_cons, not_or] at h
      have hc : c ≠ '\r' := Ne.symm h.1
      simp [lineFeeds, hc, ih h.2]

theorem return_not_mem_lineFeeds
    (text : List Char) : '\r' ∉ lineFeeds text := by
  induction text using lineFeeds.induct with
  | case1 text ih => simpa [lineFeeds] using ih
  | case2 text hnot ih => simpa [lineFeeds, hnot] using ih
  | case3 c text _ hc ih =>
      have hc : c ≠ '\r' := hc
      simpa [lineFeeds, hc, hc.symm] using ih
  | case4 => exact List.not_mem_nil

theorem toNat_replaced_ne_zero (c : Char) : (replaced c).toNat ≠ 0 := by
  unfold replaced
  split
  · decide
  · assumption

theorem replaced_eq_iff {c d : Char} (hd : d.toNat ≠ 0xFFFD) :
    replaced c = d ↔ c = d ∧ d.toNat ≠ 0 := by
  unfold replaced
  split
  · rename_i hc
    constructor
    · rintro rfl
      exact absurd rfl hd
    · rintro ⟨rfl, hne⟩
      exact absurd hc hne
  · rename_i hc
    constructor
    · rintro rfl
      exact ⟨rfl, hc⟩
    · exact And.left

theorem replaced_eq_self {c : Char} : replaced c = c ↔ c.toNat ≠ 0 := by
  constructor
  · intro h
    rw [← h]
    exact toNat_replaced_ne_zero c
  · exact fun h => if_neg h

theorem map_replaced_eq_self {text : List Char} :
    text.map replaced = text ↔ ∀ c ∈ text, c.toNat ≠ 0 := by
  conv_lhs => rhs; rw [← List.map_id text]
  rw [List.map_inj_left]
  simp only [id, replaced_eq_self]

theorem textInput_eq_self_iff {text : String} :
    textInput text = text ↔ Plain text := by
  constructor
  · intro h c hc
    rw [← h, textInput, String.toList_ofList, List.mem_filter, parsed,
      List.mem_map] at hc
    obtain ⟨⟨d, hd, rfl⟩, hne⟩ := hc
    refine ⟨by simpa using hne, ?_, toNat_replaced_ne_zero d⟩
    rw [Ne, replaced_eq_iff (by decide)]
    rintro ⟨rfl, -⟩
    exact return_not_mem_lineFeeds _ hd
  · intro h
    have hparsed : parsed text.toList = text.toList := by
      rw [parsed, lineFeeds_eq_self fun hmem => (h _ hmem).2.1 rfl]
      exact map_replaced_eq_self.mpr fun c hc => (h c hc).2.2
    rw [textInput, hparsed,
      List.filter_eq_self.mpr fun c hc => by simpa using (h c hc).1,
      String.ofList_toList]

theorem Line.map_replaced {text : List Char} (h : Line text) :
    Line (text.map replaced) := by
  obtain ⟨hne, hfeed, hreturn⟩ := h
  refine ⟨by simpa using hne, ?_, ?_⟩
  all_goals
    rw [List.mem_map]
    rintro ⟨c, hc, heq⟩
    obtain ⟨rfl, -⟩ := (replaced_eq_iff (by decide)).mp heq
    contradiction

theorem flatMap_submitted {text : List Char} (h : '\n' ∉ text) :
    text.flatMap submitted = text := by
  induction text with
  | nil => rfl
  | cons c text ih =>
      rw [List.mem_cons, not_or] at h
      rw [List.flatMap_cons, ih h.2, submitted, if_neg (Ne.symm h.1)]
      rfl

theorem mem_intercalate {sep : List Char} {lines : List (List Char)} {c : Char}
    (h : c ∈ sep.intercalate lines) : c ∈ sep ∨ ∃ line ∈ lines, c ∈ line := by
  induction lines with
  | nil => simp at h
  | cons first lines ih =>
      cases lines with
      | nil => exact .inr ⟨first, List.mem_cons_self, by simpa using h⟩
      | cons second lines =>
          rw [List.intercalate_cons_cons, List.mem_append, List.mem_append] at h
          rcases h with (hfirst | hsep) | hrest
          · exact .inr ⟨first, List.mem_cons_self, hfirst⟩
          · exact .inl hsep
          · rcases ih hrest with hsep | ⟨line, hline, hc⟩
            · exact .inl hsep
            · exact .inr ⟨line, List.mem_cons_of_mem _ hline, hc⟩

theorem map_intercalate (f : Char → Char) (sep : List Char)
    (lines : List (List Char)) :
    (sep.intercalate lines).map f = (sep.map f).intercalate
      (lines.map (·.map f)) := by
  induction lines with
  | nil => rfl
  | cons first lines ih =>
      cases lines with
      | nil => simp
      | cons second lines =>
          simp only [List.map_cons] at ih
          simp only [List.intercalate_cons_cons, List.map_append,
            List.map_cons, ih]

theorem parsed_intercalate {lines : List (List Char)}
    (h : ∀ line ∈ lines, Line line) :
    parsed (['\n'].intercalate lines) = ['\n'].intercalate
      (lines.map (·.map replaced)) := by
  have hreturn : '\r' ∉ ['\n'].intercalate lines := by
    intro hmem
    rcases mem_intercalate hmem with hsep | ⟨line, hline, hmem⟩
    · exact absurd hsep (by decide)
    · exact (h line hline).2.2 hmem
  rw [parsed, lineFeeds_eq_self hreturn, map_intercalate]
  rfl

theorem afterTag_intercalate {lines : List (List Char)}
    (h : ∀ line ∈ lines, Line line) :
    afterTag (['\n'].intercalate lines) = ['\n'].intercalate lines := by
  cases lines with
  | nil => rfl
  | cons first lines =>
      obtain ⟨hne, hfeed, -⟩ := h first List.mem_cons_self
      obtain ⟨c, text, rfl⟩ := List.exists_cons_of_ne_nil hne
      have hc : c ≠ '\n' := Ne.symm (List.ne_of_not_mem_cons hfeed)
      obtain ⟨rest, hrest⟩ : ∃ rest,
          ['\n'].intercalate ((c :: text) :: lines) = c :: rest := by
        cases lines <;> simp [List.intercalate_cons_cons]
      rw [hrest, afterTag.eq_2 _ (fun _ heq => hc (List.cons.inj heq).1)]

theorem flatMap_submitted_intercalate {lines : List (List Char)}
    (h : ∀ line ∈ lines, Line line) :
    (['\n'].intercalate lines).flatMap submitted =
      ['\r', '\n'].intercalate lines := by
  induction lines with
  | nil => rfl
  | cons first lines ih =>
      cases lines with
      | nil => simpa using flatMap_submitted (h first List.mem_cons_self).2.1
      | cons second lines =>
          rw [List.intercalate_cons_cons, List.intercalate_cons_cons,
            List.flatMap_append, List.flatMap_append,
            flatMap_submitted (h first List.mem_cons_self).2.1,
            ih fun line hline => h line (List.mem_cons_of_mem _ hline)]
          rfl

/-- The lines of a textarea come back with longer ends, as far as they hold no
null character. -/
theorem textarea_intercalate {lines : List String}
    (h : ∀ line ∈ lines, Line line.toList) :
    textarea ("\n".intercalate lines) =
      "\r\n".intercalate
        (lines.map fun line => String.ofList (line.toList.map replaced)) := by
  let kept := lines.map fun line => line.toList.map replaced
  have hkept : ∀ line ∈ kept, Line line := by
    intro line hline
    obtain ⟨sent, hsent, rfl⟩ := List.mem_map.mp hline
    exact (h sent hsent).map_replaced
  have hparsed : parsed ("\n".intercalate lines).toList =
      ['\n'].intercalate kept := by
    rw [String.toList_intercalate]
    exact (parsed_intercalate (List.forall_mem_map.mpr h)).trans
      (by rw [List.map_map]; rfl)
  rw [textarea, hparsed, afterTag_intercalate hkept,
    flatMap_submitted_intercalate hkept, ← String.toList_inj,
    String.toList_ofList, String.toList_intercalate, List.map_map]
  congr 1
  exact List.map_congr_left fun line _ => String.toList_ofList.symm

end Html
