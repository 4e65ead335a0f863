/-
Tables with a primary key.  A table carries the proof that its keys are
distinct, so a lookup by key and membership among the rows are the same thing.
-/
import Mathlib.Data.List.Nodup

namespace Keyed

variable {κ α : Type}

/-- The rows in order of insertion. -/
structure Table (key : α → κ) where
  rows : List α
  nodup : (rows.map key).Nodup

namespace Table

variable {key : α → κ}

@[ext] theorem ext {t u : Table key} (h : t.rows = u.rows) : t = u := by
  cases t
  cases u
  simp only at h
  subst h
  rfl

def empty : Table key :=
  ⟨[], List.nodup_nil⟩

@[simp] theorem rows_empty : (empty : Table key).rows = [] :=
  rfl

variable [DecidableEq κ]

def find? (t : Table key) (k : κ) : Option α :=
  t.rows.find? fun row => key row = k

/-- A row whose key is taken is refused. -/
def insert? (t : Table key) (row : α) : Option (Table key) :=
  if h : key row ∈ t.rows.map key then none
  else some ⟨t.rows ++ [row], by
    rw [List.map_append, List.map_singleton, List.nodup_append_comm,
      List.singleton_append, List.nodup_cons]
    exact ⟨h, t.nodup⟩⟩

/-- Change the row with key `k` by a function that keeps keys. -/
def modify (t : Table key) (k : κ) (f : α → α)
    (hf : ∀ row, key (f row) = key row) :
    Table key :=
  ⟨t.rows.map fun row => if key row = k then f row else row, by
    have hkeys :
        key ∘ (fun row => if key row = k then f row else row) = key := by
      funext row
      by_cases h : key row = k <;> simp [h, hf]
    rw [List.map_map, hkeys]
    exact t.nodup⟩

theorem find?_eq_some_iff {t : Table key} {k : κ} {row : α} :
    t.find? k = some row ↔ row ∈ t.rows ∧ key row = k := by
  constructor
  · intro h
    exact ⟨List.mem_of_find?_eq_some h, by simpa using List.find?_some h⟩
  · rintro ⟨hmem, hkey⟩
    cases hfound : t.find? k with
    | none =>
        have hnone := List.find?_eq_none.mp hfound row hmem
        simp [hkey] at hnone
    | some other =>
        have hother : key other = k := by simpa using List.find?_some hfound
        have heq : other = row := List.inj_on_of_nodup_map t.nodup
          (List.mem_of_find?_eq_some hfound) hmem (hother.trans hkey.symm)
        rw [heq]

theorem key_of_find? {t : Table key} {k : κ} {row : α}
    (h : t.find? k = some row) : key row = k :=
  (find?_eq_some_iff.mp h).2

theorem mem_of_find? {t : Table key} {k : κ} {row : α}
    (h : t.find? k = some row) : row ∈ t.rows :=
  (find?_eq_some_iff.mp h).1

theorem find?_of_mem {t : Table key} {row : α} (h : row ∈ t.rows) :
    t.find? (key row) = some row :=
  find?_eq_some_iff.mpr ⟨h, rfl⟩

@[simp] theorem find?_empty (k : κ) : (empty : Table key).find? k = none :=
  rfl

theorem insert?_eq_some_iff {t u : Table key} {row : α} :
    t.insert? row = some u ↔
      t.find? (key row) = none ∧ u.rows = t.rows ++ [row] := by
  have hfresh : t.find? (key row) = none ↔ key row ∉ t.rows.map key := by
    simp [find?]
  unfold insert?
  by_cases h : key row ∈ t.rows.map key
  · simp [h, hfresh]
  · simp only [h, hfresh, ↓reduceDIte, not_false_eq_true, true_and,
      Option.some.injEq]
    exact ⟨fun heq => heq ▸ rfl, fun heq => ext heq.symm⟩

theorem exists_insert? {t : Table key} (row : α)
    (h : t.find? (key row) = none) : ∃ u, t.insert? row = some u := by
  have hnot : key row ∉ t.rows.map key := by simpa [find?] using h
  exact ⟨_, dif_neg hnot⟩

theorem find?_insert {t u : Table key} {row : α} (h : t.insert? row = some u)
    (k : κ) : u.find? k = if k = key row then some row else t.find? k := by
  obtain ⟨hfresh, hrows⟩ := insert?_eq_some_iff.mp h
  by_cases hk : k = key row
  · subst hk
    have hnone : t.rows.find? (fun r => decide (key r = key row)) =
        none := hfresh
    simp [find?, hrows, hnone]
  · simp [find?, hrows, hk, Ne.symm hk]

theorem find?_inserted {t u : Table key} {row : α}
    (h : t.insert? row = some u) : u.find? (key row) = some row := by
  rw [find?_insert h, if_pos rfl]

/-- The rows that were there stay. -/
theorem find?_insert_of_some {t u : Table key} {row other : α} {k : κ}
    (h : t.insert? row = some u) (hother : t.find? k = some other) :
    u.find? k = some other := by
  rw [find?_insert h, if_neg fun heq => ?_]
  · exact hother
  · rw [heq, (insert?_eq_some_iff.mp h).1] at hother
    cases hother

/-- The keys of rows that were appended were not there before. -/
theorem find?_appended {t u : Table key} {rows : List α} {row : α}
    (h : u.rows = t.rows ++ rows) (hrow : row ∈ rows) :
    t.find? (key row) = none := by
  have hnodup := u.nodup
  rw [h, List.map_append] at hnodup
  cases hfound : t.find? (key row) with
  | none => rfl
  | some old =>
      obtain ⟨hold, hkey⟩ := find?_eq_some_iff.mp hfound
      exact absurd hkey ((List.nodup_append.mp hnodup).2.2
        _ (List.mem_map_of_mem hold) _ (List.mem_map_of_mem hrow))

theorem mem_insert {t u : Table key} {row other : α}
    (h : t.insert? row = some u) :
    other ∈ u.rows ↔ other ∈ t.rows ∨ other = row := by
  rw [(insert?_eq_some_iff.mp h).2, List.mem_append, List.mem_singleton]

theorem find?_modify (t : Table key) (k : κ) (f : α → α)
    (hf : ∀ row, key (f row) = key row) (k' : κ) :
    (t.modify k f hf).find? k' =
      if k' = k then (t.find? k').map f else t.find? k' := by
  have hkeys : (fun row => decide (key row = k')) ∘
      (fun row => if key row = k then f row else row) =
        fun row => decide (key row = k') := by
    funext row
    by_cases h : key row = k <;> simp [h, hf]
  simp only [find?, modify, List.find?_map, hkeys]
  cases hfound : t.rows.find? (fun row => decide (key row = k')) with
  | none => simp
  | some row =>
      have hkey : key row = k' := by simpa using List.find?_some hfound
      by_cases h : k' = k <;> simp [hkey, h]

theorem modify_eq_self {t : Table key} {k : κ} {f : α → α}
    {hf : ∀ row, key (f row) = key row}
    (h : ∀ row, t.find? k = some row → f row = row) :
    t.modify k f hf = t := by
  refine ext ((List.map_congr_left fun row hrow => ?_).trans
    (List.map_id t.rows))
  by_cases hk : key row = k
  · simp only [hk, ↓reduceIte, id_eq]
    exact h row (hk ▸ find?_of_mem hrow)
  · simp [hk]

/-- Changing a row right after its insertion is inserting the changed row. -/
theorem insert?_modify {t u : Table key} {row : α} (h : t.insert? row = some u)
    (f : α → α) (hf : ∀ row, key (f row) = key row) :
    t.insert? (f row) = some (u.modify (key row) f hf) := by
  obtain ⟨hfresh, hrows⟩ := insert?_eq_some_iff.mp h
  refine insert?_eq_some_iff.mpr ⟨by rw [hf]; exact hfresh, ?_⟩
  have hold : ∀ r ∈ t.rows, key r ≠ key row := by
    simpa [find?] using hfresh
  have hmap :
      t.rows.map (fun r => if key r = key row then f r else r) = t.rows := by
    conv_rhs => rw [← List.map_id t.rows]
    exact List.map_congr_left fun r hr => by simp [hold r hr]
  simp [modify, hrows, hmap]

end Table

end Keyed
