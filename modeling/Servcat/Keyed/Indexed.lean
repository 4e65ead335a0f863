/-
Tables with a unique index besides the primary key.
-/
import Servcat.Keyed.Table

namespace Keyed

variable {κ ν α : Type}

structure Indexed (key : α → κ) (index : α → ν) extends Table key where
  distinct : (rows.map index).Nodup

namespace Indexed

variable {key : α → κ} {index : α → ν}

def empty : Indexed key index :=
  ⟨.empty, List.nodup_nil⟩

@[simp] theorem rows_empty : (empty : Indexed key index).rows = [] :=
  rfl

/-- The rows by their index. -/
def byIndex (t : Indexed key index) : Table index :=
  ⟨t.rows, t.distinct⟩

/-- `f` changes rows and keeps their key and their index. -/
structure Keeps (key : α → κ) (index : α → ν) (f : α → α) : Prop where
  key : ∀ row, key (f row) = key row
  index : ∀ row, index (f row) = index row

/-- Change every row. -/
def rewrite (t : Indexed key index) (f : α → α) (hf : Keeps key index f) :
    Indexed key index :=
  ⟨⟨t.rows.map f, by
      rw [List.map_map, show key ∘ f = key from funext hf.key]
      exact t.nodup⟩, by
    rw [List.map_map, show index ∘ f = index from funext hf.index]
    exact t.distinct⟩

theorem eq_of_index {t : Indexed key index} {row row' : α} (hrow : row ∈ t.rows)
    (hrow' : row' ∈ t.rows) (h : index row = index row') : row = row' :=
  List.inj_on_of_nodup_map t.distinct hrow hrow' h

variable [DecidableEq ν]

def lookup? (t : Indexed key index) (i : ν) : Option α :=
  t.byIndex.find? i

theorem lookup?_eq_some_iff {t : Indexed key index} {i : ν} {row : α} :
    t.lookup? i = some row ↔ row ∈ t.rows ∧ index row = i :=
  Table.find?_eq_some_iff

variable [DecidableEq κ]

/-- A row whose key or index is taken is refused. -/
def insert? (t : Indexed key index) (row : α) : Option (Indexed key index) :=
  if h : key row ∉ t.rows.map key ∧ index row ∉ t.rows.map index then
    some ⟨⟨t.rows ++ [row], by
        rw [List.map_append, List.map_singleton, List.nodup_append_comm,
          List.singleton_append, List.nodup_cons]
        exact ⟨h.1, t.nodup⟩⟩, by
      rw [List.map_append, List.map_singleton, List.nodup_append_comm,
        List.singleton_append, List.nodup_cons]
      exact ⟨h.2, t.distinct⟩⟩
  else none

theorem fresh_insert {t u : Indexed key index} {row : α}
    (h : t.insert? row = some u) : ∀ old ∈ t.rows, key old ≠ key row := by
  unfold insert? at h
  split at h
  · rename_i hfresh
    exact fun old hold heq => hfresh.1 (List.mem_map.mpr ⟨old, hold, heq⟩)
  · cases h

theorem rows_insert {t u : Indexed key index} {row : α}
    (h : t.insert? row = some u) : u.rows = t.rows ++ [row] := by
  unfold insert? at h
  split at h
  · cases h
    rfl
  · cases h

theorem mem_insert {t u : Indexed key index} {row other : α}
    (h : t.insert? row = some u) :
    other ∈ u.rows ↔ other ∈ t.rows ∨ other = row := by
  rw [rows_insert h, List.mem_append, List.mem_singleton]

end Indexed

end Keyed
