import Mathlib.Algebra.BigOperators.Group.List.Basic
import Mathlib.Algebra.Order.BigOperators.Group.List
import Mathlib.Algebra.Order.Ring.Rat
import Mathlib.Data.List.Nodup

/-! # Tables with a unique key

Rows in insertion order with a unique column, inserted or updated by that
column, and sums of row weights.
-/

namespace Foundation

variable {ρ κ α : Type*}

/-- Rows with pairwise distinct keys. -/
structure Table (key : ρ → κ) where
  rows : List ρ
  nodup : (rows.map key).Nodup

namespace Table

variable {key : ρ → κ}

def empty : Table key := ⟨[], List.nodup_nil⟩

section Keys

variable [DecidableEq κ]

def find? (t : Table key) (k : κ) : Option ρ := t.rows.find? fun row => key row = k

/-- `INSERT`; nothing when the key is taken. -/
def insert? (t : Table key) (row : ρ) : Option (Table key) :=
  if hkey : key row ∈ t.rows.map key then none
  else some ⟨t.rows ++ [row], by
    rw [List.map_append, List.map_singleton]
    exact List.nodup_append.mpr ⟨t.nodup, List.nodup_singleton _, fun a ha b hb hab =>
      hkey (List.mem_singleton.mp hb ▸ hab ▸ ha)⟩⟩

/-- `INSERT … ON CONFLICT DO NOTHING`. -/
def insertOrIgnore (t : Table key) (row : ρ) : Table key := (t.insert? row).getD t

theorem map_ite_change {f : ρ → α} {change : ρ → ρ} (hf : ∀ row, f (change row) = f row)
    (p : ρ → Bool) (rows : List ρ) :
    (rows.map fun row => if p row then change row else row).map f = rows.map f := by
  rw [List.map_map]
  refine List.map_congr_left fun row _ => ?_
  simp only [Function.comp_apply]
  split
  next => exact hf row
  next => rfl

/-- `UPDATE … WHERE key = k`, by a change that keeps the key. -/
def update (t : Table key) (k : κ) (change : ρ → ρ) (hchange : ∀ row, key (change row) = key row) :
    Table key where
  rows := t.rows.map fun row => if key row = k then change row else row
  nodup := by
    have hkeys := map_ite_change hchange (fun row => decide (key row = k)) t.rows
    simp only [decide_eq_true_eq] at hkeys
    rw [hkeys]
    exact t.nodup

/-- `UPDATE … WHERE p`, by a change that keeps the key. -/
def updateWhere (t : Table key) (p : ρ → Bool) (change : ρ → ρ)
    (hchange : ∀ row, key (change row) = key row) : Table key where
  rows := t.rows.map fun row => if p row then change row else row
  nodup := by
    rw [map_ite_change hchange]
    exact t.nodup

theorem find?_eq_some {t : Table key} {k : κ} {row : ρ} :
    t.find? k = some row ↔ row ∈ t.rows ∧ key row = k := by
  constructor
  · intro hfind
    have hkey := List.find?_some hfind
    exact ⟨List.mem_of_find?_eq_some hfind, by simpa using hkey⟩
  · rintro ⟨hmem, rfl⟩
    cases hfind : t.find? (key row) with
    | none =>
        have hnone := List.find?_eq_none.mp hfind row hmem
        simp at hnone
    | some other =>
        have hkey : key other = key row := by simpa using List.find?_some hfind
        rw [List.inj_on_of_nodup_map t.nodup (List.mem_of_find?_eq_some hfind) hmem hkey]

theorem find?_eq_none {t : Table key} {k : κ} :
    t.find? k = none ↔ ∀ row ∈ t.rows, key row ≠ k := by
  simp [find?]

theorem insert?_eq_some {t t' : Table key} {row : ρ} :
    t.insert? row = some t' ↔ key row ∉ t.rows.map key ∧ t'.rows = t.rows ++ [row] := by
  obtain ⟨rows', hrows'⟩ := t'
  unfold insert?
  split
  next hkey => simp [hkey]
  next hkey =>
    simp only [Option.some.injEq, mk.injEq, hkey, not_false_eq_true, true_and]
    exact eq_comm

theorem find?_insert? {t t' : Table key} {row : ρ} (hinsert : t.insert? row = some t') (k : κ) :
    t'.find? k = if key row = k then some row else t.find? k := by
  obtain ⟨hkey, hrows⟩ := insert?_eq_some.mp hinsert
  unfold find?
  rw [hrows, List.find?_append]
  split
  next hk =>
    have hnone : t.rows.find? (fun other => key other = k) = none := by
      rw [List.find?_eq_none]
      intro other hother hother'
      have hkey' : key other = k := by simpa using hother'
      exact hkey (List.mem_map.mpr ⟨other, hother, hkey'.trans hk.symm⟩)
    simp [hnone, hk]
  next hk => simp [hk]

theorem insert?_eq_none {t : Table key} {row : ρ} :
    t.insert? row = none ↔ key row ∈ t.rows.map key := by
  unfold insert?
  split
  next hkey => simp [hkey]
  next hkey => simp [hkey]

theorem insertOrIgnore_of_mem {t : Table key} {row : ρ} (hkey : key row ∈ t.rows.map key) :
    t.insertOrIgnore row = t := by
  simp [insertOrIgnore, insert?, hkey]

theorem rows_insertOrIgnore {t : Table key} {row : ρ} (hkey : key row ∉ t.rows.map key) :
    (t.insertOrIgnore row).rows = t.rows ++ [row] := by
  simp [insertOrIgnore, insert?, hkey]

theorem mem_insertOrIgnore {t : Table key} {row other : ρ}
    (hmem : other ∈ (t.insertOrIgnore row).rows) : other ∈ t.rows ∨ other = row := by
  by_cases hkey : key row ∈ t.rows.map key
  · rw [insertOrIgnore_of_mem hkey] at hmem
    exact .inl hmem
  · rw [rows_insertOrIgnore hkey] at hmem
    simpa using hmem

theorem mem_insertOrIgnore_of_mem {t : Table key} {row other : ρ} (hmem : other ∈ t.rows) :
    other ∈ (t.insertOrIgnore row).rows := by
  by_cases hkey : key row ∈ t.rows.map key
  · rwa [insertOrIgnore_of_mem hkey]
  · rw [rows_insertOrIgnore hkey]
    exact List.mem_append_left _ hmem

theorem mem_update {t : Table key} {k : κ} {change : ρ → ρ}
    {hchange : ∀ row, key (change row) = key row} {row : ρ} :
    row ∈ (t.update k change hchange).rows ↔
      (∃ old ∈ t.rows, key old = k ∧ row = change old) ∨ (row ∈ t.rows ∧ key row ≠ k) := by
  simp only [update, List.mem_map]
  constructor
  · rintro ⟨old, hold, rfl⟩
    by_cases hk : key old = k
    · exact .inl ⟨old, hold, hk, by rw [if_pos hk]⟩
    · exact .inr ⟨by rwa [if_neg hk], by rwa [if_neg hk]⟩
  · rintro (⟨old, hold, hk, rfl⟩ | ⟨hrow, hk⟩)
    · exact ⟨old, hold, by rw [if_pos hk]⟩
    · exact ⟨row, hrow, by rw [if_neg hk]⟩

theorem find?_update {t : Table key} {k : κ} {change : ρ → ρ}
    (hchange : ∀ row, key (change row) = key row) (k' : κ) :
    (t.update k change hchange).find? k' =
      (t.find? k').map fun row => if k' = k then change row else row := by
  cases hfind : t.find? k' with
  | none =>
      rw [Option.map_none, find?_eq_none]
      rw [find?_eq_none] at hfind
      intro row hrow
      obtain ⟨old, hold, -, rfl⟩ | ⟨hold, -⟩ := mem_update.mp hrow
      · rw [hchange]
        exact hfind old hold
      · exact hfind row hold
  | some row =>
      rw [Option.map_some, find?_eq_some]
      obtain ⟨hrow, rfl⟩ := find?_eq_some.mp hfind
      split
      next hk => exact ⟨mem_update.mpr (.inl ⟨row, hrow, hk, rfl⟩), hchange row⟩
      next hk => exact ⟨mem_update.mpr (.inr ⟨hrow, hk⟩), rfl⟩

end Keys

/-! ## Sums over rows -/

/-- The sum of a weight over all rows. -/
def total (t : Table key) (weight : ρ → ℚ) : ℚ := (t.rows.map weight).sum

theorem total_mono {t : Table key} {weight weight' : ρ → ℚ}
    (hle : ∀ row ∈ t.rows, weight row ≤ weight' row) : t.total weight ≤ t.total weight' :=
  List.sum_le_sum hle

theorem total_filter (t : Table key) (p : ρ → Prop) [DecidablePred p] (weight : ρ → ℚ) :
    ((t.rows.filter fun row => p row).map weight).sum =
      t.total fun row => if p row then weight row else 0 := by
  unfold total
  induction t.rows with
  | nil => rfl
  | cons row rows ih =>
      by_cases hrow : p row
      · simp [hrow, ih]
      · simp [hrow, ih]

/-- Entries with distinct identifiers, each covered by the row under its identifier,
sum to no more than the rows do. -/
theorem sum_le_total {t : Table key} {weight : ρ → ℚ} (hweight : ∀ row ∈ t.rows, 0 ≤ weight row)
    {entries : List α} {id : α → κ} {amount : α → ℚ} (hnodup : (entries.map id).Nodup)
    (hcovered : ∀ entry ∈ entries, ∃ row ∈ t.rows, key row = id entry ∧
      amount entry ≤ weight row) : (entries.map amount).sum ≤ t.total weight := by
  classical
  unfold total
  revert hcovered hweight
  generalize t.rows = rows
  intro hweight hcovered
  -- Each entry takes its row away from the rest.
  induction entries generalizing rows with
  | nil =>
      simpa using List.sum_nonneg (by simpa using hweight)
  | cons entry entries ih =>
      simp only [List.map_cons, List.nodup_cons] at hnodup
      obtain ⟨row, hrow, hkey, hle⟩ := hcovered entry List.mem_cons_self
      have hrest := ih hnodup.2 (rows.erase row)
        (fun other hother => hweight other (List.mem_of_mem_erase hother)) ?_
      · rw [← List.sum_map_erase weight hrow, List.map_cons, List.sum_cons]
        exact add_le_add hle hrest
      · intro other hother
        obtain ⟨row', hrow', hkey', hle'⟩ := hcovered other (List.mem_cons_of_mem _ hother)
        refine ⟨row', (List.mem_erase_of_ne ?_).mpr hrow', hkey', hle'⟩
        rintro rfl
        exact hnodup.1 (List.mem_map.mpr ⟨other, hother, hkey'.symm.trans hkey⟩)

variable [DecidableEq κ]

theorem total_insertOrIgnore_le {t : Table key} {row : ρ} {weight : ρ → ℚ}
    (hweight : 0 ≤ weight row) :
    (t.insertOrIgnore row).total weight ≤ t.total weight + weight row := by
  by_cases hkey : key row ∈ t.rows.map key
  · rw [insertOrIgnore_of_mem hkey]
    exact le_add_of_nonneg_right hweight
  · simp [total, rows_insertOrIgnore hkey]

theorem total_update_le {t : Table key} {k : κ} {change : ρ → ρ}
    (hchange : ∀ row, key (change row) = key row) {weight : ρ → ℚ}
    (hle : ∀ row ∈ t.rows, key row = k → weight (change row) ≤ weight row) :
    (t.update k change hchange).total weight ≤ t.total weight := by
  simp only [total, update, List.map_map]
  refine List.sum_le_sum fun row hrow => ?_
  simp only [Function.comp_apply]
  split
  next hk => exact hle row hrow hk
  next => exact le_rfl

end Table

end Foundation
