import Mathlib.Data.List.Nodup
import Mathlib.Data.List.Sort
import Mathlib.Order.Lattice

/-! # Reading rows in pages

Rows are read in the order of their positions, a page at a time, each page
strictly after a cursor. A page leaves out no row up to its last one.
-/

namespace Foundation

variable {ρ κ α : Type*} [LinearOrder κ] (pos : ρ → κ)

/-- Strictly after the cursor. Without a cursor everything is. -/
def After (cursor : Option κ) (k : κ) : Prop := ∀ c ∈ cursor, c < k

instance (cursor : Option κ) (k : κ) : Decidable (After cursor k) :=
  inferInstanceAs (Decidable (∀ c ∈ cursor, c < k))

/-- `WHERE pos > cursor ORDER BY pos LIMIT limit`. -/
def page (rows : List ρ) (cursor : Option κ) (limit : Nat) : List ρ :=
  ((rows.filter fun row => After cursor (pos row)).insertionSort
    fun a b => pos a ≤ pos b).take limit

@[simp]
theorem after_none (k : κ) : After none k := by
  simp [After]

@[simp]
theorem after_some {c k : κ} : After (some c) k ↔ c < k := by
  simp [After]

/-- What is not after the cursor is before everything that is. -/
theorem lt_of_after {cursor : Option κ} {j k : κ} (hj : ¬ After cursor j) (hk : After cursor k) :
    j < k := by
  cases cursor with
  | none => simp at hj
  | some c =>
      rw [after_some] at hj hk
      exact (not_lt.mp hj).trans_lt hk

variable {pos} {rows : List ρ} {cursor : Option κ} {limit : Nat} {row last : ρ}

theorem mem_of_mem_page (hrow : row ∈ page pos rows cursor limit) :
    row ∈ rows ∧ After cursor (pos row) := by
  have hsorted := List.mem_of_mem_take hrow
  rw [List.mem_insertionSort, List.mem_filter, decide_eq_true_eq] at hsorted
  exact hsorted

/-- Without a limit the page holds everything after the cursor. -/
theorem exists_mem_page_iff :
    (∃ limit, row ∈ page pos rows cursor limit) ↔ row ∈ rows ∧ After cursor (pos row) := by
  constructor
  · rintro ⟨limit, hrow⟩
    exact mem_of_mem_page hrow
  · rintro ⟨hrow, hafter⟩
    refine ⟨rows.length, ?_⟩
    have hlength : ((rows.filter fun row => After cursor (pos row)).insertionSort
        fun a b => pos a ≤ pos b).length ≤ rows.length := by
      rw [List.length_insertionSort]
      exact List.length_filter_le _ _
    rw [page, List.take_of_length_le hlength, List.mem_insertionSort, List.mem_filter,
      decide_eq_true_eq]
    exact ⟨hrow, hafter⟩

theorem pairwise_sorted (pos : ρ → κ) (rows : List ρ) :
    (rows.insertionSort fun a b => pos a ≤ pos b).Pairwise fun a b => pos a ≤ pos b := by
  have htotal : Std.Total fun a b : ρ => pos a ≤ pos b := ⟨fun a b => le_total (pos a) (pos b)⟩
  have htrans : IsTrans ρ fun a b => pos a ≤ pos b := ⟨fun _ _ _ => le_trans⟩
  exact List.pairwise_insertionSort _ rows

/-- A page starts with the least row after the cursor. -/
theorem head_le_of_page {first : ρ} {rest : List ρ}
    (hpage : page pos rows cursor limit = first :: rest) (hrow : row ∈ rows)
    (hafter : After cursor (pos row)) : pos first ≤ pos row := by
  have hsorted := pairwise_sorted pos (rows.filter fun row => After cursor (pos row))
  have hmem : row ∈ (rows.filter fun row => After cursor (pos row)).insertionSort
      fun a b => pos a ≤ pos b := by
    rw [List.mem_insertionSort, List.mem_filter, decide_eq_true_eq]
    exact ⟨hrow, hafter⟩
  have hprefix := List.take_prefix limit
    ((rows.filter fun row => After cursor (pos row)).insertionSort fun a b => pos a ≤ pos b)
  rw [page] at hpage
  rw [hpage] at hprefix
  obtain ⟨tail, htail⟩ := hprefix
  rw [← htail] at hsorted hmem
  rcases List.mem_cons.mp hmem with rfl | htailmem
  · exact le_refl _
  · exact (List.pairwise_cons.mp hsorted).1 row htailmem

theorem le_last_of_mem_page (hlast : (page pos rows cursor limit).getLast? = some last)
    (hrow : row ∈ page pos rows cursor limit) : pos row ≤ pos last := by
  obtain ⟨front, hfront⟩ := List.getLast?_eq_some_iff.mp hlast
  have hsorted : (page pos rows cursor limit).Pairwise fun a b => pos a ≤ pos b :=
    (pairwise_sorted pos _).sublist (List.take_sublist _ _)
  rw [hfront] at hrow hsorted
  obtain hrow | hrow := List.mem_append.mp hrow
  · exact (List.pairwise_append.mp hsorted).2.2 row hrow last (List.mem_singleton.mpr rfl)
  · rw [List.mem_singleton.mp hrow]

/-- A row after the cursor is on the page or strictly after the last row of it. -/
theorem mem_page_or_lt (hinj : ∀ a ∈ rows, ∀ b ∈ rows, pos a = pos b → a = b)
    (hlast : (page pos rows cursor limit).getLast? = some last) (hrow : row ∈ rows)
    (hafter : After cursor (pos row)) :
    row ∈ page pos rows cursor limit ∨ pos last < pos row := by
  by_cases hmem : row ∈ page pos rows cursor limit
  · exact .inl hmem
  · right
    have hlastmem := List.mem_of_getLast? hlast
    have hsorted := pairwise_sorted pos
      (rows.filter fun row => After cursor (pos row))
    have hrow' : row ∈ (rows.filter fun row => After cursor (pos row)).insertionSort
        fun a b => pos a ≤ pos b := by
      rw [List.mem_insertionSort, List.mem_filter, decide_eq_true_eq]
      exact ⟨hrow, hafter⟩
    rw [← List.take_append_drop limit (List.insertionSort _ _)] at hrow' hsorted
    have hdrop := (List.mem_append.mp hrow').resolve_left hmem
    have hle := (List.pairwise_append.mp hsorted).2.2 last hlastmem row hdrop
    refine lt_of_le_of_ne hle fun heq => hmem ?_
    rw [← hinj last (mem_of_mem_page hlastmem).1 row hrow heq]
    exact hlastmem

theorem nodup_map_page {key : ρ → α} (hnodup : (rows.map key).Nodup) :
    ((page pos rows cursor limit).map key).Nodup := by
  have hfilter : ((rows.filter fun row => After cursor (pos row)).map key).Nodup :=
    hnodup.sublist (List.filter_sublist.map key)
  have hsorted := ((List.perm_insertionSort (fun a b => pos a ≤ pos b) _).map key).nodup_iff.mpr
    hfilter
  exact hsorted.sublist ((List.take_sublist _ _).map key)

/-! ## Pages of a sorted list -/

theorem orderedInsert_congr {r s : ρ → ρ → Prop} [DecidableRel r] [DecidableRel s] {a : ρ}
    {rows : List ρ} (hrel : ∀ b ∈ rows, r a b ↔ s a b) :
    rows.orderedInsert r a = rows.orderedInsert s a := by
  induction rows with
  | nil => rfl
  | cons b rows ih =>
      rw [List.forall_mem_cons] at hrel
      simp only [List.orderedInsert_cons, hrel.1, ih hrel.2]

/-- Sorting compares a row only with the rows behind it. -/
theorem insertionSort_congr {r s : ρ → ρ → Prop} [DecidableRel r] [DecidableRel s]
    (hrel : rows.Pairwise fun a b => r a b ↔ s a b) :
    rows.insertionSort r = rows.insertionSort s := by
  induction rows with
  | nil => rfl
  | cons a rows ih =>
      rw [List.pairwise_cons] at hrel
      rw [List.insertionSort_cons, List.insertionSort_cons, ih hrel.2]
      exact orderedInsert_congr fun b hb => hrel.1 b ((List.mem_insertionSort s).mp hb)

/-- Selecting and sorting by distinct positions commute. -/
theorem insertionSort_filter (hinj : ∀ a ∈ rows, ∀ b ∈ rows, pos a = pos b → a = b)
    (p : ρ → Bool) :
    (rows.filter p).insertionSort (fun a b => pos a ≤ pos b) =
      (rows.insertionSort fun a b => pos a ≤ pos b).filter p := by
  refine @List.Perm.eq_of_pairwise _ (fun a b => pos a ≤ pos b) _ _ ?_ (pairwise_sorted pos _)
    ((pairwise_sorted pos rows).sublist List.filter_sublist) ?_
  · intro a b ha hb hab hba
    rw [List.mem_insertionSort, List.mem_filter] at ha
    rw [List.mem_filter, List.mem_insertionSort] at hb
    exact hinj a ha.1 b hb.1 (le_antisymm hab hba)
  · exact (List.perm_insertionSort _ _).trans ((List.perm_insertionSort _ _).filter p).symm

theorem page_eq_take_filter (hinj : ∀ a ∈ rows, ∀ b ∈ rows, pos a = pos b → a = b) :
    page pos rows cursor limit = ((rows.insertionSort fun a b => pos a ≤ pos b).filter
      fun row => After cursor (pos row)).take limit := by
  rw [page, insertionSort_filter hinj]

/-- After the last of the first rows of a sorted list come the others. -/
theorem filter_after_take {l : List ρ} (hsorted : l.Pairwise fun a b => pos a < pos b) (k : Nat) :
    l.filter (fun row => After ((l.take k).getLast?.map pos) (pos row)) = l.drop k := by
  have hsplit := List.take_append_drop k l
  rw [← hsplit, List.pairwise_append] at hsorted
  obtain ⟨htake, -, hacross⟩ := hsorted
  have hbefore : (l.take k).filter
      (fun row => After ((l.take k).getLast?.map pos) (pos row)) = [] := by
    refine List.filter_eq_nil_iff.mpr fun row hrow => ?_
    obtain ⟨last, hlast⟩ := List.getLast?_isSome.mpr (List.ne_nil_of_mem hrow) |>
      Option.isSome_iff_exists.mp
    obtain ⟨front, hfront⟩ := List.getLast?_eq_some_iff.mp hlast
    have hle : pos row ≤ pos last := by
      rw [hfront, List.pairwise_append] at htake
      rw [hfront] at hrow
      rcases List.mem_append.mp hrow with hfrontmem | hlastmem
      · exact (htake.2.2 row hfrontmem last (List.mem_singleton.mpr rfl)).le
      · rw [List.mem_singleton.mp hlastmem]
    rw [hlast, Option.map_some, decide_eq_true_eq, after_some]
    exact hle.not_gt
  have hafter : (l.drop k).filter
      (fun row => After ((l.take k).getLast?.map pos) (pos row)) = l.drop k := by
    refine List.filter_eq_self.mpr fun row hrow => decide_eq_true fun c hc => ?_
    obtain ⟨last, hlast, rfl⟩ := Option.map_eq_some_iff.mp hc
    exact hacross last (List.mem_of_getLast? hlast) row hrow
  calc l.filter (fun row => After ((l.take k).getLast?.map pos) (pos row))
      = (l.take k ++ l.drop k).filter
          (fun row => After ((l.take k).getLast?.map pos) (pos row)) := by rw [hsplit]
    _ = l.drop k := by rw [List.filter_append, hbefore, hafter, List.nil_append]

/-- What is selected is a front part, if what is before a selected row is selected. -/
theorem filter_prefix {p : ρ → Bool} (hdown : rows.Pairwise fun a b => p b → p a) :
    rows.filter p <+: rows := by
  induction rows with
  | nil => exact List.nil_prefix
  | cons a rows ih =>
      rw [List.pairwise_cons] at hdown
      cases ha : p a with
      | true =>
          rw [List.filter_cons_of_pos ha, List.prefix_cons_inj]
          exact ih hdown.2
      | false =>
          have hnone : rows.filter p = [] := by
            rw [List.filter_eq_nil_iff]
            intro b hb hpb
            rw [hdown.1 b hb hpb] at ha
            cases ha
          rw [List.filter_cons_of_neg (by simp [ha]), hnone]
          exact List.nil_prefix

end Foundation
