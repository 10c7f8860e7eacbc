import Coivitas.Foundation.Paging

/-! # All pages of a table

A reader follows the cursors from page to page, where the cursor of a page is what its last
row is resumed at. A cursor at or before the last row leaves out no row; nothing is read twice
exactly when every cursor is the position of the row it was made from.
-/

namespace Foundation

variable {ρ κ : Type*} [LinearOrder κ] (pos : ρ → κ) (resume : ρ → Option κ) (rows : List ρ)
  (limit : Nat)

/-- The pages read from the cursor on. One row more than the page is asked for, to learn
whether there is another page; it can be read when the last row has a cursor. -/
inductive Pages : Option κ → List (List ρ) → Prop
  | last {cursor : Option κ} (hlength : (page pos rows cursor (limit + 1)).length ≤ limit) :
      Pages cursor [page pos rows cursor (limit + 1)]
  | more {cursor : Option κ} {row : ρ} {next : κ} {rest : List (List ρ)}
      (hlength : limit < (page pos rows cursor (limit + 1)).length)
      (hlast : (page pos rows cursor limit).getLast? = some row)
      (hnext : resume row = some next) (hrest : Pages (some next) rest) :
      Pages cursor (page pos rows cursor limit :: rest)

/-- The rows in the order of their positions. -/
abbrev sorted : List ρ := rows.insertionSort fun a b => pos a ≤ pos b

variable {pos resume rows limit} {cursor : Option κ} {pages : List (List ρ)} {row : ρ}

theorem take_page (cursor : Option κ) : (page pos rows cursor (limit + 1)).take limit =
    page pos rows cursor limit := by
  rw [page, page, List.take_take, min_eq_left (Nat.le_succ limit)]

theorem pairwise_lt_sorted (hinj : ∀ a ∈ rows, ∀ b ∈ rows, pos a = pos b → a = b)
    (hnodup : rows.Nodup) : (sorted pos rows).Pairwise fun a b => pos a < pos b := by
  have hnodup' : (sorted pos rows).Pairwise fun a b => a ≠ b :=
    (List.perm_insertionSort _ rows).nodup_iff.mpr hnodup
  refine ((pairwise_sorted pos rows).and hnodup').imp_of_mem ?_
  intro a b ha hb hab
  refine lt_of_le_of_ne hab.1 fun heq => hab.2 ?_
  exact hinj a ((List.mem_insertionSort _).mp ha) b ((List.mem_insertionSort _).mp hb) heq

/-- Behind the row at an index are the rows with the indices behind it. -/
theorem filter_after_getElem {rows : List ρ} (hsorted : rows.Pairwise fun a b => pos a < pos b)
    {i : Nat} (hrow : rows[i]? = some row) :
    (rows.filter fun other => After (some (pos row)) (pos other)) = rows.drop (i + 1) := by
  induction rows generalizing i with
  | nil => simp at hrow
  | cons head tail ih =>
      rw [List.pairwise_cons] at hsorted
      cases i with
      | zero =>
          rw [List.getElem?_cons_zero, Option.some.injEq] at hrow
          subst hrow
          rw [List.filter_cons_of_neg (by simp), List.drop_succ_cons, List.drop_zero,
            List.filter_eq_self]
          intro other hother
          simpa using hsorted.1 other hother
      | succ i =>
          rw [List.getElem?_cons_succ] at hrow
          have hlt : pos head < pos row := hsorted.1 row (List.mem_of_getElem? hrow)
          rw [List.filter_cons_of_neg (by simpa using hlt.le), List.drop_succ_cons]
          exact ih hsorted.2 hrow

/-- A reader that resumes at the last row or before it leaves out no row behind its cursor. -/
theorem Pages.mem_flatten (hinj : ∀ a ∈ rows, ∀ b ∈ rows, pos a = pos b → a = b)
    (hresume : ∀ row ∈ rows, ∀ next ∈ resume row, next ≤ pos row)
    (hpages : Pages pos resume rows limit cursor pages) (hrow : row ∈ rows)
    (hafter : After cursor (pos row)) : row ∈ pages.flatten := by
  induction hpages with
  | @last cursor hlength =>
      rw [List.flatten_singleton]
      have hall : row ∈ (rows.filter fun row => After cursor (pos row)).insertionSort
          fun a b => pos a ≤ pos b := by
        rw [List.mem_insertionSort, List.mem_filter, decide_eq_true_eq]
        exact ⟨hrow, hafter⟩
      rw [page, List.length_take] at hlength
      rwa [page, List.take_of_length_le (by omega)]
  | @more cursor last next rest _ hlast hnext _ ih =>
      rw [List.flatten_cons, List.mem_append]
      obtain hpage | hlt := mem_page_or_lt hinj hlast hrow hafter
      · exact .inl hpage
      · right
        have hmem := (mem_of_mem_page (List.mem_of_getLast? hlast)).1
        exact ih (after_some.mpr ((hresume last hmem next hnext).trans_lt hlt))

/-- The rows that end a page with another page behind it are resumed at their own positions. -/
def ResumesExactly (pos : ρ → κ) (resume : ρ → Option κ) (sorted : List ρ) (limit : Nat) : Prop :=
  ∀ k row, (k + 1) * limit < sorted.length → sorted[(k + 1) * limit - 1]? = some row →
    resume row = some (pos row)

/-- A page behind the first rows is made of the rows that follow them. -/
theorem page_eq_take_drop (hinj : ∀ a ∈ rows, ∀ b ∈ rows, pos a = pos b → a = b) {start : Nat}
    (hstart : ((sorted pos rows).filter fun row => After cursor (pos row)) =
      (sorted pos rows).drop start) :
    page pos rows cursor limit = ((sorted pos rows).drop start).take limit := by
  rw [page_eq_take_filter hinj, hstart]

theorem getLast?_take_drop {rows : List ρ} {k : Nat} (hlimit : 1 ≤ limit)
    (hmore : (k + 1) * limit < rows.length) :
    ((rows.drop (k * limit)).take limit).getLast? = rows[(k + 1) * limit - 1]? := by
  have hmul : (k + 1) * limit = k * limit + limit := Nat.succ_mul k limit
  rw [List.getLast?_eq_getElem?, List.length_take, List.length_drop, min_eq_left (by omega),
    List.getElem?_take_of_lt (by omega), List.getElem?_drop]
  congr 1
  omega

/-- What is left behind the last row of a page, when that row is resumed at its position. -/
theorem filter_after_page (hinj : ∀ a ∈ rows, ∀ b ∈ rows, pos a = pos b → a = b)
    (hnodup : rows.Nodup) {k : Nat} (hlimit : 1 ≤ limit)
    (hrow : (sorted pos rows)[(k + 1) * limit - 1]? = some row) :
    ((sorted pos rows).filter fun other => After (some (pos row)) (pos other)) =
      (sorted pos rows).drop ((k + 1) * limit) := by
  rw [filter_after_getElem (pairwise_lt_sorted hinj hnodup) hrow, Nat.sub_add_cancel]
  exact Nat.mul_pos k.succ_pos hlimit

/-- From the start of a page on, exact cursors read the remaining rows in their order. -/
theorem exists_pages (hinj : ∀ a ∈ rows, ∀ b ∈ rows, pos a = pos b → a = b)
    (hnodup : rows.Nodup) (hlimit : 1 ≤ limit)
    (hexact : ResumesExactly pos resume (sorted pos rows) limit) (left k : Nat)
    (hleft : (sorted pos rows).length ≤ k * limit + left)
    (hstart : ((sorted pos rows).filter fun row => After cursor (pos row)) =
      (sorted pos rows).drop (k * limit)) :
    ∃ pages, Pages pos resume rows limit cursor pages ∧
      pages.flatten = (sorted pos rows).drop (k * limit) := by
  have hpage : ∀ limit', page pos rows cursor limit' =
      ((sorted pos rows).drop (k * limit)).take limit' := fun _ => page_eq_take_drop hinj hstart
  have hmul : (k + 1) * limit = k * limit + limit := Nat.succ_mul k limit
  induction left using Nat.strong_induction_on generalizing k cursor with
  | _ left ih =>
      by_cases hmore : (k + 1) * limit < (sorted pos rows).length
      · obtain ⟨row, hrow⟩ : ∃ row, (sorted pos rows)[(k + 1) * limit - 1]? = some row :=
          ⟨_, List.getElem?_eq_getElem (by omega)⟩
        obtain ⟨rest, hrest, hflatten⟩ := ih (left - limit) (by omega) (k + 1) (by omega)
          (filter_after_page hinj hnodup hlimit hrow)
          (fun _ => page_eq_take_drop hinj (filter_after_page hinj hnodup hlimit hrow))
          (Nat.succ_mul (k + 1) limit)
        refine ⟨_, .more ?_ ?_ (hexact k row hmore hrow) hrest, ?_⟩
        · rw [hpage, List.length_take, List.length_drop]
          omega
        · rw [hpage, getLast?_take_drop hlimit hmore, hrow]
        · rw [List.flatten_cons, hpage, hflatten, hmul, ← List.drop_drop, List.take_append_drop]
      · refine ⟨_, .last ?_, ?_⟩
        · rw [hpage, List.length_take, List.length_drop]
          omega
        · rw [List.flatten_singleton, hpage, List.take_of_length_le]
          rw [List.length_drop]
          omega

/-- A run that reads the remaining rows in their order has exact cursors: a cursor before the
last row of a page has that row read again. -/
theorem Pages.resumesExactly (hinj : ∀ a ∈ rows, ∀ b ∈ rows, pos a = pos b → a = b)
    (hnodup : rows.Nodup) (hlimit : 1 ≤ limit)
    (hresume : ∀ row ∈ rows, ∀ next ∈ resume row, next ≤ pos row)
    (hpages : Pages pos resume rows limit cursor pages) {k : Nat}
    (hstart : ((sorted pos rows).filter fun row => After cursor (pos row)) =
      (sorted pos rows).drop (k * limit))
    (hflatten : pages.flatten = (sorted pos rows).drop (k * limit)) :
    ∀ j row, k ≤ j → (j + 1) * limit < (sorted pos rows).length →
      (sorted pos rows)[(j + 1) * limit - 1]? = some row → resume row = some (pos row) := by
  have hmul : (k + 1) * limit = k * limit + limit := Nat.succ_mul k limit
  induction hpages generalizing k with
  | @last cursor hlength =>
      intro j row hj hmore
      rw [page_eq_take_drop hinj hstart, List.length_take, List.length_drop] at hlength
      have hmono : (k + 1) * limit ≤ (j + 1) * limit :=
        Nat.mul_le_mul_right limit (Nat.succ_le_succ hj)
      omega
  | @more cursor last next rest hlength hlast hnext hrest ih =>
      rw [page_eq_take_drop hinj hstart, List.length_take, List.length_drop] at hlength
      have hmore : (k + 1) * limit < (sorted pos rows).length := by omega
      rw [page_eq_take_drop hinj hstart, getLast?_take_drop hlimit hmore] at hlast
      have hmem : last ∈ rows := (List.mem_insertionSort _).mp (List.mem_of_getElem? hlast)
      have hrestflat : rest.flatten = (sorted pos rows).drop ((k + 1) * limit) := by
        rw [List.flatten_cons, page_eq_take_drop hinj hstart] at hflatten
        have hsplit := hflatten.trans (List.take_append_drop limit _).symm
        rw [List.append_cancel_left hsplit, List.drop_drop, hmul]
      -- the last row is not among the rows that remain, so the cursor is not before it
      have hexact : next = pos last := by
        refine (hresume last hmem next hnext).lt_or_eq.resolve_left fun hlt => ?_
        have hagain := hrest.mem_flatten hinj hresume hmem (after_some.mpr hlt)
        rw [hrestflat, ← filter_after_page hinj hnodup hlimit hlast, List.mem_filter] at hagain
        simp at hagain
      subst hexact
      intro j row hj hmorej hrow
      obtain rfl | hj := hj.eq_or_lt
      · rw [hlast, Option.some.injEq] at hrow
        rwa [← hrow]
      · exact ih (filter_after_page hinj hnodup hlimit hlast) hrestflat
          (Nat.succ_mul (k + 1) limit) j row hj hmorej hrow

/-- Reading page after page from the start ends and returns every row once and in its order,
exactly when the rows at the ends of the pages are resumed at their own positions. -/
theorem pages_exact_iff (hinj : ∀ a ∈ rows, ∀ b ∈ rows, pos a = pos b → a = b)
    (hnodup : rows.Nodup) (hlimit : 1 ≤ limit)
    (hresume : ∀ row ∈ rows, ∀ next ∈ resume row, next ≤ pos row) :
    (∃ pages, Pages pos resume rows limit none pages ∧ pages.flatten = sorted pos rows) ↔
      ResumesExactly pos resume (sorted pos rows) limit := by
  have hstart : ((sorted pos rows).filter fun row => After none (pos row)) =
      (sorted pos rows).drop (0 * limit) := by
    simp
  constructor
  · rintro ⟨pages, hpages, hflatten⟩ k row
    exact hpages.resumesExactly hinj hnodup hlimit hresume hstart (by simpa using hflatten) k row
      k.zero_le
  · intro hexact
    obtain ⟨pages, hpages, hflatten⟩ := exists_pages hinj hnodup hlimit hexact
      (sorted pos rows).length 0 (by omega) hstart
    exact ⟨pages, hpages, by simpa using hflatten⟩

end Foundation
