import Mathlib.Data.List.Nodup
import Mathlib.Data.List.Basic

/-! # Maps that keep insertion order

A map enumerates its entries in the order their keys were first set; setting a
key again replaces its value in place.
-/

namespace Foundation

/-- Entries in insertion order, at most one for each key. -/
structure OrderedMap (κ ν : Type*) where
  entries : List (κ × ν)
  nodup : (entries.map Prod.fst).Nodup

namespace OrderedMap

variable {κ ν α : Type*} [DecidableEq κ]

def empty : OrderedMap κ ν := ⟨[], List.nodup_nil⟩

def lookupList (key : κ) : List (κ × ν) → Option ν
  | [] => none
  | (k, v) :: rest => if k = key then some v else lookupList key rest

def setList (key : κ) (value : ν) : List (κ × ν) → List (κ × ν)
  | [] => [(key, value)]
  | (k, v) :: rest => if k = key then (key, value) :: rest else (k, v) :: setList key value rest

theorem map_fst_setList (key : κ) (value : ν) (l : List (κ × ν)) :
    (setList key value l).map Prod.fst =
      if key ∈ l.map Prod.fst then l.map Prod.fst else l.map Prod.fst ++ [key] := by
  induction l with
  | nil => simp [setList]
  | cons entry rest ih =>
      obtain ⟨k, v⟩ := entry
      by_cases hk : k = key
      · simp [setList, hk]
      · have hne : ¬ key = k := fun h => hk h.symm
        simp only [setList, if_neg hk, List.map_cons, ih, List.mem_cons, hne, false_or]
        split <;> simp

def get? (m : OrderedMap κ ν) (key : κ) : Option ν := lookupList key m.entries

def has (m : OrderedMap κ ν) (key : κ) : Bool := (m.get? key).isSome

def set (m : OrderedMap κ ν) (key : κ) (value : ν) : OrderedMap κ ν where
  entries := setList key value m.entries
  nodup := by
    rw [map_fst_setList]
    split
    next => exact m.nodup
    next hkey =>
      refine List.nodup_append.mpr ⟨m.nodup, List.nodup_singleton _, ?_⟩
      intro a ha b hb hab
      rw [List.mem_singleton] at hb
      exact hkey (hb ▸ hab ▸ ha)

@[simp] theorem get?_empty (key : κ) : (empty : OrderedMap κ ν).get? key = none := rfl

theorem lookupList_setList (l : List (κ × ν)) (key key' : κ) (value : ν) :
    lookupList key' (setList key value l) =
      if key = key' then some value else lookupList key' l := by
  induction l with
  | nil => simp [setList, lookupList]
  | cons entry rest ih =>
      obtain ⟨k, v⟩ := entry
      by_cases hk : k = key
      · subst hk
        by_cases hkey : k = key' <;> simp [setList, lookupList, hkey]
      · simp only [setList, if_neg hk, lookupList, ih]
        split
        next hkey =>
          subst hkey
          rw [if_neg (fun h => hk h.symm)]
        next => rfl

theorem get?_set (m : OrderedMap κ ν) (key key' : κ) (value : ν) :
    (m.set key value).get? key' = if key = key' then some value else m.get? key' :=
  lookupList_setList m.entries key key' value

theorem setList_of_not_mem {l : List (κ × ν)} {key : κ} (hkey : key ∉ l.map Prod.fst) (value : ν) :
    setList key value l = l ++ [(key, value)] := by
  induction l with
  | nil => rfl
  | cons entry rest ih =>
      simp only [List.map_cons, List.mem_cons, not_or] at hkey
      have hne : ¬ entry.1 = key := fun heq => hkey.1 heq.symm
      simp [setList, hne, ih hkey.2]

theorem setList_eq_self {l : List (κ × ν)} {key : κ} {value : ν}
    (h : lookupList key l = some value) : setList key value l = l := by
  induction l with
  | nil => simp [lookupList] at h
  | cons entry rest ih =>
      obtain ⟨k, v⟩ := entry
      by_cases hk : k = key
      · rw [lookupList, if_pos hk, Option.some.injEq] at h
        rw [setList, if_pos hk, hk, h]
      · rw [lookupList, if_neg hk] at h
        rw [setList, if_neg hk, ih h]

/-- Setting a key to the value it has changes nothing. -/
theorem set_eq_self {m : OrderedMap κ ν} {key : κ} {value : ν} (h : m.get? key = some value) :
    m.set key value = m := by
  obtain ⟨entries, nodup⟩ := m
  simp only [set, OrderedMap.mk.injEq]
  exact setList_eq_self h

theorem mem_iff_lookupList {l : List (κ × ν)} (hnodup : (l.map Prod.fst).Nodup) (key : κ)
    (value : ν) : (key, value) ∈ l ↔ lookupList key l = some value := by
  induction l with
  | nil => simp [lookupList]
  | cons entry rest ih =>
      obtain ⟨k, v⟩ := entry
      simp only [List.map_cons, List.nodup_cons] at hnodup
      simp only [lookupList, List.mem_cons, Prod.mk.injEq]
      by_cases hk : k = key
      · subst hk
        have hnot : (k, value) ∉ rest := fun hmem => hnodup.1 (List.mem_map_of_mem hmem)
        simp [hnot, eq_comm]
      · have hne : ¬ key = k := fun h => hk h.symm
        simp [hk, hne, ih hnodup.2]

/-- An entry is what the map answers for its key. -/
theorem mem_entries_iff (m : OrderedMap κ ν) (key : κ) (value : ν) :
    (key, value) ∈ m.entries ↔ m.get? key = some value :=
  mem_iff_lookupList m.nodup key value

/-! ## Maps filled by a loop -/

/-- `for (const a of items) map.set(key(a), value(a))`. -/
def ofList (key : α → κ) (items : List α) : OrderedMap κ α :=
  items.foldl (fun m a => m.set (key a) a) empty

/-- `for (const a of items)`, push `value(a)` to the list under `key(a)`. -/
def groupBy (key : α → κ) (value : α → ν) (items : List α) : OrderedMap κ (List ν) :=
  items.foldl (fun m a => m.set (key a) ((m.get? (key a)).getD [] ++ [value a])) empty

theorem get?_groupBy (key : α → κ) (value : α → ν) (items : List α) (k : κ) :
    ((groupBy key value items).get? k).getD [] =
      (items.filter fun a => key a = k).map value := by
  unfold groupBy
  suffices hfold : ∀ m : OrderedMap κ (List ν),
      ((items.foldl (fun m a => m.set (key a) ((m.get? (key a)).getD [] ++ [value a])) m).get?
        k).getD [] = (m.get? k).getD [] ++ (items.filter fun a => key a = k).map value by
    simpa using hfold empty
  induction items with
  | nil => simp
  | cons a rest ih =>
      intro m
      rw [List.foldl_cons, ih, get?_set]
      by_cases hk : key a = k
      · simp [hk]
      · simp [hk]

theorem get?_groupBy_isSome (key : α → κ) (value : α → ν) (items : List α) (k : κ) :
    ((groupBy key value items).get? k).isSome ↔ ∃ a ∈ items, key a = k := by
  unfold groupBy
  suffices hfold : ∀ m : OrderedMap κ (List ν),
      ((items.foldl (fun m a => m.set (key a) ((m.get? (key a)).getD [] ++ [value a])) m).get?
        k).isSome ↔ (m.get? k).isSome ∨ ∃ a ∈ items, key a = k by
    simpa using hfold empty
  induction items with
  | nil => simp
  | cons a rest ih =>
      intro m
      rw [List.foldl_cons, ih, get?_set]
      by_cases hk : key a = k
      · simp [hk]
      · simp [hk]

theorem get?_groupBy_eq_some (key : α → κ) (value : α → ν) (items : List α) (k : κ)
    (l : List ν) : (groupBy key value items).get? k = some l ↔
      (∃ a ∈ items, key a = k) ∧ l = (items.filter fun a => key a = k).map value := by
  rw [← get?_groupBy_isSome key value, ← get?_groupBy key value]
  cases (groupBy key value items).get? k <;> simp [eq_comm]

theorem forall_entries_groupBy (key : α → κ) (value : α → ν) (items : List α)
    {Q : κ → List ν → Prop} :
    (∀ entry ∈ (groupBy key value items).entries, Q entry.1 entry.2) ↔
      ∀ a ∈ items, Q (key a) ((items.filter fun b => key b = key a).map value) := by
  constructor
  · intro h a ha
    refine h (key a, _) ((mem_entries_iff _ _ _).mpr ?_)
    exact (get?_groupBy_eq_some _ _ _ _ _).mpr ⟨⟨a, ha, rfl⟩, rfl⟩
  · rintro h ⟨k, l⟩ hentry
    have hget := (mem_entries_iff _ _ _).mp hentry
    obtain ⟨⟨a, ha, rfl⟩, rfl⟩ := (get?_groupBy_eq_some _ _ _ _ _).mp hget
    exact h a ha

/-- With distinct keys no value is overwritten. -/
theorem get?_ofList (key : α → κ) {items : List α} (hnodup : (items.map key).Nodup)
    (k : κ) (a : α) : (ofList key items).get? k = some a ↔ a ∈ items ∧ key a = k := by
  unfold ofList
  suffices hfold : ∀ m : OrderedMap κ α, (∀ b ∈ items, m.get? (key b) = none) →
      ((items.foldl (fun m a => m.set (key a) a) m).get? k = some a ↔
        m.get? k = some a ∨ a ∈ items ∧ key a = k) by
    simpa using hfold empty (by simp)
  induction items with
  | nil => simp
  | cons b rest ih =>
      intro m hfresh
      simp only [List.map_cons, List.nodup_cons, List.mem_map, not_exists, not_and] at hnodup
      rw [List.foldl_cons, ih hnodup.2, get?_set]
      · have hb := hfresh b List.mem_cons_self
        by_cases hk : key b = k
        · subst hk
          simp only [hb, List.mem_cons]
          constructor
          · rintro (heq | ⟨hmem, hkey⟩)
            · obtain rfl := Option.some.inj heq
              exact .inr ⟨.inl rfl, rfl⟩
            · exact .inr ⟨.inr hmem, hkey⟩
          · rintro (hnone | ⟨rfl | hmem, hkey⟩)
            · cases hnone
            · exact .inl rfl
            · exact .inr ⟨hmem, hkey⟩
        · simp only [if_neg hk, List.mem_cons]
          constructor
          · rintro (hm | ⟨hmem, hkey⟩)
            · exact .inl hm
            · exact .inr ⟨.inr hmem, hkey⟩
          · rintro (hm | ⟨rfl | hmem, hkey⟩)
            · exact .inl hm
            · exact absurd hkey hk
            · exact .inr ⟨hmem, hkey⟩
      · intro c hc
        rw [get?_set, if_neg (fun h => hnodup.1 c hc h.symm)]
        exact hfresh c (List.mem_cons_of_mem _ hc)

theorem forall_entries_ofList (key : α → κ) {items : List α} (hnodup : (items.map key).Nodup)
    {Q : κ → α → Prop} :
    (∀ entry ∈ (ofList key items).entries, Q entry.1 entry.2) ↔ ∀ a ∈ items, Q (key a) a := by
  constructor
  · intro h a ha
    refine h (key a, a) ?_
    exact (mem_entries_iff _ _ _).mpr ((get?_ofList key hnodup _ _).mpr ⟨ha, rfl⟩)
  · rintro h ⟨k, a⟩ hentry
    have hget := (mem_entries_iff _ _ _).mp hentry
    obtain ⟨ha, rfl⟩ := (get?_ofList key hnodup _ _).mp hget
    exact h a ha

/-! ## Removing entries -/

/-- The map with the entries that pass the test, in the same order. -/
def filter (m : OrderedMap κ ν) (keep : κ → ν → Bool) : OrderedMap κ ν where
  entries := m.entries.filter fun entry => keep entry.1 entry.2
  nodup := m.nodup.sublist (List.filter_sublist.map Prod.fst)

def delete (m : OrderedMap κ ν) (key : κ) : OrderedMap κ ν := m.filter fun k _ => k ≠ key

theorem get?_filter (m : OrderedMap κ ν) (keep : κ → ν → Bool) (key : κ) :
    (m.filter keep).get? key = (m.get? key).filter (keep key) := by
  refine Option.ext fun value => ?_
  rw [← mem_entries_iff, Option.filter_eq_some_iff, ← mem_entries_iff]
  simp [filter]

theorem get?_delete (m : OrderedMap κ ν) (key other : κ) :
    (m.delete key).get? other = if other = key then none else m.get? other := by
  rw [delete, get?_filter]
  split
  next heq => simp [heq]
  next hne => cases m.get? other <;> simp [hne]

end OrderedMap

end Foundation
