import Mathlib.Data.List.Perm.Basic
import Mathlib.Data.List.Count

/-! # Parcels that travel in parts

A list is cut into slices of one length, and the slices put together are the list. Items are
sent part by part; when every part arrives once, in whatever order, each item is completed once.
-/

namespace Foundation

/-! ## Slices -/

section

variable {α : Type*} {n : ℕ} (hn : 0 < n)

/-- `Math.ceil(l.length / n)` -/
def sliceCount (n : ℕ) (l : List α) : ℕ := (l.length + n - 1) / n

/-- `l.slice(i * n, (i + 1) * n)` -/
def slice (n : ℕ) (l : List α) (i : ℕ) : List α := (l.drop (i * n)).take n

theorem flatten_slices_take (n : ℕ) (l : List α) (count : ℕ) :
    ((List.range count).map (slice n l)).flatten = l.take (count * n) := by
  induction count with
  | zero => simp
  | succ count ih =>
      rw [List.range_succ, List.map_append, List.flatten_append, ih, Nat.succ_mul, List.take_add]
      simp [slice]

include hn

theorem length_le_sliceCount_mul (l : List α) : l.length ≤ sliceCount n l * n := by
  have hceil := Nat.div_add_mod (l.length + n - 1) n
  have hmod := Nat.mod_lt (l.length + n - 1) hn
  rw [sliceCount, Nat.mul_comm]
  omega

/-- The slices put together are the list. -/
theorem flatten_slices (l : List α) :
    ((List.range (sliceCount n l)).map (slice n l)).flatten = l := by
  rw [flatten_slices_take, List.take_of_length_le (length_le_sliceCount_mul hn l)]

theorem one_lt_sliceCount {l : List α} (hlong : n < l.length) : 1 < sliceCount n l := by
  have hcover := length_le_sliceCount_mul hn l
  by_contra hfew
  have hone : sliceCount n l * n ≤ 1 * n := Nat.mul_le_mul_right n (by omega)
  omega

end

/-! ## Arrivals -/

namespace Parcel

variable {α π : Type*} [DecidableEq α] [DecidableEq π] (parts : α → List π) (owner : π → α)

/-- The part is the last of its item to arrive. -/
def Completes (before : List π) (part : π) : Prop :=
  ∀ other ∈ parts (owner part), other = part ∨ other ∈ before

instance (before : List π) (part : π) : Decidable (Completes parts owner before part) := by
  unfold Completes
  infer_instance

/-- The items in the order in which they are completed. -/
def completed (before : List π) : List π → List α
  | [] => []
  | part :: rest =>
      (if Completes parts owner before part then [owner part] else []) ++
        completed (before ++ [part]) rest

variable {parts owner}

/-- An item of several parts is completed once, when its parts arrive once each. -/
theorem count_completed {a : α} (howner : ∀ part ∈ parts a, owner part = a) {before rest : List π}
    (hrest : ∀ part ∈ rest, part ∈ parts (owner part))
    (honce : ((before ++ rest).filter fun part => owner part = a).Nodup) :
    (completed parts owner before rest).count a =
      if (∀ part ∈ parts a, part ∈ before ++ rest) ∧ ¬ ∀ part ∈ parts a, part ∈ before
        then 1 else 0 := by
  induction rest generalizing before with
  | nil => simp [completed]
  | cons part rest ih =>
      rw [List.forall_mem_cons] at hrest
      have hnext := @ih (before ++ [part]) hrest.2 (by simpa using honce)
      rw [completed, List.count_append, hnext]
      by_cases hpart : owner part = a
      · have hmem : part ∈ parts a := hpart ▸ hrest.1
        have hnew : part ∉ before := by
          intro hold
          rw [List.filter_append, List.filter_cons_of_pos (by simpa using hpart),
            List.nodup_append] at honce
          exact honce.2.2 part (List.mem_filter.mpr ⟨hold, by simpa using hpart⟩) part
            List.mem_cons_self rfl
        have hcompletes : Completes parts owner before part ↔
            ∀ other ∈ parts a, other ∈ before ++ [part] := by
          unfold Completes
          rw [hpart]
          exact forall₂_congr fun other _ => by simp [or_comm]
        have hnot : ¬ ∀ other ∈ parts a, other ∈ before := fun hall => hnew (hall part hmem)
        by_cases hlast : Completes parts owner before part
        · have hall : ∀ other ∈ parts a, other ∈ before ++ part :: rest := fun other hother => by
            have hbefore := hcompletes.mp hlast other hother
            simp only [List.mem_append, List.mem_cons, List.not_mem_nil, or_false] at hbefore ⊢
            tauto
          rw [if_pos hlast, hpart, if_neg (fun h => h.2 (hcompletes.mp hlast)),
            if_pos ⟨hall, hnot⟩]
          simp
        · have hiff := hcompletes.not.mp hlast
          simp only [if_neg hlast, List.count_nil, Nat.zero_add, hiff, hnot, not_false_eq_true,
            and_true, List.append_assoc, List.cons_append, List.nil_append]
      · have hother : part ∉ parts a := fun hmem => hpart (howner part hmem)
        have hbefore : (∀ other ∈ parts a, other ∈ before ++ [part]) ↔
            ∀ other ∈ parts a, other ∈ before := by
          refine forall₂_congr fun other hmem => ?_
          have hne : other ≠ part := fun heq => hother (heq ▸ hmem)
          simp [hne]
        have hcount : List.count a (if Completes parts owner before part then [owner part] else []) =
            0 := by
          split <;> simp [hpart]
        rw [hcount, Nat.zero_add]
        simp only [hbefore, List.append_assoc, List.cons_append, List.nil_append]

/-- An item of one part is completed whenever the part arrives. -/
theorem count_completed_single {a : α} {single : π} (hsingle : parts a = [single])
    (howner : owner single = a) {before rest : List π}
    (hrest : ∀ part ∈ rest, part ∈ parts (owner part)) :
    (completed parts owner before rest).count a = rest.count single := by
  induction rest generalizing before with
  | nil => rfl
  | cons part rest ih =>
      rw [List.forall_mem_cons] at hrest
      rw [completed, List.count_append, ih hrest.2, List.count_cons, Nat.add_comm]
      by_cases hpart : owner part = a
      · have heq : part = single := by simpa [hpart, hsingle] using hrest.1
        have hlast : Completes parts owner before part := by
          intro other hother
          rw [hpart, hsingle, List.mem_singleton] at hother
          exact Or.inl (hother.trans heq.symm)
        rw [if_pos hlast, hpart, heq]
        simp
      · have hne : part ≠ single := fun heq => hpart (heq ▸ howner)
        have hcount : List.count a (if Completes parts owner before part then [owner part] else []) =
            0 := by
          split <;> simp [hpart]
        simp [hcount, hne]

omit [DecidableEq α] in
theorem mem_completed {a : α} {before rest : List π} (ha : a ∈ completed parts owner before rest) :
    ∃ part ∈ rest, owner part = a := by
  induction rest generalizing before with
  | nil => simp [completed] at ha
  | cons part rest ih =>
      rw [completed, List.mem_append] at ha
      rcases ha with ha | ha
      · split at ha
        · exact ⟨part, List.mem_cons_self, (List.mem_singleton.mp ha).symm⟩
        · exact absurd ha List.not_mem_nil
      · obtain ⟨other, hother, rfl⟩ := ih ha
        exact ⟨other, List.mem_cons_of_mem _ hother, rfl⟩

omit [DecidableEq π] in
theorem filter_flatMap_parts {items : List α} (howner : ∀ a, ∀ part ∈ parts a, owner part = a)
    (a : α) : ((items.flatMap parts).filter fun part => owner part = a) =
      (List.replicate (items.count a) (parts a)).flatten := by
  induction items with
  | nil => rfl
  | cons item items ih =>
      rw [List.flatMap_cons, List.filter_append, ih, List.count_cons]
      by_cases hitem : item = a
      · have hall : ((parts item).filter fun part => owner part = a) = parts a := by
          rw [hitem]
          exact List.filter_eq_self.mpr fun part hpart => by simpa using howner a part hpart
        rw [hall]
        simp [hitem, List.replicate_succ]
      · have hnone : ((parts item).filter fun part => owner part = a) = [] := by
          refine List.filter_eq_nil_iff.mpr fun part hpart => ?_
          simpa [howner item part hpart] using hitem
        rw [hnone]
        simp [hitem]

/-- Items of one part may be sent again, the others go once. When all the parts have arrived,
each item has been completed as often as it was sent. -/
theorem completed_perm {items : List α} (howner : ∀ a, ∀ part ∈ parts a, owner part = a)
    (hparts : ∀ a ∈ items, (∃ single, parts a = [single]) ∨
      (parts a ≠ [] ∧ (parts a).Nodup ∧ items.count a = 1))
    {delivered : List π} (hdelivered : delivered.Perm (items.flatMap parts)) :
    (completed parts owner [] delivered).Perm items := by
  have hrest : ∀ part ∈ delivered, part ∈ parts (owner part) := by
    intro part hpart
    obtain ⟨a, -, hmem⟩ := List.mem_flatMap.mp (hdelivered.mem_iff.mp hpart)
    rwa [howner a part hmem]
  rw [List.perm_iff_count]
  intro a
  have hfilter := (hdelivered.filter fun part => owner part = a).trans
    (.of_eq (filter_flatMap_parts howner a))
  by_cases ha : a ∈ items
  · rcases hparts a ha with ⟨single, hsingle⟩ | ⟨hne, hnodup, hcount⟩
    · have howned : owner single = a := howner a single (hsingle ▸ List.mem_singleton_self single)
      rw [count_completed_single hsingle howned hrest]
      have hsame : delivered.count single =
          (delivered.filter fun part => owner part = a).count single := by
        rw [List.count_filter (by simpa using howned)]
      rw [hsame, hfilter.count_eq, hsingle]
      simp
    · rw [hcount] at hfilter
      rw [count_completed (howner a) hrest
        (by simpa using hfilter.nodup_iff.mpr (by simpa using hnodup)), hcount, if_pos]
      refine ⟨fun part hpart => ?_, fun hall => ?_⟩
      · rw [List.nil_append, hdelivered.mem_iff, List.mem_flatMap]
        exact ⟨a, ha, hpart⟩
      · obtain ⟨part, hpart⟩ := List.exists_mem_of_ne_nil _ hne
        exact absurd (hall part hpart) List.not_mem_nil
  · rw [List.count_eq_zero_of_not_mem ha, List.count_eq_zero]
    intro hcompleted
    obtain ⟨part, hpart, rfl⟩ := mem_completed hcompleted
    obtain ⟨item, hitem, hmem⟩ := List.mem_flatMap.mp (hdelivered.mem_iff.mp hpart)
    exact ha (howner item part hmem ▸ hitem)

end Parcel

end Foundation
