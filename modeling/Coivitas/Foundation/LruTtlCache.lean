import Coivitas.Foundation.Table

/-! # Caches that evict and expire

Entries in the order of their last use, with a bound on their number and a time
to live. A lookup moves its entry to the front, and a full cache drops the last
entry for a new one. What a cache holds for a key is what was set last, or nothing.
-/

namespace Foundation

variable {κ V : Type*}

structure LruEntry (κ V : Type*) where
  key : κ
  value : V
  expiresAt : ℚ

/-- The entries from the most recently used to the least recently used. -/
structure LruTtlCache (κ V : Type*) where
  maxSize : ℚ
  ttlMs : ℚ
  entries : List (LruEntry κ V)
  maxSize_pos : 1 ≤ maxSize
  ttlMs_nonneg : 0 ≤ ttlMs
  nodup : (entries.map LruEntry.key).Nodup

namespace LruTtlCache

def keep (p : κ → Bool) (cache : LruTtlCache κ V) : LruTtlCache κ V :=
  { cache with
    entries := cache.entries.filter fun entry => p entry.key
    nodup := cache.nodup.sublist (List.filter_sublist.map _) }

theorem keep_keep (p q : κ → Bool) (cache : LruTtlCache κ V) :
    (cache.keep p).keep q = cache.keep fun key => p key && q key := by
  simp only [keep, List.filter_filter, Bool.and_comm]

theorem keep_congr {p q : κ → Bool} {cache : LruTtlCache κ V}
    (hsame : ∀ entry ∈ cache.entries, p entry.key = q entry.key) : cache.keep p = cache.keep q := by
  simp only [keep, mk.injEq, true_and]
  exact List.filter_congr hsame

theorem keep_of_all {p : κ → Bool} {cache : LruTtlCache κ V}
    (hall : ∀ entry ∈ cache.entries, p entry.key = true) : cache.keep p = cache := by
  obtain ⟨maxSize, ttlMs, entries, hsize, httl, hnodup⟩ := cache
  simp only [keep, mk.injEq, true_and]
  exact List.filter_eq_self.mpr hall

theorem length_keep_le (p : κ → Bool) (cache : LruTtlCache κ V) :
    (cache.keep p).entries.length ≤ cache.entries.length :=
  List.length_filter_le _ _

/-- Drop the least recently used entry. -/
def evictTail (cache : LruTtlCache κ V) : LruTtlCache κ V :=
  { cache with
    entries := cache.entries.dropLast
    nodup := cache.nodup.sublist ((List.dropLast_sublist _).map _) }

variable [DecidableEq κ]

def delete (key : κ) (cache : LruTtlCache κ V) : LruTtlCache κ V :=
  cache.keep fun other => other ≠ key

/-- Every entry whose key is matched. -/
def clear (matched : κ → Bool) (cache : LruTtlCache κ V) : LruTtlCache κ V :=
  cache.keep fun other => !matched other

/-- An entry at the front, in the place of any other of its key. -/
def pushFront (entry : LruEntry κ V) (cache : LruTtlCache κ V) : LruTtlCache κ V :=
  { cache with
    entries := entry :: (cache.delete entry.key).entries
    nodup := by
      rw [List.map_cons, List.nodup_cons]
      refine ⟨?_, (cache.delete entry.key).nodup⟩
      simp [delete, keep] }

def rows (cache : LruTtlCache κ V) : Table (LruEntry.key (κ := κ) (V := V)) :=
  ⟨cache.entries, cache.nodup⟩

def find? (key : κ) (cache : LruTtlCache κ V) : Option (LruEntry κ V) := cache.rows.find? key

/-- The value for a key. An expired entry is dropped, another one is used. -/
def get (now : ℚ) (key : κ) (cache : LruTtlCache κ V) : Option V × LruTtlCache κ V :=
  match cache.find? key with
  | none => (none, cache)
  | some entry =>
      if entry.expiresAt < now then (none, cache.delete key)
      else (some entry.value, cache.pushFront entry)

def set (now : ℚ) (key : κ) (value : V) (cache : LruTtlCache κ V) : LruTtlCache κ V :=
  let entry := ⟨key, value, now + cache.ttlMs⟩
  match cache.find? key with
  | some _ => cache.pushFront entry
  | none =>
      if cache.maxSize ≤ cache.entries.length then cache.evictTail.pushFront entry
      else cache.pushFront entry

/-- The value that the cache holds for a key, expired or not. -/
def peek (key : κ) (cache : LruTtlCache κ V) : Option V := (cache.find? key).map LruEntry.value

/-! ## What the operations leave -/

variable {cache : LruTtlCache κ V} {now : ℚ} {key other : κ} {value held : V}

theorem find?_eq_some {entry : LruEntry κ V} :
    cache.find? key = some entry ↔ entry ∈ cache.entries ∧ entry.key = key :=
  Table.find?_eq_some

theorem find?_keep (p : κ → Bool) (other : κ) :
    (cache.keep p).find? other = if p other = true then cache.find? other else none := by
  refine Option.ext fun entry => ?_
  simp only [Option.ite_none_right_eq_some, find?_eq_some, keep, List.mem_filter]
  constructor
  · rintro ⟨⟨hmem, hp⟩, rfl⟩
    exact ⟨hp, hmem, rfl⟩
  · rintro ⟨hp, hmem, rfl⟩
    exact ⟨⟨hmem, hp⟩, rfl⟩

theorem find?_pushFront (entry : LruEntry κ V) (other : κ) :
    (cache.pushFront entry).find? other =
      if other = entry.key then some entry else cache.find? other := by
  refine Option.ext fun found => ?_
  rw [find?_eq_some]
  split
  next heq =>
    subst heq
    simp only [pushFront, delete, keep, List.mem_cons, List.mem_filter, decide_eq_true_eq,
      Option.some.injEq]
    constructor
    · rintro ⟨rfl | ⟨-, hne⟩, hkey⟩
      · rfl
      · exact absurd hkey hne
    · rintro rfl
      exact ⟨.inl rfl, rfl⟩
  next hne =>
    rw [find?_eq_some]
    simp only [pushFront, delete, keep, List.mem_cons, List.mem_filter, decide_eq_true_eq]
    constructor
    · rintro ⟨rfl | ⟨hmem, -⟩, rfl⟩
      · exact absurd rfl hne
      · exact ⟨hmem, rfl⟩
    · rintro ⟨hmem, rfl⟩
      exact ⟨.inr ⟨hmem, hne⟩, rfl⟩

theorem find?_evictTail {front : List (LruEntry κ V)} {last : LruEntry κ V}
    (hentries : cache.entries = front ++ [last]) (other : κ) :
    cache.evictTail.find? other = if other = last.key then none else cache.find? other := by
  have hnodup := cache.nodup
  rw [hentries, List.map_append, List.nodup_append] at hnodup
  have hlast : ∀ entry ∈ front, entry.key ≠ last.key := fun entry hentry =>
    hnodup.2.2 _ (List.mem_map_of_mem hentry) _ (by simp)
  refine Option.ext fun entry => ?_
  simp only [Option.ite_none_left_eq_some, find?_eq_some, evictTail, hentries,
    List.dropLast_concat, List.mem_append, List.mem_singleton]
  constructor
  · rintro ⟨hmem, rfl⟩
    exact ⟨hlast entry hmem, .inl hmem, rfl⟩
  · rintro ⟨hne, hmem | rfl, rfl⟩
    · exact ⟨hmem, rfl⟩
    · exact absurd rfl hne

theorem find?_delete (key other : κ) :
    (cache.delete key).find? other = if other = key then none else cache.find? other := by
  rw [delete, find?_keep]
  by_cases heq : other = key <;> simp [heq]

/-- A lookup answers with an entry that has not expired. -/
theorem fst_get : (cache.get now key).1 =
    (cache.find? key).bind fun entry =>
      if entry.expiresAt < now then none else some entry.value := by
  unfold get
  cases cache.find? key with
  | none => rfl
  | some entry =>
      dsimp only [Option.bind_some]
      split <;> rfl

theorem find?_set_self :
    (cache.set now key value).find? key = some ⟨key, value, now + cache.ttlMs⟩ := by
  unfold set
  split
  next => rw [find?_pushFront, if_pos rfl]
  next =>
    dsimp only
    split <;> rw [find?_pushFront, if_pos rfl]

/-- A write keeps what is held for another key, or the entry is evicted by it. -/
theorem find?_set_of_ne (hne : other ≠ key) :
    (cache.set now key value).find? other = cache.find? other ∨
      cache.find? key = none ∧ cache.maxSize ≤ cache.entries.length ∧
        cache.entries.getLast?.map LruEntry.key = some other ∧
        (cache.set now key value).find? other = none := by
  unfold set
  cases hfind : cache.find? key with
  | some found =>
      left
      rw [find?_pushFront, if_neg hne]
  | none =>
      dsimp only
      split
      next hfull =>
        rw [find?_pushFront, if_neg hne]
        obtain hnil | ⟨front, last, hentries⟩ := List.eq_nil_or_concat cache.entries
        · left
          simp [find?, Table.find?, rows, evictTail, hnil]
        · rw [List.concat_eq_append] at hentries
          rw [find?_evictTail hentries]
          split
          next heq =>
            right
            refine ⟨rfl, hfull, ?_, rfl⟩
            rw [hentries, List.getLast?_concat, Option.map_some, heq]
          next => exact .inl rfl
      next =>
        left
        rw [find?_pushFront, if_neg hne]

theorem peek_eq_some : cache.peek key = some value ↔
    ∃ entry ∈ cache.entries, entry.key = key ∧ entry.value = value := by
  unfold peek
  simp only [Option.map_eq_some_iff, find?_eq_some, and_assoc]

theorem peek_keep {p : κ → Bool} (hheld : (cache.keep p).peek key = some held) :
    cache.peek key = some held ∧ p key = true := by
  obtain ⟨entry, hmem, rfl, hvalue⟩ := peek_eq_some.mp hheld
  obtain ⟨hmem, hp⟩ := List.mem_filter.mp hmem
  exact ⟨peek_eq_some.mpr ⟨entry, hmem, rfl, hvalue⟩, hp⟩

theorem peek_evictTail (hheld : cache.evictTail.peek key = some held) :
    cache.peek key = some held := by
  obtain ⟨entry, hmem, hentry⟩ := peek_eq_some.mp hheld
  exact peek_eq_some.mpr ⟨entry, (List.dropLast_sublist _).subset hmem, hentry⟩

theorem peek_delete (hheld : (cache.delete key).peek other = some held) :
    cache.peek other = some held ∧ other ≠ key := by
  obtain ⟨hheld, hne⟩ := peek_keep hheld
  exact ⟨hheld, by simpa using hne⟩

theorem peek_pushFront {entry : LruEntry κ V}
    (hheld : (cache.pushFront entry).peek other = some held) :
    other = entry.key ∧ held = entry.value ∨ other ≠ entry.key ∧ cache.peek other = some held := by
  obtain ⟨entry', hmem, rfl, rfl⟩ := peek_eq_some.mp hheld
  obtain rfl | hmem := List.mem_cons.mp hmem
  · exact .inl ⟨rfl, rfl⟩
  · obtain ⟨hheld, hne⟩ := peek_delete (peek_eq_some.mpr ⟨entry', hmem, rfl, rfl⟩)
    exact .inr ⟨hne, hheld⟩

/-- A cache holds after a write what was written, and otherwise what it held before. -/
theorem peek_set (hheld : (cache.set now key value).peek other = some held) :
    other = key ∧ held = value ∨ other ≠ key ∧ cache.peek other = some held := by
  unfold set at hheld
  split at hheld
  next => exact peek_pushFront hheld
  next =>
    split at hheld
    next =>
      obtain hnew | ⟨hne, hheld⟩ := peek_pushFront hheld
      · exact .inl hnew
      · exact .inr ⟨hne, peek_evictTail hheld⟩
    next => exact peek_pushFront hheld

theorem get_eq_some {cache' : LruTtlCache κ V} (hget : cache.get now key = (some value, cache')) :
    cache.peek key = some value := by
  unfold get at hget
  split at hget
  next => cases hget
  next entry hfind =>
    split at hget
    next => cases hget
    next =>
      cases hget
      simp [peek, hfind]

/-- A lookup adds nothing. -/
theorem peek_get (hheld : (cache.get now key).2.peek other = some held) :
    cache.peek other = some held := by
  unfold get at hheld
  split at hheld
  next => exact hheld
  next entry hfind =>
    split at hheld
    next => exact (peek_delete hheld).1
    next =>
      obtain ⟨rfl, rfl⟩ | ⟨-, hheld⟩ := peek_pushFront hheld
      · obtain ⟨hmem, -⟩ := find?_eq_some.mp hfind
        exact peek_eq_some.mpr ⟨entry, hmem, rfl, rfl⟩
      · exact hheld

/-! ## The number of entries -/

@[simp] theorem maxSize_get : (cache.get now key).2.maxSize = cache.maxSize := by
  unfold get
  split
  next => rfl
  next => split <;> rfl

@[simp] theorem maxSize_set : (cache.set now key value).maxSize = cache.maxSize := by
  unfold set
  split
  next => rfl
  next => dsimp only; split <;> rfl

theorem length_pushFront_le (entry : LruEntry κ V) :
    (cache.pushFront entry).entries.length ≤ cache.entries.length + 1 :=
  Nat.succ_le_succ (length_keep_le _ _)

/-- An entry in the place of another one. -/
theorem length_pushFront_of_mem {entry found : LruEntry κ V} (hfound : found ∈ cache.entries)
    (hkey : found.key = entry.key) :
    (cache.pushFront entry).entries.length ≤ cache.entries.length := by
  have hfewer : (cache.delete entry.key).entries.length < cache.entries.length :=
    List.length_filter_lt_length_iff_exists.mpr ⟨found, hfound, by simp [hkey]⟩
  exact Nat.succ_le_of_lt hfewer

theorem length_get_le : (cache.get now key).2.entries.length ≤ cache.entries.length := by
  unfold get
  split
  next => exact le_rfl
  next entry hfind =>
    split
    next => exact length_keep_le _ _
    next => exact length_pushFront_of_mem (find?_eq_some.mp hfind).1 rfl

/-- A write keeps the bound on the number of entries, where the bound is a whole number. -/
theorem length_set_le {size : ℕ} (hsize : cache.maxSize = size)
    (hlength : cache.entries.length ≤ size) :
    (cache.set now key value).entries.length ≤ size := by
  unfold set
  split
  next found hfind =>
    obtain ⟨hmem, hkey⟩ := find?_eq_some.mp hfind
    exact (length_pushFront_of_mem hmem hkey).trans hlength
  next =>
    dsimp only
    split
    next =>
      have hpos : 1 ≤ size := by
        have hpos := cache.maxSize_pos
        rw [hsize] at hpos
        exact_mod_cast hpos
      have hevicted : cache.evictTail.entries.length ≤ size - 1 := by
        rw [evictTail, List.length_dropLast]
        exact Nat.sub_le_sub_right hlength 1
      exact (length_pushFront_le _).trans (by omega)
    next hroom =>
      rw [hsize, not_le] at hroom
      have hroom : cache.entries.length < size := by exact_mod_cast hroom
      exact (length_pushFront_le _).trans hroom

end LruTtlCache

end Foundation
