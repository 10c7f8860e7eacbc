import Coivitas.Policy.RevocationCache

/-! # The revocation cache is the list of its entries

Every run of calls gives the same answers on the linked cache and on the list of entries,
from the most recently used to the least recently used, and leaves the keys of the list
linked in its order.
-/

namespace Coivitas.Policy.Revocation

open Foundation Foundation.Linked

variable {V : Type}

/-! ## Calls -/

inductive CacheCall (V : Type) where
  | get (now : ℚ) (key : String)
  | set (now : ℚ) (key : String) (value : V)
  | delete (key : String)
  | clear (keyPrefix : Option String)

inductive CacheAnswer (V : Type) where
  | value (found : Option V)
  | deleted (found : Bool)
  | done
  deriving DecidableEq

/-- The key of the call is not empty. -/
def CacheCall.Keyed : CacheCall V → Prop
  | get _ key => key ≠ ""
  | set _ key _ => key ≠ ""
  | delete key => key ≠ ""
  | clear _ => True

def LinkedCache.perform (cache : LinkedCache V) : CacheCall V → CacheAnswer V × LinkedCache V
  | .get now key => ((.value (cache.get now key).1), (cache.get now key).2)
  | .set now key value => (.done, cache.set now key value)
  | .delete key => (.deleted (cache.delete key).1, (cache.delete key).2)
  | .clear keyPrefix => (.done, cache.clear keyPrefix)

/-- The same calls on the list of entries. -/
def performOnList (cache : LruTtlCache String V) :
    CacheCall V → CacheAnswer V × LruTtlCache String V
  | .get now key => (.value (cache.get now key).1, (cache.get now key).2)
  | .set now key value => (.done, cache.set now key value)
  | .delete key => (.deleted (cache.find? key).isSome, cache.delete key)
  | .clear keyPrefix =>
      (.done, cache.clear fun key => keyPrefix.all fun start => key.startsWith start)

/-- The answers of the calls and the state after them. -/
def performAll {σ : Type} (perform : σ → CacheCall V → CacheAnswer V × σ) :
    List (CacheCall V) → σ → List (CacheAnswer V) × σ
  | [], cache => ([], cache)
  | call :: calls, cache =>
      let (answer, cache) := perform cache call
      let (answers, cache) := performAll perform calls cache
      (answer :: answers, cache)

/-! ## The representation -/

/-- What the list holds under a key, with its expiry. -/
def contents (cache : LruTtlCache String V) (key : String) : Option (V × ℚ) :=
  (cache.find? key).map fun entry => (entry.value, entry.expiresAt)

def keysOf (cache : LruTtlCache String V) : List String := cache.entries.map LruEntry.key

/-- The linked cache stands for the list. -/
structure Represents (linked : LinkedCache V) (cache : LruTtlCache String V) : Prop where
  maxSize : linked.limits.maxSize = cache.maxSize
  ttlMs : linked.limits.ttlMs = cache.ttlMs
  holds : linked.Holds (keysOf cache) (contents cache)

variable {linked : LinkedCache V} {cache : LruTtlCache String V} {now : ℚ} {key : String}
  {value : V}

theorem keysOf_keep (p : String → Bool) : keysOf (cache.keep p) = (keysOf cache).filter p := by
  rw [keysOf, keysOf, List.filter_map]
  rfl

theorem keysOf_pushFront (entry : LruEntry String V) : keysOf (cache.pushFront entry) =
    entry.key :: (keysOf cache).filter (· ≠ entry.key) := by
  rw [← keysOf_keep]
  rfl

theorem keysOf_evictTail : keysOf cache.evictTail = (keysOf cache).dropLast := by
  rw [keysOf, keysOf, ← List.map_dropLast]
  rfl

theorem contents_delete (key : String) :
    contents (cache.delete key) = Function.update (contents cache) key none := by
  funext other
  rw [contents, LruTtlCache.delete, LruTtlCache.find?_keep, Function.update_apply]
  by_cases heq : other = key <;> simp [heq, contents]

theorem contents_pushFront (entry : LruEntry String V) : contents (cache.pushFront entry) =
    Function.update (contents cache) entry.key (some (entry.value, entry.expiresAt)) := by
  funext other
  rw [contents, LruTtlCache.find?_pushFront, Function.update_apply]
  by_cases heq : other = entry.key <;> simp [heq, contents]

/-- The entry of the map and the entry of the list agree. -/
theorem Represents.find? (hrep : Represents linked cache) (key : String) :
    (linked.store.get? key).map (fun entry => (entry.value, entry.expiresAt)) =
      (cache.find? key).map fun entry => (entry.value, entry.expiresAt) :=
  congrFun hrep.holds.content key

theorem Represents.delete (hrep : Represents linked cache) (key : String) :
    (linked.delete key).1 = (cache.find? key).isSome ∧
      Represents (linked.delete key).2 (cache.delete key) := by
  obtain ⟨hfound, hholds⟩ := hrep.holds.delete key
  constructor
  · rw [hfound, Bool.eq_iff_iff, decide_eq_true_iff, ← hrep.holds.keys, contents,
      Option.isSome_map]
  · constructor
    case maxSize => rw [LinkedCache.limits_delete, hrep.maxSize]; rfl
    case ttlMs => rw [LinkedCache.limits_delete, hrep.ttlMs]; rfl
    case holds =>
      rw [contents_delete, LruTtlCache.delete, keysOf_keep]
      exact hholds

theorem Represents.get (hrep : Represents linked cache) (now : ℚ) (key : String) :
    (linked.get now key).1 = (cache.get now key).1 ∧
      Represents (linked.get now key).2 (cache.get now key).2 := by
  have hfind := hrep.find? key
  unfold LinkedCache.get LruTtlCache.get
  cases hentry : linked.store.get? key with
  | none =>
      rw [hentry, Option.map_none, eq_comm, Option.map_eq_none_iff] at hfind
      rw [hfind]
      exact ⟨rfl, hrep⟩
  | some entry =>
      rw [hentry, Option.map_some, eq_comm, Option.map_eq_some_iff] at hfind
      obtain ⟨found, hfound, hsame⟩ := hfind
      obtain ⟨hvalue, hexpires⟩ := Prod.mk.inj hsame
      rw [hfound]
      dsimp only
      rw [hvalue, hexpires]
      split
      next => exact ⟨rfl, (hrep.delete key).2⟩
      next =>
        have hkey : found.key = key := (LruTtlCache.find?_eq_some.mp hfound).2
        have hsame : contents (cache.pushFront found) = contents cache := by
          rw [contents_pushFront, hkey, Function.update_eq_self_iff, contents, hfound]
          rfl
        refine ⟨rfl, ?_, ?_, ?_⟩
        · rw [LinkedCache.limits_moveToHead, hrep.maxSize]; rfl
        · rw [LinkedCache.limits_moveToHead, hrep.ttlMs]; rfl
        · rw [hsame, keysOf_pushFront, hkey]
          exact hrep.holds.moveToHead hentry

theorem Represents.size_eq (hrep : Represents linked cache) :
    linked.size = cache.entries.length := by
  have hmem : ∀ key, key ∈ linked.store.entries.map Prod.fst ↔ key ∈ keysOf cache := by
    intro key
    rw [← hrep.holds.mem_iff, List.mem_map, Option.isSome_iff_exists]
    constructor
    · rintro ⟨entry, hentry, rfl⟩
      exact ⟨entry.2, (OrderedMap.mem_entries_iff _ _ _).mp hentry⟩
    · rintro ⟨entry, hentry⟩
      exact ⟨(key, entry), (OrderedMap.mem_entries_iff _ _ _).mpr hentry, rfl⟩
  have hperm := (List.perm_ext_iff_of_nodup linked.store.nodup cache.nodup).mpr hmem
  simpa [LinkedCache.size, keysOf] using hperm.length_eq

theorem Represents.evictTail (hrep : Represents linked cache) (hne : cache.entries ≠ []) :
    Represents linked.evictTail cache.evictTail := by
  obtain ⟨front, last, hentries⟩ := (List.eq_nil_or_concat cache.entries).resolve_left hne
  rw [List.concat_eq_append] at hentries
  have hkeys : keysOf cache = front.map LruEntry.key ++ [last.key] := by
    rw [keysOf, hentries, List.map_append]
    rfl
  have hcontents : contents cache.evictTail = Function.update (contents cache) last.key none := by
    funext other
    rw [contents, LruTtlCache.find?_evictTail hentries, Function.update_apply]
    by_cases heq : other = last.key <;> simp [heq, contents]
  have hholds := hrep.holds
  rw [hkeys] at hholds
  refine ⟨?_, ?_, ?_⟩
  · rw [LinkedCache.limits_evictTail, hrep.maxSize]; rfl
  · rw [LinkedCache.limits_evictTail, hrep.ttlMs]; rfl
  · rw [keysOf_evictTail, hkeys, List.dropLast_concat, hcontents]
    exact hholds.evictTail

/-- Room is made when the cache is full. -/
theorem Represents.makeRoom (hrep : Represents linked cache) :
    Represents (if cache.maxSize ≤ cache.entries.length then linked.evictTail else linked)
      (if cache.maxSize ≤ cache.entries.length then cache.evictTail else cache) := by
  split
  next hfull =>
    refine hrep.evictTail fun hempty => ?_
    rw [hempty, List.length_nil] at hfull
    have hpos := cache.maxSize_pos.trans hfull
    rw [Nat.cast_zero] at hpos
    exact absurd hpos (not_le.mpr zero_lt_one)
  next => exact hrep

theorem Represents.set (hrep : Represents linked cache) (hne : key ≠ "") (now : ℚ) (value : V) :
    Represents (linked.set now key value) (cache.set now key value) := by
  have hfind := hrep.find? key
  have hlimits : (linked.set now key value).limits = linked.limits :=
    LinkedCache.limits_set now key value
  unfold LinkedCache.set LruTtlCache.set at *
  rw [hrep.ttlMs, hrep.maxSize, hrep.size_eq] at *
  cases hentry : linked.store.get? key with
  | some entry =>
      rw [hentry, Option.map_some, eq_comm, Option.map_eq_some_iff] at hfind
      obtain ⟨found, hfound, -⟩ := hfind
      rw [hentry] at hlimits
      rw [hfound]
      dsimp only at hlimits ⊢
      have hstored : (linked.store.set key { entry with
          value, expiresAt := now + cache.ttlMs }).get? key =
            some { entry with value, expiresAt := now + cache.ttlMs } := by
        rw [OrderedMap.get?_set, if_pos rfl]
      have hholds := (hrep.holds.setValue hentry value (now + cache.ttlMs)).moveToHead hstored
      refine ⟨?_, ?_, ?_⟩
      · rw [hlimits, hrep.maxSize]; rfl
      · rw [hlimits, hrep.ttlMs]; rfl
      · rw [contents_pushFront, keysOf_pushFront]
        exact hholds
  | none =>
      rw [hentry, Option.map_none, eq_comm, Option.map_eq_none_iff] at hfind
      rw [hfind]
      dsimp only
      have hroom := hrep.makeRoom
      have hlist : (if cache.maxSize ≤ cache.entries.length then
            cache.evictTail.pushFront ⟨key, value, now + cache.ttlMs⟩
          else cache.pushFront ⟨key, value, now + cache.ttlMs⟩) =
          (if cache.maxSize ≤ cache.entries.length then cache.evictTail else cache).pushFront
            ⟨key, value, now + cache.ttlMs⟩ := by
        split <;> rfl
      have hnot : key ∉ keysOf
          (if cache.maxSize ≤ cache.entries.length then cache.evictTail else cache) := by
        have hnew : key ∉ keysOf cache := by
          rw [← hrep.holds.mem_iff, hentry]
          simp
        split
        next =>
          rw [keysOf_evictTail]
          exact fun hmem => hnew (List.dropLast_subset _ hmem)
        next => exact hnew
      have httl : (if cache.maxSize ≤ cache.entries.length then linked.evictTail
          else linked).limits.ttlMs = cache.ttlMs := by
        split
        next => rw [LinkedCache.limits_evictTail, hrep.ttlMs]
        next => exact hrep.ttlMs
      rw [hlist]
      generalize (if cache.maxSize ≤ cache.entries.length then cache.evictTail else cache) = cache'
        at hroom hnot ⊢
      generalize (if cache.maxSize ≤ cache.entries.length then linked.evictTail else linked) =
        linked' at hroom httl ⊢
      have hkeys : (keysOf cache').filter (· ≠ key) = keysOf cache' := by
        refine List.filter_eq_self.mpr fun other hother => decide_eq_true ?_
        rintro rfl
        exact hnot hother
      refine ⟨?_, ?_, ?_⟩
      · exact (congrArg CacheLimits.maxSize (LinkedCache.limits_linkBeforeHead key)).trans
          hroom.maxSize
      · exact (congrArg CacheLimits.ttlMs (LinkedCache.limits_linkBeforeHead key)).trans
          hroom.ttlMs
      · rw [contents_pushFront, keysOf_pushFront, hkeys, httl]
        exact hroom.holds.insert hnot hne value (now + cache.ttlMs)

/-- Keys are deleted one by one. -/
theorem Represents.deleteEach (hrep : Represents linked cache) (matched : String → Bool)
    (keys : List String) :
    Represents (keys.foldl (fun linked key => if matched key = true then (linked.delete key).2
        else linked) linked)
      (cache.keep fun key => !(decide (key ∈ keys) && matched key)) := by
  induction keys generalizing linked cache with
  | nil =>
      rw [LruTtlCache.keep_of_all fun entry _ => by simp]
      exact hrep
  | cons key keys ih =>
      rw [List.foldl_cons]
      split
      next hmatched =>
        have hdeleted := ih (hrep.delete key).2
        rw [LruTtlCache.delete, LruTtlCache.keep_keep] at hdeleted
        rw [LruTtlCache.keep_congr (q := fun other => decide (other ≠ key) &&
          !(decide (other ∈ keys) && matched other)) fun entry _ => ?_]
        · exact hdeleted
        · by_cases heq : entry.key = key <;> simp [heq, hmatched]
      next hmatched =>
        rw [LruTtlCache.keep_congr (q := fun other => !(decide (other ∈ keys) && matched other))
          fun entry _ => ?_]
        · exact ih hrep
        · by_cases heq : entry.key = key <;> simp [heq, hmatched]

theorem Represents.clear (hrep : Represents linked cache) (keyPrefix : Option String) :
    Represents (linked.clear keyPrefix)
      (cache.clear fun key => keyPrefix.all fun start => key.startsWith start) := by
  cases keyPrefix with
  | none =>
      have hkeys : keysOf (cache.clear fun _ => true) = [] := by
        rw [LruTtlCache.clear, keysOf_keep]
        simp
      have hcontents : contents (cache.clear fun _ => true) = fun _ => none := by
        funext key
        rw [contents, LruTtlCache.clear, LruTtlCache.find?_keep]
        rfl
      refine ⟨hrep.maxSize, hrep.ttlMs, ?_⟩
      show LinkedCache.Holds _ (keysOf (cache.clear fun _ => true))
        (contents (cache.clear fun _ => true))
      rw [hkeys, hcontents]
      exact ⟨⟨List.nodup_nil, rfl, rfl, trivial⟩, List.not_mem_nil, rfl, by simp⟩
  | some start =>
      have hstored : ∀ entry ∈ cache.entries,
          entry.key ∈ linked.store.entries.map Prod.fst := by
        intro entry hentry
        have hmem : entry.key ∈ keysOf cache := List.mem_map_of_mem hentry
        obtain ⟨stored, hstored⟩ := Option.isSome_iff_exists.mp (hrep.holds.mem_iff.mpr hmem)
        exact List.mem_map_of_mem ((OrderedMap.mem_entries_iff _ _ _).mpr hstored)
      have hdeleted := hrep.deleteEach (fun key => key.startsWith start)
        (linked.store.entries.map Prod.fst)
      rw [LruTtlCache.keep_congr (q := fun key => !key.startsWith start) fun entry hentry => by
        rw [decide_eq_true (hstored entry hentry), Bool.true_and]] at hdeleted
      exact hdeleted

/-! ## Runs -/

/-- Every call answers alike on both, and keeps the representation. -/
theorem Represents.perform (hrep : Represents linked cache) {call : CacheCall V}
    (hkeyed : call.Keyed) :
    (linked.perform call).1 = (performOnList cache call).1 ∧
      Represents (linked.perform call).2 (performOnList cache call).2 := by
  cases call with
  | get now key =>
      obtain ⟨hvalue, hrep'⟩ := hrep.get now key
      exact ⟨congrArg CacheAnswer.value hvalue, hrep'⟩
  | set now key value => exact ⟨rfl, hrep.set hkeyed now value⟩
  | delete key =>
      obtain ⟨hfound, hrep'⟩ := hrep.delete key
      exact ⟨congrArg CacheAnswer.deleted hfound, hrep'⟩
  | clear keyPrefix => exact ⟨rfl, hrep.clear keyPrefix⟩

theorem Represents.performAll (hrep : Represents linked cache) {calls : List (CacheCall V)}
    (hkeyed : ∀ call ∈ calls, call.Keyed) :
    (Revocation.performAll LinkedCache.perform calls linked).1 =
        (Revocation.performAll performOnList calls cache).1 ∧
      Represents (Revocation.performAll LinkedCache.perform calls linked).2
        (Revocation.performAll performOnList calls cache).2 := by
  induction calls generalizing linked cache with
  | nil => exact ⟨rfl, hrep⟩
  | cons call calls ih =>
      obtain ⟨hcall, hkeyed⟩ := List.forall_mem_cons.mp hkeyed
      obtain ⟨hanswer, hrep'⟩ := hrep.perform hcall
      obtain ⟨hanswers, hend⟩ := ih hrep' hkeyed
      exact ⟨congrArg₂ List.cons hanswer hanswers, hend⟩

/-- The list never has more entries than its limit, which is a whole number. -/
theorem length_performOnList {size : ℕ} (hsize : cache.maxSize = size)
    (hlength : cache.entries.length ≤ size) (call : CacheCall V) :
    (performOnList cache call).2.maxSize = size ∧
      (performOnList cache call).2.entries.length ≤ size := by
  cases call with
  | get now key =>
      exact ⟨LruTtlCache.maxSize_get.trans hsize, LruTtlCache.length_get_le.trans hlength⟩
  | set now key value =>
      exact ⟨LruTtlCache.maxSize_set.trans hsize, LruTtlCache.length_set_le hsize hlength⟩
  | delete key => exact ⟨hsize, (LruTtlCache.length_keep_le _ _).trans hlength⟩
  | clear keyPrefix => exact ⟨hsize, (LruTtlCache.length_keep_le _ _).trans hlength⟩

theorem length_performAll {size : ℕ} (hsize : cache.maxSize = size)
    (hlength : cache.entries.length ≤ size) (calls : List (CacheCall V)) :
    (performAll performOnList calls cache).2.entries.length ≤ size := by
  induction calls generalizing cache with
  | nil => exact hlength
  | cons call calls ih =>
      obtain ⟨hsize', hlength'⟩ := length_performOnList hsize hlength call
      exact ih hsize' hlength'

/-! ## The linked list after a run -/

/-- From the head, `next` visits the keys of the map, each of them once, `prev` leads back
wherever `next` leads on, and there are not too many of them. -/
structure LinkedCache.WellLinked (cache : LinkedCache V) (maxSize : ℤ) (keys : List String) :
    Prop where
  visits : Follows (fun key => (cache.store.get? key).map CacheEntry.next) cache.head keys
  once : keys.Nodup
  stored : ∀ key, cache.store.has key = true ↔ key ∈ keys
  mirrored : ∀ a b, (cache.store.get? a).bind CacheEntry.next = some b ↔
    (cache.store.get? b).bind CacheEntry.prev = some a
  bounded : cache.size ≤ maxSize

theorem Represents.wellLinked (hrep : Represents linked cache) {size : ℕ}
    (hlength : cache.entries.length ≤ size) : linked.WellLinked size (keysOf cache) := by
  have hsegment := hrep.holds.spells.segment
  have hnext : (fun key => (linked.store.get? key).map CacheEntry.next) =
      fun key => (linked.chain.links key).map Links.next := by
    funext key
    simp [LinkedCache.chain, Function.comp_def]
  constructor
  case visits =>
    rw [hnext, show linked.head = (keysOf cache).head? from hrep.holds.spells.head]
    exact hsegment.follows
  case once => exact hrep.holds.spells.nodup
  case stored => exact fun key => hrep.holds.mem_iff
  case mirrored =>
    intro a b
    have hkeys : ∀ key, (linked.chain.links key).isSome = true → key ∈ keysOf cache := by
      intro key hkey
      rw [LinkedCache.isSome_links] at hkey
      exact hrep.holds.mem_iff.mp hkey
    have hmirror := hsegment.mirror hkeys a b
    simpa [LinkedCache.chain, Option.bind_map, Function.comp_def] using hmirror
  case bounded =>
    rw [hrep.size_eq]
    exact_mod_cast hlength

/-- A list cache without entries. -/
def CacheLimits.noEntries (limits : CacheLimits) : LruTtlCache String V where
  maxSize := limits.maxSize
  ttlMs := limits.ttlMs
  entries := []
  maxSize_pos := limits.maxSize_pos
  ttlMs_nonneg := limits.ttlMs_nonneg
  nodup := List.nodup_nil

/-- A new cache stands for the list without entries. -/
theorem represents_create {maxSize ttlMs : ℚ} {linked : LinkedCache V}
    (hcreate : LinkedCache.create maxSize ttlMs = .ok linked) :
    linked.limits.maxSize = maxSize ∧ linked.limits.ttlMs = ttlMs ∧
      Represents linked linked.limits.noEntries := by
  unfold LinkedCache.create at hcreate
  split at hcreate
  next => cases hcreate
  next =>
    split at hcreate
    next => cases hcreate
    next =>
      obtain rfl := Except.ok.inj hcreate
      refine ⟨rfl, rfl, rfl, rfl, ⟨⟨List.nodup_nil, rfl, rfl, trivial⟩, List.not_mem_nil, rfl, ?_⟩⟩
      intro key
      constructor
      · intro hheld
        cases hheld
      · exact fun hmem => absurd hmem List.not_mem_nil

/-- A new cache accepts every whole number of entries from one on. -/
theorem exists_create {maxSize : ℤ} {ttlMs : ℚ} (hsize : 1 ≤ maxSize) (httl : 0 ≤ ttlMs) :
    ∃ linked : LinkedCache V, LinkedCache.create maxSize ttlMs = .ok linked := by
  have hsize' : ¬ (maxSize : ℚ) < 1 := not_lt.mpr (by exact_mod_cast hsize)
  exact ⟨_, by rw [LinkedCache.create, dif_neg hsize', dif_neg (not_lt.mpr httl)]⟩

/-- In every run of calls with keys that are not empty, the linked cache gives the answers of
the list, and it is linked in the order of the list. -/
theorem refines_list {maxSize : ℤ} {ttlMs : ℚ} (hsize : 1 ≤ maxSize) (httl : 0 ≤ ttlMs) :
    ∃ linked : LinkedCache V, LinkedCache.create maxSize ttlMs = .ok linked ∧
      linked.limits.maxSize = maxSize ∧ linked.limits.ttlMs = ttlMs ∧
      ∀ calls : List (CacheCall V), (∀ call ∈ calls, call.Keyed) →
        (performAll LinkedCache.perform calls linked).1 =
            (performAll performOnList calls linked.limits.noEntries).1 ∧
          (performAll LinkedCache.perform calls linked).2.WellLinked maxSize
            (keysOf (performAll performOnList calls linked.limits.noEntries).2) := by
  obtain ⟨linked, hcreate⟩ := exists_create (V := V) hsize httl
  obtain ⟨hmax, httl', hrep⟩ := represents_create hcreate
  obtain ⟨size, rfl⟩ := Int.eq_ofNat_of_zero_le (zero_le_one.trans hsize)
  refine ⟨linked, hcreate, hmax, httl', fun calls hkeyed => ?_⟩
  have hlimit : (linked.limits.noEntries (V := V)).maxSize = size := by
    show linked.limits.maxSize = _
    rw [hmax]
    rfl
  obtain ⟨hanswers, hrep'⟩ := hrep.performAll hkeyed
  exact ⟨hanswers, hrep'.wellLinked (length_performAll hlimit (Nat.zero_le _) calls)⟩

/-- A cache of one entry and no time to live, whose first entry makes room for the second. -/
theorem refines_list_evicted : ∃ linked : LinkedCache Bool,
    LinkedCache.create (1 : ℤ) 0 = .ok linked ∧
      (performAll LinkedCache.perform
        [.set 0 "a" true, .set 1 "b" false, .get 1 "a", .get 1 "b", .get 2 "b"] linked).1 =
          [.done, .done, .value none, .value (some false), .value none] := by
  obtain ⟨linked, hcreate, hmax, httl, hruns⟩ :=
    refines_list (V := Bool) (le_refl (1 : ℤ)) (le_refl (0 : ℚ))
  refine ⟨linked, hcreate, (hruns _ (by simp [CacheCall.Keyed])).1.trans ?_⟩
  have hlimits : linked.limits = ⟨1, 0, le_refl _, le_refl _⟩ := by
    cases hcase : linked.limits with
    | mk maxSize ttlMs _ _ =>
        rw [hcase] at hmax httl
        simp only [CacheLimits.mk.injEq]
        exact ⟨hmax, httl⟩
  rw [hlimits]
  decide +kernel

end Coivitas.Policy.Revocation
