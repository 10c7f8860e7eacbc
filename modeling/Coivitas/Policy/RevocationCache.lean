import Coivitas.Foundation.LinkedKeys
import Coivitas.Foundation.LruTtlCache
import Coivitas.Foundation.OrderedMap

/-! # The revocation cache and its linked list

The class `LruTtlCache` of `revocation-cache.ts`: a map whose entries name the keys before
and behind them in the order of use, patched by hand in every operation. It answers as the
list of entries does, from the most recently used to the least recently used.
-/

namespace Coivitas.Policy.Revocation

open Foundation Foundation.Linked

variable {V : Type}

/-! ## The class -/

structure CacheEntry (V : Type) where
  value : V
  expiresAt : ℚ
  prev : Option String
  next : Option String

/-- The limits that the constructor accepts. -/
structure CacheLimits where
  maxSize : ℚ
  ttlMs : ℚ
  maxSize_pos : 1 ≤ maxSize
  ttlMs_nonneg : 0 ≤ ttlMs

structure LinkedCache (V : Type) where
  limits : CacheLimits
  store : OrderedMap String (CacheEntry V)
  head : Option String
  tail : Option String

/-- A key that is neither `null` nor empty. -/
def truthy (key : Option String) : Option String := key.filter (· ≠ "")

namespace LinkedCache

/-- `new LruTtlCache(maxSize, ttlMs)`. -/
def create (maxSize ttlMs : ℚ) : Except String (LinkedCache V) :=
  if hsize : maxSize < 1 then .error "LruTtlCache: maxSize must be >= 1"
  else if httl : ttlMs < 0 then .error "LruTtlCache: ttlMs must be >= 0"
  else .ok ⟨⟨maxSize, ttlMs, not_lt.mp hsize, not_lt.mp httl⟩, .empty, none, none⟩

def size (cache : LinkedCache V) : Nat := cache.store.entries.length

/-- An entry of the map is changed in place, if it is there. -/
def modifyEntry (key : String) (change : CacheEntry V → CacheEntry V) (cache : LinkedCache V) :
    LinkedCache V :=
  match cache.store.get? key with
  | none => cache
  | some entry => { cache with store := cache.store.set key (change entry) }

/-- The entry before is linked to the one behind, or the head moves there. -/
def bypassPrev (entry : CacheEntry V) (cache : LinkedCache V) : LinkedCache V :=
  match truthy entry.prev with
  | some prev => cache.modifyEntry prev fun e => { e with next := entry.next }
  | none => { cache with head := entry.next }

/-- The entry behind is linked to the one before, or the tail moves there. -/
def bypassNext (entry : CacheEntry V) (cache : LinkedCache V) : LinkedCache V :=
  match truthy entry.next with
  | some next => cache.modifyEntry next fun e => { e with prev := entry.prev }
  | none => { cache with tail := entry.prev }

/-- `_unlink`, for an entry that is in the map. -/
def unlink (key : String) (entry : CacheEntry V) (cache : LinkedCache V) : LinkedCache V :=
  ((cache.bypassPrev entry).bypassNext entry).modifyEntry key fun e =>
    { e with prev := none, next := none }

/-- What `set` and `_moveToHead` have in common: the entry before the old head. -/
def linkBeforeHead (key : String) (cache : LinkedCache V) : LinkedCache V :=
  match truthy cache.head with
  | some head => cache.modifyEntry head fun e => { e with prev := some key }
  | none => cache

/-- `_moveToHead`, for an entry that is in the map. -/
def moveToHead (key : String) (entry : CacheEntry V) (cache : LinkedCache V) : LinkedCache V :=
  if cache.head = some key then cache
  else
    let cache := cache.unlink key entry
    let cache := cache.modifyEntry key fun e => { e with prev := none, next := cache.head }
    let cache := cache.linkBeforeHead key
    { cache with
      head := some key
      tail := if cache.tail = none then some key else cache.tail }

def delete (key : String) (cache : LinkedCache V) : Bool × LinkedCache V :=
  match cache.store.get? key with
  | none => (false, cache)
  | some entry =>
      let cache := cache.unlink key entry
      (true, { cache with store := cache.store.delete key })

/-- `_evictTail`. -/
def evictTail (cache : LinkedCache V) : LinkedCache V :=
  match truthy cache.tail with
  | none => cache
  | some tailKey =>
      let cache := match cache.store.get? tailKey with
        | some tailEntry => cache.unlink tailKey tailEntry
        | none => cache
      { cache with store := cache.store.delete tailKey }

def get (now : ℚ) (key : String) (cache : LinkedCache V) : Option V × LinkedCache V :=
  match cache.store.get? key with
  | none => (none, cache)
  | some entry =>
      if entry.expiresAt < now then (none, (cache.delete key).2)
      else (some entry.value, cache.moveToHead key entry)

def set (now : ℚ) (key : String) (value : V) (cache : LinkedCache V) : LinkedCache V :=
  match cache.store.get? key with
  | some existing =>
      let updated := { existing with value, expiresAt := now + cache.limits.ttlMs }
      { cache with store := cache.store.set key updated }.moveToHead key updated
  | none =>
      let cache := if cache.limits.maxSize ≤ cache.size then cache.evictTail else cache
      let entry : CacheEntry V := ⟨value, now + cache.limits.ttlMs, none, cache.head⟩
      let cache := cache.linkBeforeHead key
      { cache with
        head := some key
        tail := if cache.tail = none then some key else cache.tail
        store := cache.store.set key entry }

/-- `clear(prefix)`, which deletes key by key, or everything without a prefix. -/
def clear (keyPrefix : Option String) (cache : LinkedCache V) : LinkedCache V :=
  match keyPrefix with
  | none => { cache with store := .empty, head := none, tail := none }
  | some start => (cache.store.entries.map Prod.fst).foldl
      (fun cache key => if key.startsWith start = true then (cache.delete key).2 else cache) cache

end LinkedCache

/-! ## The linked list behind the class -/

namespace LinkedCache

/-- The linked list of the keys. -/
def chain (cache : LinkedCache V) : Chain String where
  head := cache.head
  tail := cache.tail
  links key := (cache.store.get? key).map fun entry => ⟨entry.prev, entry.next⟩

/-- What the cache has under a key, with its expiry. -/
def held (cache : LinkedCache V) (key : String) : Option (V × ℚ) :=
  (cache.store.get? key).map fun entry => (entry.value, entry.expiresAt)

variable {cache : LinkedCache V} {key : String} {entry : CacheEntry V}

theorem truthy_of_ne {key : Option String} (hne : key ≠ some "") : truthy key = key := by
  cases key with
  | none => rfl
  | some text =>
      have htext : text ≠ "" := fun hempty => hne (hempty ▸ rfl)
      simp [truthy, htext]

theorem held_modifyEntry {change : CacheEntry V → CacheEntry V}
    (hchange : ∀ entry, (change entry).value = entry.value ∧
      (change entry).expiresAt = entry.expiresAt) :
    (cache.modifyEntry key change).held = cache.held := by
  unfold modifyEntry
  split
  next => rfl
  next entry hentry =>
    funext other
    unfold held
    rw [OrderedMap.get?_set]
    split
    next heq =>
      subst heq
      rw [hentry, Option.map_some, Option.map_some, (hchange entry).1, (hchange entry).2]
    next => rfl

theorem links_modifyEntry {change : CacheEntry V → CacheEntry V}
    (relink : Links String → Links String)
    (hchange : ∀ entry, (⟨(change entry).prev, (change entry).next⟩ : Links String) =
      relink ⟨entry.prev, entry.next⟩) :
    (cache.modifyEntry key change).chain.links =
      Function.update cache.chain.links key ((cache.chain.links key).map relink) := by
  funext other
  unfold modifyEntry
  split
  next hnone =>
    by_cases heq : other = key
    · subst heq
      rw [Function.update_self]
      simp [chain, hnone]
    · rw [Function.update_of_ne heq]
  next entry hentry =>
    by_cases heq : other = key
    · subst heq
      rw [Function.update_self]
      simp [chain, hentry, OrderedMap.get?_set, hchange]
    · rw [Function.update_of_ne heq]
      simp [chain, OrderedMap.get?_set, Ne.symm heq]

@[simp] theorem head_modifyEntry (change : CacheEntry V → CacheEntry V) :
    (cache.modifyEntry key change).head = cache.head := by
  unfold modifyEntry
  split <;> rfl

@[simp] theorem tail_modifyEntry (change : CacheEntry V → CacheEntry V) :
    (cache.modifyEntry key change).tail = cache.tail := by
  unfold modifyEntry
  split <;> rfl

/-- The entry under a key names the neighbours of the key. -/
theorem links_of_get? (hentry : cache.store.get? key = some entry) :
    cache.chain.links key = some ⟨entry.prev, entry.next⟩ := by
  simp [chain, hentry]

theorem chain_bypassPrev (cache : LinkedCache V) (hprev : entry.prev ≠ some "") :
    (cache.bypassPrev entry).chain =
        ⟨if entry.prev = none then entry.next else cache.head, cache.tail,
          patchNext cache.chain.links entry.prev entry.next⟩ ∧
      (cache.bypassPrev entry).held = cache.held := by
  unfold bypassPrev
  rw [truthy_of_ne hprev]
  cases entry.prev with
  | none => exact ⟨rfl, rfl⟩
  | some prev =>
      refine ⟨Chain.ext ?_ ?_ ?_, held_modifyEntry fun e => ⟨rfl, rfl⟩⟩
      · exact head_modifyEntry _
      · exact tail_modifyEntry _
      · exact links_modifyEntry (fun l => { l with next := entry.next }) fun _ => rfl

theorem chain_bypassNext (cache : LinkedCache V) (hnext : entry.next ≠ some "") :
    (cache.bypassNext entry).chain =
        ⟨cache.head, if entry.next = none then entry.prev else cache.tail,
          patchPrev cache.chain.links entry.next entry.prev⟩ ∧
      (cache.bypassNext entry).held = cache.held := by
  unfold bypassNext
  rw [truthy_of_ne hnext]
  cases entry.next with
  | none => exact ⟨rfl, rfl⟩
  | some next =>
      refine ⟨Chain.ext ?_ ?_ ?_, held_modifyEntry fun e => ⟨rfl, rfl⟩⟩
      · exact head_modifyEntry _
      · exact tail_modifyEntry _
      · exact links_modifyEntry (fun l => { l with prev := entry.prev }) fun _ => rfl

/-- The class unlinks as the chain does, where no key is empty. -/
theorem chain_unlink (hentry : cache.store.get? key = some entry) (hprev : entry.prev ≠ some "")
    (hnext : entry.next ≠ some "") :
    (cache.unlink key entry).chain = cache.chain.unlink key ∧
      (cache.unlink key entry).held = cache.held := by
  obtain ⟨hchain₁, hheld₁⟩ := chain_bypassPrev cache hprev
  obtain ⟨hchain₂, hheld₂⟩ := chain_bypassNext (cache.bypassPrev entry) hnext
  rw [Chain.ext_iff] at hchain₁ hchain₂
  obtain ⟨hhead₁, htail₁, hlinks₁⟩ := hchain₁
  obtain ⟨hhead₂, htail₂, hlinks₂⟩ := hchain₂
  rw [Chain.unlink, links_of_get? hentry, unlink]
  refine ⟨Chain.ext ?_ ?_ ?_, ?_⟩
  · exact (head_modifyEntry _).trans (hhead₂.trans hhead₁)
  · refine (tail_modifyEntry _).trans (htail₂.trans ?_)
    rw [show (cache.bypassPrev entry).tail = cache.tail from htail₁]
    rfl
  · rw [links_modifyEntry (fun _ => ⟨none, none⟩) fun _ => rfl, hlinks₂, hlinks₁]
  · have hcleared : ∀ other : LinkedCache V, (other.modifyEntry key fun e =>
        { e with prev := none, next := none }).held = other.held :=
      fun other => held_modifyEntry fun e => ⟨rfl, rfl⟩
    exact (hcleared _).trans (hheld₂.trans hheld₁)

theorem tail_eq_or {tail tail' : Option String} (htail : tail = tail') :
    (if tail = none then some key else tail) = tail'.or (some key) := by
  subst htail
  cases tail <;> rfl

theorem chain_linkBeforeHead (hhead : cache.head ≠ some "") (key : String) :
    (cache.linkBeforeHead key).chain =
        ⟨cache.head, cache.tail, patchPrev cache.chain.links cache.head (some key)⟩ ∧
      (cache.linkBeforeHead key).held = cache.held := by
  unfold linkBeforeHead
  rw [truthy_of_ne hhead]
  cases hcase : cache.head with
  | none => exact ⟨by rw [chain, hcase]; rfl, rfl⟩
  | some head =>
      refine ⟨Chain.ext ?_ ?_ ?_, held_modifyEntry fun e => ⟨rfl, rfl⟩⟩
      · exact (head_modifyEntry _).trans hcase
      · exact tail_modifyEntry _
      · exact links_modifyEntry (fun l => { l with prev := some key }) fun _ => rfl

theorem limits_modifyEntry (key : String) (change : CacheEntry V → CacheEntry V) :
    (cache.modifyEntry key change).limits = cache.limits := by
  unfold modifyEntry
  split <;> rfl

theorem limits_linkBeforeHead (key : String) :
    (cache.linkBeforeHead key).limits = cache.limits := by
  unfold linkBeforeHead
  split
  next => exact limits_modifyEntry _ _
  next => rfl

theorem limits_unlink (key : String) (entry : CacheEntry V) :
    (cache.unlink key entry).limits = cache.limits := by
  have hprev : (cache.bypassPrev entry).limits = cache.limits := by
    unfold bypassPrev
    split
    next => exact limits_modifyEntry _ _
    next => rfl
  have hnext : ((cache.bypassPrev entry).bypassNext entry).limits =
      (cache.bypassPrev entry).limits := by
    unfold bypassNext
    split
    next => exact limits_modifyEntry _ _
    next => rfl
  exact (limits_modifyEntry _ _).trans (hnext.trans hprev)

theorem limits_moveToHead (key : String) (entry : CacheEntry V) :
    (cache.moveToHead key entry).limits = cache.limits := by
  unfold moveToHead
  split
  next => rfl
  next => exact (limits_linkBeforeHead _).trans ((limits_modifyEntry _ _).trans (limits_unlink _ _))

theorem limits_delete (key : String) : (cache.delete key).2.limits = cache.limits := by
  unfold delete
  split
  next => rfl
  next => exact limits_unlink _ _

theorem limits_evictTail : cache.evictTail.limits = cache.limits := by
  unfold evictTail
  split
  next => rfl
  next tailKey _ =>
    dsimp only
    split
    next => exact limits_unlink _ _
    next => rfl

theorem limits_set (now : ℚ) (key : String) (value : V) :
    (cache.set now key value).limits = cache.limits := by
  unfold set
  split
  next => exact limits_moveToHead _ _
  next =>
    dsimp only
    split
    next => exact (limits_linkBeforeHead _).trans limits_evictTail
    next => exact limits_linkBeforeHead _

/-! ## The list that a cache stands for -/

/-- The keys of the cache in the order of their use, and what it has under them. -/
structure Holds (cache : LinkedCache V) (keys : List String) (held : String → Option (V × ℚ)) :
    Prop where
  spells : cache.chain.Spells keys
  nonempty : "" ∉ keys
  content : cache.held = held
  keys : ∀ key, (held key).isSome = true ↔ key ∈ keys

variable {keys : List String} {held : String → Option (V × ℚ)}

theorem isSome_held (cache : LinkedCache V) (key : String) :
    (cache.held key).isSome = (cache.store.get? key).isSome := by
  simp [LinkedCache.held]

theorem isSome_links (cache : LinkedCache V) (key : String) :
    (cache.chain.links key).isSome = (cache.store.get? key).isSome := by
  simp [LinkedCache.chain]

theorem Holds.mem_iff (hholds : cache.Holds keys held) :
    (cache.store.get? key).isSome = true ↔ key ∈ keys := by
  rw [← isSome_held, hholds.content]
  exact hholds.keys key

/-- An entry of the cache stands between its neighbours. -/
theorem Holds.neighbours (hholds : cache.Holds keys held)
    (hentry : cache.store.get? key = some entry) :
    ∃ front back, keys = front ++ key :: back ∧ entry.prev ≠ some "" ∧ entry.next ≠ some "" := by
  obtain ⟨front, back, rfl⟩ := List.append_of_mem (hholds.mem_iff.mp (by rw [hentry]; rfl))
  have hlinks := hholds.spells.segment.links_eq
  rw [links_of_get? hentry, Option.some.injEq, Links.mk.injEq, Option.or_none, Option.or_none]
    at hlinks
  obtain ⟨hprev, hnext⟩ := hlinks
  refine ⟨front, back, rfl, ?_, ?_⟩
  · rw [hprev]
    intro hempty
    exact hholds.nonempty (List.mem_append_left _ (List.mem_of_getLast? hempty))
  · rw [hnext]
    intro hempty
    exact hholds.nonempty
      (List.mem_append_right _ (List.mem_cons_of_mem _ (List.mem_of_head? hempty)))

theorem Holds.head_ne (hholds : cache.Holds keys held) : cache.head ≠ some "" := by
  intro hempty
  have hhead : keys.head? = some "" := hholds.spells.head.symm.trans hempty
  exact hholds.nonempty (List.mem_of_head? hhead)

theorem filter_ne_append {front back : List String} (hnodup : (front ++ key :: back).Nodup) :
    (front ++ key :: back).filter (· ≠ key) = front ++ back := by
  obtain ⟨-, hback, hdisjoint⟩ := List.nodup_append.mp hnodup
  have hfront : ∀ other ∈ front, other ≠ key :=
    fun other hother => hdisjoint other hother key List.mem_cons_self
  have hback' : ∀ other ∈ back, other ≠ key := by
    rintro other hother rfl
    exact (List.nodup_cons.mp hback).1 hother
  rw [List.filter_append, List.filter_cons_of_neg (by simp),
    List.filter_eq_self.mpr (by simpa using hfront), List.filter_eq_self.mpr (by simpa using hback')]

/-- The keys without one, after it was unlinked. -/
theorem Holds.unlink (hholds : cache.Holds keys held)
    (hentry : cache.store.get? key = some entry) :
    (cache.unlink key entry).chain.Spells (keys.filter (· ≠ key)) ∧
      (cache.unlink key entry).held = held := by
  obtain ⟨front, back, rfl, hprev, hnext⟩ := hholds.neighbours hentry
  obtain ⟨hchain, hheld⟩ := chain_unlink hentry hprev hnext
  rw [hchain, filter_ne_append hholds.spells.nodup]
  exact ⟨hholds.spells.unlink, hheld.trans hholds.content⟩

theorem Holds.moveToHead (hholds : cache.Holds keys held)
    (hentry : cache.store.get? key = some entry) :
    (cache.moveToHead key entry).Holds (key :: keys.filter (· ≠ key)) held := by
  have hmem : key ∈ keys := hholds.mem_iff.mp (by rw [hentry]; rfl)
  have hkeys : ∀ other, (held other).isSome = true ↔ other ∈ key :: keys.filter (· ≠ key) := by
    intro other
    rw [hholds.keys other, List.mem_cons, List.mem_filter]
    by_cases heq : other = key
    · simp [heq, hmem]
    · simp [heq]
  have hnonempty : "" ∉ key :: keys.filter (· ≠ key) := by
    intro hempty
    obtain rfl | hempty := List.mem_cons.mp hempty
    · exact hholds.nonempty hmem
    · exact hholds.nonempty (List.mem_filter.mp hempty).1
  unfold LinkedCache.moveToHead
  split
  next hhead =>
    have hfirst : keys.head? = some key := hholds.spells.head.symm.trans hhead
    obtain ⟨rest, rfl⟩ := List.head?_eq_some_iff.mp hfirst
    have hrest : (key :: rest).filter (· ≠ key) = rest :=
      filter_ne_append (List.nil_append (key :: rest) ▸ hholds.spells.nodup)
    refine ⟨?_, hnonempty, hholds.content, hkeys⟩
    rw [hrest]
    exact hholds.spells
  next =>
    obtain ⟨hspells, hheld⟩ := hholds.unlink hentry
    have hnot : key ∉ keys.filter (· ≠ key) := by simp
    have hpresent : ((cache.unlink key entry).chain.links key).isSome = true := by
      rw [isSome_links, ← isSome_held, hheld, hholds.keys]
      exact hmem
    dsimp only
    generalize cache.unlink key entry = unlinked at hspells hheld hpresent ⊢
    have hhead : unlinked.head ≠ some "" := by
      intro hempty
      have hfirst := List.mem_of_head? (hspells.head.symm.trans hempty)
      exact hholds.nonempty (List.mem_filter.mp hfirst).1
    have hne : unlinked.head ≠ some key := fun hfirst =>
      hnot (List.mem_of_head? (hspells.head.symm.trans hfirst))
    -- The entry gets its new neighbours first, and the old head its new one then.
    have hlinks : ((unlinked.modifyEntry key fun e =>
        { e with prev := none, next := unlinked.head }).chain.links) =
        Function.update unlinked.chain.links key (some ⟨none, unlinked.head⟩) := by
      obtain ⟨l, hl⟩ := Option.isSome_iff_exists.mp hpresent
      rw [links_modifyEntry (fun _ => ⟨none, unlinked.head⟩) fun _ => rfl, hl, Option.map_some]
    have hheld' : (unlinked.modifyEntry key fun e =>
        { e with prev := none, next := unlinked.head }).held = unlinked.held :=
      held_modifyEntry fun e => ⟨rfl, rfl⟩
    have hhead' : (unlinked.modifyEntry key fun e =>
        { e with prev := none, next := unlinked.head }).head = unlinked.head := head_modifyEntry _
    have htail' : (unlinked.modifyEntry key fun e =>
        { e with prev := none, next := unlinked.head }).tail = unlinked.tail := tail_modifyEntry _
    generalize (unlinked.modifyEntry key fun e =>
      { e with prev := none, next := unlinked.head }) = linked at hlinks hheld' hhead' htail' ⊢
    have hheadLinked : linked.head ≠ some "" := hhead' ▸ hhead
    obtain ⟨hchain, hheld''⟩ := chain_linkBeforeHead hheadLinked key
    rw [Chain.ext_iff] at hchain
    obtain ⟨-, htail'', hlinks''⟩ := hchain
    have hpushed : ({ linked.linkBeforeHead key with
        head := some key
        tail := if (linked.linkBeforeHead key).tail = none then some key
          else (linked.linkBeforeHead key).tail } : LinkedCache V).chain =
        unlinked.chain.pushFront key := by
      refine Chain.ext rfl (tail_eq_or (htail''.trans htail')) (hlinks''.trans ?_)
      rw [hlinks, hhead', patchPrev_update hne]
      rfl
    refine ⟨?_, hnonempty, hheld''.trans (hheld'.trans hheld), hkeys⟩
    rw [hpushed]
    exact hspells.pushFront hnot

/-- A cache from whose map a key is removed that is no longer in its list. -/
theorem holds_erase (hspells : cache.chain.Spells (keys.filter (· ≠ key)))
    (hnonempty : "" ∉ keys) (hheld : cache.held = held)
    (hkeys : ∀ key, (held key).isSome = true ↔ key ∈ keys) :
    ({ cache with store := cache.store.delete key } : LinkedCache V).Holds
      (keys.filter (· ≠ key)) (Function.update held key none) := by
  have hnot : key ∉ keys.filter (· ≠ key) := by simp
  have hchain : ({ cache with store := cache.store.delete key } : LinkedCache V).chain =
      cache.chain.erase key := by
    refine Chain.ext rfl rfl (funext fun other => ?_)
    simp only [chain, Chain.erase, Function.update_apply, OrderedMap.get?_delete]
    split <;> rfl
  constructor
  case spells =>
    rw [hchain]
    exact hspells.erase hnot
  case nonempty => exact fun hempty => hnonempty (List.mem_filter.mp hempty).1
  case content =>
    funext other
    rw [← hheld]
    simp only [LinkedCache.held, Function.update_apply, OrderedMap.get?_delete]
    split <;> rfl
  case keys =>
    intro other
    rw [List.mem_filter, ← hkeys, Function.update_apply]
    by_cases heq : other = key <;> simp [heq]

theorem Holds.delete (hholds : cache.Holds keys held) (key : String) :
    (cache.delete key).1 = decide (key ∈ keys) ∧
      (cache.delete key).2.Holds (keys.filter (· ≠ key)) (Function.update held key none) := by
  unfold LinkedCache.delete
  split
  next hnone =>
    have hnot : key ∉ keys := by
      rw [← hholds.mem_iff, hnone]
      simp
    have hheld : held key = none := by
      rw [← Option.not_isSome_iff_eq_none, hholds.keys]
      exact hnot
    have hsame : keys.filter (· ≠ key) = keys := by
      refine List.filter_eq_self.mpr fun other hother => ?_
      simp only [ne_eq, decide_not, Bool.not_eq_true', decide_eq_false_iff_not]
      rintro rfl
      exact hnot hother
    rw [hsame, ← hheld, Function.update_eq_self]
    exact ⟨by simp [hnot], hholds⟩
  next entry hentry =>
    have hmem : key ∈ keys := hholds.mem_iff.mp (by rw [hentry]; rfl)
    obtain ⟨hspells, hheld⟩ := hholds.unlink hentry
    exact ⟨by simp [hmem], holds_erase hspells hholds.nonempty hheld hholds.keys⟩

theorem Holds.evictTail {front : List String} {last : String}
    (hholds : cache.Holds (front ++ [last]) held) :
    cache.evictTail.Holds front (Function.update held last none) := by
  have hmem : last ∈ front ++ [last] := by simp
  have htail : cache.tail = some last :=
    hholds.spells.tail.trans List.getLast?_concat
  have hne : cache.tail ≠ some "" := by
    rw [htail]
    rintro ⟨⟩
    exact hholds.nonempty hmem
  have hfilter : (front ++ [last]).filter (· ≠ last) = front :=
    (filter_ne_append hholds.spells.nodup).trans (List.append_nil front)
  obtain ⟨entry, hentry⟩ := Option.isSome_iff_exists.mp (hholds.mem_iff.mpr hmem)
  obtain ⟨hspells, hheld⟩ := hholds.unlink hentry
  have herased := holds_erase hspells hholds.nonempty hheld hholds.keys
  rw [hfilter] at herased
  unfold LinkedCache.evictTail
  rw [truthy_of_ne hne, htail]
  dsimp only
  rw [hentry]
  exact herased

/-- A new key comes first. -/
theorem Holds.insert (hholds : cache.Holds keys held) (hkey : key ∉ keys) (hne : key ≠ "")
    (value : V) (expiresAt : ℚ) :
    ({ cache.linkBeforeHead key with
      head := some key
      tail := if (cache.linkBeforeHead key).tail = none then some key
        else (cache.linkBeforeHead key).tail
      store := (cache.linkBeforeHead key).store.set key ⟨value, expiresAt, none, cache.head⟩ } :
        LinkedCache V).Holds (key :: keys) (Function.update held key (some (value, expiresAt))) := by
  obtain ⟨hchain, hheld⟩ := chain_linkBeforeHead hholds.head_ne key
  rw [Chain.ext_iff] at hchain
  obtain ⟨-, htail, hlinks⟩ := hchain
  have hpushed : ({ cache.linkBeforeHead key with
      head := some key
      tail := if (cache.linkBeforeHead key).tail = none then some key
        else (cache.linkBeforeHead key).tail
      store := (cache.linkBeforeHead key).store.set key ⟨value, expiresAt, none, cache.head⟩ } :
        LinkedCache V).chain = cache.chain.pushFront key := by
    refine Chain.ext rfl (tail_eq_or htail) (funext fun other => ?_)
    have hother := congrFun hlinks other
    simp only [chain, Chain.pushFront, Function.update_apply, OrderedMap.get?_set] at hother ⊢
    by_cases heq : other = key
    · simp [heq]
    · rw [if_neg (Ne.symm heq), if_neg heq]
      exact hother
  constructor
  case spells =>
    rw [hpushed]
    exact hholds.spells.pushFront hkey
  case nonempty =>
    rw [List.mem_cons, not_or]
    exact ⟨hne.symm, hholds.nonempty⟩
  case content =>
    funext other
    have hother := congrFun (hheld.trans hholds.content) other
    simp only [LinkedCache.held, Function.update_apply, OrderedMap.get?_set] at hother ⊢
    by_cases heq : other = key
    · simp [heq]
    · rw [if_neg (Ne.symm heq), if_neg heq]
      exact hother
  case keys =>
    intro other
    rw [List.mem_cons, ← hholds.keys, Function.update_apply]
    by_cases heq : other = key <;> simp [heq]

/-- The value and the expiry of an entry are changed in place. -/
theorem Holds.setValue (hholds : cache.Holds keys held) (hentry : cache.store.get? key = some entry)
    (value : V) (expiresAt : ℚ) :
    ({ cache with store := cache.store.set key { entry with value, expiresAt } } :
      LinkedCache V).Holds keys (Function.update held key (some (value, expiresAt))) := by
  have hmem : key ∈ keys := hholds.mem_iff.mp (by rw [hentry]; rfl)
  have hchain : ({ cache with store := cache.store.set key { entry with value, expiresAt } } :
      LinkedCache V).chain = cache.chain := by
    refine Chain.ext rfl rfl (funext fun other => ?_)
    simp only [chain, OrderedMap.get?_set]
    split
    next heq => rw [← heq, hentry, Option.map_some, Option.map_some]
    next => rfl
  constructor
  case spells =>
    rw [hchain]
    exact hholds.spells
  case nonempty => exact hholds.nonempty
  case content =>
    funext other
    rw [← hholds.content]
    simp only [LinkedCache.held, Function.update_apply, OrderedMap.get?_set]
    by_cases heq : other = key
    · simp [heq]
    · rw [if_neg (Ne.symm heq), if_neg heq]
  case keys =>
    intro other
    rw [← hholds.keys, Function.update_apply]
    by_cases heq : other = key
    · simp [heq, hholds.keys, hmem]
    · simp [heq]

end LinkedCache

end Coivitas.Policy.Revocation
