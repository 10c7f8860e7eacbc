import Coivitas.Policy.CacheRefinement
import Coivitas.Policy.RevocationApi

/-! # Tenants in one revocation cache

The cache of all tenants has one map, and a tenant is told from another by the text in
front of a colon. Where no tenant and its colon begin a key of another tenant, the calls
for one tenant leave the answers for the others alone; where one does, they do not.
-/

namespace Coivitas.Policy.Revocation

open Foundation RevocationCache

/-! ## Calls for a tenant -/

/-- The calls on a `RevocationCache`. -/
inductive TenantCall where
  | get (now : ℚ) (tenantId tokenId : String)
  | set (now : ℚ) (tenantId tokenId : String) (revoked : Bool)
  | invalidateToken (tenantId tokenId : String)
  | invalidateTenant (tenantId : String)
  | invalidateAll

namespace TenantCall

def cacheCall : TenantCall → CacheCall Bool
  | get now tenantId tokenId => .get now (cacheKey tenantId tokenId)
  | set now tenantId tokenId revoked => .set now (cacheKey tenantId tokenId) revoked
  | invalidateToken tenantId tokenId => .delete (cacheKey tenantId tokenId)
  | invalidateTenant tenantId => .clear (some (tenantId ++ ":"))
  | invalidateAll => .clear none

/-- The tenant for which something is written or dropped. -/
def tenant? : TenantCall → Option String
  | set _ tenantId _ _ => some tenantId
  | invalidateToken tenantId _ => some tenantId
  | invalidateTenant tenantId => some tenantId
  | _ => none

/-- The call writes or drops the answer for a pair. -/
def Concerns (tenantId tokenId : String) : TenantCall → Prop
  | get _ _ _ => False
  | set _ tenantId' tokenId' _ => tenantId' = tenantId ∧ tokenId' = tokenId
  | invalidateToken tenantId' tokenId' => tenantId' = tenantId ∧ tokenId' = tokenId
  | invalidateTenant tenantId' => tenantId' = tenantId
  | invalidateAll => True

/-- The call is for pairs that are in use. -/
def Within (used : Set (String × String)) : TenantCall → Prop
  | get _ tenantId tokenId => (tenantId, tokenId) ∈ used
  | set _ tenantId tokenId _ => (tenantId, tokenId) ∈ used
  | invalidateToken tenantId tokenId => (tenantId, tokenId) ∈ used
  | invalidateTenant tenantId => ∃ tokenId, (tenantId, tokenId) ∈ used
  | invalidateAll => True

end TenantCall

/-- The cache after the calls. -/
def afterCalls (calls : List TenantCall) (cache : LinkedCache Bool) : LinkedCache Bool :=
  (performAll LinkedCache.perform (calls.map TenantCall.cacheCall) cache).2

/-- What `get` answers. -/
def answer (now : ℚ) (tenantId tokenId : String) (cache : LinkedCache Bool) : Option Bool :=
  (cache.get now (cacheKey tenantId tokenId)).1

/-- The call is a write for a new key into a full cache, and the key is the tail. -/
def Evicts (cache : LinkedCache Bool) (key : String) : TenantCall → Prop
  | .set _ tenantId tokenId _ => cache.store.has (cacheKey tenantId tokenId) = false ∧
      cache.limits.maxSize ≤ cache.size ∧ cache.tail = some key
  | _ => False

/-- The answer for a pair, at every time, is as it was before the call, unless the call evicted
the entry of the pair. -/
def Undisturbed (cache : LinkedCache Bool) (call : TenantCall) (tenantId tokenId : String) :
    Prop :=
  ∀ now, answer now tenantId tokenId (afterCalls [call] cache) =
      answer now tenantId tokenId cache ∨
    Evicts cache (cacheKey tenantId tokenId) call ∧
      answer now tenantId tokenId (afterCalls [call] cache) = none

/-- The value was set for exactly the pair, and no call since then concerned the pair. -/
def LastSet (calls : List TenantCall) (tenantId tokenId : String) (revoked : Bool) : Prop :=
  ∃ before now after, calls = before ++ .set now tenantId tokenId revoked :: after ∧
    ∀ call ∈ after, ¬ call.Concerns tenantId tokenId

/-- In every run of calls for pairs in use, a call for one tenant leaves the answers for the
others alone, and an answer for a pair was set for that pair. -/
structure Isolated (used : Set (String × String)) : Prop where
  undisturbed : ∀ (maxSize ttlMs : ℚ) cache, LinkedCache.create maxSize ttlMs = .ok cache →
    ∀ calls, (∀ call ∈ calls, call.Within used) → ∀ call, call.Within used →
      ∀ tenant, call.tenant? = some tenant → ∀ tenantId tokenId, (tenantId, tokenId) ∈ used →
        tenantId ≠ tenant → Undisturbed (afterCalls calls cache) call tenantId tokenId
  written : ∀ (maxSize ttlMs : ℚ) cache, LinkedCache.create maxSize ttlMs = .ok cache →
    ∀ calls, (∀ call ∈ calls, call.Within used) →
      ∀ tenantId tokenId, (tenantId, tokenId) ∈ used → ∀ now revoked,
        answer now tenantId tokenId (afterCalls calls cache) = some revoked →
          LastSet calls tenantId tokenId revoked

/-- No tenant and its colon begin a key of another tenant. -/
def NoClash (used : Set (String × String)) : Prop :=
  ∀ pair ∈ used, ∀ other ∈ used, pair.1 ≠ other.1 →
    ¬ (cacheKey other.1 other.2).startsWith (pair.1 ++ ":") = true

/-! ## Keys -/

variable {used : Set (String × String)} {tenantId tokenId tenantId' tokenId' : String}

theorem cacheKey_startsWith (tenantId tokenId : String) :
    (cacheKey tenantId tokenId).startsWith (tenantId ++ ":") = true := by
  have htext : (cacheKey tenantId tokenId).toList = (tenantId ++ ":").toList ++ tokenId.toList :=
    String.toList_append
  rw [String.startsWith_string_iff, htext]
  exact List.prefix_append _ _

/-- Two pairs in use have a key in common only if they are the same. -/
theorem NoClash.cacheKey_inj (hclash : NoClash used) (hused : (tenantId, tokenId) ∈ used)
    (hused' : (tenantId', tokenId') ∈ used)
    (hkey : cacheKey tenantId tokenId = cacheKey tenantId' tokenId') :
    tenantId = tenantId' ∧ tokenId = tokenId' := by
  have htenant : tenantId = tenantId' := by
    by_contra hne
    refine hclash _ hused _ hused' hne ?_
    rw [← hkey]
    exact cacheKey_startsWith _ _
  subst htenant
  refine ⟨rfl, ?_⟩
  rw [cacheKey, cacheKey, String.append_right_inj] at hkey
  exact hkey

theorem takeWhile_colon {text : List Char} (htext : ':' ∉ text) (rest : List Char) :
    (text ++ [':'] ++ rest).takeWhile (· ≠ ':') = text := by
  have hall : ∀ c ∈ text, decide (c ≠ ':') = true := by
    rintro c hc
    simpa using fun heq : c = ':' => htext (heq ▸ hc)
  rw [List.append_assoc, List.takeWhile_append_of_pos hall, List.singleton_append,
    List.takeWhile_cons_of_neg (by simp), List.append_nil]

/-- Tenants without a colon do not clash. -/
theorem noClash_of_no_colon (hcolon : ∀ pair ∈ used, ':' ∉ pair.1.toList) : NoClash used := by
  intro pair hpair other hother hne hprefix
  rw [String.startsWith_string_iff] at hprefix
  obtain ⟨rest, hrest⟩ := hprefix
  rw [cacheKey, String.toList_append, String.toList_append, String.toList_append] at hrest
  have hsame := congrArg (List.takeWhile (· ≠ ':')) hrest
  rw [show ":".toList = [':'] from rfl, takeWhile_colon (hcolon pair hpair),
    takeWhile_colon (hcolon other hother)] at hsame
  exact hne (String.toList_injective hsame)

/-! ## What a call leaves in the list -/

variable {cache : LruTtlCache String Bool} {calls : List TenantCall} {revoked : Bool}

theorem lastSet_set (now : ℚ) : LastSet (calls ++ [.set now tenantId tokenId revoked]) tenantId
    tokenId revoked :=
  ⟨calls, now, [], rfl, by simp⟩

theorem LastSet.append {call : TenantCall} (hlast : LastSet calls tenantId tokenId revoked)
    (hnot : ¬ call.Concerns tenantId tokenId) :
    LastSet (calls ++ [call]) tenantId tokenId revoked := by
  obtain ⟨before, now, after, rfl, hafter⟩ := hlast
  refine ⟨before, now, after ++ [call], by simp, ?_⟩
  simpa [or_imp, forall_and] using ⟨hafter, hnot⟩

/-- What the list holds for a pair in use was set last for the pair. -/
def Written (used : Set (String × String)) (calls : List TenantCall)
    (cache : LruTtlCache String Bool) : Prop :=
  ∀ tenantId tokenId, (tenantId, tokenId) ∈ used → ∀ revoked,
    cache.peek (cacheKey tenantId tokenId) = some revoked →
      LastSet calls tenantId tokenId revoked

theorem Written.perform (hclash : NoClash used) (hwritten : Written used calls cache)
    {call : TenantCall} (hwithin : call.Within used) :
    Written used (calls ++ [call]) (performOnList cache call.cacheCall).2 := by
  intro tenantId tokenId hused revoked hheld
  cases call with
  | get now tenantId' tokenId' =>
      exact (hwritten _ _ hused _ (LruTtlCache.peek_get hheld)).append id
  | set now tenantId' tokenId' revoked' =>
      obtain ⟨hkey, rfl⟩ | ⟨hne, hheld⟩ := LruTtlCache.peek_set hheld
      · obtain ⟨rfl, rfl⟩ := hclash.cacheKey_inj hused hwithin hkey
        exact lastSet_set now
      · refine (hwritten _ _ hused _ hheld).append ?_
        rintro ⟨rfl, rfl⟩
        exact hne rfl
  | invalidateToken tenantId' tokenId' =>
      obtain ⟨hheld, hne⟩ := LruTtlCache.peek_delete hheld
      refine (hwritten _ _ hused _ hheld).append ?_
      rintro ⟨rfl, rfl⟩
      exact hne rfl
  | invalidateTenant tenantId' =>
      obtain ⟨hheld, hkept⟩ := LruTtlCache.peek_keep hheld
      refine (hwritten _ _ hused _ hheld).append ?_
      rintro rfl
      simp [cacheKey_startsWith] at hkept
  | invalidateAll =>
      obtain ⟨-, hkept⟩ := LruTtlCache.peek_keep hheld
      cases hkept

/-- A call for another tenant keeps what the list holds for a pair, or evicts it. -/
theorem find?_of_other (hclash : NoClash used) (hused : (tenantId, tokenId) ∈ used)
    {call : TenantCall} (hwithin : call.Within used) {tenant : String}
    (htenant : call.tenant? = some tenant) (hne : tenantId ≠ tenant) :
    (performOnList cache call.cacheCall).2.find? (cacheKey tenantId tokenId) =
        cache.find? (cacheKey tenantId tokenId) ∨
      ∃ now tokenId' revoked, call = .set now tenant tokenId' revoked ∧
        cache.find? (cacheKey tenant tokenId') = none ∧
        cache.maxSize ≤ cache.entries.length ∧
        cache.entries.getLast?.map LruEntry.key = some (cacheKey tenantId tokenId) ∧
        (performOnList cache call.cacheCall).2.find? (cacheKey tenantId tokenId) = none := by
  have hkey : ∀ tokenId', (tenant, tokenId') ∈ used →
      cacheKey tenantId tokenId ≠ cacheKey tenant tokenId' :=
    fun tokenId' hused' hkey => hne (hclash.cacheKey_inj hused hused' hkey).1
  cases call with
  | get now tenantId' tokenId' => cases htenant
  | set now tenantId' tokenId' revoked =>
      obtain rfl := Option.some.inj htenant
      obtain hsame | hevicted := LruTtlCache.find?_set_of_ne (hkey tokenId' hwithin)
      · exact .inl hsame
      · exact .inr ⟨now, tokenId', revoked, rfl, hevicted⟩
  | invalidateToken tenantId' tokenId' =>
      obtain rfl := Option.some.inj htenant
      exact .inl ((LruTtlCache.find?_delete _ _).trans (if_neg (hkey tokenId' hwithin)))
  | invalidateTenant tenantId' =>
      obtain rfl := Option.some.inj htenant
      obtain ⟨tokenId', hused'⟩ := hwithin
      have hkept := hclash _ hused' _ hused (Ne.symm hne)
      refine .inl ((LruTtlCache.find?_keep _ _).trans (if_pos ?_))
      simpa using hkept
  | invalidateAll => cases htenant

/-! ## Runs -/

/-- The calls on a new cache, as on the list. -/
theorem Represents.afterCalls {linked : LinkedCache Bool} (hrep : Represents linked cache)
    (calls : List TenantCall) : Represents (Revocation.afterCalls calls linked)
      (Revocation.performAll performOnList (calls.map TenantCall.cacheCall) cache).2 := by
  refine (hrep.performAll ?_).2
  intro call hcall
  obtain ⟨tenantCall, -, rfl⟩ := List.mem_map.mp hcall
  have hkey : ∀ tenantId tokenId, cacheKey tenantId tokenId ≠ "" := by
    intro tenantId tokenId hempty
    have hlength := congrArg (List.length ∘ String.toList) hempty
    simp [cacheKey] at hlength
  cases tenantCall with
  | get now tenantId tokenId => exact hkey _ _
  | set now tenantId tokenId revoked => exact hkey _ _
  | invalidateToken tenantId tokenId => exact hkey _ _
  | invalidateTenant tenantId => trivial
  | invalidateAll => trivial

theorem Written.performAll (hclash : NoClash used) {before : List TenantCall}
    (hwritten : Written used before cache) (hwithin : ∀ call ∈ calls, call.Within used) :
    Written used (before ++ calls)
      (Revocation.performAll performOnList (calls.map TenantCall.cacheCall) cache).2 := by
  induction calls generalizing before cache with
  | nil => rwa [List.append_nil]
  | cons call calls ih =>
      obtain ⟨hcall, hwithin⟩ := List.forall_mem_cons.mp hwithin
      rw [List.append_cons]
      exact ih (hwritten.perform hclash hcall) hwithin

theorem Represents.answer_eq {linked : LinkedCache Bool} (hrep : Represents linked cache)
    (now : ℚ) (tenantId tokenId : String) : answer now tenantId tokenId linked =
      (cache.find? (cacheKey tenantId tokenId)).bind fun entry =>
        if entry.expiresAt < now then none else some entry.value :=
  (hrep.get now _).1.trans LruTtlCache.fst_get

theorem Represents.answer_set {linked : LinkedCache Bool} (hrep : Represents linked cache)
    {now later : ℚ} (hlive : later ≤ now + cache.ttlMs) (tenantId tokenId : String)
    (revoked : Bool) : answer later tenantId tokenId
      (Revocation.afterCalls [.set now tenantId tokenId revoked] linked) = some revoked := by
  have hheld : ((Revocation.performAll performOnList [.set now (cacheKey tenantId tokenId) revoked]
      cache).2.find? (cacheKey tenantId tokenId)) = _ := LruTtlCache.find?_set_self
  refine ((hrep.afterCalls _).answer_eq later tenantId tokenId).trans ?_
  rw [List.map_cons, List.map_nil, TenantCall.cacheCall, hheld, Option.bind_some]
  exact if_neg (not_lt.mpr hlive)

/-- Keys that begin with the text of a tenant and a colon are dropped with the tenant. -/
theorem Represents.answer_invalidateTenant {linked : LinkedCache Bool}
    (hrep : Represents linked cache) {tenant : String}
    (hstarts : (cacheKey tenantId tokenId).startsWith (tenant ++ ":") = true) (now : ℚ) :
    answer now tenantId tokenId (Revocation.afterCalls [.invalidateTenant tenant] linked) =
      none := by
  have hheld : ((Revocation.performAll performOnList [.clear (some (tenant ++ ":"))]
      cache).2.find? (cacheKey tenantId tokenId)) = none := by
    refine (LruTtlCache.find?_keep _ _).trans (if_neg ?_)
    simpa using hstarts
  refine ((hrep.afterCalls _).answer_eq now tenantId tokenId).trans ?_
  rw [List.map_cons, List.map_nil, TenantCall.cacheCall, hheld]
  rfl

/-- The tenants in use are isolated exactly when none of them and its colon begin a key of
another one. -/
theorem isolated_iff (used : Set (String × String)) : Isolated used ↔ NoClash used := by
  constructor
  · intro hisolated pair hpair other hother hne hprefix
    obtain ⟨linked, hcreate⟩ := exists_create (V := Bool) (le_refl 1) (le_refl 0)
    have hrep := (represents_create hcreate).2.2
    have hlive : (0 : ℚ) ≤ 0 + linked.limits.ttlMs :=
      le_add_of_nonneg_right linked.limits.ttlMs_nonneg
    have hbefore := hrep.answer_set hlive other.1 other.2 true
    have hafter := (hrep.afterCalls [.set 0 other.1 other.2 true]).answer_invalidateTenant
      hprefix 0
    obtain hsame | ⟨⟨⟩, -⟩ := hisolated.undisturbed _ _ linked hcreate
      [.set 0 other.1 other.2 true] (by simpa [TenantCall.Within] using hother)
      (.invalidateTenant pair.1) ⟨_, hpair⟩ pair.1 rfl other.1 other.2 hother (Ne.symm hne) 0
    rw [hbefore, hafter] at hsame
    cases hsame
  · intro hclash
    constructor
    case undisturbed =>
      intro maxSize ttlMs linked hcreate calls hcalls call hcall tenant htenant tenantId tokenId
        hused hne now
      have hrep := (represents_create hcreate).2.2.afterCalls calls
      have hrep' := hrep.afterCalls [call]
      rw [hrep.answer_eq, hrep'.answer_eq]
      obtain hsame | ⟨_, tokenId', _, rfl, hnew, hfull, hlast, hnone⟩ :=
        find?_of_other hclash hused hcall htenant hne
      · exact .inl (congrArg (Option.bind · _) hsame)
      · refine .inr ⟨⟨?_, ?_, ?_⟩, congrArg (Option.bind · _) hnone⟩
        · have hfind := hrep.find? (cacheKey tenant tokenId')
          rw [hnew, Option.map_none, Option.map_eq_none_iff] at hfind
          rw [OrderedMap.has, hfind]
          rfl
        · rw [hrep.maxSize, hrep.size_eq]
          exact hfull
        · rw [← hlast, ← List.getLast?_map]
          exact hrep.holds.spells.tail
    case written =>
      intro maxSize ttlMs linked hcreate calls hcalls tenantId tokenId hused now revoked hanswer
      have hrep := (represents_create hcreate).2.2
      have hwritten : Written used [] linked.limits.noEntries := by
        intro _ _ _ _ hheld
        cases hheld
      have hgot : (LruTtlCache.get now (cacheKey tenantId tokenId) _).1 = some revoked :=
        ((hrep.afterCalls calls).get now _).1.symm.trans hanswer
      exact hwritten.performAll hclash hcalls _ _ hused _
        (LruTtlCache.get_eq_some (Prod.ext hgot rfl))

/-- Two pairs with one key: what is set for the first is answered for the second, for which
nothing was ever set. -/
theorem answered_for_another : ∃ cache, LinkedCache.create (10000 : ℤ) 30000 = .ok cache ∧
    answer 1 "a:b" "c" (afterCalls [.set 0 "a" "b:c" true] cache) = some true ∧
    ¬ LastSet [.set 0 "a" "b:c" true] "a:b" "c" true ∧
    ¬ Undisturbed cache (.set 0 "a" "b:c" true) "a:b" "c" := by
  obtain ⟨cache, hcreate⟩ := exists_create (V := Bool) (by decide : (1 : ℤ) ≤ 10000)
    (by decide +kernel : (0 : ℚ) ≤ 30000)
  obtain ⟨-, httl, hrep⟩ := represents_create hcreate
  have hlive : (1 : ℚ) ≤ 0 + cache.limits.ttlMs := by
    rw [httl]
    decide +kernel
  have hafter : answer 1 "a:b" "c" (afterCalls [.set 0 "a" "b:c" true] cache) = some true :=
    hrep.answer_set hlive "a" "b:c" true
  refine ⟨cache, hcreate, hafter, ?_, fun hundisturbed => ?_⟩
  · rintro ⟨before, now, after, hcalls, -⟩
    have hmem : TenantCall.set now "a:b" "c" true ∈ [TenantCall.set 0 "a" "b:c" true] := by
      rw [hcalls]
      simp
    simp at hmem
  · have hbefore : answer 1 "a:b" "c" cache = none := hrep.answer_eq 1 "a:b" "c"
    obtain hsame | ⟨-, hnone⟩ := hundisturbed 1
    · rw [hafter, hbefore] at hsame
      cases hsame
    · rw [hafter] at hnone
      cases hnone

end Coivitas.Policy.Revocation
