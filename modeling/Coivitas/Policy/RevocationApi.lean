import Coivitas.Foundation.Json
import Coivitas.Foundation.LruTtlCache
import Coivitas.Foundation.Run

/-! # Revocation lookups

A table of revocations behind a cache in memory. A revocation drops the cache
entry, writes its row and then caches `true`; a lookup asks the cache, then the
table, and caches what the table said. Calls on one instance overlap at every
point where they wait for the database.
-/

namespace Coivitas.Policy.Revocation

open Foundation

/-! ## Records -/

def revocationReasons : List String :=
  ["KEY_COMPROMISE", "AFFILIATION_CHANGED", "SUPERSEDED", "CESSATION_OF_OPERATION",
    "PRIVILEGE_WITHDRAWN", "UNSPECIFIED"]

structure RevocationRecord where
  id : String
  tenantId : String
  tokenId : String
  revokedBy : String
  revokedAt : Int
  reason : String
  listId : String
  listVersion : ℕ
  issuerSignaturePayload : Option Json

structure RevocationWriteInput where
  tenantId : String
  tokenId : String
  revokedBy : String
  reason : Option String
  listId : String
  issuerSignaturePayload : Option Json

def RevocationWriteInput.reasonOrDefault (input : RevocationWriteInput) : String :=
  input.reason.getD "UNSPECIFIED"

inductive RevocationErrorCode where
  | duplicate
  | invalidParams
  | listVersionConflict
  | storeError
  deriving DecidableEq

inductive RevocationWriteResult where
  | ok (record : RevocationRecord)
  | rejected (code : RevocationErrorCode) (message : String)

/-! ## The table -/

def hasRow (rows : List RevocationRecord) (tenantId tokenId : String) : Bool :=
  rows.any fun row => row.tenantId = tenantId ∧ row.tokenId = tokenId

/-- `COALESCE(MAX(list_version), 0) + 1` over the tenant's list. -/
def nextListVersion (rows : List RevocationRecord) (tenantId listId : String) : ℕ :=
  ((rows.filter fun row => row.tenantId = tenantId ∧ row.listId = listId).map
    RevocationRecord.listVersion).foldr max 0 + 1

/-- The checks before the transaction. -/
def checkInput (input : RevocationWriteInput) : Option RevocationWriteResult :=
  if input.tenantId = "" ∨ input.tokenId = "" ∨ input.revokedBy = "" ∨ input.listId = "" then
    some (.rejected .invalidParams "tenantId, tokenId, revokedBy, listId are required")
  else if input.reasonOrDefault ∉ revocationReasons then
    some (.rejected .invalidParams ("Invalid reason: " ++ input.reasonOrDefault ++
      ". Expected one of: " ++ ", ".intercalate revocationReasons))
  else none

/-- What is reported of a transaction that does not end well. -/
inductive StoreFailure where
  /-- The violation of a unique index, with its name. -/
  | uniqueViolation (constraint message : String)
  | error (message : String)
  | noRow
  /-- The connection or the rollback fails too, and the call throws. -/
  | thrown (message : String)

inductive TransactionOutcome where
  | committed
  /-- A failure, before the row is committed or after it. -/
  | failed (stored : Bool) (failure : StoreFailure)

/-- `constraint.includes('list_version')`. -/
def namesListVersion (constraint : String) : Bool :=
  constraint.toList.tails.any fun tail => "list_version".toList.isPrefixOf tail

def StoreFailure.result : StoreFailure → Except String RevocationWriteResult
  | .uniqueViolation constraint message =>
      if namesListVersion constraint = true then
        .ok (.rejected .listVersionConflict
          ("Concurrent list_version conflict on constraint '" ++ constraint ++ "': " ++ message))
      else .ok (.rejected .storeError ("DB error during revoke: " ++ message))
  | .error message => .ok (.rejected .storeError ("DB error during revoke: " ++ message))
  | .noRow => .ok (.rejected .storeError "INSERT returned no row (unexpected)")
  | .thrown message => .error message

/-- The transaction of a revocation, with the identifier and the time that its row gets. A run in
which it commits is one of a database that reads `MAX(list_version)` under the lock that the
statement asks for; PostgreSQL refuses this statement. -/
def transact (rows : List RevocationRecord) (input : RevocationWriteInput) (id : String)
    (revokedAt : Int) (outcome : TransactionOutcome) :
    Except String RevocationWriteResult × List RevocationRecord :=
  if hasRow rows input.tenantId input.tokenId = true then
    (.ok (.rejected .duplicate ("token_id '" ++ input.tokenId ++
      "' is already revoked in tenant '" ++ input.tenantId ++ "'")), rows)
  else
    let record : RevocationRecord :=
      ⟨id, input.tenantId, input.tokenId, input.revokedBy, revokedAt, input.reasonOrDefault,
        input.listId, nextListVersion rows input.tenantId input.listId,
        input.issuerSignaturePayload⟩
    match outcome with
    | .committed => (.ok (.ok record), rows ++ [record])
    | .failed stored failure => (failure.result, if stored then rows ++ [record] else rows)

/-! ## The cache -/

abbrev RevocationCache := LruTtlCache String Bool

namespace RevocationCache

/-- `new RevocationCache(opts)` with its defaults. -/
def create (maxSize ttlMs : Option ℚ) : Except String RevocationCache :=
  let maxSize := maxSize.getD 10000
  let ttlMs := ttlMs.getD 30000
  if hsize : maxSize < 1 then .error "LruTtlCache: maxSize must be >= 1"
  else if httl : ttlMs < 0 then .error "LruTtlCache: ttlMs must be >= 0"
  else .ok ⟨maxSize, ttlMs, [], not_lt.mp hsize, not_lt.mp httl, List.nodup_nil⟩

/-- The tenant and the token, with nothing that keeps their texts apart. -/
def cacheKey (tenantId tokenId : String) : String := tenantId ++ ":" ++ tokenId

def invalidateToken (tenantId tokenId : String) (cache : RevocationCache) : RevocationCache :=
  cache.delete (cacheKey tenantId tokenId)

def invalidateTenant (tenantId : String) (cache : RevocationCache) : RevocationCache :=
  cache.clear fun key => key.startsWith (tenantId ++ ":")

end RevocationCache

open RevocationCache (cacheKey)

/-! ## Calls in flight -/

/-- A call on the instance. A lookup carries whether a revocation of its token had returned
when it started. -/
inductive RunningCall where
  | revoking (input : RevocationWriteInput) (result : Option (Except String RevocationWriteResult))
  | reading (tenantId tokenId : String) (late : Bool) (found : Option (Except String Bool))
  | returned

/-- What a lookup returned. -/
structure Answer where
  tenantId : String
  tokenId : String
  late : Bool
  revoked : Bool

/-- One instance with its table, the calls made on it by their number, the tokens whose
revocation has returned `ok` and the answers of the lookups. -/
structure RevocationApi where
  cache : RevocationCache
  rows : List RevocationRecord
  calls : List RunningCall
  acknowledged : List (String × String)
  answers : List Answer

def RevocationApi.start (cache : RevocationCache) (rows : List RevocationRecord) : RevocationApi :=
  ⟨cache, rows, [], [], []⟩

inductive Event where
  | revoke (input : RevocationWriteInput)
  /-- The transaction of a revocation ends in the database. -/
  | transacted (call : ℕ) (id : String) (revokedAt : Int) (outcome : TransactionOutcome)
  | revokeReturns (call : ℕ) (now : ℚ)
  | isRevoked (tenantId tokenId : String) (now : ℚ)
  /-- The query of a lookup is evaluated in the database, or fails. -/
  | queried (call : ℕ) (failure : Option String)
  | isRevokedReturns (call : ℕ) (now : ℚ)
  | invalidateCacheToken (tenantId tokenId : String)
  | invalidateCacheTenant (tenantId : String)

namespace RevocationApi

/-- The part of `revoke` before it waits. -/
def revoke (input : RevocationWriteInput) (api : RevocationApi) : RevocationApi :=
  { api with
    cache := api.cache.invalidateToken input.tenantId input.tokenId
    calls := api.calls ++ [.revoking input ((checkInput input).map .ok)] }

def transacted (call : ℕ) (id : String) (revokedAt : Int) (outcome : TransactionOutcome)
    (api : RevocationApi) : Option RevocationApi :=
  match api.calls[call]? with
  | some (.revoking input none) =>
      let (result, rows) := transact api.rows input id revokedAt outcome
      some { api with rows, calls := api.calls.set call (.revoking input (some result)) }
  | _ => none

/-- The part of `revoke` after the store has answered. -/
def revokeReturns (call : ℕ) (now : ℚ) (api : RevocationApi) : Option RevocationApi :=
  match api.calls[call]? with
  | some (.revoking input (some (.ok (.ok _)))) =>
      some { api with
        cache := api.cache.set now (cacheKey input.tenantId input.tokenId) true
        calls := api.calls.set call .returned
        acknowledged := (input.tenantId, input.tokenId) :: api.acknowledged }
  | some (.revoking _ (some _)) => some { api with calls := api.calls.set call .returned }
  | _ => none

/-- The part of `isRevoked` before it waits: a hit returns at once. -/
def isRevoked (tenantId tokenId : String) (now : ℚ) (api : RevocationApi) : RevocationApi :=
  let late := decide ((tenantId, tokenId) ∈ api.acknowledged)
  match api.cache.get now (cacheKey tenantId tokenId) with
  | (some cached, cache) =>
      { api with cache, answers := ⟨tenantId, tokenId, late, cached⟩ :: api.answers }
  | (none, cache) => { api with cache, calls := api.calls ++ [.reading tenantId tokenId late none] }

def queried (call : ℕ) (failure : Option String) (api : RevocationApi) : Option RevocationApi :=
  match api.calls[call]? with
  | some (.reading tenantId tokenId late none) =>
      let found := match failure with
        | some message => .error message
        | none => .ok (hasRow api.rows tenantId tokenId)
      some { api with calls := api.calls.set call (.reading tenantId tokenId late (some found)) }
  | _ => none

/-- The part of `isRevoked` after the table has answered: the answer is cached. -/
def isRevokedReturns (call : ℕ) (now : ℚ) (api : RevocationApi) : Option RevocationApi :=
  match api.calls[call]? with
  | some (.reading tenantId tokenId late (some (.ok revoked))) =>
      some { api with
        cache := api.cache.set now (cacheKey tenantId tokenId) revoked
        calls := api.calls.set call .returned
        answers := ⟨tenantId, tokenId, late, revoked⟩ :: api.answers }
  | some (.reading _ _ _ (some (.error _))) =>
      some { api with calls := api.calls.set call .returned }
  | _ => none

def step (api : RevocationApi) : Event → Option RevocationApi
  | .revoke input => some (api.revoke input)
  | .transacted call id revokedAt outcome => api.transacted call id revokedAt outcome
  | .revokeReturns call now => api.revokeReturns call now
  | .isRevoked tenantId tokenId now => some (api.isRevoked tenantId tokenId now)
  | .queried call failure => api.queried call failure
  | .isRevokedReturns call now => api.isRevokedReturns call now
  | .invalidateCacheToken tenantId tokenId =>
      some { api with cache := api.cache.invalidateToken tenantId tokenId }
  | .invalidateCacheTenant tenantId =>
      some { api with cache := api.cache.invalidateTenant tenantId }

/-- Every lookup that started after a revocation of its token had returned finds it. -/
def Visible (api : RevocationApi) : Prop :=
  ∀ answer ∈ api.answers, answer.late = true → answer.revoked = true

instance (api : RevocationApi) : Decidable api.Visible :=
  inferInstanceAs (Decidable (∀ answer ∈ api.answers, _))

/-- A lookup does not cache that a token is not revoked once a revocation under the same
cache key has returned. -/
def NoStaleBackfill (api : RevocationApi) : Event → Prop
  | .isRevokedReturns call _ =>
      match api.calls[call]? with
      | some (.reading tenantId tokenId _ (some (.ok false))) =>
          ∀ token ∈ api.acknowledged, cacheKey token.1 token.2 ≠ cacheKey tenantId tokenId
      | _ => True
  | _ => True

instance (api : RevocationApi) (event : Event) : Decidable (api.NoStaleBackfill event) := by
  unfold NoStaleBackfill
  repeat' split
  all_goals infer_instance

/-! ## The invariant -/

/-- What a call in flight may rely on: a revocation that ends well has its row, and a late
lookup is about a token whose revocation has returned and finds it. -/
def CallInv (rows : List RevocationRecord) (acknowledged : List (String × String)) :
    RunningCall → Prop
  | .revoking input (some (.ok (.ok _))) => hasRow rows input.tenantId input.tokenId = true
  | .revoking _ _ => True
  | .reading tenantId tokenId late found => late = true →
      (tenantId, tokenId) ∈ acknowledged ∧ found ≠ some (.ok false)
  | .returned => True

structure Inv (api : RevocationApi) : Prop where
  stored : ∀ token ∈ api.acknowledged, hasRow api.rows token.1 token.2 = true
  cached : ∀ token ∈ api.acknowledged, api.cache.peek (cacheKey token.1 token.2) ≠ some false
  calls : ∀ call ∈ api.calls, CallInv api.rows api.acknowledged call
  visible : api.Visible

theorem hasRow_append {rows rows' : List RevocationRecord} {tenantId tokenId : String}
    (hrow : hasRow rows tenantId tokenId = true) : hasRow (rows ++ rows') tenantId tokenId = true := by
  simp only [hasRow, List.any_append, Bool.or_eq_true]
  exact .inl hrow

theorem CallInv.mono {rows rows' : List RevocationRecord}
    {acknowledged acknowledged' : List (String × String)} {call : RunningCall}
    (hcall : CallInv rows acknowledged call) (hrows : rows <+: rows')
    (hacknowledged : acknowledged ⊆ acknowledged') : CallInv rows' acknowledged' call := by
  obtain ⟨more, rfl⟩ := hrows
  unfold CallInv at hcall ⊢
  split
  next => exact hasRow_append hcall
  next => trivial
  next =>
    intro hlate
    obtain ⟨hmem, hfound⟩ := hcall hlate
    exact ⟨hacknowledged hmem, hfound⟩
  next => trivial

/-- The rows only grow, and a result that is `ok` has its row. -/
theorem transact_spec (rows : List RevocationRecord) (input : RevocationWriteInput) (id : String)
    (revokedAt : Int) (outcome : TransactionOutcome) :
    rows <+: (transact rows input id revokedAt outcome).2 ∧
      ∀ record, (transact rows input id revokedAt outcome).1 = .ok (.ok record) →
        hasRow (transact rows input id revokedAt outcome).2 input.tenantId input.tokenId =
          true := by
  unfold transact
  split
  next => exact ⟨List.prefix_rfl, by simp⟩
  next =>
    cases outcome with
    | committed => exact ⟨List.prefix_append _ _, fun _ _ => by simp [hasRow]⟩
    | failed stored failure =>
        refine ⟨?_, fun record hok => ?_⟩
        · dsimp only
          split
          next => exact List.prefix_append _ _
          next => exact List.prefix_rfl
        · cases failure with
          | uniqueViolation constraint message =>
              simp only [StoreFailure.result] at hok
              split at hok <;> simp at hok
          | error message => simp [StoreFailure.result] at hok
          | noRow => simp [StoreFailure.result] at hok
          | thrown message => simp [StoreFailure.result] at hok

theorem forall_mem_set {P : RunningCall → Prop} {calls : List RunningCall} {i : ℕ}
    {call : RunningCall} (hcalls : ∀ call ∈ calls, P call) (hcall : P call) :
    ∀ call' ∈ calls.set i call, P call' := by
  intro call' hmem
  obtain hmem | rfl := List.mem_or_eq_of_mem_set hmem
  · exact hcalls call' hmem
  · exact hcall

/-- A cache that holds no more than before keeps what is known of it. -/
theorem Inv.withCache {api : RevocationApi} {cache : RevocationCache} (hinv : api.Inv)
    (hcache : ∀ key held, cache.peek key = some held → api.cache.peek key = some held) :
    Inv { api with cache } :=
  ⟨hinv.stored, fun token htoken hheld => hinv.cached token htoken (hcache _ _ hheld),
    hinv.calls, hinv.visible⟩

theorem revoke_inv {api : RevocationApi} (input : RevocationWriteInput) (hinv : api.Inv) :
    (api.revoke input).Inv := by
  have hdelete : Inv { api with cache := api.cache.invalidateToken input.tenantId input.tokenId } :=
    hinv.withCache fun _ _ hheld => (LruTtlCache.peek_delete hheld).1
  refine ⟨hdelete.stored, hdelete.cached, ?_, hdelete.visible⟩
  intro call hmem
  obtain hmem | hmem := List.mem_append.mp hmem
  · exact hinv.calls call hmem
  · rw [List.mem_singleton.mp hmem]
    unfold checkInput
    split
    next => trivial
    next => split <;> trivial

theorem transacted_inv {api api' : RevocationApi} {call : ℕ} {id : String} {revokedAt : Int}
    {outcome : TransactionOutcome} (hinv : api.Inv)
    (hstep : api.transacted call id revokedAt outcome = some api') : api'.Inv := by
  unfold transacted at hstep
  split at hstep
  next input hcall =>
    obtain ⟨hrows, hok⟩ := transact_spec api.rows input id revokedAt outcome
    generalize transact api.rows input id revokedAt outcome = ended at hrows hok hstep
    obtain ⟨result, rows⟩ := ended
    cases hstep
    refine ⟨fun token htoken => ?_, hinv.cached, forall_mem_set ?_ ?_, hinv.visible⟩
    · obtain ⟨more, rfl⟩ := hrows
      exact hasRow_append (hinv.stored token htoken)
    · exact fun call hmem => (hinv.calls call hmem).mono hrows (List.Subset.refl _)
    · dsimp only
      unfold CallInv
      split
      next heq =>
        cases heq
        exact hok _ rfl
      next => trivial
      next => trivial
      next => trivial
  next => cases hstep

theorem revokeReturns_inv {api api' : RevocationApi} {call : ℕ} {now : ℚ} (hinv : api.Inv)
    (hstep : api.revokeReturns call now = some api') : api'.Inv := by
  unfold revokeReturns at hstep
  split at hstep
  next input record hcall =>
    have hrow : hasRow api.rows input.tenantId input.tokenId = true :=
      hinv.calls _ (List.mem_of_getElem? hcall)
    cases hstep
    refine ⟨?_, ?_, forall_mem_set ?_ trivial, hinv.visible⟩
    · intro token htoken
      obtain rfl | htoken := List.mem_cons.mp htoken
      · exact hrow
      · exact hinv.stored token htoken
    · intro token htoken hheld
      obtain ⟨-, hfalse⟩ | ⟨hne, hheld⟩ := LruTtlCache.peek_set hheld
      · cases hfalse
      · obtain rfl | htoken := List.mem_cons.mp htoken
        · exact hne rfl
        · exact hinv.cached token htoken hheld
    · intro call hmem
      exact (hinv.calls call hmem).mono List.prefix_rfl (List.subset_cons_self _ _)
  next =>
    cases hstep
    exact ⟨hinv.stored, hinv.cached, forall_mem_set hinv.calls trivial, hinv.visible⟩
  next => cases hstep

theorem isRevoked_inv {api : RevocationApi} (tenantId tokenId : String) (now : ℚ)
    (hinv : api.Inv) : (api.isRevoked tenantId tokenId now).Inv := by
  have hget : Inv { api with cache := (api.cache.get now (cacheKey tenantId tokenId)).2 } :=
    hinv.withCache fun _ _ hheld => LruTtlCache.peek_get hheld
  unfold isRevoked
  dsimp only
  split
  next cached cache heq =>
    rw [heq] at hget
    refine ⟨hget.stored, hget.cached, hget.calls, fun answer hanswer hlate => ?_⟩
    obtain rfl | hanswer := List.mem_cons.mp hanswer
    · -- A hit for a token whose revocation has returned is not `false`.
      have hacknowledged : (tenantId, tokenId) ∈ api.acknowledged := by simpa using hlate
      have hheld := hinv.cached _ hacknowledged
      rw [LruTtlCache.get_eq_some heq] at hheld
      simpa using hheld
    · exact hinv.visible answer hanswer hlate
  next cache heq =>
    rw [heq] at hget
    refine ⟨hget.stored, hget.cached, fun call hmem => ?_, hget.visible⟩
    obtain hmem | hmem := List.mem_append.mp hmem
    · exact hinv.calls call hmem
    · rw [List.mem_singleton.mp hmem]
      exact fun hlate => ⟨by simpa using hlate, nofun⟩

theorem queried_inv {api api' : RevocationApi} {call : ℕ} {failure : Option String}
    (hinv : api.Inv) (hstep : api.queried call failure = some api') : api'.Inv := by
  unfold queried at hstep
  split at hstep
  next tenantId tokenId late hcall =>
    have hreading : CallInv api.rows api.acknowledged (.reading tenantId tokenId late none) :=
      hinv.calls _ (List.mem_of_getElem? hcall)
    cases hstep
    refine ⟨hinv.stored, hinv.cached, forall_mem_set hinv.calls fun hlate => ?_, hinv.visible⟩
    obtain ⟨hacknowledged, -⟩ := hreading hlate
    refine ⟨hacknowledged, ?_⟩
    cases failure with
    | none => simp [hinv.stored _ hacknowledged]
    | some message => simp
  next => cases hstep

theorem isRevokedReturns_inv {api api' : RevocationApi} {call : ℕ} {now : ℚ} (hinv : api.Inv)
    (hfresh : api.NoStaleBackfill (.isRevokedReturns call now))
    (hstep : api.isRevokedReturns call now = some api') : api'.Inv := by
  unfold isRevokedReturns at hstep
  split at hstep
  next tenantId tokenId late revoked hcall =>
    have hreading : CallInv api.rows api.acknowledged
        (.reading tenantId tokenId late (some (.ok revoked))) :=
      hinv.calls _ (List.mem_of_getElem? hcall)
    cases hstep
    refine ⟨hinv.stored, fun token htoken hheld => ?_, forall_mem_set hinv.calls trivial,
      fun answer hanswer hlate => ?_⟩
    · obtain ⟨hkey, rfl⟩ | ⟨-, hheld⟩ := LruTtlCache.peek_set hheld
      · simp only [NoStaleBackfill, hcall] at hfresh
        exact hfresh token htoken hkey
      · exact hinv.cached token htoken hheld
    · obtain rfl | hanswer := List.mem_cons.mp hanswer
      · simpa using (hreading hlate).2
      · exact hinv.visible answer hanswer hlate
  next =>
    cases hstep
    exact ⟨hinv.stored, hinv.cached, forall_mem_set hinv.calls trivial, hinv.visible⟩
  next => cases hstep

theorem step_inv {api api' : RevocationApi} {event : Event} (hinv : api.Inv)
    (hfresh : api.NoStaleBackfill event) (hstep : api.step event = some api') : api'.Inv := by
  cases event with
  | revoke input =>
      cases hstep
      exact revoke_inv input hinv
  | transacted call id revokedAt outcome => exact transacted_inv hinv hstep
  | revokeReturns call now => exact revokeReturns_inv hinv hstep
  | isRevoked tenantId tokenId now =>
      cases hstep
      exact isRevoked_inv tenantId tokenId now hinv
  | queried call failure => exact queried_inv hinv hstep
  | isRevokedReturns call now => exact isRevokedReturns_inv hinv hfresh hstep
  | invalidateCacheToken tenantId tokenId =>
      cases hstep
      exact hinv.withCache fun _ _ hheld => (LruTtlCache.peek_delete hheld).1
  | invalidateCacheTenant tenantId =>
      cases hstep
      exact hinv.withCache fun _ _ hheld => (LruTtlCache.peek_keep hheld).1

/-- Every lookup that starts after a revocation of its token has returned `ok` finds it, in
every run without a stale backfill. -/
theorem revocation_visible (cache : RevocationCache) (rows : List RevocationRecord)
    (events : List Event) (api : RevocationApi)
    (hfresh : Along step NoStaleBackfill (start cache rows) events)
    (hrun : run step (start cache rows) events = some api) : api.Visible := by
  have hinv₀ : (start cache rows).Inv := ⟨by simp [start], by simp [start], by simp [start],
    by simp [start, Visible]⟩
  exact (run_invariant Inv (fun _ _ _ hinv hgood hstep => step_inv hinv hgood hstep) hinv₀ hfresh
    hrun).visible

end RevocationApi

/-! ## A revocation during a lookup -/

namespace Compromise

def cache : RevocationCache := ⟨10000, 30000, [], by norm_num, by norm_num, List.nodup_nil⟩

def input : RevocationWriteInput where
  tenantId := "tenant-a"
  tokenId := "token-1"
  revokedBy := "did:agent:bcb87e6537efe28620ec0d8ef6e8e7e50e39bfad"
  reason := some "KEY_COMPROMISE"
  listId := "list-1"
  issuerSignaturePayload := none

def lookup (now : ℚ) : Event := .isRevoked "tenant-a" "token-1" now

/-- The token is revoked by the second call. -/
def revocation : List Event :=
  [.revoke input,
    .transacted 1 "0b6e1a52-94f3-4d7c-a1f8-5c20d9e7b364" 1781956800000 .committed,
    .revokeReturns 1 1781956800010]

/-- A lookup has its answer from the table before the revocation, and caches it after. -/
def overtaken : List Event :=
  [lookup 1781956799990, .queried 0 none] ++ revocation ++
    [.isRevokedReturns 0 1781956800020, lookup 1781956800030]

/-- The law fails: the last lookup starts after the revocation and finds the token valid. -/
theorem revocation_unseen :
    ∃ api, run RevocationApi.step (.start cache []) overtaken = some api ∧ ¬ api.Visible := by
  have hrun : (run RevocationApi.step (.start cache []) overtaken).any
      (fun api => decide (¬ api.Visible)) = true := by decide +kernel
  obtain ⟨api, hapi, hvisible⟩ := (Option.any_eq_true _ _).mp hrun
  exact ⟨api, hapi, by simpa using hvisible⟩

/-- The first lookup is over before the revocation starts. -/
def ordered : List Event :=
  [lookup 1781956799980, .queried 0 none, .isRevokedReturns 0 1781956799990] ++ revocation ++
    [lookup 1781956800030]

theorem revocation_seen : ∃ api, run RevocationApi.step (.start cache []) ordered = some api ∧
    api.answers.map Answer.revoked = [true, false] ∧ api.Visible := by
  have hrun : (run RevocationApi.step (.start cache []) ordered).any
      (fun api => api.answers.map Answer.revoked = [true, false]) = true := by decide +kernel
  obtain ⟨api, hapi, hanswers⟩ := (Option.any_eq_true _ _).mp hrun
  have hfresh : Along RevocationApi.step RevocationApi.NoStaleBackfill (.start cache []) ordered := by
    decide +kernel
  exact ⟨api, hapi, by simpa using hanswers,
    RevocationApi.revocation_visible cache [] ordered api hfresh hapi⟩

end Compromise

end Coivitas.Policy.Revocation
