import Coivitas.Foundation.Outcome
import Coivitas.Foundation.Program
import Coivitas.Foundation.Text
import Coivitas.Types.Errors
import Mathlib.Algebra.Order.Floor.Ring
import Mathlib.Data.List.Infix
import Mathlib.Data.Rat.Floor
import Mathlib.Logic.Function.Basic

/-! # The scope validator of the MCP bridge

The model of `packages/communication/src/bridge/scope-validator.ts` and of the
four tables of migrations 028 to 031. A transaction works on a copy of the
committed tables; any query may throw, and a transaction that throws or is
rolled back leaves the committed tables alone.
-/

namespace Coivitas.Communication.Bridge

open Foundation Coivitas.Types

/-! ## Claims and calls -/

structure ScopeClaim where
  dim : String
  value : ℚ
  currency : Option String
deriving DecidableEq

/-- The members of `mcpCall.arguments` that are validated. -/
structure MCPCallArguments where
  numericLimit : Option ℚ
  value : Option ℚ
  currency : Option String
deriving DecidableEq

structure ValidateScopeInput where
  arguments : MCPCallArguments
  disclosedClaims : List ScopeClaim
  tokenId : String
  requestIdempotencyKey : String
deriving DecidableEq

/-- The internal code and the wire code of a rejection. -/
structure Rejection where
  code : String
  mcpCode : String
deriving DecidableEq, Repr

inductive ValidateScopeResult where
  | ok
  | rejected (rejection : Rejection)
deriving DecidableEq, Repr

namespace McpError

def scopeInflation : String := "mcp_error_scope_inflation"
def quotaExhausted : String := "mcp_error_quota_exhausted"
def currencyMismatch : String := "mcp_error_currency_mismatch"
def currencyMissing : String := "mcp_error_currency_missing"
def noPerCallScope : String := "mcp_error_no_per_call_scope"
def tokenIdInvalidFormat : String := "mcp_error_token_id_invalid_format"

end McpError

/-! ## Tables -/

inductive CachedResult where
  | ok
  | fail
  | pending
deriving DecidableEq, Repr

structure IdempotencyRow where
  cachedResult : CachedResult
  cachedCode : Option String
  cachedMcpCode : Option String
deriving DecidableEq, Repr

/-- The rows of the four tables by their primary keys. Token ids are kept in the
lower-case text of the column type `UUID`. -/
@[ext] structure Tables where
  quotaCounter : String × String → Option Int
  quotaIdempotency : String × String → Option IdempotencyRow
  valueCounter : String × String → Option ℚ
  valueIdempotency : String × String × String → Option IdempotencyRow

def Tables.empty : Tables := ⟨fun _ => none, fun _ => none, fun _ => none, fun _ => none⟩

/-- The text of a `UUID` value. -/
def uuid (tokenId : String) : String := String.ofList (tokenId.toList.map Char.toLower)

/-- Rounding of a numeric to two decimals, halves away from zero. -/
def roundCents (q : ℚ) : ℚ :=
  if 0 ≤ q then (⌊q * 100 + 1 / 2⌋ : ℚ) / 100 else -((⌊-q * 100 + 1 / 2⌋ : ℚ) / 100)

/-- A value assigned to a column of type `NUMERIC(20, 2)`. -/
def toNumeric (q : ℚ) : Except Fault ℚ := do
  require (|roundCents q| < 10 ^ 18) (.error "numeric field overflow")
  return roundCents q

/-- A parameter that is compared with a column of type `INTEGER`. -/
def toInteger (q : ℚ) : Except Fault Int := do
  require (q.den = 1) (.error "invalid input syntax for type integer")
  require (-2147483648 ≤ q.num ∧ q.num ≤ 2147483647) (.error "value is out of range for type integer")
  return q.num

/-! ## Statements -/

/-- One row of an idempotency table. -/
structure Slot where
  read : Tables → Option IdempotencyRow
  write : IdempotencyRow → Tables → Tables

def quotaSlot (key token : String) : Slot where
  read tables := tables.quotaIdempotency (key, token)
  write row tables :=
    { tables with
      quotaIdempotency := Function.update tables.quotaIdempotency (key, token) (some row) }

def valueSlot (key token currency : String) : Slot where
  read tables := tables.valueIdempotency (key, token, currency)
  write row tables :=
    { tables with
      valueIdempotency :=
        Function.update tables.valueIdempotency (key, token, currency) (some row) }

abbrev Statement (α : Type) : Type := Tables → Except Fault (α × Tables)

/-- `INSERT … VALUES (…, 'pending', NULL, NULL) ON CONFLICT … DO NOTHING RETURNING`:
whether a row was inserted. -/
def insertPending (slot : Slot) : Statement Bool := fun tables =>
  match slot.read tables with
  | some _ => .ok (false, tables)
  | none => .ok (true, slot.write ⟨.pending, none, none⟩ tables)

/-- `SELECT cached_result, cached_code, cached_mcp_code`. -/
def selectCached (slot : Slot) : Statement (Option IdempotencyRow) := fun tables =>
  .ok (slot.read tables, tables)

/-- `UPDATE … SET cached_result = 'ok'`. -/
def finalizeOk (slot : Slot) : Statement Unit := fun tables =>
  match slot.read tables with
  | some row => .ok ((), slot.write { row with cachedResult := .ok } tables)
  | none => .ok ((), tables)

/-- The guarded upsert of `mcp_quota_counter`: the counter after it, if a row came back. -/
def incrementQuota (token day : String) (maxPerDay : ℚ) : Statement (Option Int) := fun tables => do
  let limit ← toInteger maxPerDay
  match tables.quotaCounter (token, day) with
  | none =>
      let counter := Function.update tables.quotaCounter (token, day) (some 1)
      return (some 1, { tables with quotaCounter := counter })
  | some callsCount => do
      require (callsCount + 1 ≤ 2147483647) (.error "integer out of range")
      if callsCount + 1 ≤ limit then
        let counter := Function.update tables.quotaCounter (token, day) (some (callsCount + 1))
        return (some (callsCount + 1), { tables with quotaCounter := counter })
      else
        return (none, tables)

/-- The guarded upsert of `mcp_value_counter`. The row to insert is made before a conflict is
looked for. -/
def incrementValue (token currency : String) (value maxTotalValue : ℚ) : Statement (Option ℚ) :=
  fun tables => do
    let inserted ← toNumeric value
    match tables.valueCounter (token, currency) with
    | none =>
        let counter := Function.update tables.valueCounter (token, currency) (some inserted)
        return (some inserted, { tables with valueCounter := counter })
    | some totalValue =>
        if totalValue + value ≤ maxTotalValue then do
          let stored ← toNumeric (totalValue + value)
          let counter := Function.update tables.valueCounter (token, currency) (some stored)
          return (some stored, { tables with valueCounter := counter })
        else
          return (none, tables)

/-! ## Transactions -/

/-- The committed tables, the copy a transaction works on, and what the next
requests to the database do: run, or throw. -/
structure Database where
  committed : Tables
  working : Tables
  replies : List (Option Fault)

abbrev DbProgram (α : Type) : Type := Program Database Empty Fault α

/-- A request to the database. A reply that is a fault means it had no effect. -/
def send {α : Type} (action : Database → Except Fault (α × Database)) : DbProgram α := fun db =>
  let rest := { db with replies := db.replies.tail }
  match db.replies.head?.join with
  | some fault => ⟨.error fault, rest, []⟩
  | none =>
      match action rest with
      | .ok (a, db') => ⟨.ok a, db', []⟩
      | .error fault => ⟨.error fault, rest, []⟩

def query {α : Type} (statement : Statement α) : DbProgram α :=
  send fun db =>
    match statement db.working with
    | .ok (a, tables) => .ok (a, { db with working := tables })
    | .error fault => .error fault

def acquireClient : DbProgram Unit := send fun db => .ok ((), db)

/-- `BEGIN ISOLATION LEVEL SERIALIZABLE`. -/
def beginTransaction : DbProgram Unit :=
  send fun db => .ok ((), { db with working := db.committed })

def commit : DbProgram Unit := send fun db => .ok ((), { db with committed := db.working })

def rollback : DbProgram Unit := send fun db => .ok ((), { db with working := db.committed })

/-! ## The transaction body -/

structure ScopeTxBodyInput where
  token : String
  requestIdempotencyKey : String
  today : String
  perDayClaim : Option ScopeClaim
  totalClaim : Option ScopeClaim
  mcpCallValue : Option ℚ

inductive ScopeTxBodyResult where
  | commit (outcome : ValidateScopeResult)
  | rollback (outcome : ValidateScopeResult)
deriving DecidableEq, Repr

/-- Reserve the idempotency row. A reserved key is answered from its row: `none` to
go on after an `ok`, the same refusal after a `fail`, and a retry while it is
pending. A first reservation goes on to the counter. -/
def idempotent (slot : Slot) (race fallbackMcpCode : String)
    (first : DbProgram (Option ScopeTxBodyResult)) : DbProgram (Option ScopeTxBodyResult) := do
  let inserted ← query (insertPending slot)
  if inserted then first
  else do
    match ← query (selectCached slot) with
    | none => throw (.error race)
    | some row =>
        match row.cachedResult with
        | .ok => return none
        | .fail =>
            return some (.commit (.rejected ⟨row.cachedCode.getD "CACHED_FAIL",
              row.cachedMcpCode.getD fallbackMcpCode⟩))
        | .pending => throw (.error race)

/-- Steps 3.2 and 3.3. -/
def countCall (input : ScopeTxBodyInput) (claim : ScopeClaim) :
    DbProgram (Option ScopeTxBodyResult) := do
  match ← query (incrementQuota input.token input.today claim.value) with
  | none => return some (.rollback (.rejected ⟨"QUOTA_EXHAUSTED_PER_DAY", McpError.quotaExhausted⟩))
  | some _ => do
      query (finalizeOk (quotaSlot input.requestIdempotencyKey input.token))
      return none

/-- Steps 3.5 and 3.6. -/
def countValue (input : ScopeTxBodyInput) (claim : ScopeClaim) (currency : String) :
    DbProgram (Option ScopeTxBodyResult) :=
  match input.mcpCallValue with
  | none => return some (.rollback (.rejected ⟨"INTERNAL_VALUE_MISSING", McpError.scopeInflation⟩))
  | some value => do
      match ← query (incrementValue input.token currency value claim.value) with
      | none => return some (.rollback (.rejected ⟨"TOTAL_VALUE_EXHAUSTED", McpError.scopeInflation⟩))
      | some _ => do
          query (finalizeOk (valueSlot input.requestIdempotencyKey input.token currency))
          return none

def quotaPart (input : ScopeTxBodyInput) : DbProgram (Option ScopeTxBodyResult) :=
  match input.perDayClaim with
  | none => return none
  | some claim =>
      idempotent (quotaSlot input.requestIdempotencyKey input.token) "IDEMPOTENCY_PENDING_RACE"
        McpError.quotaExhausted (countCall input claim)

def valuePart (input : ScopeTxBodyInput) : DbProgram (Option ScopeTxBodyResult) :=
  match input.totalClaim with
  | none => return none
  | some claim =>
      let currency := claim.currency.getD ""
      idempotent (valueSlot input.requestIdempotencyKey input.token currency)
        "VALUE_IDEMPOTENCY_PENDING_RACE" McpError.scopeInflation (countValue input claim currency)

def runScopeTxBody (input : ScopeTxBodyInput) : DbProgram ScopeTxBodyResult := do
  match ← quotaPart input with
  | some result => return result
  | none => do
      match ← valuePart input with
      | some result => return result
      | none => return .commit .ok

/-! ## The validator -/

/-- `UUID_REGEX` -/
def isUuidFormat (text : String) : Bool :=
  let hex := List.replicate
  let dash : List (Char → Bool) := [(· == '-')]
  matchesEach (hex 8 isLowerHex ++ dash ++ hex 4 isLowerHex ++ dash ++ hex 4 isLowerHex ++ dash ++
    hex 4 isLowerHex ++ dash ++ hex 12 isLowerHex) (uuid text).toList

def findClaim (dim : String) (claims : List ScopeClaim) : Option ScopeClaim :=
  claims.find? fun claim => claim.dim = dim

def ValidateScopeInput.perDayClaim (input : ValidateScopeInput) : Option ScopeClaim :=
  findClaim "max_per_day" input.disclosedClaims

/-- The claims on values are looked up only for a call that has a value. -/
def ValidateScopeInput.perCallClaim (input : ValidateScopeInput) : Option ScopeClaim :=
  if input.arguments.value.isSome then findClaim "max_value_per_call" input.disclosedClaims
  else none

def ValidateScopeInput.totalClaim (input : ValidateScopeInput) : Option ScopeClaim :=
  if input.arguments.value.isSome then findClaim "max_total_value" input.disclosedClaims
  else none

/-- Step 1. -/
def checkPerCall (input : ValidateScopeInput) : Except Rejection Unit :=
  match input.arguments.numericLimit with
  | none => pure ()
  | some numericLimit =>
      match findClaim "max_per_call" input.disclosedClaims with
      | none => throw ⟨"AP_CLAIM_MISSING", McpError.noPerCallScope⟩
      | some apClaim =>
          require (numericLimit ≤ apClaim.value)
            ⟨"SCOPE_INFLATION_PER_CALL", McpError.scopeInflation⟩

/-- The currency guard of step 2. -/
def checkCurrency (input : ValidateScopeInput) : Except Rejection Unit :=
  match input.perCallClaim.or input.totalClaim with
  | none => pure ()
  | some enforcedCurrencyClaim => do
      require (input.arguments.currency ≠ none)
        ⟨"CURRENCY_MISSING", McpError.currencyMissing⟩
      require (input.arguments.currency = enforcedCurrencyClaim.currency)
        ⟨"CURRENCY_MISMATCH", McpError.currencyMismatch⟩
      require (∀ perCall ∈ input.perCallClaim, ∀ total ∈ input.totalClaim,
          perCall.currency = total.currency)
        ⟨"CURRENCY_CLAIM_INCONSISTENT", McpError.scopeInflation⟩

def checkValue (input : ValidateScopeInput) : Except Rejection Unit :=
  require (∀ claim ∈ input.perCallClaim, ∀ value ∈ input.arguments.value, value ≤ claim.value)
    ⟨"SCOPE_INFLATION_VALUE", McpError.scopeInflation⟩

/-- Steps 0 to 2: the checks before the transaction. -/
def preCheck (input : ValidateScopeInput) : Except Rejection Unit := do
  require (isUuidFormat input.tokenId = true)
    ⟨"TOKEN_ID_INVALID_FORMAT", McpError.tokenIdInvalidFormat⟩
  checkPerCall input
  checkCurrency input
  checkValue input

def serializableRetryTokens : List String :=
  ["could not serialize", "40001", "IDEMPOTENCY_PENDING_RACE", "VALUE_IDEMPOTENCY_PENDING_RACE"]

def isSerializableRetryError : Fault → Bool
  | .value _ => false
  | fault =>
      serializableRetryTokens.any fun token =>
        decide (token.toList <:+: (fault.message "").toList)

def defaultSerializableRetryMax : Nat := 3

def txBodyInput (input : ValidateScopeInput) (today : String) : ScopeTxBodyInput where
  token := uuid input.tokenId
  requestIdempotencyKey := input.requestIdempotencyKey
  today := today
  perDayClaim := input.perDayClaim
  totalClaim := input.totalClaim
  mcpCallValue := input.arguments.value

/-- The body of the `try`: one transaction. -/
def attempt (input : ScopeTxBodyInput) : DbProgram ValidateScopeResult := do
  beginTransaction
  match ← runScopeTxBody input with
  | .commit outcome => do
      commit
      return outcome
  | .rollback outcome => do
      rollback
      return outcome

/-- The `catch`: roll back, then go on to the next attempt or throw. -/
def recover (err : Fault) : DbProgram (Fault ⊕ ValidateScopeResult) := do
  tryCatch rollback fun _ => pure ()
  if isSerializableRetryError err then return .inl err else throw err

def retryLoop (input : ScopeTxBodyInput) : Nat → Option Fault → DbProgram ValidateScopeResult
  | 0, lastErr =>
      throw (.error ("validateScope: SERIALIZABLE retry exhausted (" ++
        toString defaultSerializableRetryMax ++ " attempts); lastErr=" ++
        (lastErr.map (Fault.message "")).getD "null"))
  | attempts + 1, _ => do
      acquireClient
      match ← tryCatch (do return .inr (← attempt input)) recover with
      | .inr outcome => return outcome
      | .inl err => retryLoop input attempts (some err)

def validateScope (input : ValidateScopeInput) (today : String) : DbProgram ValidateScopeResult :=
  match preCheck input with
  | .error rejection => return .rejected rejection
  | .ok _ =>
      if input.perDayClaim = none ∧ input.totalClaim = none then return .ok
      else retryLoop (txBodyInput input today) defaultSerializableRetryMax none

end Coivitas.Communication.Bridge
