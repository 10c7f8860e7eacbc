import Coivitas.Foundation.Bytes
import Coivitas.Foundation.CalendarText
import Coivitas.Foundation.Json
import Coivitas.Foundation.OrderedMap
import Coivitas.Foundation.Outcome
import Coivitas.Foundation.Paging
import Coivitas.Foundation.Table
import Coivitas.Types.Authorization
import Mathlib.Data.Prod.Lex

/-! # Cross-domain settles

The model of `packages/policy/src/cross-domain-settle`. The sender's domain
signs a text of the fields of a settle. The recipient's domain checks that
signature, countersigns the same text and stores the fields in typed columns.
The sender pulls the stored records behind a cursor and checks the
countersignature over the text that the columns give back.
-/

namespace Coivitas.Policy.CrossDomain

open Foundation Coivitas.Types

/-- What settles use of the crypto package, the database and its driver. -/
structure SettlePorts where
  numberFormat : NumberFormat
  sign : List UInt8 → String → Except String String
  verify : List UInt8 → String → String → Except String Bool
  /-- The instant that is read back from a `TIMESTAMPTZ` column a text was written to. -/
  timestamptz : String → Except String Int
  /-- The order of a `TEXT` column. -/
  collation : LinearOrder String

inductive SettleState where
  | pending
  | settled
  | released
  deriving DecidableEq

/-- The fields both domains sign. -/
structure SettleFields where
  settleId : String
  senderDomain : String
  recipientDomain : String
  agentDid : String
  metric : String
  amount : ℚ
  window : Window
  windowStart : String
  deriving DecidableEq

structure SettleRequest extends SettleFields where
  senderLedgerSignature : String
  createdAt : String

/-- The times of a record other than its window are kept as instants: they are spelled by
`toISOString` and only ever read back. -/
structure SettleRecord extends SettleFields where
  senderLedgerSignature : String
  recipientLedgerSignature : String
  state : SettleState
  createdAt : Int
  settledAt : Option Int
  expiresAt : Int
  deriving DecidableEq

/-- A row of `settle_records`. -/
structure SettleRow where
  settleId : String
  senderDomain : String
  recipientDomain : String
  agentDid : String
  metric : String
  amount : ℚ
  window : Window
  windowStart : Int
  senderLedgerSignature : String
  recipientLedgerSignature : String
  state : SettleState
  createdAt : Int
  settledAt : Option Int
  expiresAt : Int
  deriving DecidableEq

abbrev SettleTable := Table SettleRow.settleId

variable (P : SettlePorts)

/-! ## Payloads -/

def buildSettlePayload (req : SettleFields) : String :=
  Json.stringify P.numberFormat (.obj [("agentDid", .str req.agentDid),
    ("amount", .num req.amount), ("metric", .str req.metric),
    ("recipientDomain", .str req.recipientDomain), ("senderDomain", .str req.senderDomain),
    ("settleId", .str req.settleId), ("window", .str req.window.text),
    ("windowStart", .str req.windowStart)])

def payloadBytes (req : SettleFields) : List UInt8 := utf8 (buildSettlePayload P req)

/-- A date outside the range of dates has no text. -/
def toISOString (ms : Int) : Except String String :=
  match Calendar.toISOString ms with
  | some text => .ok text
  | none => .error "Invalid time value"

/-- The record of a row, with the text of its window's start. -/
def SettleRow.record (row : SettleRow) (windowStart : String) : SettleRecord where
  settleId := row.settleId
  senderDomain := row.senderDomain
  recipientDomain := row.recipientDomain
  agentDid := row.agentDid
  metric := row.metric
  amount := row.amount
  window := row.window
  windowStart := windowStart
  senderLedgerSignature := row.senderLedgerSignature
  recipientLedgerSignature := row.recipientLedgerSignature
  state := row.state
  createdAt := row.createdAt
  settledAt := row.settledAt
  expiresAt := row.expiresAt

def mapRow (row : SettleRow) : Except String SettleRecord := do
  let windowStart ← toISOString row.windowStart
  return row.record windowStart

/-! ## The recipient -/

structure RecipientSettleHandler where
  recipientPrivateKey : String
  pendingTtlMs : Int

variable (H : RecipientSettleHandler)

def verifySender (req : SettleRequest) (senderPublicKey : String) : Except String Unit := do
  let valid ← P.verify (payloadBytes P req.toSettleFields) req.senderLedgerSignature
    senderPublicKey
  require (valid = true) ("SETTLE_SIGNATURE_INVALID: sender ledger signature verification " ++
    "failed for settle " ++ req.settleId)

/-- The row a request is stored as. The text of the window's start is read by the `INSERT`. -/
def pendingRow (req : SettleRequest) (now : Int) : Except String SettleRow := do
  let recipientSig ← P.sign (payloadBytes P req.toSettleFields) H.recipientPrivateKey
  let expiresAt := now + H.pendingTtlMs
  let _ ← toISOString expiresAt
  let windowStart ← P.timestamptz req.windowStart
  return {
    settleId := req.settleId
    senderDomain := req.senderDomain
    recipientDomain := req.recipientDomain
    agentDid := req.agentDid
    metric := req.metric
    amount := req.amount
    window := req.window
    windowStart
    senderLedgerSignature := req.senderLedgerSignature
    recipientLedgerSignature := recipientSig
    state := .pending
    createdAt := now
    settledAt := none
    expiresAt }

inductive Prepared where
  | existing (row : SettleRow)
  | insert (row : SettleRow)

/-- `appendSettle` up to its `INSERT`, over the table its first `SELECT` sees. -/
def prepareSettle (req : SettleRequest) (senderPublicKey : String) (now : Int)
    (selected : SettleTable) : Except String Prepared := do
  verifySender P req senderPublicKey
  match selected.find? req.settleId with
  | some row => return .existing row
  | none => return .insert (← pendingRow P H req now)

/-- The answer and the table behind the `INSERT`. Other calls come between the three
statements, so each of them has a table of its own. -/
def appendSettle (req : SettleRequest) (senderPublicKey : String) (now : Int)
    (selected inserted retried : SettleTable) : Except String SettleRecord × SettleTable :=
  match prepareSettle P H req senderPublicKey now selected with
  | .error error => (.error error, inserted)
  | .ok (.existing row) => (mapRow row, inserted)
  | .ok (.insert row) =>
      match inserted.insert? row with
      | some table => (mapRow row, table)
      -- `RETURNING` is empty: the row of another call is there.
      | none =>
          match retried.find? req.settleId with
          | some row => (mapRow row, inserted)
          | none => (.error "Cannot read properties of undefined", inserted)

def confirmSettle (settleIds : List String) (now : Int) (table : SettleTable) : SettleTable :=
  table.updateWhere
    (fun row => row.settleId ∈ settleIds ∧ row.state = .pending ∧ now < row.expiresAt)
    (fun row => { row with state := .settled, settledAt := some now }) fun _ => rfl

def expiredPending (now : Int) (row : SettleRow) : Bool :=
  row.state = .pending ∧ row.expiresAt < now

/-- The table and the number of rows reaped. -/
def reapExpiredPending (now : Int) (table : SettleTable) : SettleTable × Nat :=
  (table.updateWhere (expiredPending now) (fun row => { row with state := .released })
    fun _ => rfl, (table.rows.filter (expiredPending now)).length)

/-! ## The cursor -/

/-- Settle identifiers in the order of their column. -/
def CollatedId : Type :=
  have _ := P
  String

instance : LinearOrder (CollatedId P) := P.collation

/-- The row `(created_at, settle_id)`. -/
def position (createdAt : Int) (settleId : String) : Int ×ₗ CollatedId P :=
  toLex (createdAt, settleId)

def SettleRow.position (row : SettleRow) : Int ×ₗ CollatedId P :=
  CrossDomain.position P row.createdAt row.settleId

def SettleRecord.position (record : SettleRecord) : Int ×ₗ CollatedId P :=
  CrossDomain.position P record.createdAt record.settleId

/-- The primary key of `reconciliation_cursors`. -/
structure CursorKey where
  senderDomain : String
  recipientDomain : String
  agentDid : String
  metric : String
  deriving DecidableEq

structure ReconciliationCursor where
  lastCreatedAt : Int
  lastSettleId : String
  deriving DecidableEq

/-- The cursor clause of a query. There is none for an identifier that is falsy. -/
def cursorClause (cursor : Option ReconciliationCursor) : Option (Int ×ₗ CollatedId P) :=
  match cursor with
  | none => none
  | some cursor =>
      if cursor.lastSettleId = "" then none
      else some (position P cursor.lastCreatedAt cursor.lastSettleId)

/-- The columns a query compares. The recipient's domain is not one of them. -/
def CursorKey.matches (key : CursorKey) (row : SettleRow) : Bool :=
  row.senderDomain = key.senderDomain ∧ row.agentDid = key.agentDid ∧ row.metric = key.metric

def selectSettles (key : CursorKey) (cursor : Option ReconciliationCursor) (limit : Nat)
    (table : SettleTable) : List SettleRow :=
  page (SettleRow.position P) (table.rows.filter key.matches) (cursorClause P cursor) limit

def querySettles (key : CursorKey) (cursor : Option ReconciliationCursor) (limit : Nat)
    (table : SettleTable) : Except String (List SettleRecord) :=
  collect mapRow (selectSettles P key cursor limit table)

/-! ## The sender -/

structure ReconciliationResult where
  settleId : String
  state : SettleState
  recipientLedgerSignature : String
  verified : Bool
  deriving DecidableEq

structure SenderSettleTracker where
  senderPrivateKey : String
  senderDomain : String
  reconcileBatchSize : Nat

/-- The request for the given fields; the sender's domain is the tracker's own. -/
def createSettleRequest (tracker : SenderSettleTracker) (params : SettleFields)
    (randomUUID createdAt : String) : Except String SettleRequest := do
  let req := { params with settleId := randomUUID, senderDomain := tracker.senderDomain }
  let signature ← P.sign (payloadBytes P req) tracker.senderPrivateKey
  return { req with senderLedgerSignature := signature, createdAt }

/-- The body of the loop of `reconcile`. -/
def checkRecord (recipientPublicKey : String) (record : SettleRecord) :
    Except String ReconciliationResult := do
  let verified ← P.verify (payloadBytes P record.toSettleFields) record.recipientLedgerSignature
    recipientPublicKey
  return ⟨record.settleId, record.state, record.recipientLedgerSignature, verified⟩

/-- Steps 2 and 3 of `reconcile`: the records behind the cursor and the results for them. -/
def pullSettles (key : CursorKey) (recipientPublicKey : String)
    (cursor : Option ReconciliationCursor) (limit : Nat) (table : SettleTable) :
    Except String (List SettleRecord × List ReconciliationResult) := do
  let records ← querySettles P key cursor limit table
  let results ← collect (checkRecord P recipientPublicKey) records
  return (records, results)

def confirmedIds (results : List ReconciliationResult) : List String :=
  (results.filter fun result => result.verified ∧ result.state = .pending).map
    ReconciliationResult.settleId

/-! ## Rows under the handler's statements -/

/-- A row as it was inserted: no update touches its other columns. -/
def SettleRow.written (row : SettleRow) : SettleRow :=
  { row with state := .pending, settledAt := none }

/-- The rows as they were inserted. -/
def written (table : SettleTable) : List SettleRow := table.rows.map SettleRow.written

variable {P H} {row : SettleRow} {table : SettleTable} {record : SettleRecord}

@[simp]
theorem written_settleId (row : SettleRow) : row.written.settleId = row.settleId := rfl

@[simp]
theorem position_written (row : SettleRow) : row.written.position P = row.position P := rfl

@[simp]
theorem matches_written (key : CursorKey) (row : SettleRow) :
    key.matches row.written = key.matches row := rfl

theorem written_updateWhere {p : SettleRow → Bool} {change : SettleRow → SettleRow}
    (hchange : ∀ row, (change row).settleId = row.settleId)
    (hwritten : ∀ row, (change row).written = row.written) :
    written (table.updateWhere p change hchange) = written table :=
  Table.map_ite_change hwritten p table.rows

theorem written_confirmSettle (settleIds : List String) (now : Int) (table : SettleTable) :
    written (confirmSettle settleIds now table) = written table :=
  written_updateWhere _ fun _ => rfl

theorem written_reapExpiredPending (now : Int) (table : SettleTable) :
    written (reapExpiredPending now table).1 = written table := by
  apply written_updateWhere
  · intro row
    rfl
  · intro row
    rfl

theorem written_insert? {table' : SettleTable} (hinsert : table.insert? row = some table') :
    written table' = written table ++ [row.written] := by
  obtain ⟨-, hrows⟩ := Table.insert?_eq_some.mp hinsert
  rw [written, hrows, List.map_append, List.map_singleton, written]

theorem written_nodup (table : SettleTable) : ((written table).map SettleRow.settleId).Nodup := by
  have hids : (written table).map SettleRow.settleId = table.rows.map SettleRow.settleId := by
    rw [written, List.map_map]
    rfl
  rw [hids]
  exact table.nodup

theorem mem_written_of_mem (hrow : row ∈ table.rows) : row.written ∈ written table :=
  List.mem_map_of_mem hrow

/-- A row keeps its place and its columns, whatever is inserted, confirmed or reaped. -/
theorem exists_find?_of_written (hkept : row.written ∈ written table) :
    ∃ row', table.find? row.settleId = some row' ∧ row'.written = row.written := by
  obtain ⟨row', hrow', hwritten⟩ := List.mem_map.mp hkept
  have hid : row'.settleId = row.settleId := by
    rw [← written_settleId row', hwritten, written_settleId]
  exact ⟨row', Table.find?_eq_some.mpr ⟨hrow', hid⟩, hwritten⟩

theorem toISOString_eq_ok {ms : Int} {text : String} :
    toISOString ms = .ok text ↔ Calendar.toISOString ms = some text := by
  unfold toISOString
  cases Calendar.toISOString ms <;> simp

theorem mapRow_eq_ok : mapRow row = .ok record ↔
    ∃ text, Calendar.toISOString row.windowStart = some text ∧ row.record text = record := by
  simp only [mapRow, bind_eq_ok, pure_eq_ok, toISOString_eq_ok]

theorem verifySender_eq_ok {req : SettleRequest} {senderPublicKey : String} {u : Unit} :
    verifySender P req senderPublicKey = .ok u ↔ P.verify (payloadBytes P req.toSettleFields)
      req.senderLedgerSignature senderPublicKey = .ok true := by
  simp [verifySender]

theorem pullSettles_eq_ok {key : CursorKey} {recipientPublicKey : String}
    {cursor : Option ReconciliationCursor} {limit : Nat} {records : List SettleRecord}
    {results : List ReconciliationResult} :
    pullSettles P key recipientPublicKey cursor limit table = .ok (records, results) ↔
      querySettles P key cursor limit table = .ok records ∧
        collect (checkRecord P recipientPublicKey) records = .ok results := by
  simp only [pullSettles, bind_eq_ok, pure_eq_ok, Prod.mk.injEq]
  constructor
  · rintro ⟨records', hquery, results', hresults, rfl, rfl⟩
    exact ⟨hquery, hresults⟩
  · rintro ⟨hquery, hresults⟩
    exact ⟨records, hquery, results, hresults, rfl, rfl⟩

theorem checkRecord_eq_ok {recipientPublicKey : String} {result : ReconciliationResult} :
    checkRecord P recipientPublicKey record = .ok result ↔ ∃ verified,
      P.verify (payloadBytes P record.toSettleFields) record.recipientLedgerSignature
        recipientPublicKey = .ok verified ∧
      ⟨record.settleId, record.state, record.recipientLedgerSignature, verified⟩ = result := by
  simp only [checkRecord, bind_eq_ok, pure_eq_ok]

/-! ## Two domains -/

namespace Sample

/-- A text is read with milliseconds or without. -/
def timestamptz (text : String) : Except String Int :=
  let padded := String.ofList text.toList.dropLast ++ ".000Z"
  match Calendar.getTime text, Calendar.getTime padded with
  | some ms, _ => .ok ms
  | none, some ms => .ok ms
  | none, none => .error "invalid input syntax for type timestamp with time zone"

def handler : RecipientSettleHandler := ⟨"4d1a", 300000⟩

def tracker : SenderSettleTracker := ⟨"9c5e", "alpha", 100⟩

def fields (settleId windowStart : String) (amount : ℚ) : SettleFields :=
  ⟨settleId, "alpha", "beta", "did:agent:payer", "transaction_amount", amount, .day, windowStart⟩

end Sample

end Coivitas.Policy.CrossDomain
