import Coivitas.Crypto.HashChainBuilder
import Coivitas.Foundation.Paging
import Coivitas.Foundation.Program
import Mathlib.Data.Prod.Lex
import Mathlib.Data.String.Basic

/-! # Migrating hash chains to version 2

The model of `028-hcc-v0.2-backward-compatibility.ts` over the table of
`021_hash_chain_entries.sql`. Each statement may be answered, fail, take effect although
its answer is lost, or be the one at which the process is killed; the batches are
transactions.
-/

namespace Coivitas.Crypto

open Foundation

/-! ## The table -/

/-- The namespace, the tenant and the audit class of a chain. -/
abbrev ChainPartitionKey := ChainIdentity

structure ChainEntryRow where
  entryId : String
  canonicalPayload : String
  canonicalPayloadHash : String
  previousHash : String
  chainPosition : Nat
  timestamp : String
  hccVersion : String
  chainNamespace : String
  tenantId : Option String
  auditClass : Option String
  chainIdentityJcs : Option String
  deriving DecidableEq

namespace ChainEntryRow

def key (row : ChainEntryRow) : ChainPartitionKey :=
  ⟨row.chainNamespace, row.tenantId, row.auditClass⟩

/-- `(chain_position, entry_id)`. -/
def position (row : ChainEntryRow) : Nat ×ₗ String := toLex (row.chainPosition, row.entryId)

/-- `hcc_version = '1.0.0' OR chain_identity_jcs IS NULL`. -/
def Unmigrated (row : ChainEntryRow) : Prop :=
  row.hccVersion = "1.0.0" ∨ row.chainIdentityJcs = none

instance (row : ChainEntryRow) : Decidable row.Unmigrated :=
  inferInstanceAs (Decidable (_ ∨ _))

/-- The columns of the unique indexes that name the chain, with stand-ins for `NULL`. -/
def indexKey (row : ChainEntryRow) : String × String × String :=
  (row.tenantId.getD "00000000-0000-0000-0000-000000000000", row.auditClass.getD "__NULL__",
    row.chainNamespace)

/-- The entry that a row is read as. -/
def toEntry (row : ChainEntryRow) : HashChainEntry where
  entryId := row.entryId
  canonicalPayload := row.canonicalPayload
  canonicalPayloadHash := row.canonicalPayloadHash
  previousHash := row.previousHash
  chainPosition := row.chainPosition
  chainIdentity := row.key
  timestamp := row.timestamp
  hccVersion := row.hccVersion

/-- The four columns that the migration writes. -/
def relink (row : ChainEntryRow) (jcs hash previous : String) : ChainEntryRow :=
  { row with
    chainIdentityJcs := some jcs
    canonicalPayloadHash := hash
    previousHash := previous
    hccVersion := "2.0.0" }

end ChainEntryRow

/-- The rows with their primary key and the two unique indexes. -/
structure HashChainEntries where
  rows : List ChainEntryRow
  ids : (rows.map ChainEntryRow.entryId).Nodup
  slots : (rows.map fun row => (row.indexKey, row.chainPosition)).Nodup
  links : (rows.map fun row => (row.indexKey, row.previousHash)).Nodup

namespace HashChainEntries

/-- The rows after `UPDATE … WHERE entry_id = id`. -/
def updated (rows : List ChainEntryRow) (id jcs hash previous : String) : List ChainEntryRow :=
  rows.map fun row => if row.entryId = id then row.relink jcs hash previous else row

theorem map_updated {α : Type} (f : ChainEntryRow → α) (rows : List ChainEntryRow)
    (id jcs hash previous : String) (hf : ∀ row, f (row.relink jcs hash previous) = f row) :
    (updated rows id jcs hash previous).map f = rows.map f := by
  rw [updated, List.map_map]
  refine List.map_congr_left fun row _ => ?_
  show f (if row.entryId = id then row.relink jcs hash previous else row) = f row
  split
  next => exact hf row
  next => rfl

/-- `none` when the index of the links refuses the row. -/
def update (t : HashChainEntries) (id jcs hash previous : String) : Option HashChainEntries :=
  if hlinks : ((updated t.rows id jcs hash previous).map
      fun row => (row.indexKey, row.previousHash)).Nodup then
    some
      { rows := updated t.rows id jcs hash previous
        ids := by
          rw [map_updated _ _ _ _ _ _ fun _ => rfl]
          exact t.ids
        slots := by
          rw [map_updated _ _ _ _ _ _ fun _ => rfl]
          exact t.slots
        links := hlinks }
  else none

def partition (t : HashChainEntries) (key : ChainPartitionKey) : List ChainEntryRow :=
  t.rows.filter fun row => row.key = key

/-- The entries of a partition in the order of their positions. -/
def readChain (t : HashChainEntries) (key : ChainPartitionKey) : List HashChainEntry :=
  ((t.partition key).insertionSort fun a b => a.position ≤ b.position).map ChainEntryRow.toEntry

def unmigrated (t : HashChainEntries) : List ChainEntryRow :=
  t.rows.filter fun row => row.Unmigrated

variable [LinearOrder ChainPartitionKey]

/-- The partitions with rows to migrate, in the order of the database. -/
def listMigrationChains (t : HashChainEntries) : List ChainPartitionKey :=
  ((t.unmigrated.map ChainEntryRow.key).dedup).insertionSort (· ≤ ·)

omit [LinearOrder ChainPartitionKey] in
def selectNextBatch (t : HashChainEntries) (chain : ChainPartitionKey)
    (cursor : Option (Nat ×ₗ String)) (batchSize : Nat) : List ChainEntryRow :=
  page ChainEntryRow.position
    (t.unmigrated.filter fun row => row.key = chain) cursor batchSize

end HashChainEntries

/-! ## Statements -/

inductive Statement where
  | preCheck | listMigrationChains | selectNextBatch | connect | begin
  | fetchPrevCommittedHash | update | commit | rollback | postCheck
  deriving DecidableEq, Repr

inductive Fate where
  | answered | failed | lost | killed
  deriving DecidableEq, Repr

structure MigrationOptions where
  batchSize : Nat := 1000
  dryRun : Bool := false
  retryPerBatch : Nat := 3
  deriving DecidableEq

/-- The options of a run and what becomes of each statement, given those before it. -/
structure MigrationRun where
  options : MigrationOptions
  fate : List Statement → Fate

structure MigrationProgress where
  batchesProcessed : Nat := 0
  entriesProcessed : Nat := 0
  entriesFailed : Nat := 0
  batchesCommitted : Nat := 0
  currentBatchFirstEntryId : Option String := none
  deriving DecidableEq

/-- What a dry run logs of a row. -/
structure RowDiff where
  entryId : String
  chainPosition : Nat
  oldCanonicalPayloadHash : String
  newCanonicalPayloadHash : String
  oldPreviousHash : String
  newPreviousHash : String
  chainIdentityJcs : String
  deriving DecidableEq

inductive MigrationEvent where
  | progress (progress : MigrationProgress)
  | diff (diff : RowDiff)
  deriving DecidableEq

/-- What a run throws; `unbounded` stands for a loop that would not end. -/
inductive MigrationError where
  | driver
  | uniqueViolation
  | hashChain (error : HashChainError)
  | message (text : String)
  | null
  | killed
  | unbounded
  deriving DecidableEq

/-- The table, and the statements so far from the last one on. -/
structure MigrationWorld where
  table : HashChainEntries
  history : List Statement

/-- Reports of progress and the log of a dry run are the events of a run. -/
abbrev Migration (α : Type) := Program MigrationWorld MigrationEvent MigrationError α

variable (P : HccPorts) (R : MigrationRun)

/-- A statement that the database carries out or refuses. -/
def query {α : Type} (statement : Statement)
    (act : HashChainEntries → Except MigrationError (α × HashChainEntries)) : Migration α :=
  fun w =>
    let history := statement :: w.history
    match R.fate history, act w.table with
    | .answered, .ok (a, table) => ⟨.ok a, ⟨table, history⟩, []⟩
    | .lost, .ok (_, table) => ⟨.error .driver, ⟨table, history⟩, []⟩
    | .answered, .error e => ⟨.error e, ⟨w.table, history⟩, []⟩
    | .lost, .error _ => ⟨.error .driver, ⟨w.table, history⟩, []⟩
    | .failed, _ => ⟨.error .driver, ⟨w.table, history⟩, []⟩
    | .killed, _ => ⟨.error .killed, ⟨w.table, history⟩, []⟩

def select {α : Type} (statement : Statement) (read : HashChainEntries → α) : Migration α :=
  query R statement fun t => .ok (read t, t)

/-- `COMMIT`; without it the database goes back to the table before the transaction. -/
def commit (before : HashChainEntries) : Migration Unit := fun w =>
  let history := Statement.commit :: w.history
  match R.fate history with
  | .answered => ⟨.ok (), ⟨w.table, history⟩, []⟩
  | .lost => ⟨.error .driver, ⟨w.table, history⟩, []⟩
  | .failed => ⟨.error .driver, ⟨before, history⟩, []⟩
  | .killed => ⟨.error .killed, ⟨before, history⟩, []⟩

/-- `ROLLBACK`, whose own failure is only logged, and the error again. -/
def rollback {α : Type} (before : HashChainEntries) (e : MigrationError) : Migration α := fun w =>
  let history := Statement.rollback :: w.history
  match R.fate history with
  | .killed => ⟨.error .killed, ⟨before, history⟩, []⟩
  | _ => ⟨.error e, ⟨before, history⟩, []⟩

def transaction {α : Type} (body : Migration α) : Migration α := do
  select R .begin fun _ => ()
  let w ← Program.get
  let a ← tryCatch body (rollback R w.table)
  commit R w.table
  return a

/-! ## The migration -/

/-- The hash that the first row of a batch is linked to. -/
def fetchPrevCommittedHash (chain : ChainPartitionKey) (firstEntry : ChainEntryRow) :
    Migration String := do
  if firstEntry.chainPosition = 0 then
    return genesisPreviousHash
  let prev ← select R .fetchPrevCommittedHash fun t =>
    (t.partition chain).find? fun row => row.chainPosition = firstEntry.chainPosition - 1
  match prev with
  | none =>
      throw (.message ("previousHash anchor missing: chain (" ++ chain.chainNamespace ++ "/" ++
        chain.tenantId.getD "NULL" ++ "/" ++ chain.auditClass.getD "NULL" ++ ") chain_position " ++
        toString (firstEntry.chainPosition - 1) ++ " not found"))
  | some prev =>
      if prev.hccVersion ≠ "2.0.0" then
        throw (.message ("previousHash anchor in inconsistent state: chain_position " ++
          toString (firstEntry.chainPosition - 1) ++ " hcc_version=" ++ prev.hccVersion ++
          " (expected \"2.0.0\"; previous batch not committed)"))
      return prev.canonicalPayloadHash

/-- The identity text and the new hash of a row. -/
def recomputeRow (row : ChainEntryRow) : Except HashChainError (String × String) := do
  let chainIdentityJcs ← canonicalizeChainIdentity P row.key
  let hash ← computeCanonicalPayloadHashHex P
    (concatPreimage row.canonicalPayload chainIdentityJcs)
  return (chainIdentityJcs, hash)

def ChainEntryRow.diff (row : ChainEntryRow) (jcs hash previous : String) : RowDiff where
  entryId := row.entryId
  chainPosition := row.chainPosition
  oldCanonicalPayloadHash := row.canonicalPayloadHash
  newCanonicalPayloadHash := hash
  oldPreviousHash := row.previousHash
  newPreviousHash := previous
  chainIdentityJcs := jcs

/-- Each row with the hash of the one before it. -/
def processRows : String → List ChainEntryRow → Migration Unit
  | _, [] => pure ()
  | prevCanonicalPayloadHash, row :: rest => do
      let (jcs, hash) ← Program.ofExcept ((recomputeRow P row).mapError .hashChain)
      if R.options.dryRun = false then
        query R .update fun t =>
          match t.update row.entryId jcs hash prevCanonicalPayloadHash with
          | some t' => .ok ((), t')
          | none => .error .uniqueViolation
      else
        Program.emit (.diff (row.diff jcs hash prevCanonicalPayloadHash))
      processRows hash rest

/-- A batch that returns has processed each of its rows; a failure of one fails the batch. -/
def processBatch (chain : ChainPartitionKey) (firstEntry : ChainEntryRow)
    (rest : List ChainEntryRow) : Migration Unit := do
  select R .connect fun _ => ()
  let body := do
    let anchor ← fetchPrevCommittedHash R chain firstEntry
    processRows P R anchor (firstEntry :: rest)
  if R.options.dryRun then body else transaction R body

/-- At most so many attempts; the error of the last one is thrown. -/
def processBatchWithRetry (chain : ChainPartitionKey) (firstEntry : ChainEntryRow)
    (rest : List ChainEntryRow) : Nat → MigrationError → Migration Unit
  | 0, lastErr => throw lastErr
  | attempts + 1, _ =>
      tryCatch (processBatch P R chain firstEntry rest) fun e =>
        if e = .killed then throw e
        else processBatchWithRetry chain firstEntry rest attempts e

def MigrationProgress.advance (progress : MigrationProgress) (firstEntry : ChainEntryRow)
    (rest : List ChainEntryRow) (dryRun : Bool) : MigrationProgress where
  batchesProcessed := progress.batchesProcessed + 1
  entriesProcessed := progress.entriesProcessed + (rest.length + 1)
  entriesFailed := progress.entriesFailed
  batchesCommitted := progress.batchesCommitted + if dryRun then 0 else 1
  currentBatchFirstEntryId := some firstEntry.entryId

/-- The loop over the batches of a chain; the number bounds its rounds. -/
def migrateChain (chain : ChainPartitionKey) :
    Nat → Option (Nat ×ₗ String) → MigrationProgress → Migration MigrationProgress
  | 0, _, _ => throw .unbounded
  | rounds + 1, cursor, progress => do
      let rows ← select R .selectNextBatch fun t =>
        t.selectNextBatch chain cursor R.options.batchSize
      match rows with
      | [] => return progress
      | firstEntry :: rest => do
          processBatchWithRetry P R chain firstEntry rest R.options.retryPerBatch .null
          let progress := progress.advance firstEntry rest R.options.dryRun
          Program.emit (.progress progress)
          let tail := (firstEntry :: rest).getLast (List.cons_ne_nil firstEntry rest)
          migrateChain chain rounds (some tail.position) progress

def migrateChains (rounds : Nat) :
    List ChainPartitionKey → MigrationProgress → Migration MigrationProgress
  | [], progress => return progress
  | chain :: chains, progress => do
      let progress ← migrateChain P R chain rounds none progress
      migrateChains rounds chains progress

/-- A run that leaves rows to migrate does not return. -/
def checkPostBackfill : Migration Unit := do
  let remaining ← select R .postCheck fun t => t.unmigrated.length
  if remaining ≠ 0 then
    throw (.message ("[Migration 028] post-backfill invariant FAILED: " ++ toString remaining ++
      " entries still v0.1 (chain_identity_jcs IS NULL OR hcc_version = '1.0.0'). " ++
      "Partial-backfill state; do NOT run 028c (SET NOT NULL + VALIDATE CHECK). " ++
      "Fix the failure cause and rerun this script until union_total=0 " ++
      "(the script is idempotent and skips rows already at v2)."))

variable [LinearOrder ChainPartitionKey]

/-- Every round but the last one of a chain takes a row at least. -/
def migrateHccV01ToV02 : Migration MigrationProgress := do
  let w ← Program.get
  let totalEstimate ← select R .preCheck fun t => t.unmigrated.length
  if totalEstimate = 0 then
    return {}
  let chains ← select R .listMigrationChains fun t => t.listMigrationChains
  let progress ← migrateChains P R (w.table.rows.length + 1) chains {}
  if R.options.dryRun = false then
    checkPostBackfill R
  return progress

/-- The table after a run, whatever it returned or threw. -/
def MigrationRun.after (t : HashChainEntries) : HashChainEntries :=
  ((migrateHccV01ToV02 P R).run ⟨t, []⟩).world.table

def afterRuns (runs : List MigrationRun) (t : HashChainEntries) : HashChainEntries :=
  runs.foldl (fun t R => R.after P t) t

end Coivitas.Crypto
