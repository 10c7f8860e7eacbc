import Mathlib.Data.List.Sort
import Coivitas.Foundation.Json
import Coivitas.Foundation.OrderedMap
import Coivitas.Foundation.Run

/-! # The envelope ledger

`claim`, `finalize`, `reject` and `expireStalePending` as transactions on one table at
isolation level READ COMMITTED. A statement takes its snapshot when it is issued and
completes when the rows it touches are not locked by another transaction; a row that has
changed meanwhile is looked at again. The unique indexes hold for each status apart.
-/

namespace Coivitas.Policy.EnvelopeLedger

open Foundation

/-! ## Rows -/

inductive LedgerClaimStatus where
  | pending | committed | rejected | expired
  deriving DecidableEq, Repr

/-- `COMMITTED` and `REJECTED`. -/
def LedgerClaimStatus.Final (status : LedgerClaimStatus) : Prop :=
  status = committed ∨ status = rejected

instance (status : LedgerClaimStatus) : Decidable status.Final := by
  unfold LedgerClaimStatus.Final
  infer_instance

/-- The columns that a transition writes. -/
structure RowState where
  status : LedgerClaimStatus
  finalizedAt : Option Int
  resultSummary : Option Json

/-- A row: what was committed (nothing while its insertion is not), what the transaction that
has locked it sees, and which transaction that is. Times are in microseconds. -/
structure LedgerRow where
  id : Nat
  envelopeId : String
  ttlSeconds : Int
  claimerId : Option String
  claimedAt : Int
  createdAt : Int
  stored : Option RowState
  current : RowState
  holder : Option Nat

namespace LedgerRow

variable (row : LedgerRow)

/-- `claimed_at + ttl_seconds * interval '1 second'`. -/
def leaseEnd : Int := row.claimedAt + row.ttlSeconds * 1000000

def HeldByOther (i : Nat) : Prop := row.holder ≠ none ∧ row.holder ≠ some i

instance (i : Nat) : Decidable (row.HeldByOther i) := by
  unfold HeldByOther
  infer_instance

/-- The version that a transaction sees. -/
def visible (i : Nat) : Option RowState :=
  if row.holder = some i then some row.current else row.stored

/-- `claimer_id IS NULL OR claimer_id = $claimerId`, when a claimer is given. -/
def Owned (claimerId : Option String) : Prop :=
  claimerId = none ∨ row.claimerId = none ∨ row.claimerId = claimerId

instance (claimerId : Option String) : Decidable (row.Owned claimerId) := by
  unfold Owned
  infer_instance

end LedgerRow

/-! ## Transactions -/

inductive Operation where
  | claim (envelopeId : String) (ttlSeconds : Option Int) (claimerId : Option String)
  | finalize (envelopeId : String) (resultSummary : Option Json) (claimerId : Option String)
  | reject (envelopeId : String) (claimerId : Option String)
  | expireStalePending (limit : Nat)

inductive LedgerResult where
  | claimed (id : Nat) (envelopeId : String) (claimedAt ttlSeconds : Int)
  | alreadyTerminal (envelopeId : String)
  | alreadyPending (envelopeId : String)
  | finalized (envelopeId : String) (finalizedAt : Int)
  | leaseExpired (envelopeId : String)
  | alreadyFinal (envelopeId : String)
  | notFound (envelopeId : String)
  | rejected (envelopeId : String) (finalizedAt : Int)
  | expiredCount (count : Nat)

/-- The statement that a transaction comes to next: the check and the insertion of a claim; the
locking read, the update, the expiry and the last read of the others; or its end. -/
inductive Stage where
  | check | insert | select | update | expire | read | sweep
  | ending (result : LedgerResult)

/-- An open transaction, and the rows in the snapshot of the statement that is under way. -/
structure LedgerTransaction where
  operation : Operation
  startedAt : Int
  stage : Stage
  seen : Option (List (Nat × LedgerClaimStatus))

inductive LedgerCall where
  | opened (transaction : LedgerTransaction)
  | done (result : Option LedgerResult)

namespace Operation

def first : Operation → Stage
  | claim _ _ _ => .check
  | finalize _ _ _ => .select
  | reject _ _ => .select
  | expireStalePending _ => .sweep

/-- Whether the operation is on the envelope of the row. -/
def Concerns (row : LedgerRow) : Operation → Prop
  | claim envelopeId _ _ => row.envelopeId = envelopeId
  | finalize envelopeId _ _ => row.envelopeId = envelopeId
  | reject envelopeId _ => row.envelopeId = envelopeId
  | expireStalePending _ => True

instance (row : LedgerRow) (operation : Operation) : Decidable (operation.Concerns row) := by
  cases operation <;> unfold Concerns <;> infer_instance

end Operation

/-! ## Statements -/

/-- The statuses in the `WHERE` clause of a statement. -/
def Stage.accepts : Stage → LedgerClaimStatus → Bool
  | check, status => decide (status ≠ .expired)
  | select, status => decide (status = .pending)
  | update, status => decide (status = .pending)
  | expire, status => decide (status = .pending)
  | sweep, status => decide (status = .pending)
  | read, status => decide status.Final
  | insert, _ => false
  | ending _, _ => false

/-- The rest of the `WHERE` clause. The lease is compared by `finalize` and by the sweeper
only: a rejection takes a row with any lease. -/
def applies (operation : Operation) (stage : Stage) (now : Int) (row : LedgerRow) : Prop :=
  operation.Concerns row ∧
    match operation, stage with
    | .finalize _ _ claimerId, .select => now ≤ row.leaseEnd ∧ row.Owned claimerId
    | .finalize _ _ claimerId, .update => now ≤ row.leaseEnd ∧ row.Owned claimerId
    | .finalize _ _ _, .expire => row.leaseEnd < now
    | .reject _ claimerId, .select => row.Owned claimerId
    | .reject _ claimerId, .update => row.Owned claimerId
    | .expireStalePending _, _ => row.leaseEnd < now
    | _, _ => True

instance (operation : Operation) (stage : Stage) (now : Int) (row : LedgerRow) :
    Decidable (applies operation stage now row) := by
  unfold applies
  refine @instDecidableAnd _ _ inferInstance ?_
  split <;> infer_instance

namespace LedgerTransaction

variable (t : LedgerTransaction)

/-- The rows of the snapshot that the statement is about. -/
def snapshot (i : Nat) (now : Int) (rows : List LedgerRow) : List (Nat × LedgerClaimStatus) :=
  rows.filterMap fun row =>
    match row.visible i with
    | none => none
    | some state =>
        if t.stage.accepts state.status = true ∧ applies t.operation t.stage now row then
          some (row.id, state.status)
        else none

/-- The statement has to wait for the row, or acts on it: the row is in the snapshot and has not
changed, or is still of the kind that the statement is about. -/
def Candidate (i : Nat) (now : Int) (seen : List (Nat × LedgerClaimStatus)) (row : LedgerRow) :
    Prop :=
  ∃ entry ∈ seen, entry.1 = row.id ∧
    (row.HeldByOther i ∨ row.current.status = entry.2 ∨
      t.stage.accepts row.current.status = true ∧ applies t.operation t.stage now row)

instance (i : Nat) (now : Int) (seen : List (Nat × LedgerClaimStatus)) (row : LedgerRow) :
    Decidable (t.Candidate i now seen row) := by
  unfold Candidate
  infer_instance

end LedgerTransaction

/-- What a unique index says to a new entry. -/
inductive UniqueCheck where
  | clear | violated | wait
  deriving DecidableEq, Repr

/-- An entry of a transaction that has not ended yet makes the new one wait. -/
def uniqueRow (i : Nat) (status : LedgerClaimStatus) (row : LedgerRow) : UniqueCheck :=
  if row.HeldByOther i then
    match decide (row.stored.map RowState.status = some status),
        decide (row.current.status = status) with
    | true, true => .violated
    | false, false => .clear
    | _, _ => .wait
  else if row.current.status = status then .violated
  else .clear

/-- The partial unique index of one status: `(envelope_id) WHERE status = …`. -/
def uniqueIndex (i : Nat) (status : LedgerClaimStatus) (envelopeId : String)
    (rows : List LedgerRow) : UniqueCheck :=
  let entries := rows.filter fun row => row.envelopeId = envelopeId
  if entries.any fun row => uniqueRow i status row = .wait then .wait
  else if entries.any fun row => uniqueRow i status row = .violated then .violated
  else .clear

/-! ## Steps -/

structure LedgerSystem where
  rows : List LedgerRow
  nextId : Nat
  calls : OrderedMap Nat LedgerCall
  /-- The statuses that were committed, in order. -/
  history : List (String × LedgerClaimStatus)

inductive LedgerEvent where
  | begin (call : Nat) (operation : Operation) (now : Int)
  | issue (call : Nat) (now : Int)
  | complete (call : Nat) (now : Int)
  | commit (call : Nat)
  | rollback (call : Nat)

namespace LedgerSystem

def empty : LedgerSystem := ⟨[], 1, OrderedMap.empty, []⟩

def setCall (s : LedgerSystem) (i : Nat) (call : LedgerCall) : LedgerSystem :=
  { s with calls := s.calls.set i call }

def goTo (s : LedgerSystem) (i : Nat) (t : LedgerTransaction) (stage : Stage) : LedgerSystem :=
  s.setCall i (.opened { t with stage := stage, seen := none })

/-- The rows under a change of those that meet a condition. -/
def change (s : LedgerSystem) (p : LedgerRow → Prop) [DecidablePred p]
    (f : LedgerRow → LedgerRow) : LedgerSystem :=
  { s with rows := s.rows.map fun row => if p row then f row else row }

/-- A row as its transaction leaves it. -/
def commitRow (row : LedgerRow) : LedgerRow :=
  { row with stored := some row.current, holder := none }

/-- What the end of a transaction makes known of a row. -/
def published (i : Nat) (row : LedgerRow) : Option (String × LedgerClaimStatus) :=
  if row.holder = some i ∧ row.stored.map RowState.status ≠ some row.current.status then
    some (row.envelopeId, row.current.status)
  else none

def commit (s : LedgerSystem) (i : Nat) (result : LedgerResult) : LedgerSystem :=
  { s with
    rows := s.rows.map fun row => if row.holder = some i then commitRow row else row
    calls := s.calls.set i (.done (some result))
    history := s.history ++ s.rows.filterMap (published i) }

/-- A row as it was before its transaction; none if it was not. -/
def rollbackRow (i : Nat) (row : LedgerRow) : Option LedgerRow :=
  if row.holder = some i then
    row.stored.map fun state => { row with current := state, holder := none }
  else some row

def rollback (s : LedgerSystem) (i : Nat) : LedgerSystem :=
  { s with
    rows := s.rows.filterMap (rollbackRow i)
    calls := s.calls.set i (.done none) }

/-- The existence check of a claim: `LIMIT 1 FOR UPDATE`. -/
def check (s : LedgerSystem) (i : Nat) (t : LedgerTransaction) (now : Int)
    (seen : List (Nat × LedgerClaimStatus)) (envelopeId : String) : Option LedgerSystem :=
  match s.rows.filter fun row => t.Candidate i now seen row with
  | [] => some (s.goTo i t .insert)
  | row :: _ =>
      if row.HeldByOther i then none
      else
        let locked := s.change (fun other => other.id = row.id ∧ ¬ other.HeldByOther i)
          fun other => { other with holder := some i }
        some (locked.goTo i t (.ending
          (if row.current.status.Final then .alreadyTerminal envelopeId
            else .alreadyPending envelopeId)))

/-- `INTEGER` with `ttl_seconds > 0`. -/
def ValidTtl (ttl : Int) : Prop := 0 < ttl ∧ ttl ≤ 2147483647

instance (ttl : Int) : Decidable (ValidTtl ttl) := by
  unfold ValidTtl
  infer_instance

/-- The row that a claim inserts. -/
def newRow (i id : Nat) (envelopeId : String) (ttl : Int) (claimerId : Option String) (now : Int) :
    LedgerRow where
  id := id
  envelopeId := envelopeId
  ttlSeconds := ttl
  claimerId := claimerId
  claimedAt := now
  createdAt := now
  stored := none
  current := ⟨.pending, none, none⟩
  holder := some i

/-- The insertion of a claim. A violation of the index is caught; a failed check of the lease
is not. -/
def insert (s : LedgerSystem) (i : Nat) (t : LedgerTransaction) (now : Int) (envelopeId : String)
    (ttl : Int) (claimerId : Option String) : Option LedgerSystem :=
  if ¬ ValidTtl ttl then some (s.rollback i)
  else
    match uniqueIndex i .pending envelopeId s.rows with
    | .wait => none
    | .violated => some (s.goTo i t (.ending (.alreadyPending envelopeId)))
    | .clear =>
        let inserted := { s with
          rows := s.rows ++ [newRow i s.nextId envelopeId ttl claimerId now]
          nextId := s.nextId + 1 }
        some (inserted.goTo i t (.ending (.claimed s.nextId envelopeId now ttl)))

variable (s : LedgerSystem) (i : Nat) (t : LedgerTransaction) (now : Int)
  (seen : List (Nat × LedgerClaimStatus))

/-- Some row that the statement needs is locked by another transaction. -/
def Blocked : Prop := ∃ row ∈ s.rows, t.Candidate i now seen row ∧ row.HeldByOther i

def Found : Prop := ∃ row ∈ s.rows, t.Candidate i now seen row

instance : Decidable (s.Blocked i t now seen) := by
  unfold Blocked
  infer_instance

instance : Decidable (s.Found i t now seen) := by
  unfold Found
  infer_instance

/-- `SELECT … FOR UPDATE` without a limit. -/
def lockFound : LedgerSystem :=
  s.change (t.Candidate i now seen) fun row => { row with holder := some i }

/-- `UPDATE … SET status = …`. -/
def writeFound (state : RowState) : LedgerSystem :=
  s.change (t.Candidate i now seen) fun row => { row with holder := some i, current := state }

def select (ifFound ifNone : Stage) : Option LedgerSystem :=
  if s.Blocked i t now seen then none
  else if s.Found i t now seen then some ((s.lockFound i t now seen).goTo i t ifFound)
  else some (s.goTo i t ifNone)

/-- The update to a final status. It throws when the row is gone and when the index of the new
status has an entry. -/
def update (envelopeId : String) (state : RowState) (result : LedgerResult) :
    Option LedgerSystem :=
  if s.Blocked i t now seen then none
  else if s.Found i t now seen then
    match uniqueIndex i state.status envelopeId s.rows with
    | .wait => none
    | .violated => some (s.rollback i)
    | .clear => some ((s.writeFound i t now seen state).goTo i t (.ending result))
  else some (s.rollback i)

/-- The expiry of a lapsed row, when there was none to finalize. -/
def expire (envelopeId : String) : Option LedgerSystem :=
  if s.Blocked i t now seen then none
  else if s.Found i t now seen then
    some ((s.writeFound i t now seen ⟨.expired, some now, none⟩).goTo i t
      (.ending (.leaseExpired envelopeId)))
  else some (s.goTo i t .read)

/-- The rows that the sweeper takes: the oldest ones that no one has locked. -/
def swept (limit : Nat) : List LedgerRow :=
  ((s.rows.filter fun row => t.Candidate i now seen row ∧ ¬ row.HeldByOther i).mergeSort
    fun a b => decide (a.claimedAt ≤ b.claimedAt)).take limit

/-- `expireStalePending`: one statement in a transaction of its own. -/
def sweep (limit : Nat) : LedgerSystem :=
  let ids := (s.swept i t now seen limit).map LedgerRow.id
  (s.change (fun row => row.id ∈ ids ∧ t.Candidate i now seen row ∧ ¬ row.HeldByOther i)
    fun row => { row with holder := some i, current := ⟨.expired, some now, none⟩ }).commit i
      (.expiredCount ids.length)

/-- The end of the statement that is under way; `none` while it waits. -/
def complete (defaultTtlSeconds : Int) : Option LedgerSystem :=
  match t.operation, t.stage with
  | .claim envelopeId _ _, .check => s.check i t now seen envelopeId
  | .claim envelopeId ttlSeconds claimerId, .insert =>
      s.insert i t now envelopeId (ttlSeconds.getD defaultTtlSeconds) claimerId
  | .finalize _ _ _, .select => s.select i t now seen .update .expire
  | .finalize envelopeId resultSummary _, .update =>
      s.update i t now seen envelopeId ⟨.committed, some now, resultSummary⟩
        (.finalized envelopeId now)
  | .finalize envelopeId _ _, .expire => s.expire i t now seen envelopeId
  | .finalize envelopeId _ _, .read =>
      some (s.goTo i t (.ending
        (if seen = [] then .notFound envelopeId else .alreadyFinal envelopeId)))
  | .reject _ _, .select => s.select i t now seen .update .read
  | .reject envelopeId _, .update =>
      s.update i t now seen envelopeId ⟨.rejected, some t.startedAt, none⟩
        (.rejected envelopeId t.startedAt)
  | .reject envelopeId _, .read =>
      some (s.goTo i t (.ending
        (if seen = [] then .notFound envelopeId else .alreadyFinal envelopeId)))
  | .expireStalePending limit, .sweep => some (s.sweep i t now seen limit)
  | _, _ => none

def step (defaultTtlSeconds : Int) (s : LedgerSystem) : LedgerEvent → Option LedgerSystem
  | .begin i operation now =>
      match s.calls.get? i with
      | none => some (s.setCall i (.opened ⟨operation, now, operation.first, none⟩))
      | some _ => none
  | .issue i now =>
      match s.calls.get? i with
      | some (.opened t) =>
          match t.stage, t.seen with
          | .ending _, _ => none
          | _, some _ => none
          | _, none =>
              some (s.setCall i (.opened { t with seen := some (t.snapshot i now s.rows) }))
      | _ => none
  | .complete i now =>
      match s.calls.get? i with
      | some (.opened t) =>
          match t.seen with
          | some seen => s.complete i t now seen defaultTtlSeconds
          | none => none
      | _ => none
  | .commit i =>
      match s.calls.get? i with
      | some (.opened t) =>
          match t.stage with
          | .ending result => some (s.commit i result)
          | _ => none
      | _ => none
  | .rollback i =>
      match s.calls.get? i with
      | some (.opened _) => some (s.rollback i)
      | _ => none

end LedgerSystem

end Coivitas.Policy.EnvelopeLedger
