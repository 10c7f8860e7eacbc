import Coivitas.Policy.PostgresTracker

/-! # The tracker among other transactions

Between the statements of a reserving transaction other transactions commit. From its
acquisition to the commit the advisory lock keeps out the reservations of one agent, metric and
start of a window; reservations through another window, settlements and action records do not
wait for it.
-/

namespace Coivitas.Policy

open Foundation

/-- What the advisory lock is taken on. -/
structure LockKey where
  agentDid : String
  metric : String
  windowStart : Int
  deriving DecidableEq

def ReserveRequest.lockKey (request : ReserveRequest) : LockKey :=
  ⟨request.agentDid, request.meterField.metric, request.windowStart⟩

/-- What another transaction commits, or that time goes on. -/
inductive OtherCommit where
  | reserve (request : ReserveRequest) (currentCumulative : JsNumber)
  | settle (request : SettleRequest) (reservation : ActionRecordRow)
  | record (row : ActionRecordRow)
  | wait (ms : Nat)

/-- The transaction needs the lock that is held. -/
def OtherCommit.Waits (held : Option LockKey) : OtherCommit → Prop
  | .reserve request _ => held = some request.lockKey
  | .settle _ _ | .record _ | .wait _ => False

instance (held : Option LockKey) : DecidablePred (OtherCommit.Waits held)
  | .reserve request _ => inferInstanceAs (Decidable (held = some request.lockKey))
  | .settle _ _ | .record _ | .wait _ => instDecidableFalse

def OtherCommit.apply (db : Database) : OtherCommit → Database
  | .reserve request currentCumulative => insertReservation request currentCumulative db
  | .settle request reservation =>
      match Policy.settle request reservation db.records with
      | .ok records => { db with records }
      | .error _ => db
  | .record row => { db with records := db.records.insertOrIgnore row }
  | .wait ms => { db with clock := db.clock + ms }

/-- The database, and what is committed before each of the next statements. -/
structure SharedStore where
  db : Database
  others : List (List OtherCommit)

namespace SharedStore

/-- Other transactions commit, but for those that wait for the lock. -/
def interleave (held : Option LockKey) (store : SharedStore) : SharedStore :=
  match store.others with
  | [] => store
  | commits :: rest =>
      ⟨(commits.filter fun commit => ¬ commit.Waits held).foldl OtherCommit.apply store.db, rest⟩

/-! The store on which each statement of a reserving transaction runs. -/

def lookup (store : SharedStore) : SharedStore := store.interleave none

def locked (store : SharedStore) : SharedStore := store.lookup.interleave none

def counted (key : LockKey) (store : SharedStore) : SharedStore :=
  store.locked.interleave (some key)

def deciding (key : LockKey) (store : SharedStore) : SharedStore :=
  (store.counted key).interleave (some key)

/-- The clock is read when the lock is held. -/
def pendingCutoff (store : SharedStore) : Int := store.locked.db.clock - pendingTtlMs

def aggregate (entry : MeterFieldEntry) (request : ReserveRequest) (store : SharedStore) :
    JsNumber :=
  aggregateWithClient entry request.agentDid request.windowStart request.now store.pendingCutoff
    (store.counted request.lockKey).db.records

/-- The amounts that the aggregation selects, without any rounding. -/
def countedValue (entry : MeterFieldEntry) (request : ReserveRequest) (store : SharedStore) : ℚ :=
  cumulativeValue entry request.agentDid request.windowStart request.now store.pendingCutoff
    (store.counted request.lockKey).db.records

/-- The whole transaction. -/
def checkAndReserve (request : ReserveRequest) (store : SharedStore) :
    Option ReserveResult × SharedStore :=
  match meterFieldRegistry request.meterField.metric with
  | none => (none, store)
  | some entry =>
      match findReservation store.lookup.db.records request.recordId with
      | some existing => (some (existingResult request existing), store.lookup)
      | none =>
          let deciding := store.deciding request.lockKey
          let (result, db) := reserve request (store.aggregate entry request) deciding.db
          (some result, { deciding with db })

/-- Without other transactions it is the undisturbed one. -/
theorem checkAndReserve_alone (request : ReserveRequest) (db : Database) :
    (SharedStore.checkAndReserve request ⟨db, []⟩).1 = (Policy.checkAndReserve request db).1 ∧
      (SharedStore.checkAndReserve request ⟨db, []⟩).2 =
        ⟨(Policy.checkAndReserve request db).2, []⟩ := by
  unfold SharedStore.checkAndReserve Policy.checkAndReserve
  cases meterFieldRegistry request.meterField.metric with
  | none => exact ⟨rfl, rfl⟩
  | some entry =>
      have hlookup : (SharedStore.mk db []).lookup = ⟨db, []⟩ := rfl
      dsimp only
      rw [hlookup]
      cases findReservation db.records request.recordId with
      | some existing => exact ⟨rfl, rfl⟩
      | none => exact ⟨rfl, rfl⟩

end SharedStore

def postgresCumulativeTracker : CumulativeTracker SharedStore := ⟨SharedStore.checkAndReserve⟩

end Coivitas.Policy
