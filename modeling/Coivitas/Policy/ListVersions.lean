import Coivitas.Policy.RevocationApi

/-! # The versions of a revocation list

The statements of revocations one by one, in any interleaving. A revocation reads the next
version of its list, looks for an earlier revocation of its token, inserts its row and
commits. The first of these statements locks the rows behind an aggregate, which the database
does not do.
-/

namespace Coivitas.Policy.Revocation

open Foundation

/-! ## Statements -/

/-- What the database looks at in a `SELECT` before it runs it. -/
structure SelectStatement where
  aggregates : Bool
  forUpdate : Bool

/-- The message of the error for a locking clause that has no rows to lock. -/
def SelectStatement.refusal (statement : SelectStatement) : Option String :=
  if statement.aggregates ∧ statement.forUpdate then
    some "FOR UPDATE is not allowed with aggregate functions"
  else none

/-- `SELECT COALESCE(MAX(list_version), 0) + 1 … FOR UPDATE`. -/
def nextVersionStatement : SelectStatement := ⟨true, true⟩

/-- `SELECT id … LIMIT 1`. -/
def duplicateStatement : SelectStatement := ⟨false, false⟩

/-- The index that a row violates next to the other one. -/
def violated (record other : RevocationRecord) : Option String :=
  if record.id = other.id then some "revocation_records_pkey"
  else if record.tenantId = other.tenantId ∧ record.tokenId = other.tokenId then
    some "uniq_revocation_records_tenant_token"
  else if record.tenantId = other.tenantId ∧ record.listId = other.listId ∧
      record.listVersion = other.listVersion then
    some "uniq_revocation_records_list_version"
  else none

def uniqueViolation (constraint : String) : StoreFailure :=
  .uniqueViolation constraint
    ("duplicate key value violates unique constraint \"" ++ constraint ++ "\"")

/-! ## Calls -/

inductive RevokePhase where
  | began
  | versioned (listVersion : ℕ)
  | unrevoked (listVersion : ℕ)
  | inserted (record : RevocationRecord)
  | returned (result : Except String RevocationWriteResult) (finishedAt : ℕ)

/-- A call of `revoke`, with the number of the event that started it. -/
structure RevokeCall where
  input : RevocationWriteInput
  startedAt : ℕ
  alreadyRevoked : Bool
  phase : RevokePhase

/-- The committed rows and the calls. -/
structure RevocationLists where
  rows : List RevocationRecord
  calls : List RevokeCall
  clock : ℕ

inductive ListEvent where
  | revoke (input : RevocationWriteInput)
  | nextVersion (call : ℕ)
  | findDuplicate (call : ℕ)
  | insert (call : ℕ) (id : String) (revokedAt : Int)
  | commit (call : ℕ)

namespace RevocationLists

def start : RevocationLists := ⟨[], [], 0⟩

def setPhase (call : ℕ) (phase : RevokePhase) (s : RevocationLists) : RevocationLists :=
  { s with calls := s.calls.modify call fun c => { c with phase } }

/-- The call returns, after `ROLLBACK` when it has not committed. -/
def finish (call : ℕ) (result : Except String RevocationWriteResult) (s : RevocationLists) :
    RevocationLists :=
  s.setPhase call (.returned result s.clock)

/-- The part of `revoke` up to `BEGIN`. -/
def revoke (input : RevocationWriteInput) (s : RevocationLists) : RevocationLists :=
  { s with
    calls := s.calls ++ [{
      input
      startedAt := s.clock
      alreadyRevoked := hasRow s.rows input.tenantId input.tokenId
      phase := match checkInput input with
        | some rejected => .returned (.ok rejected) s.clock
        | none => .began }] }

def nextVersion (call : ℕ) (s : RevocationLists) : Option RevocationLists :=
  match s.calls[call]? with
  | some ⟨input, _, _, .began⟩ =>
      match nextVersionStatement.refusal with
      | some message => some (s.finish call (StoreFailure.error message).result)
      | none => some (s.setPhase call
          (.versioned (nextListVersion s.rows input.tenantId input.listId)))
  | _ => none

def findDuplicate (call : ℕ) (s : RevocationLists) : Option RevocationLists :=
  match s.calls[call]? with
  | some ⟨input, _, _, .versioned listVersion⟩ =>
      match duplicateStatement.refusal with
      | some message => some (s.finish call (StoreFailure.error message).result)
      | none =>
          if hasRow s.rows input.tenantId input.tokenId = true then
            some (s.finish call (.ok (.rejected .duplicate ("token_id '" ++ input.tokenId ++
              "' is already revoked in tenant '" ++ input.tenantId ++ "'"))))
          else some (s.setPhase call (.unrevoked listVersion))
  | _ => none

/-- The rows that other calls have inserted and not committed. -/
def uncommitted (s : RevocationLists) : List RevocationRecord :=
  s.calls.filterMap fun c =>
    match c.phase with
    | .inserted record => some record
    | _ => none

/-- An insert waits for the calls whose rows it may violate an index with. -/
def insert (call : ℕ) (id : String) (revokedAt : Int) (s : RevocationLists) :
    Option RevocationLists :=
  match s.calls[call]? with
  | some ⟨input, _, _, .unrevoked listVersion⟩ =>
      let record : RevocationRecord :=
        ⟨id, input.tenantId, input.tokenId, input.revokedBy, revokedAt, input.reasonOrDefault,
          input.listId, listVersion, input.issuerSignaturePayload⟩
      if s.uncommitted.any fun other => (violated record other).isSome then none
      else
        match s.rows.findSome? (violated record) with
        | some constraint => some (s.finish call (uniqueViolation constraint).result)
        | none => some (s.setPhase call (.inserted record))
  | _ => none

def commit (call : ℕ) (s : RevocationLists) : Option RevocationLists :=
  match s.calls[call]? with
  | some ⟨_, _, _, .inserted record⟩ =>
      let s := s.finish call (.ok (.ok record))
      some { s with rows := s.rows ++ [record] }
  | _ => none

def perform (s : RevocationLists) : ListEvent → Option RevocationLists
  | .revoke input => some (s.revoke input)
  | .nextVersion call => s.nextVersion call
  | .findDuplicate call => s.findDuplicate call
  | .insert call id revokedAt => s.insert call id revokedAt
  | .commit call => s.commit call

def tick (s : RevocationLists) : RevocationLists := { s with clock := s.clock + 1 }

def step (s : RevocationLists) (event : ListEvent) : Option RevocationLists :=
  (s.perform event).map tick

/-! ## What the lists are to be -/

/-- The versions of every list are `1..n`. -/
def GapFree (s : RevocationLists) : Prop :=
  ∀ tenantId listId, ∃ n, List.Perm
    ((s.rows.filter fun row => row.tenantId = tenantId ∧ row.listId = listId).map
      RevocationRecord.listVersion) (List.range' 1 n)

def OnePerToken (s : RevocationLists) : Prop :=
  (s.rows.map fun row => (row.tenantId, row.tokenId)).Nodup

/-- Both calls concern one token or one list. -/
def Concerns (input other : RevocationWriteInput) : Prop :=
  input.tenantId = other.tenantId ∧
    (input.tokenId = other.tokenId ∨ input.listId = other.listId)

/-- The call returned with the result. It had valid parameters for a token that was not
revoked, and all related calls had returned before it or were started after it. -/
def Undisturbed (s : RevocationLists) (call : ℕ)
    (result : Except String RevocationWriteResult) : Prop :=
  ∃ c finishedAt, s.calls[call]? = some c ∧ c.phase = .returned result finishedAt ∧
    checkInput c.input = none ∧ c.alreadyRevoked = false ∧
    ∀ other d, s.calls[other]? = some d → other ≠ call → Concerns c.input d.input →
      finishedAt < d.startedAt ∨
        ∃ earlier endedAt, d.phase = .returned earlier endedAt ∧ endedAt < c.startedAt

/-- The lists are gap-free, no token has two records, and undisturbed calls return their
records. -/
structure Meets (s : RevocationLists) : Prop where
  gapFree : s.GapFree
  onePerToken : s.OnePerToken
  answered : ∀ call result, s.Undisturbed call result → ∃ record, result = .ok (.ok record)

/-! ## What the statements leave -/

/-- A call is at its first statement or was rejected. -/
def Stuck (c : RevokeCall) : Prop :=
  c.phase = .began ∨
    ∃ code message finishedAt, c.phase = .returned (.ok (.rejected code message)) finishedAt

/-- Nothing is ever committed. -/
structure Inv (s : RevocationLists) : Prop where
  rows : s.rows = []
  stuck : ∀ c ∈ s.calls, Stuck c

variable {s s' : RevocationLists}

theorem inv_start : Inv start := ⟨rfl, by simp [start]⟩

theorem checkInput_eq_some {input : RevocationWriteInput} {result : RevocationWriteResult}
    (hresult : checkInput input = some result) :
    ∃ code message, result = .rejected code message := by
  unfold checkInput at hresult
  split at hresult
  next =>
    cases hresult
    exact ⟨_, _, rfl⟩
  next =>
    split at hresult
    next =>
      cases hresult
      exact ⟨_, _, rfl⟩
    next => cases hresult

theorem Inv.revoke (hinv : Inv s) (input : RevocationWriteInput) : Inv (s.revoke input) := by
  refine ⟨hinv.rows, fun c hc => ?_⟩
  obtain hc | hc := List.mem_append.mp hc
  · exact hinv.stuck c hc
  · rw [List.mem_singleton.mp hc]
    cases hcheck : checkInput input with
    | none => exact .inl rfl
    | some result =>
        obtain ⟨code, message, rfl⟩ := checkInput_eq_some hcheck
        exact .inr ⟨code, message, s.clock, rfl⟩

/-- The first statement is refused, and the call is rejected. -/
theorem Inv.nextVersion (hinv : Inv s) {call : ℕ} (hstep : s.nextVersion call = some s') :
    Inv s' := by
  unfold RevocationLists.nextVersion at hstep
  split at hstep
  next =>
    have hrefused : nextVersionStatement.refusal =
        some "FOR UPDATE is not allowed with aggregate functions" := rfl
    rw [hrefused] at hstep
    cases hstep
    refine ⟨hinv.rows, fun c hc => ?_⟩
    obtain ⟨i, hi⟩ := List.mem_iff_getElem?.mp hc
    rw [finish, setPhase, List.getElem?_modify] at hi
    obtain ⟨d, hd, rfl⟩ := Option.map_eq_some_iff.mp hi
    split
    next => exact .inr ⟨_, _, _, rfl⟩
    next => exact hinv.stuck d (List.mem_iff_getElem?.mpr ⟨i, hd⟩)
  next => cases hstep

/-- No call is at a later statement. -/
theorem Inv.stuck_at (hinv : Inv s) {call : ℕ} {c : RevokeCall} (hc : s.calls[call]? = some c) :
    Stuck c :=
  hinv.stuck c (List.mem_iff_getElem?.mpr ⟨call, hc⟩)

theorem step_inv {event : ListEvent} (hinv : Inv s) (hstep : s.step event = some s') : Inv s' := by
  obtain ⟨next, hnext, rfl⟩ := Option.map_eq_some_iff.mp hstep
  suffices hinv' : Inv next from ⟨hinv'.rows, hinv'.stuck⟩
  cases event with
  | revoke input =>
      cases hnext
      exact hinv.revoke input
  | nextVersion call => exact hinv.nextVersion hnext
  | findDuplicate call =>
      simp only [perform, RevocationLists.findDuplicate] at hnext
      split at hnext
      next hc => obtain hbegan | ⟨_, _, _, hreturned⟩ := hinv.stuck_at hc <;> contradiction
      next => cases hnext
  | insert call id revokedAt =>
      simp only [perform, RevocationLists.insert] at hnext
      split at hnext
      next hc => obtain hbegan | ⟨_, _, _, hreturned⟩ := hinv.stuck_at hc <;> contradiction
      next => cases hnext
  | commit call =>
      simp only [perform, RevocationLists.commit] at hnext
      split at hnext
      next hc => obtain hbegan | ⟨_, _, _, hreturned⟩ := hinv.stuck_at hc <;> contradiction
      next => cases hnext

theorem run_inv {events : List ListEvent} (hrun : run step start events = some s) : Inv s := by
  have hgood : Along step (fun _ _ => True) start events :=
    along_of_forall_mem fun _ _ _ => trivial
  exact run_invariant Inv (fun _ _ _ hinv _ hstep => step_inv hinv hstep) inv_start hgood hrun

/-- The lists are as they are to be after a run exactly when no call with valid parameters for
an unrevoked token has returned undisturbed: such a call is rejected, whatever its parameters. -/
theorem meets_iff {events : List ListEvent} (hrun : run step start events = some s) :
    s.Meets ↔ ∀ call result, ¬ s.Undisturbed call result := by
  have hinv := run_inv hrun
  constructor
  · intro hmeets call result hcall
    obtain ⟨record, rfl⟩ := hmeets.answered call result hcall
    obtain ⟨c, finishedAt, hc, hphase, -⟩ := hcall
    obtain hbegan | ⟨code, message, _, hreturned⟩ := hinv.stuck_at hc
    · cases hphase.symm.trans hbegan
    · cases hphase.symm.trans hreturned
  · intro hnone
    constructor
    case gapFree => exact fun _ _ => ⟨0, by simp [hinv.rows]⟩
    case onePerToken => simp [OnePerToken, hinv.rows]
    case answered => exact fun call result hcall => absurd hcall (hnone call result)

/-! ## One revocation -/

namespace First

def input : RevocationWriteInput := ⟨"tenant-a", "token-1", "did:agent:1", none, "list-1", none⟩

def events : List ListEvent := [.revoke input, .nextVersion 0]

def rejected : RevocationWriteResult :=
  .rejected .storeError
    ("DB error during revoke: " ++ "FOR UPDATE is not allowed with aggregate functions")

def final : RevocationLists := ⟨[], [⟨input, 0, false, .returned (.ok rejected) 1⟩], 2⟩

theorem run_events : run step start events = some final := rfl

/-- The only revocation there is, with valid parameters, is rejected. -/
theorem undisturbed_rejected : run step start events = some final ∧
    final.Undisturbed 0 (.ok rejected) ∧ ¬ final.Meets := by
  have hundisturbed : final.Undisturbed 0 (.ok rejected) := by
    refine ⟨_, 1, rfl, rfl, by decide, rfl, fun other d hd hother => ?_⟩
    obtain ⟨hlt, -⟩ := List.getElem?_eq_some_iff.mp hd
    simp only [final, List.length_singleton] at hlt
    omega
  refine ⟨run_events, hundisturbed, fun hmeets => ?_⟩
  obtain ⟨record, hrecord⟩ := hmeets.answered 0 _ hundisturbed
  cases hrecord

theorem final_meets_iff : final.Meets ↔ ∀ call result, ¬ final.Undisturbed call result :=
  meets_iff run_events

end First

end RevocationLists

end Coivitas.Policy.Revocation
