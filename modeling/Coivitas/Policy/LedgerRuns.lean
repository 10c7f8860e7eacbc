import Coivitas.Crypto.Sha256
import Coivitas.Foundation.Run
import Coivitas.Identity.DelegationAttenuation
import Coivitas.Policy.ActionRecorder

/-! # Whole runs of the action recorder

Calls that record actions interleave statement by statement. The advisory lock
serialises the transactions of one agent from its acquisition to the commit,
but a record's creation time is fixed before the lock is asked for.
-/

namespace Coivitas.Policy

open Foundation Crypto

structure Recorder where
  kind : RecorderKind
  ledgerPrivateKey : String

/-- A call in flight, by the statement it has completed. -/
inductive RecordCall where
  | waiting (recorder : Recorder) (prepared : PreparedRecord)
  | locked (recorder : Recorder) (prepared : PreparedRecord)
  | loaded (recorder : Recorder) (prepared : PreparedRecord) (previousRecordHash : String)

namespace RecordCall

def recorder : RecordCall → Recorder
  | waiting recorder _ | locked recorder _ | loaded recorder _ _ => recorder

def prepared : RecordCall → PreparedRecord
  | waiting _ prepared | locked _ prepared | loaded _ prepared _ => prepared

def agentDid (call : RecordCall) : String := call.prepared.input.agentDid

/-- Whether the call is past its lock statement. -/
def holdsLock : RecordCall → Prop
  | waiting .. => False
  | _ => True

end RecordCall

/-- The table, the holder of every agent's lock, the calls in flight and how the
finished ones ended. -/
structure RecordSystem where
  records : ActionRecords
  lock : String → Option Nat
  calls : Nat → Option RecordCall
  results : List (Nat × Except RecorderError String)

inductive RecordEvent where
  | record (call : Nat) (recorder : Recorder) (input : ActionRecordInput) (uuid now : String)
  | lockAgentChain (call : Nat)
  | loadPreviousRecordHash (call : Nat)
  | insert (call : Nat)
  | rollback (call : Nat)

namespace RecordSystem

def start (records : ActionRecords) : RecordSystem := ⟨records, fun _ => none, fun _ => none, []⟩

def setCall (s : RecordSystem) (i : Nat) (call : RecordCall) : RecordSystem :=
  { s with calls := Function.update s.calls i (some call) }

/-- The end of a call's transaction. -/
def finish (s : RecordSystem) (i : Nat) : RecordSystem :=
  { s with
    calls := Function.update s.calls i none
    lock := fun agentDid => if s.lock agentDid = some i then none else s.lock agentDid }

def answer (s : RecordSystem) (i : Nat) (result : Except RecorderError String) : RecordSystem :=
  { s with results := s.results ++ [(i, result)] }

variable (P : LedgerPorts)

/-- The insertion with the rest of its transaction. -/
def commit (s : RecordSystem) (i : Nat) (recorder : Recorder) (prepared : PreparedRecord)
    (previousRecordHash : String) : RecordSystem :=
  match insertRecord P recorder.kind recorder.ledgerPrivateKey prepared previousRecordHash
      s.records with
  | .error error => (s.finish i).answer i (.error error)
  | .ok records => ({ s with records }.finish i).answer i (.ok prepared.recordId)

/-- One statement of one call; `none` when it cannot run now. -/
def step (s : RecordSystem) : RecordEvent → Option RecordSystem
  | .record i recorder input uuid now =>
      match s.calls i, prepareRecord recorder.kind input uuid now with
      | some _, _ => none
      | none, .error error => some (s.answer i (.error error))
      | none, .ok prepared => some (s.setCall i (.waiting recorder prepared))
  | .lockAgentChain i =>
      match s.calls i with
      | some (.waiting recorder prepared) =>
          if s.lock prepared.input.agentDid = none then
            some { s.setCall i (.locked recorder prepared) with
              lock := Function.update s.lock prepared.input.agentDid (some i) }
          else none
      | _ => none
  | .loadPreviousRecordHash i =>
      match s.calls i with
      | some (.locked recorder prepared) =>
          some (s.setCall i (.loaded recorder prepared
            (loadPreviousRecordHash prepared.input.agentDid s.records)))
      | _ => none
  | .insert i =>
      match s.calls i with
      | some (.loaded recorder prepared previousRecordHash) =>
          some (s.commit P i recorder prepared previousRecordHash)
      | _ => none
  | .rollback i =>
      match s.calls i with
      | some _ => some (s.finish i)
      | none => none

end RecordSystem

namespace RecordSystem

variable {s : RecordSystem} {i j : Nat} {call call' : RecordCall}

@[simp] theorem setCall_self : (s.setCall i call).calls i = some call := Function.update_self ..

theorem setCall_calls (hcall : (s.setCall i call).calls j = some call') :
    (j = i ∧ call' = call) ∨ s.calls j = some call' := by
  by_cases hji : j = i
  · subst hji
    simp only [setCall, Function.update_self, Option.some.injEq] at hcall
    exact .inl ⟨rfl, hcall.symm⟩
  · exact .inr (by simpa [setCall, hji] using hcall)

theorem finish_calls (hcall : (s.finish i).calls j = some call) :
    j ≠ i ∧ s.calls j = some call := by
  have hne : j ≠ i := by
    rintro rfl
    simp [finish] at hcall
  exact ⟨hne, by simpa [finish, hne] using hcall⟩

end RecordSystem

/-! ## The inputs and the condition -/

section Inputs

variable (P : LedgerPorts) (keys : CheckerKeys)

/-- What one key signs, the other one verifies. -/
def LedgerPorts.KeyPair (privateKey publicKey : String) : Prop :=
  ∀ payload outputEncoding signature, P.sign payload privateKey outputEncoding = some signature →
    P.verify payload signature publicKey = some true

/-- The checker resolves the key the agent signs with, and knows the ledger's. -/
structure Keyed (recorder : Recorder) (input : ActionRecordInput) : Prop where
  actor : ∃ publicKey, keys.resolvePublicKey input.agentDid = some publicKey ∧ publicKey ≠ "" ∧
    P.KeyPair input.actorPrivateKey publicKey
  ledger : P.KeyPair recorder.ledgerPrivateKey keys.ledgerPublicKey

def RecordEvent.Keyed : RecordEvent → Prop
  | .record _ recorder input _ _ => Policy.Keyed P keys recorder input
  | _ => True

/-- The stored instant is read back as the text that was signed, and it is not before
any record the agent has. -/
def Timely (prepared : PreparedRecord) (records : ActionRecords) : Prop :=
  ∀ createdAt ∈ P.timestamptz prepared.createdAt, P.toTimestamp createdAt = prepared.createdAt ∧
    ∀ row ∈ records.rows, row.agentDid = prepared.input.agentDid → row.createdAt ≤ createdAt

/-- The condition on a state and its next statement. -/
def RecordSystem.Timely (s : RecordSystem) : RecordEvent → Prop
  | .insert i =>
      match s.calls i with
      | some (.loaded _ prepared _) => Policy.Timely P prepared s.records
      | _ => True
  | _ => True

instance (prepared : PreparedRecord) (records : ActionRecords) :
    Decidable (Timely P prepared records) := by
  unfold Timely
  infer_instance

instance (s : RecordSystem) (event : RecordEvent) : Decidable (s.Timely P event) := by
  cases event <;> unfold RecordSystem.Timely <;> dsimp only <;> (try split) <;> infer_instance

end Inputs

theorem prepareRecord_input {kind : RecorderKind} {input : ActionRecordInput} {uuid now : String}
    {prepared : PreparedRecord} (hprepared : prepareRecord kind input uuid now = .ok prepared) :
    prepared.input = input := by
  unfold prepareRecord at hprepared
  split at hprepared
  next => cases hprepared
  next => cases hprepared
  next =>
    cases hprepared
    rfl

/-! ## The row of a record -/

section Rows

variable {P : LedgerPorts} {keys : CheckerKeys} {recorder : Recorder} {prepared : PreparedRecord}
  {previousRecordHash : String} {row : ActionRecordRow} {rows : List ActionRecordRow}
  {records records' : ActionRecords}

/-- The row that a transaction inserts for a record. -/
structure Records (P : LedgerPorts) (recorder : Recorder) (prepared : PreparedRecord)
    (previousRecordHash : String) (row : ActionRecordRow) : Prop where
  body : P.toTimestamp row.createdAt = prepared.createdAt →
    row.body P = prepared.body previousRecordHash
  recordId : row.recordId = prepared.recordId
  agentDid : row.agentDid = prepared.input.agentDid
  actionType : row.actionType = prepared.input.actionType
  createdAt : P.timestamptz prepared.createdAt = some row.createdAt
  previous : row.previousRecordHash = previousRecordHash
  hash : row.recordHash = computeRecordHash P (prepared.body previousRecordHash)
    (prepared.input.outputEncoding.getD ledgerEncoding)
  actor : createRecordSignature P (prepared.body previousRecordHash)
    prepared.input.actorPrivateKey (prepared.input.outputEncoding.getD ledgerEncoding) =
      some row.actorSignature
  ledger : createRecordSignature P (prepared.body previousRecordHash)
    recorder.ledgerPrivateKey (prepared.input.outputEncoding.getD ledgerEncoding) =
      some row.ledgerSignature

theorem recordRow_records
    (hrow : recordRow P recorder.ledgerPrivateKey prepared previousRecordHash = .ok row) :
    Records P recorder prepared previousRecordHash row := by
  simp only [recordRow] at hrow
  split at hrow
  next actorSignature ledgerSignature createdAt hactor hledger hcreated =>
    cases hrow
    exact {
      body := fun htext => by
        simp only [ActionRecordRow.body]
        rw [htext]
        rfl
      recordId := rfl
      agentDid := rfl
      actionType := rfl
      createdAt := hcreated
      previous := rfl
      hash := rfl
      actor := hactor
      ledger := hledger }
  all_goals cases hrow

/-- A successful insertion appends one row under an identifier that was free. -/
theorem insertRecord_ok (hinsert : insertRecord P recorder.kind recorder.ledgerPrivateKey prepared
      previousRecordHash records = .ok records') :
    ∃ row, Records P recorder prepared previousRecordHash row ∧
      records'.rows = records.rows ++ [row] := by
  unfold insertRecord at hinsert
  cases hrow : recordRow P recorder.ledgerPrivateKey prepared previousRecordHash with
  | error error =>
      rw [hrow] at hinsert
      cases hinsert
  | ok row =>
      refine ⟨row, recordRow_records hrow, ?_⟩
      rw [hrow] at hinsert
      cases htable : records.insert? row with
      | none =>
          simp only [htable] at hinsert
          cases hinsert
      | some records₁ =>
          have hrows := (Table.insert?_eq_some.mp htable).2
          simp only [htable] at hinsert
          split at hinsert
          next =>
            cases hinsert
            exact hrows
          next =>
            split at hinsert
            next =>
              cases hinsert
              exact hrows
            next => cases hinsert

theorem exists_recordRow
    (hactor : (createRecordSignature P (prepared.body previousRecordHash)
      prepared.input.actorPrivateKey (prepared.input.outputEncoding.getD ledgerEncoding)).isSome)
    (hledger : (createRecordSignature P (prepared.body previousRecordHash)
      recorder.ledgerPrivateKey (prepared.input.outputEncoding.getD ledgerEncoding)).isSome)
    (hcreated : (P.timestamptz prepared.createdAt).isSome) :
    ∃ row, recordRow P recorder.ledgerPrivateKey prepared previousRecordHash = .ok row := by
  obtain ⟨actorSignature, hactor⟩ := Option.isSome_iff_exists.mp hactor
  obtain ⟨ledgerSignature, hledger⟩ := Option.isSome_iff_exists.mp hledger
  obtain ⟨createdAt, hcreated⟩ := Option.isSome_iff_exists.mp hcreated
  simp only [recordRow, hactor, hledger, hcreated]
  exact ⟨_, rfl⟩

/-- A record of the business lane goes in under a free identifier. -/
theorem insertRecord_of_free (hkind : recorder.kind = .standard)
    (hrow : recordRow P recorder.ledgerPrivateKey prepared previousRecordHash = .ok row)
    (hfree : ∀ other ∈ records.rows, other.recordId ≠ prepared.recordId) :
    ∃ records', insertRecord P recorder.kind recorder.ledgerPrivateKey prepared previousRecordHash
      records = .ok records' := by
  have hkey : row.recordId ∉ records.rows.map ActionRecordRow.recordId := by
    rw [(recordRow_records hrow).recordId]
    intro hmem
    obtain ⟨other, hother, hid⟩ := List.mem_map.mp hmem
    exact hfree other hother hid
  unfold insertRecord
  simp only [hrow, Table.insert?, dif_neg hkey, hkind]
  exact ⟨_, rfl⟩

theorem insertRecord_of_taken
    (hrow : recordRow P recorder.ledgerPrivateKey prepared previousRecordHash = .ok row)
    {other : ActionRecordRow} (hother : other ∈ records.rows)
    (hid : other.recordId = prepared.recordId) :
    insertRecord P recorder.kind recorder.ledgerPrivateKey prepared previousRecordHash records =
      .error .duplicateRecordId := by
  have hkey : row.recordId ∈ records.rows.map ActionRecordRow.recordId := by
    rw [(recordRow_records hrow).recordId, ← hid]
    exact List.mem_map_of_mem hother
  unfold insertRecord
  simp only [hrow, Table.insert?, dif_pos hkey]

theorem computeRecordHash_charset (body : RecordBody) (outputEncoding : Encoding) :
    (computeRecordHash P body outputEncoding).toList ≠ [] ∧
      (computeRecordHash P body outputEncoding).toList.all isBase64UrlChar = true ∧
      detectEncoding (computeRecordHash P body outputEncoding).toList = outputEncoding := by
  have hlength := P.sha256_length (utf8 body.previousRecordHash ++ payloadBytes P body)
  refine ⟨fun hnil => ?_, all_encode _ _, detectEncoding_encode _ hlength⟩
  have htext := length_encode outputEncoding hlength
  unfold computeRecordHash at hnil
  rw [hnil] at htext
  cases outputEncoding <;> cases htext

theorem Records.charset (hrow : Records P recorder prepared previousRecordHash row) :
    row.recordHash.toList ≠ [] ∧ row.recordHash.toList.all isBase64UrlChar = true ∧
      detectEncoding row.recordHash.toList =
        prepared.input.outputEncoding.getD ledgerEncoding := by
  rw [hrow.hash]
  exact computeRecordHash_charset _ _

theorem Records.hash_ne_empty (hrow : Records P recorder prepared previousRecordHash row) :
    row.recordHash ≠ "" := by
  intro hempty
  exact hrow.charset.1 (by rw [hempty]; rfl)

/-- The checker accepts a record by keyed parties that is read back as it was signed. -/
theorem verifyRecord_of_records (hrow : Records P recorder prepared previousRecordHash row)
    (hkeyed : Keyed P keys recorder prepared.input)
    (htext : P.toTimestamp row.createdAt = prepared.createdAt) :
    verifyRecord P keys previousRecordHash row = .valid := by
  obtain ⟨publicKey, hresolve, hnonempty, hpair⟩ := hkeyed.actor
  have hactor := hpair _ _ _ hrow.actor
  have hledger := hkeyed.ledger _ _ _ hrow.ledger
  have hcharset := hrow.charset
  unfold verifyRecord
  simp only [hrow.body htext, hrow.previous, hcharset.1, hcharset.2.1, hcharset.2.2, hrow.agentDid,
    hresolve, hnonempty, verifyRecordSignature, hactor, hledger, ← hrow.hash, ne_eq,
    not_true_eq_false, Bool.true_eq_false, or_self, if_false]

/-- The hash the next record of the rows links to. -/
def lastHash (expected : String) (rows : List ActionRecordRow) : String :=
  (rows.getLast?.map ActionRecordRow.recordHash).getD expected

theorem verifyRecords_append (expected : String) :
    verifyRecords P keys expected (rows ++ [row]) = .valid ↔
      verifyRecords P keys expected rows = .valid ∧
        verifyRecord P keys (lastHash expected rows) row = .valid := by
  induction rows generalizing expected with
  | nil =>
      simp only [List.nil_append, verifyRecords, lastHash, List.getLast?_nil, Option.map_none,
        Option.getD_none, true_and]
      split
      next hvalid => simp [hvalid]
      next => simp
  | cons first rows ih =>
      have hlast : lastHash expected (first :: rows) = lastHash first.recordHash rows := by
        cases rows with
        | nil => rfl
        | cons second rows =>
            simp only [lastHash, List.getLast?_cons, Option.map_some, Option.getD_some]
      rw [List.cons_append, hlast]
      simp only [verifyRecords]
      split
      next => exact ih first.recordHash
      next hinvalid =>
        exact ⟨fun hvalid => absurd hvalid hinvalid, fun hvalid => absurd hvalid.1 hinvalid⟩

theorem verifyRecords_take {expected : String} (count : Nat)
    (hvalid : verifyRecords P keys expected rows = .valid) :
    verifyRecords P keys expected (rows.take count) = .valid := by
  induction rows generalizing expected count with
  | nil => simpa using hvalid
  | cons first rows ih =>
      cases count with
      | zero => rfl
      | succ count =>
          simp only [List.take_succ_cons, verifyRecords] at hvalid ⊢
          split at hvalid
          next => exact ih count hvalid
          next hinvalid => exact absurd hvalid (by simpa using hinvalid)

end Rows

/-! ## The invariant -/

section Invariant

variable {P : LedgerPorts} {keys : CheckerKeys} {records records' : ActionRecords}
  {agentDid : String}

/-- The agent's rows in the order of their insertion. -/
def insertedRows (agentDid : String) (records : ActionRecords) : List ActionRecordRow :=
  records.rows.filter fun row => row.agentDid = agentDid

/-- The order of insertion is that of creation, and the checker accepts the chain. -/
structure ChainInv (P : LedgerPorts) (keys : CheckerKeys) (records : ActionRecords)
    (agentDid : String) : Prop where
  ordered : (insertedRows agentDid records).Pairwise fun a b => a.createdAt ≤ b.createdAt
  valid : verifyRecords P keys "" (insertedRows agentDid records) = .valid

theorem ChainInv.agentRows_eq (hchain : ChainInv P keys records agentDid) :
    agentRows agentDid records = insertedRows agentDid records :=
  hchain.ordered.insertionSort_eq

theorem ChainInv.loadPreviousRecordHash_eq (hchain : ChainInv P keys records agentDid) :
    loadPreviousRecordHash agentDid records = lastHash "" (insertedRows agentDid records) := by
  rw [loadPreviousRecordHash, hchain.agentRows_eq]
  rfl

theorem ChainInv.verifyIntegrity_eq (hchain : ChainInv P keys records agentDid) :
    verifyIntegrity P keys agentDid records = .valid := by
  rw [verifyIntegrity, hchain.agentRows_eq]
  exact verifyRecords_take _ hchain.valid

theorem insertedRows_append (agentDid : String) {row : ActionRecordRow}
    (hrows : records'.rows = records.rows ++ [row]) :
    insertedRows agentDid records' =
      insertedRows agentDid records ++ if row.agentDid = agentDid then [row] else [] := by
  rw [insertedRows, hrows, List.filter_append]
  congr 1
  by_cases hagent : row.agentDid = agentDid
  · simp [hagent]
  · simp [hagent]

/-- A timely record by keyed parties extends its agent's chain and no other one. -/
theorem ChainInv.insertRecord {recorder : Recorder} {prepared : PreparedRecord}
    (hchain : ∀ agentDid, ChainInv P keys records agentDid)
    (hkeyed : Keyed P keys recorder prepared.input) (htimely : Timely P prepared records)
    (hinsert : insertRecord P recorder.kind recorder.ledgerPrivateKey prepared
      (loadPreviousRecordHash prepared.input.agentDid records) records = .ok records') :
    ∀ agentDid, ChainInv P keys records' agentDid := by
  intro agentDid
  obtain ⟨row, hrow, hrows⟩ := insertRecord_ok hinsert
  obtain ⟨htext, hlast⟩ := htimely row.createdAt hrow.createdAt
  have hinserted := insertedRows_append agentDid hrows
  by_cases hagent : row.agentDid = agentDid
  · rw [if_pos hagent] at hinserted
    have hprepared : prepared.input.agentDid = agentDid := hrow.agentDid.symm.trans hagent
    constructor
    · rw [hinserted, List.pairwise_append]
      refine ⟨(hchain agentDid).ordered, List.pairwise_singleton _ _, fun a ha b hb => ?_⟩
      cases List.mem_singleton.mp hb
      obtain ⟨hmem, hof⟩ := List.mem_filter.mp ha
      exact hlast a hmem (by simpa [hprepared] using hof)
    · rw [hinserted, verifyRecords_append]
      refine ⟨(hchain agentDid).valid, ?_⟩
      rw [← (hchain agentDid).loadPreviousRecordHash_eq, ← hprepared]
      exact verifyRecord_of_records hrow hkeyed htext
  · rw [if_neg hagent, List.append_nil] at hinserted
    exact ⟨hinserted ▸ (hchain agentDid).ordered, hinserted ▸ (hchain agentDid).valid⟩

/-- Every chain is accepted; a call past its lock statement is the holder of its agent's
lock, and what it has loaded is still the end of the chain. -/
structure RecordInv (P : LedgerPorts) (keys : CheckerKeys) (s : RecordSystem) : Prop where
  chain : ∀ agentDid, ChainInv P keys s.records agentDid
  keyed : ∀ i call, s.calls i = some call → Keyed P keys call.recorder call.prepared.input
  locked : ∀ i call, s.calls i = some call → call.holdsLock → s.lock call.agentDid = some i
  loaded : ∀ i recorder prepared previousRecordHash,
    s.calls i = some (.loaded recorder prepared previousRecordHash) →
      previousRecordHash = loadPreviousRecordHash prepared.input.agentDid s.records

namespace RecordInv

variable {s s' : RecordSystem} {i : Nat}

theorem start (P : LedgerPorts) (keys : CheckerKeys) :
    RecordInv P keys (RecordSystem.start Table.empty) where
  chain agentDid := ⟨List.Pairwise.nil, rfl⟩
  keyed i call hcall := by cases hcall
  locked i call hcall := by cases hcall
  loaded i recorder prepared previousRecordHash hcall := by cases hcall

theorem answer (hinv : RecordInv P keys s) (result : Except RecorderError String) :
    RecordInv P keys (s.answer i result) :=
  ⟨hinv.chain, hinv.keyed, hinv.locked, hinv.loaded⟩

theorem finish (hinv : RecordInv P keys s) : RecordInv P keys (s.finish i) where
  chain := hinv.chain
  keyed j call hcall := hinv.keyed j call (RecordSystem.finish_calls hcall).2
  locked j call hcall hholds := by
    obtain ⟨hne, hcall⟩ := RecordSystem.finish_calls hcall
    have hlock := hinv.locked j call hcall hholds
    simp [RecordSystem.finish, hlock, hne]
  loaded j recorder prepared previousRecordHash hcall :=
    hinv.loaded j recorder prepared previousRecordHash (RecordSystem.finish_calls hcall).2

/-- The next statement of a call that keeps its keys and has its lock. -/
theorem setCall (hinv : RecordInv P keys s) {call : RecordCall}
    (hkeyed : Keyed P keys call.recorder call.prepared.input)
    (hlocked : call.holdsLock → s.lock call.agentDid = some i)
    (hloaded : ∀ recorder prepared previousRecordHash,
      call = .loaded recorder prepared previousRecordHash →
        previousRecordHash = loadPreviousRecordHash prepared.input.agentDid s.records) :
    RecordInv P keys (s.setCall i call) := by
  refine ⟨hinv.chain, fun j call' hcall' => ?_, fun j call' hcall' hholds => ?_,
    fun j recorder prepared previousRecordHash hcall' => ?_⟩
  · obtain ⟨rfl, rfl⟩ | hold := RecordSystem.setCall_calls hcall'
    · exact hkeyed
    · exact hinv.keyed j call' hold
  · obtain ⟨rfl, rfl⟩ | hold := RecordSystem.setCall_calls hcall'
    · exact hlocked hholds
    · exact hinv.locked j call' hold hholds
  · obtain ⟨rfl, hcall⟩ | hold := RecordSystem.setCall_calls hcall'
    · exact hloaded recorder prepared previousRecordHash hcall.symm
    · exact hinv.loaded j recorder prepared previousRecordHash hold

/-- Taking a free lock. -/
theorem acquire (hinv : RecordInv P keys s) (hfree : s.lock agentDid = none) :
    RecordInv P keys { s with lock := Function.update s.lock agentDid (some i) } where
  chain := hinv.chain
  keyed := hinv.keyed
  locked j call hcall hholds := by
    have hlock := hinv.locked j call hcall hholds
    have hne : call.agentDid ≠ agentDid := by
      rintro hagent
      rw [hagent, hfree] at hlock
      cases hlock
    simpa [hne] using hlock
  loaded := hinv.loaded

/-- The commit of a timely record. The other calls have loaded the ends of other
agents' chains, since no two of one agent hold its lock. -/
theorem commit (hinv : RecordInv P keys s) {recorder : Recorder} {prepared : PreparedRecord}
    {previousRecordHash : String}
    (hcall : s.calls i = some (.loaded recorder prepared previousRecordHash))
    (htimely : Timely P prepared s.records) :
    RecordInv P keys (s.commit P i recorder prepared previousRecordHash) := by
  unfold RecordSystem.commit
  split
  next => exact hinv.finish.answer _
  next records' hinsert =>
    have hlock : s.lock prepared.input.agentDid = some i := hinv.locked i _ hcall trivial
    have hchain := ChainInv.insertRecord hinv.chain (hinv.keyed i _ hcall) htimely
      (hinv.loaded i _ _ _ hcall ▸ hinsert)
    obtain ⟨row, hrow, hrows⟩ := insertRecord_ok hinsert
    have hfinished : RecordInv P keys (s.finish i) := hinv.finish
    suffices hinv' : RecordInv P keys (RecordSystem.finish { s with records := records' } i) from
      hinv'.answer _
    refine ⟨hchain, hfinished.keyed, hfinished.locked, ?_⟩
    intro j recorder' prepared' previousRecordHash' hcall'
    obtain ⟨hji, hcall'⟩ := RecordSystem.finish_calls hcall'
    have hother : row.agentDid ≠ prepared'.input.agentDid := by
      intro hagent
      have hlock' : s.lock prepared'.input.agentDid = some j := hinv.locked j _ hcall' trivial
      rw [← hagent, hrow.agentDid, hlock] at hlock'
      exact hji (Option.some.inj hlock').symm
    have hinserted := insertedRows_append prepared'.input.agentDid hrows
    rw [if_neg hother, List.append_nil] at hinserted
    show previousRecordHash' = loadPreviousRecordHash prepared'.input.agentDid records'
    rw [(hchain _).loadPreviousRecordHash_eq, hinserted,
      ← (hinv.chain _).loadPreviousRecordHash_eq]
    exact hinv.loaded j recorder' prepared' previousRecordHash' hcall'

end RecordInv

/-- Every statement keeps the invariant. -/
theorem RecordSystem.step_inv {s s' : RecordSystem} {event : RecordEvent}
    (hinv : RecordInv P keys s) (hkeyed : event.Keyed P keys) (htimely : s.Timely P event)
    (hstep : s.step P event = some s') : RecordInv P keys s' := by
  cases event with
  | record i recorder input uuid now =>
      simp only [step] at hstep
      split at hstep
      next => cases hstep
      next =>
        cases hstep
        exact hinv.answer _
      next prepared _ hprepared =>
        cases hstep
        refine hinv.setCall ?_ (fun hholds => hholds.elim) (fun _ _ _ hcall => by cases hcall)
        have hinput : prepared.input = input := prepareRecord_input hprepared
        simpa only [RecordCall.recorder, RecordCall.prepared, hinput, RecordEvent.Keyed] using
          hkeyed
  | lockAgentChain i =>
      simp only [step] at hstep
      split at hstep
      next recorder prepared hcall =>
        split at hstep
        next hfree =>
          cases hstep
          have hacquired := hinv.acquire (i := i) hfree
          have hcallKeyed := hinv.keyed i _ hcall
          exact hacquired.setCall hcallKeyed (fun _ => Function.update_self ..)
            (fun _ _ _ hcall => by cases hcall)
        next => cases hstep
      next => cases hstep
  | loadPreviousRecordHash i =>
      simp only [step] at hstep
      split at hstep
      next recorder prepared hcall =>
        cases hstep
        have hcallKeyed := hinv.keyed i _ hcall
        have hlock := hinv.locked i _ hcall trivial
        refine hinv.setCall hcallKeyed (fun _ => hlock) ?_
        rintro _ _ _ ⟨⟩
        rfl
      next => cases hstep
  | insert i =>
      simp only [step] at hstep
      split at hstep
      next recorder prepared previousRecordHash hcall =>
        cases hstep
        simp only [RecordSystem.Timely, hcall] at htimely
        exact hinv.commit hcall htimely
      next => cases hstep
  | rollback i =>
      simp only [step] at hstep
      split at hstep
      next =>
        cases hstep
        exact hinv.finish
      next => cases hstep

/-- The ledger of every agent is valid after every interleaving of record calls in which
each record is inserted with a creation time that is read back as it was signed and is not
before those of its agent's earlier records. -/
theorem verifyIntegrity_of_timely (P : LedgerPorts) (keys : CheckerKeys)
    (events : List RecordEvent) (s : RecordSystem)
    (hkeyed : ∀ event ∈ events, event.Keyed P keys)
    (htimely : Along (RecordSystem.step P) (RecordSystem.Timely P)
      (RecordSystem.start Table.empty) events)
    (hrun : run (RecordSystem.step P) (RecordSystem.start Table.empty) events = some s)
    (agentDid : String) : verifyIntegrity P keys agentDid s.records = .valid := by
  have hgood := htimely.and (along_of_forall_mem fun event hevent _ => hkeyed event hevent)
  have hinv := run_invariant (RecordInv P keys)
    (fun _ _ _ hinv hgood hstep => RecordSystem.step_inv hinv hgood.2 hgood.1 hstep)
    (RecordInv.start P keys) hgood hrun
  exact (hinv.chain agentDid).verifyIntegrity_eq

end Invariant

/-- The statements of one call's transaction. -/
def transaction (i : Nat) : List RecordEvent :=
  [.lockAgentChain i, .loadPreviousRecordHash i, .insert i]

namespace RecordSystem

variable {P : LedgerPorts} {s : RecordSystem} {i : Nat} {recorder : Recorder}
  {prepared : PreparedRecord}

/-- The transaction of a waiting call, undisturbed. -/
theorem run_transaction (hcall : s.calls i = some (.waiting recorder prepared))
    (hlock : ∀ agentDid, s.lock agentDid = none) :
    ∃ loaded : RecordSystem, run (step P) s (transaction i) =
        some (loaded.commit P i recorder prepared
          (loadPreviousRecordHash prepared.input.agentDid s.records)) ∧
      loaded.records = s.records ∧ loaded.results = s.results ∧
      (loaded.finish i).calls = Function.update s.calls i none ∧
      ∀ agentDid, (loaded.finish i).lock agentDid = none := by
  let acquired : RecordSystem :=
    { s.setCall i (.locked recorder prepared) with
      lock := Function.update s.lock prepared.input.agentDid (some i) }
  let loaded := acquired.setCall i (.loaded recorder prepared
    (loadPreviousRecordHash prepared.input.agentDid s.records))
  refine ⟨loaded, ?_, rfl, rfl, ?_, fun agentDid => ?_⟩
  · simp only [transaction, run, step, hcall, hlock, if_true, setCall, Function.update_self]
    rfl
  · simp [finish, loaded, acquired, setCall]
  · by_cases hagent : agentDid = prepared.input.agentDid
    · simp [finish, loaded, acquired, setCall, hagent]
    · simp [finish, loaded, acquired, setCall, hagent, hlock]

theorem run_transaction_ok {records' : ActionRecords}
    (hcall : s.calls i = some (.waiting recorder prepared))
    (hlock : ∀ agentDid, s.lock agentDid = none)
    (hinsert : insertRecord P recorder.kind recorder.ledgerPrivateKey prepared
      (loadPreviousRecordHash prepared.input.agentDid s.records) s.records = .ok records') :
    ∃ s', run (step P) s (transaction i) = some s' ∧ s'.records = records' ∧
      s'.results = s.results ++ [(i, .ok prepared.recordId)] ∧
      s'.calls = Function.update s.calls i none ∧ ∀ agentDid, s'.lock agentDid = none := by
  obtain ⟨loaded, hrun, hrecords, hresults, hcalls, hfree⟩ := run_transaction (P := P) hcall hlock
  rw [commit, hrecords, hinsert] at hrun
  exact ⟨_, hrun, rfl, by rw [← hresults]; rfl, hcalls, hfree⟩

theorem run_transaction_error {error : RecorderError}
    (hcall : s.calls i = some (.waiting recorder prepared))
    (hlock : ∀ agentDid, s.lock agentDid = none)
    (hinsert : insertRecord P recorder.kind recorder.ledgerPrivateKey prepared
      (loadPreviousRecordHash prepared.input.agentDid s.records) s.records = .error error) :
    ∃ s', run (step P) s (transaction i) = some s' ∧ s'.records = s.records ∧
      s'.results = s.results ++ [(i, .error error)] := by
  obtain ⟨loaded, hrun, hrecords, hresults, -, -⟩ := run_transaction (P := P) hcall hlock
  rw [commit, hrecords, hinsert] at hrun
  exact ⟨_, hrun, hrecords, by rw [← hresults]; rfl⟩

end RecordSystem

theorem RecordSystem.along_transaction {P : LedgerPorts} {s : RecordSystem} {i : Nat}
    {recorder : Recorder} {prepared : PreparedRecord}
    (hcall : s.calls i = some (.waiting recorder prepared))
    (hlock : ∀ agentDid, s.lock agentDid = none) (htimely : Policy.Timely P prepared s.records) :
    Along (step P) (RecordSystem.Timely P) s (transaction i) := by
  simp [transaction, Along, step, hcall, hlock, setCall, RecordSystem.Timely, commit, htimely]

/-! ## Two records of one agent, a second apart -/

namespace Audit

open Identity Identity.Relay

def ledgerKey : String × String :=
  ("9973ab5b7dbf9173d1604907c5d3def822fdc57b7f32a60da08f270cdedbade3",
    "f6284eedef725b97bd42a02747fbb308eb975fd4e120d3d544e4235d3dfe9dd3")

def firstId : String := "4fa85f64-5717-4562-b3fc-2c963f66afa6"

def secondId : String := "936da01f-9abd-4d9d-80c7-02af85c822a8"

/-- The identifier a reservation has in the place of its hash. -/
def placeholder : String := "b6f1c3de-8a57-4f0e-9c2b-51d0e7a4f3c8"

def noonText : String := "2026-06-20T12:00:00.000Z"

def laterText : String := "2026-06-20T12:00:01.000Z"

def toTimestamp (createdAt : Int) : String :=
  if createdAt = 1781956800000 then noonText else laterText

def input (recordId : String) : ActionRecordInput where
  recordId := some recordId
  agentDid := editor
  principalDid := owner
  actionType := "PUBLISH"
  parametersSummary := .obj [("channel", .str "blog")]
  authorizationRef := .null
  resultSummary := some (OrderedMap.empty.set "status" (.str "SUCCESS"))
  actorPrivateKey := (keyPair editor).1
  delegationDepth := none
  sessionId := none
  outputEncoding := none
  createdAt := none

def prepared (recordId createdAt : String) : PreparedRecord := ⟨input recordId, recordId, createdAt⟩

def recorder : Recorder := ⟨.standard, ledgerKey.1⟩

def keys : CheckerKeys := ⟨fun did => some (keyPair did).2, ledgerKey.2⟩

/-- The ledger in a world with the given signatures. -/
def portsWith (signatures : List SignedBytes) : LedgerPorts where
  numberFormat := NumberFormat.decimal
  sha256 := Sha256.sha256
  sha256_length := Sha256.length_sha256
  sign payload privateKey _ :=
    (signatures.find? fun s => s.privateKey == privateKey && s.payload == payload).map (·.signature)
  verify := verifyIn signatures
  timestamptz := Calendar.getTime
  toTimestamp := toTimestamp

def hashOf (recordId createdAt previousRecordHash : String) : String :=
  computeRecordHash (portsWith []) ((prepared recordId createdAt).body previousRecordHash)
    ledgerEncoding

def signedWith (keys : String × String) (recordId createdAt previousRecordHash signature : String) :
    SignedBytes :=
  ⟨payloadBytes (portsWith []) ((prepared recordId createdAt).body previousRecordHash),
    keys.1, keys.2, signature⟩

/-- The signatures of the actor and of the ledger on one record. -/
def signed (recordId createdAt previousRecordHash actor ledger : String) : List SignedBytes :=
  [signedWith (keyPair editor) recordId createdAt previousRecordHash actor,
    signedWith ledgerKey recordId createdAt previousRecordHash ledger]

def signatures : List SignedBytes :=
  signed firstId noonText ""
    "c4yVdowTNVBrtP1Ue49ihIGWi3h15iMyokRSoTpXvRlgxiu647RmnqADGEktqCIG7SMAJj2CRSazIbYTwJmGCw"
    "dc5Wa6V_8n5ecuKrrwi6TjiuY__ara82PIHMj-k15XTs0ybkRV3zE-wtJAGQ803S1z-Vs9oNIdvkdSVFvK9JCA" ++
  signed secondId laterText (hashOf firstId noonText "")
    "GXu1m4ZBnG8FWcPs1clVUbanT-FuP1OwWwRAEXckylfLQQi78TfALNZEZNzWU-4BSvJcyPVXE1S09b_QbzlRDA"
    "qbHgF7Y8BL_P-P9ggxQLaiKot7kOC61f2rP4p1yICzM78MQVBCFYaP_6u40q2NWdAE7FlMChdHm0SlODEfaZBQ" ++
  signed secondId laterText ""
    "wVi70uRAqMhTkxL1FcQH-wI7Sm5QqXQJKxRPVr1nTovaZAhB2nqsRMLYj09wBLYyWtJ9JtJ7rnvlkCQ1BeUPBw"
    "Q0LLGw8NJcXEhlsC866qSwJf262ft73mZh7oQfDOaJ165cGqD7wu2dZQO6iD8hbsKVrSCcx6MqPfQuHEBZbhCw" ++
  signed firstId noonText (hashOf secondId laterText "")
    "64giDnmDt9TUpqQcaeqPYQJOzqosG3C_x0szl6Bi7MFPXZLFlvhtu-cqfHpyLwhxlX8ne3fBPHtkmkG9eRcoDw"
    "WcvAw0T6yipzQWX1MBQNYfK-tpMk8JX465o6MSNU7Jja8avm-L6utGUgs-N0ugf-PLZ4IM-6iu19dpmpPbBxAA" ++
  signed firstId noonText placeholder
    "5eJiga07a35JS_-IMtZam5fIrA-wS_eRky8wSSYvI_0iAtCbaeOVW6dUKEoEzFqWnJYNEm9BwhKID9RjYtMcCg"
    "pp95neOrOvtWue-wCiDxe7ToEvLu4mPD0kC24ay1PqZ2P8Fh7segTVe7FhSI9g21S22UDzKmpMlGh-x7EBBPBg"

def ports : LedgerPorts := portsWith signatures

/-- Both parties have signed the record. -/
def Signed (recordId createdAt previousRecordHash : String) : Prop :=
  ∃ actor ledger, signed recordId createdAt previousRecordHash actor ledger ⊆ signatures

theorem first_signed : Signed firstId noonText "" :=
  ⟨_, _, List.Subset.trans (List.subset_append_left ..) (List.Subset.trans
    (List.subset_append_left ..) (List.Subset.trans (List.subset_append_left ..)
      (List.subset_append_left ..)))⟩

theorem second_after_first_signed : Signed secondId laterText (hashOf firstId noonText "") :=
  ⟨_, _, List.Subset.trans (List.subset_append_right ..) (List.Subset.trans
    (List.subset_append_left ..) (List.Subset.trans (List.subset_append_left ..)
      (List.subset_append_left ..)))⟩

theorem second_signed : Signed secondId laterText "" :=
  ⟨_, _, List.Subset.trans (List.subset_append_right ..) (List.Subset.trans
    (List.subset_append_left ..) (List.subset_append_left ..))⟩

theorem first_after_second_signed : Signed firstId noonText (hashOf secondId laterText "") :=
  ⟨_, _, List.Subset.trans (List.subset_append_right ..) (List.subset_append_left ..)⟩

theorem first_after_placeholder_signed : Signed firstId noonText placeholder :=
  ⟨_, _, List.subset_append_right ..⟩

theorem keyPair_of_forall {privateKey publicKey : String}
    (hpair : ∀ s ∈ signatures, s.privateKey = privateKey → s.publicKey = publicKey) :
    ports.KeyPair privateKey publicKey := by
  intro payload outputEncoding signature hsign
  obtain ⟨s, hfind, rfl⟩ := Option.map_eq_some_iff.mp hsign
  have hs := List.find?_some hfind
  simp only [Bool.and_eq_true, beq_iff_eq] at hs
  obtain ⟨rfl, rfl⟩ := hs
  have hmem := List.mem_of_find?_eq_some hfind
  rw [← hpair s hmem rfl]
  exact verifyIn_of_mem hmem

theorem signatures_keys {s : SignedBytes} (hs : s ∈ signatures) :
    (s.privateKey = (keyPair editor).1 ∧ s.publicKey = (keyPair editor).2) ∨
      (s.privateKey = ledgerKey.1 ∧ s.publicKey = ledgerKey.2) := by
  simp only [signatures, signed, List.mem_append, List.mem_cons, List.not_mem_nil, or_false] at hs
  rcases hs with (((((rfl | rfl) | (rfl | rfl)) | (rfl | rfl)) | (rfl | rfl)) | (rfl | rfl))
  all_goals first | exact .inl ⟨rfl, rfl⟩ | exact .inr ⟨rfl, rfl⟩

theorem keys_ne : (keyPair editor).1 ≠ ledgerKey.1 := by decide

theorem keyed (recordId : String) : Keyed ports keys recorder (input recordId) where
  actor := by
    refine ⟨_, rfl, ?_, keyPair_of_forall fun s hs hkey => ?_⟩
    · show (keyPair editor).2 ≠ ""
      decide
    · obtain ⟨-, hpublic⟩ | ⟨hprivate, -⟩ := signatures_keys hs
      · exact hpublic
      · exact absurd (hkey.symm.trans hprivate) keys_ne
  ledger := keyPair_of_forall fun s hs hkey => by
    obtain ⟨hprivate, -⟩ | ⟨-, hpublic⟩ := signatures_keys hs
    · exact absurd (hprivate.symm.trans hkey) keys_ne
    · exact hpublic

theorem sign_isSome {keys : String × String}
    {recordId createdAt previousRecordHash signature : String}
    (hs : signedWith keys recordId createdAt previousRecordHash signature ∈ signatures) :
    (createRecordSignature ports ((prepared recordId createdAt).body previousRecordHash)
      keys.1 ledgerEncoding).isSome := by
  unfold createRecordSignature
  simp only [ports, portsWith, Option.isSome_map, List.find?_isSome]
  refine ⟨_, hs, ?_⟩
  simp [signedWith, payloadBytes, portsWith]

theorem exists_row {recordId createdAt previousRecordHash : String}
    (hsigned : Signed recordId createdAt previousRecordHash)
    (hcreated : (Calendar.getTime createdAt).isSome) :
    ∃ row, recordRow ports recorder.ledgerPrivateKey (prepared recordId createdAt)
      previousRecordHash = .ok row := by
  obtain ⟨_, _, hsubset⟩ := hsigned
  obtain ⟨hactor, hledger⟩ := List.cons_subset.mp hsubset
  replace hledger := hledger List.mem_cons_self
  exact exists_recordRow (sign_isSome hactor) (sign_isSome hledger) hcreated

/-- A record that both parties have signed goes in under a free identifier. -/
theorem exists_records (records : ActionRecords) {recordId createdAt previousRecordHash : String}
    (hsigned : Signed recordId createdAt previousRecordHash)
    (hcreated : (Calendar.getTime createdAt).isSome)
    (hfree : ∀ row ∈ records.rows, row.recordId ≠ recordId) :
    ∃ records', insertRecord ports recorder.kind recorder.ledgerPrivateKey
      (prepared recordId createdAt) previousRecordHash records = .ok records' := by
  obtain ⟨row, hrow⟩ := exists_row hsigned hcreated
  exact insertRecord_of_free rfl hrow hfree

def call (i : Nat) (recordId createdAt : String) : RecordEvent :=
  .record i recorder (input recordId) "" createdAt

/-- Both calls have fixed their creation times. -/
def waiting : RecordSystem :=
  ((RecordSystem.start Table.empty).setCall 0 (.waiting recorder (prepared firstId noonText))).setCall
    1 (.waiting recorder (prepared secondId laterText))

theorem prepareRecord_input_eq (recordId createdAt : String) :
    prepareRecord .standard (input recordId) "" createdAt = .ok (prepared recordId createdAt) := by
  have hlane : assertLaneAllowed .standard (input recordId) = .ok () := by
    have hedit : editor ≠ sessionGovernorDid := by decide
    have hown : owner ≠ sessionGovernorDid := by decide
    have hact : "PUBLISH" ≠ actionSessionSuperseded := by decide
    simp [assertLaneAllowed, input, hedit, hown, hact]
  simp only [prepareRecord, hlane, assertWritable]
  rfl

theorem step_call {s : RecordSystem} {i : Nat} (hcall : s.calls i = none)
    (recordId createdAt : String) :
    s.step ports (call i recordId createdAt) =
      some (s.setCall i (.waiting recorder (prepared recordId createdAt))) := by
  simp only [call, RecordSystem.step, hcall, recorder, prepareRecord_input_eq]

theorem run_calls : run (RecordSystem.step ports) (RecordSystem.start Table.empty)
    [call 0 firstId noonText, call 1 secondId laterText] = some waiting := by
  rw [run_cons (step_call rfl _ _), run_cons (step_call rfl _ _)]
  rfl

theorem loadPreviousRecordHash_singleton {row : ActionRecordRow} {records : ActionRecords}
    (hrows : records.rows = [row]) (hagent : row.agentDid = editor) :
    loadPreviousRecordHash editor records = row.recordHash := by
  simp [loadPreviousRecordHash, agentRows, hrows, hagent]

/-- One of two waiting calls commits before the other one starts its transaction. -/
theorem run_two (s : RecordSystem) (i j : Nat) {firstId firstAt secondId secondAt : String}
    (hempty : s.records.rows = []) (hlock : ∀ agentDid, s.lock agentDid = none) (hij : j ≠ i)
    (hi : s.calls i = some (.waiting recorder (prepared firstId firstAt)))
    (hj : s.calls j = some (.waiting recorder (prepared secondId secondAt)))
    (hids : firstId ≠ secondId) (hfirst : (Calendar.getTime firstAt).isSome)
    (hsecond : (Calendar.getTime secondAt).isSome)
    (hsigned : Signed firstId firstAt "")
    (hsigned' : Signed secondId secondAt (hashOf firstId firstAt "")) :
    ∃ s₁ s₂ row row', run (RecordSystem.step ports) s (transaction i) = some s₁ ∧
      run (RecordSystem.step ports) s₁ (transaction j) = some s₂ ∧
      s₁.calls j = s.calls j ∧ (∀ agentDid, s₁.lock agentDid = none) ∧
      Records ports recorder (prepared firstId firstAt) "" row ∧
      Records ports recorder (prepared secondId secondAt) row.recordHash row' ∧
      s₁.records.rows = [row] ∧ s₂.records.rows = [row, row'] := by
  have hnone : loadPreviousRecordHash editor s.records = "" := by
    simp [loadPreviousRecordHash, agentRows, hempty]
  obtain ⟨records₁, hinsert₁⟩ := exists_records s.records hsigned hfirst (by simp [hempty])
  obtain ⟨row, hrow, hrows₁⟩ := insertRecord_ok hinsert₁
  obtain ⟨s₁, hrun₁, rfl, -, hcalls₁, hlock₁⟩ :=
    RecordSystem.run_transaction_ok hi hlock (hnone ▸ hinsert₁)
  rw [hempty, List.nil_append] at hrows₁
  have hlast : loadPreviousRecordHash editor s₁.records = row.recordHash :=
    loadPreviousRecordHash_singleton hrows₁ hrow.agentDid
  have hhash : row.recordHash = hashOf firstId firstAt "" := hrow.hash
  obtain ⟨records₂, hinsert₂⟩ := exists_records s₁.records hsigned' hsecond
    (by simpa [hrows₁, hrow.recordId, prepared] using hids)
  rw [← hhash] at hinsert₂
  obtain ⟨row', hrow', hrows₂⟩ := insertRecord_ok hinsert₂
  have hj₁ : s₁.calls j = some (.waiting recorder (prepared secondId secondAt)) := by
    rw [hcalls₁, Function.update_of_ne hij, hj]
  obtain ⟨s₂, hrun₂, rfl, -, -, -⟩ :=
    RecordSystem.run_transaction_ok hj₁ hlock₁ (hlast ▸ hinsert₂)
  rw [hrows₁] at hrows₂
  exact ⟨s₁, s₂, row, row', hrun₁, hrun₂, hj₁.trans hj.symm, hlock₁, hrow, hrow', hrows₁, hrows₂⟩

theorem noon_time : Calendar.getTime noonText = some 1781956800000 := by decide +kernel

theorem later_time : Calendar.getTime laterText = some 1781956801000 := by decide +kernel

theorem ids_ne : firstId ≠ secondId := by decide

/-- The calls in the order in which they have fixed their creation times. -/
def prompt : List RecordEvent :=
  [call 0 firstId noonText, call 1 secondId laterText] ++ (transaction 0 ++ transaction 1)

/-- The call that has fixed its creation time first gets the lock last. -/
def late : List RecordEvent :=
  [call 0 firstId noonText, call 1 secondId laterText] ++ (transaction 1 ++ transaction 0)

theorem keyed_events {event : RecordEvent} (hevent : event ∈ prompt ++ late) :
    event.Keyed ports keys := by
  simp only [prompt, late, call, transaction, List.mem_append, List.mem_cons, List.not_mem_nil,
    or_false] at hevent
  rcases hevent with ((rfl | rfl) | (rfl | rfl | rfl) | (rfl | rfl | rfl)) |
    ((rfl | rfl) | (rfl | rfl | rfl) | (rfl | rfl | rfl))
  all_goals first | exact keyed _ | trivial

/-- The verifiability of the ledger fails: two calls for one agent, signed with the right
keys and timed by an honest clock, leave a ledger that the checker rejects. -/
theorem late_breaks_chain : ∃ s,
    (∀ event ∈ late, event.Keyed ports keys) ∧
      run (RecordSystem.step ports) (RecordSystem.start Table.empty) late = some s ∧
      verifyIntegrity ports keys editor s.records =
        .invalid firstId .previousRecordHashMismatch := by
  obtain ⟨s₁, s₂, row, row', hrun₁, hrun₂, -, -, hrow, hrow', -, hrows⟩ :=
    run_two waiting 1 0 rfl (fun _ => rfl) (by decide) rfl rfl ids_ne.symm
      (by simp [later_time]) (by simp [noon_time]) second_signed first_after_second_signed
  refine ⟨s₂, fun event hevent => keyed_events (List.mem_append_right _ hevent), ?_, ?_⟩
  · exact run_append.mpr ⟨waiting, run_calls, run_append.mpr ⟨s₁, hrun₁, hrun₂⟩⟩
  · have htime : row.createdAt = 1781956801000 :=
      (Option.some.inj (later_time.symm.trans hrow.createdAt)).symm
    have htime' : row'.createdAt = 1781956800000 :=
      (Option.some.inj (noon_time.symm.trans hrow'.createdAt)).symm
    -- The checker reads the second row first, which links to a hash.
    have hsorted : agentRows editor s₂.records = [row', row] := by
      have hagent : row.agentDid = editor := hrow.agentDid
      have hagent' : row'.agentDid = editor := hrow'.agentDid
      simp [agentRows, hrows, hagent, hagent', List.orderedInsert, htime, htime']
    have hhash : row.recordHash ≠ "" := hrow.hash_ne_empty
    have hid : row'.recordId = firstId := hrow'.recordId
    simp [verifyIntegrity, hsorted, verifyRecords, verifyRecord, hrow'.previous, hhash, hid]

/-- The calls in order meet the conditions of the theorem. -/
theorem prompt_keeps_chain : ∃ s,
    run (RecordSystem.step ports) (RecordSystem.start Table.empty) prompt = some s ∧
      (agentRows editor s.records).length = 2 ∧
      verifyIntegrity ports keys editor s.records = .valid := by
  obtain ⟨s₁, s₂, row, row', hrun₁, hrun₂, hcall, hlock, hrow, hrow', hrows₁, hrows⟩ :=
    run_two waiting 0 1 rfl (fun _ => rfl) (by decide) rfl rfl ids_ne
      (by simp [noon_time]) (by simp [later_time]) first_signed second_after_first_signed
  have hrun : run (RecordSystem.step ports) (RecordSystem.start Table.empty) prompt = some s₂ :=
    run_append.mpr ⟨waiting, run_calls, run_append.mpr ⟨s₁, hrun₁, hrun₂⟩⟩
  have htime : row.createdAt = 1781956800000 :=
    (Option.some.inj (noon_time.symm.trans hrow.createdAt)).symm
  have hfirst : Timely ports (prepared firstId noonText) waiting.records := by
    intro createdAt hcreated
    cases noon_time.symm.trans hcreated
    exact ⟨rfl, by simp [waiting, RecordSystem.setCall, RecordSystem.start, Table.empty]⟩
  have hsecond : Timely ports (prepared secondId laterText) s₁.records := by
    intro createdAt hcreated
    cases later_time.symm.trans hcreated
    refine ⟨rfl, fun other hother _ => ?_⟩
    rw [hrows₁, List.mem_singleton] at hother
    rw [hother, htime]
    decide
  refine ⟨s₂, hrun, ?_, verifyIntegrity_of_timely ports keys prompt s₂
    (fun event hevent => keyed_events (List.mem_append_left _ hevent)) ?_ hrun editor⟩
  · have hagent : row.agentDid = editor := hrow.agentDid
    have hagent' : row'.agentDid = editor := hrow'.agentDid
    simp [agentRows, List.length_insertionSort, hrows, hagent, hagent', -List.insertionSort_cons]
  · refine (along_append run_calls).mpr ⟨along_of_forall_mem fun event hevent s => ?_, ?_⟩
    · simp only [List.mem_cons, List.not_mem_nil, or_false] at hevent
      rcases hevent with rfl | rfl
      all_goals trivial
    exact (along_append hrun₁).mpr ⟨RecordSystem.along_transaction rfl (fun _ => rfl) hfirst,
      RecordSystem.along_transaction (hcall.trans rfl) hlock hsecond⟩

end Audit

end Coivitas.Policy
