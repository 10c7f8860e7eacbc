import Coivitas.Crypto.Sha256
import Coivitas.Foundation.BackLinks
import Coivitas.Foundation.Bytes
import Coivitas.Foundation.CalendarText
import Coivitas.Foundation.Json
import Coivitas.Foundation.Outcome
import Coivitas.Types.Errors

/-! # The side table of the governor lane

The model of `packages/policy/src/audit-governor-lane/side-table.ts`: a chain of
row hashes beside the action records, kept in memory or in a table. A row in
memory has its time as the text that was hashed, a row of the table has it as an
instant.
The UTF-8 bytes of a text are injective here; Node replaces a lone surrogate, which no
`String` holds.
-/

namespace Coivitas.Policy.GovernorLane

open Foundation Crypto Coivitas.Types

/-! ## Rows -/

def sideTableGenesisHash : String := toHex (Sha256.sha256 (utf8 ""))

def rowPreimage (prevRowHash recordId recordHash agentDid createdAt : String) : String :=
  "|".intercalate [prevRowHash, recordId, recordHash, agentDid, createdAt]

def computeRowHash (prevRowHash recordId recordHash agentDid createdAt : String) : String :=
  toHex (Sha256.sha256 (utf8 (rowPreimage prevRowHash recordId recordHash agentDid createdAt)))

structure SideTableEntry where
  recordId : String
  recordHash : String
  agentDid : String
  createdAt : String

/-- A row, with its time as it is stored. -/
structure SideTableRow (τ : Type) where
  recordId : String
  recordHash : String
  agentDid : String
  createdAt : τ
  rowHash : String
  prevRowHash : String
  deriving DecidableEq

variable {τ : Type}

/-- The row hash of an entry behind the given one. -/
def SideTableEntry.hashAfter (entry : SideTableEntry) (prevRowHash : String) : String :=
  computeRowHash prevRowHash entry.recordId entry.recordHash entry.agentDid entry.createdAt

def lastRowHash (rows : List (SideTableRow τ)) : String :=
  (rows.getLast?.map SideTableRow.rowHash).getD sideTableGenesisHash

/-- The hash is that of the entry's own text, whatever is stored of it. -/
def nextRow (rows : List (SideTableRow τ)) (entry : SideTableEntry) (createdAt : τ) :
    SideTableRow τ where
  recordId := entry.recordId
  recordHash := entry.recordHash
  agentDid := entry.agentDid
  createdAt := createdAt
  rowHash := entry.hashAfter (lastRowHash rows)
  prevRowHash := lastRowHash rows

/-! ## Appending -/

def anchorMismatch (recordId : String) : Fault :=
  .protocol ⟨.internalError, "SIDE_TABLE_ANCHOR_MISMATCH: recordId '" ++ recordId ++
    "' already exists in side table. Append-only constraint violated.", none⟩

/-- `InMemorySideTableAppender.append`. -/
def appendInMemory (entry : SideTableEntry) (rows : List (SideTableRow String)) :
    Except Fault (List (SideTableRow String)) := do
  require (∀ row ∈ rows, row.recordId ≠ entry.recordId) (anchorMismatch entry.recordId)
  return rows ++ [nextRow rows entry entry.createdAt]

/-- What is passed for a transaction; what it is instead of a `PoolClient` is described. -/
inductive TransactionClient where
  | poolClient
  | other (gotDescription : String)

def assertPoolClient : TransactionClient → Except Fault Unit
  | .poolClient => .ok ()
  | .other gotDescription => .error (.protocol ⟨.internalError,
      "PostgresSideTableAppender.append: transactionClient is missing or not a PoolClient. Got: " ++
      gotDescription ++ ". A valid pg.PoolClient (with .query and .release) must be provided " ++
      "(same-transaction atomic write pattern). fail-closed: refusing to append without a " ++
      "transaction context. (atomic write contract).", none⟩)

/-- `PostgresSideTableAppender.append` under its lock. The `INSERT` reads the text of the time
as an instant and refuses a `record_id` that is taken. -/
def appendPostgres (timestamptz : String → Except Fault Int) (transactionClient : TransactionClient)
    (entry : SideTableEntry) (rows : List (SideTableRow Int)) :
    Except Fault (List (SideTableRow Int)) := do
  assertPoolClient transactionClient
  let createdAt ← timestamptz entry.createdAt
  require (∀ row ∈ rows, row.recordId ≠ entry.recordId) (.error ("duplicate key value violates " ++
    "unique constraint \"uq_audit_side_table_record_id\""))
  return rows ++ [nextRow rows entry createdAt]

/-! ## Verifying -/

inductive SideTableErrorCode where
  | anchorMismatch
  | anchorMissing
  | rowTampered
  deriving DecidableEq

inductive SideTableVerifyResult where
  | valid
  | invalid (brokenAt : String) (errorCode : SideTableErrorCode)
  deriving DecidableEq

/-- The comparison with the main table, for a row of the chain. -/
def compareMainTable (mainTableLoader : Option (String → Option String)) (row : SideTableRow τ) :
    SideTableVerifyResult :=
  match mainTableLoader with
  | none => .valid
  | some loadRecord =>
      match loadRecord row.recordId with
      | none => .invalid row.recordId .anchorMissing
      | some recordHash =>
          if recordHash ≠ row.recordHash then .invalid row.recordId .rowTampered else .valid

/-- The body of the loop of `verifyChain`. -/
def verifyRow (normalizeCreatedAt : τ → Except Fault String)
    (mainTableLoader : Option (String → Option String)) (expectedPrev : String)
    (row : SideTableRow τ) : Except Fault SideTableVerifyResult :=
  if row.prevRowHash ≠ expectedPrev then .ok (.invalid row.recordId .anchorMismatch)
  else do
    let createdAt ← normalizeCreatedAt row.createdAt
    if row.rowHash ≠ computeRowHash row.prevRowHash row.recordId row.recordHash row.agentDid
        createdAt then return .invalid row.recordId .rowTampered
    else return compareMainTable mainTableLoader row

def verifyRows (normalizeCreatedAt : τ → Except Fault String)
    (mainTableLoader : Option (String → Option String)) :
    String → List (SideTableRow τ) → Except Fault SideTableVerifyResult
  | _, [] => .ok .valid
  | expectedPrev, row :: rows => do
      match ← verifyRow normalizeCreatedAt mainTableLoader expectedPrev row with
      | .valid => verifyRows normalizeCreatedAt mainTableLoader row.rowHash rows
      | failure => return failure

def targetRows (agentDid : Option String) (rows : List (SideTableRow τ)) : List (SideTableRow τ) :=
  match agentDid with
  | none => rows
  | some did => rows.filter fun row => row.agentDid = did

/-- The filter decides only whether there is anything to verify. -/
def verifyChain (normalizeCreatedAt : τ → Except Fault String) (agentDid : Option String)
    (mainTableLoader : Option (String → Option String)) (rows : List (SideTableRow τ)) :
    Except Fault SideTableVerifyResult :=
  if targetRows agentDid rows = [] then .ok .valid
  else verifyRows normalizeCreatedAt mainTableLoader sideTableGenesisHash rows

/-- `InMemorySideTableAppender.verifyChain`. -/
def verifyInMemory (agentDid : Option String) (mainTableLoader : Option (String → Option String))
    (rows : List (SideTableRow String)) : Except Fault SideTableVerifyResult :=
  verifyChain .ok agentDid mainTableLoader rows

/-- A `TIMESTAMPTZ` column is read as a date, which has a text within the range of dates. -/
def normalizeCreatedAt (value : Int) : Except Fault String :=
  match Calendar.toISOString value with
  | some text => .ok text
  | none => .error (.error "Invalid time value")

/-- `PostgresSideTableAppender.verifyChain`. -/
def verifyPostgres (agentDid : Option String) (mainTableLoader : Option (String → Option String))
    (rows : List (SideTableRow Int)) : Except Fault SideTableVerifyResult :=
  verifyChain normalizeCreatedAt agentDid mainTableLoader rows

/-! ## What verification checks -/

/-- The row hash is that of the row's fields, with the text its time is read as. -/
def Hashed (normalizeCreatedAt : τ → Except Fault String) (row : SideTableRow τ) : Prop :=
  ∃ createdAt, normalizeCreatedAt row.createdAt = .ok createdAt ∧
    row.rowHash = computeRowHash row.prevRowHash row.recordId row.recordHash row.agentDid createdAt

/-- Every row names the row hash before it, the first one that of the genesis. -/
abbrev Linked (prevRowHash : String) (rows : List (SideTableRow τ)) : Prop :=
  BackLinked (fun row => some row.prevRowHash) SideTableRow.rowHash (some prevRowHash) rows

variable {normalizeCreatedAt : τ → Except Fault String}
  {mainTableLoader : Option (String → Option String)} {rows : List (SideTableRow τ)}

theorem verifyRow_eq_valid {expectedPrev : String} {row : SideTableRow τ} :
    verifyRow normalizeCreatedAt mainTableLoader expectedPrev row = .ok .valid ↔
      row.prevRowHash = expectedPrev ∧ Hashed normalizeCreatedAt row ∧
        compareMainTable mainTableLoader row = .valid := by
  unfold verifyRow Hashed
  by_cases hprev : row.prevRowHash = expectedPrev
  · simp only [hprev, ne_eq, not_true_eq_false, if_false, bind_eq_ok, true_and]
    constructor
    · rintro ⟨createdAt, hread, hresult⟩
      split at hresult
      next => cases hresult
      next hhash =>
        rw [pure_eq_ok] at hresult
        exact ⟨⟨createdAt, hread, not_not.mp hhash⟩, hresult⟩
    · rintro ⟨⟨createdAt, hread, hhash⟩, hmain⟩
      refine ⟨createdAt, hread, ?_⟩
      rw [if_neg (not_not.mpr hhash), hmain]
      rfl
  · simp [hprev]

theorem verifyRows_eq_valid {expectedPrev : String} :
    verifyRows normalizeCreatedAt mainTableLoader expectedPrev rows = .ok .valid ↔
      Linked expectedPrev rows ∧ ∀ row ∈ rows, Hashed normalizeCreatedAt row ∧
        compareMainTable mainTableLoader row = .valid := by
  induction rows generalizing expectedPrev with
  | nil => simp [verifyRows, BackLinked]
  | cons row rows ih =>
      simp only [verifyRows, bind_eq_ok, List.forall_mem_cons, BackLinked, Option.some.injEq]
      constructor
      · rintro ⟨result, hrow, hrest⟩
        split at hrest
        next =>
          obtain ⟨hprev, hhashed⟩ := verifyRow_eq_valid.mp hrow
          obtain ⟨hlinked, hall⟩ := ih.mp hrest
          exact ⟨⟨hprev, hlinked⟩, hhashed, hall⟩
        next failure hfailure =>
          rw [pure_eq_ok] at hrest
          exact absurd hrest hfailure
      · rintro ⟨⟨hprev, hlinked⟩, hhashed, hall⟩
        exact ⟨.valid, verifyRow_eq_valid.mpr ⟨hprev, hhashed⟩, ih.mpr ⟨hlinked, hall⟩⟩

/-- Without a filter an accepted chain is linked and hashed throughout. -/
theorem verifyChain_eq_valid :
    verifyChain normalizeCreatedAt none mainTableLoader rows = .ok .valid ↔
      Linked sideTableGenesisHash rows ∧ ∀ row ∈ rows, Hashed normalizeCreatedAt row ∧
        compareMainTable mainTableLoader row = .valid := by
  rw [← verifyRows_eq_valid]
  show (if rows = [] then _ else _) = _ ↔ _
  split
  next hempty => simp [hempty, verifyRows]
  next => rfl

/-- A filter only takes a verdict away. -/
theorem verifyChain_of_valid (agentDid : Option String)
    (hvalid : verifyChain normalizeCreatedAt none mainTableLoader rows = .ok .valid) :
    verifyChain normalizeCreatedAt agentDid mainTableLoader rows = .ok .valid := by
  unfold verifyChain at hvalid ⊢
  split
  next => rfl
  next hsome =>
    split at hvalid
    next hempty =>
      rw [show rows = [] from hempty]
      rfl
    next => exact hvalid

/-- For an agent with a row the whole chain is verified. -/
theorem verifyChain_of_present {agentDid : String} (hrow : ∃ row ∈ rows, row.agentDid = agentDid) :
    verifyChain normalizeCreatedAt (some agentDid) mainTableLoader rows =
      verifyChain normalizeCreatedAt none mainTableLoader rows := by
  obtain ⟨row, hmem, hagent⟩ := hrow
  have htarget : targetRows (some agentDid) rows ≠ [] :=
    List.ne_nil_of_mem (List.mem_filter.mpr ⟨hmem, decide_eq_true hagent⟩)
  have hrows : targetRows none rows ≠ [] := List.ne_nil_of_mem hmem
  rw [verifyChain, verifyChain, if_neg htarget, if_neg hrows]

/-- For an agent without rows there is nothing to verify. -/
theorem verifyChain_of_absent {agentDid : String} (hrow : ∀ row ∈ rows, row.agentDid ≠ agentDid) :
    verifyChain normalizeCreatedAt (some agentDid) mainTableLoader rows = .ok .valid := by
  have htarget : targetRows (some agentDid) rows = [] := by
    refine List.filter_eq_nil_iff.mpr fun row hmem hagent => ?_
    exact hrow row hmem (of_decide_eq_true hagent)
  rw [verifyChain, if_pos htarget]

/-- The verdicts with and without a filter, on a table with the given rows. -/
structure FilterConsistent (verify : Option String → Except Fault SideTableVerifyResult)
    (rows : List (SideTableRow τ)) : Prop where
  valid : verify none = .ok .valid → ∀ agentDid, verify (some agentDid) = .ok .valid
  broken : ∀ brokenAt errorCode, verify none = .ok (.invalid brokenAt errorCode) →
    ∀ agentDid, (∃ row ∈ rows, row.agentDid = agentDid) →
      verify (some agentDid) = .ok (.invalid brokenAt errorCode)
  absent : ∀ agentDid, (∀ row ∈ rows, row.agentDid ≠ agentDid) → verify (some agentDid) = .ok .valid

theorem filterConsistent_verifyChain (normalizeCreatedAt : τ → Except Fault String)
    (mainTableLoader : Option (String → Option String)) (rows : List (SideTableRow τ)) :
    FilterConsistent (verifyChain normalizeCreatedAt · mainTableLoader rows) rows := by
  constructor
  case valid => exact fun hvalid agentDid => verifyChain_of_valid (some agentDid) hvalid
  case broken =>
    intro brokenAt errorCode hbroken agentDid hrow
    exact (verifyChain_of_present hrow).trans hbroken
  case absent => exact fun agentDid hrow => verifyChain_of_absent hrow

/-- On either side the agents that have rows share the verdict of the whole chain, and every
other agent gets a valid one. -/
theorem filters_consistent (mainTableLoader : Option (String → Option String)) :
    (∀ rows, FilterConsistent (verifyInMemory · mainTableLoader rows) rows) ∧
      ∀ rows, FilterConsistent (verifyPostgres · mainTableLoader rows) rows :=
  ⟨filterConsistent_verifyChain .ok mainTableLoader,
    filterConsistent_verifyChain GovernorLane.normalizeCreatedAt mainTableLoader⟩

theorem linked_nextRow (entry : SideTableEntry) (createdAt : τ)
    (hlinked : Linked sideTableGenesisHash rows) :
    Linked sideTableGenesisHash (rows ++ [nextRow rows entry createdAt]) := by
  refine (backLinked_concat_of_link _ _).mpr ⟨hlinked, ?_⟩
  show some (lastRowHash rows) = (rows.getLast?.map SideTableRow.rowHash).or _
  unfold lastRowHash
  cases rows.getLast? with
  | none => rfl
  | some row => rfl

theorem hashed_nextRow (rows : List (SideTableRow String)) (entry : SideTableEntry) :
    Hashed .ok (nextRow rows entry entry.createdAt) :=
  ⟨entry.createdAt, rfl, rfl⟩

/-- A chain stays accepted when a row is appended. -/
theorem verifyInMemory_nextRow {rows : List (SideTableRow String)}
    (hvalid : verifyInMemory none none rows = .ok .valid) (entry : SideTableEntry) :
    verifyInMemory none none (rows ++ [nextRow rows entry entry.createdAt]) = .ok .valid := by
  obtain ⟨hlinked, hrows⟩ := verifyChain_eq_valid.mp hvalid
  refine verifyChain_eq_valid.mpr ⟨linked_nextRow entry entry.createdAt hlinked, ?_⟩
  intro row hrow
  obtain hrow | hrow := List.mem_append.mp hrow
  · exact hrows row hrow
  · rw [List.mem_singleton.mp hrow]
    exact ⟨hashed_nextRow rows entry, rfl⟩

theorem verifyInMemory_first (entry : SideTableEntry) :
    verifyInMemory none none [nextRow [] entry entry.createdAt] = .ok .valid := by
  have hempty : verifyInMemory none none [] = .ok .valid := rfl
  exact List.nil_append [nextRow [] entry entry.createdAt] ▸ verifyInMemory_nextRow hempty entry

/-! ## Tamper evidence -/

/-- No field holds the separator. -/
def Plain (row : SideTableRow String) : Prop :=
  ∀ field ∈ [row.prevRowHash, row.recordId, row.recordHash, row.agentDid, row.createdAt],
    '|' ∉ field.toList

theorem not_mem_ofList {c : Char} {chars : List Char} (h : c ∉ chars) :
    c ∉ (String.ofList chars).toList := by
  rwa [String.toList_ofList]

theorem not_mem_toHex (bytes : List UInt8) : '|' ∉ (toHex bytes).toList := by
  have hdigit : ∀ n < 16, '|' ≠ hexChar n := by decide
  rw [toHex, String.toList_ofList, List.mem_flatMap]
  rintro ⟨b, -, hb⟩
  have hbyte := b.toNat_lt
  simp only [hexByte, List.mem_cons, List.not_mem_nil, or_false] at hb
  exact hb.elim (hdigit _ (by omega)) (hdigit _ (by omega))

/-- A row of the writer is plain if the texts of its entry are. -/
theorem plain_nextRow {rows : List (SideTableRow String)} {entry : SideTableEntry}
    {createdAt : String} (hlast : '|' ∉ (lastRowHash rows).toList)
    (hentry : ∀ field ∈ [entry.recordId, entry.recordHash, entry.agentDid, createdAt],
      '|' ∉ field.toList) :
    Plain (nextRow rows entry createdAt) :=
  List.forall_mem_cons.mpr ⟨hlast, hentry⟩

/-- The bytes a row hash is the digest of. -/
def rowBytes (row : SideTableRow String) : List UInt8 :=
  utf8 (rowPreimage row.prevRowHash row.recordId row.recordHash row.agentDid row.createdAt)

/-- Everything that is hashed for the rows, the genesis included. -/
def preimages (rows : List (SideTableRow String)) : List (List UInt8) :=
  utf8 "" :: rows.map rowBytes

/-- Two distinct preimages with one digest. -/
def ExhibitsCollision (rows : List (SideTableRow String)) : Prop :=
  ∃ x ∈ preimages rows, ∃ y ∈ preimages rows, x ≠ y ∧ Sha256.sha256 x = Sha256.sha256 y

/-- Joined fields are read apart at the separators. -/
theorem intercalate_injective {fields fields' : List String} (hne : fields ≠ [])
    (hne' : fields' ≠ []) (hplain : ∀ field ∈ fields, '|' ∉ field.toList)
    (hplain' : ∀ field ∈ fields', '|' ∉ field.toList)
    (heq : "|".intercalate fields = "|".intercalate fields') : fields = fields' := by
  have hsplit := String.toList_split_intercalate hplain
  have hsplit' := String.toList_split_intercalate hplain'
  have hjoined : (String.singleton '|').intercalate fields =
      (String.singleton '|').intercalate fields' := heq
  rw [if_neg hne, hjoined] at hsplit
  rw [if_neg hne'] at hsplit'
  exact hsplit.symm.trans hsplit'

/-- The digest binds the fields of two rows, or it is a collision. -/
theorem fields_eq_of_rowBytes_eq {row row' : SideTableRow String} (hplain : Plain row)
    (hplain' : Plain row') (hbytes : rowBytes row = rowBytes row') :
    row.prevRowHash = row'.prevRowHash ∧ row.recordId = row'.recordId ∧
      row.recordHash = row'.recordHash ∧ row.agentDid = row'.agentDid ∧
      row.createdAt = row'.createdAt := by
  have hfields := intercalate_injective (by simp) (by simp) hplain hplain' (utf8_injective hbytes)
  simpa using hfields

theorem rowHash_eq_toHex {row : SideTableRow String} (hhashed : Hashed .ok row) :
    row.rowHash = toHex (Sha256.sha256 (rowBytes row)) := by
  obtain ⟨createdAt, hread, hhash⟩ := hhashed
  cases hread
  exact hhash

theorem mem_preimages {row : SideTableRow String} {rows : List (SideTableRow String)}
    (hrow : row ∈ rows) : rowBytes row ∈ preimages rows :=
  List.mem_cons_of_mem _ (List.mem_map_of_mem hrow)

/-- A joined text is not empty, so the digest of a row is not the genesis hash. -/
theorem rowBytes_ne_genesis (row : SideTableRow String) : rowBytes row ≠ utf8 "" := by
  intro hbytes
  have htext := congrArg String.toList (utf8_injective hbytes)
  simp [rowPreimage] at htext

/-- Two accepted chains with one tail anchor are the same chain, or two of their preimages
collide. -/
theorem rows_eq_or_collision {rows rows' : List (SideTableRow String)}
    {mainTableLoader mainTableLoader' : Option (String → Option String)}
    (hvalid : verifyInMemory none mainTableLoader rows = .ok .valid)
    (hvalid' : verifyInMemory none mainTableLoader' rows' = .ok .valid)
    (hplain : ∀ row ∈ rows, Plain row) (hplain' : ∀ row ∈ rows', Plain row)
    (hlast : rows.getLast?.map SideTableRow.rowHash = rows'.getLast?.map SideTableRow.rowHash) :
    rows = rows' ∨ ExhibitsCollision (rows ++ rows') := by
  by_cases hcollision : ExhibitsCollision (rows ++ rows')
  · exact .inr hcollision
  · left
    have hinj : ∀ x ∈ preimages (rows ++ rows'), ∀ y ∈ preimages (rows ++ rows'),
        toHex (Sha256.sha256 x) = toHex (Sha256.sha256 y) → x = y := by
      intro x hx y hy hdigest
      by_contra hne
      exact hcollision ⟨x, hx, y, hy, hne, toHex_injective hdigest⟩
    obtain ⟨hlinked, hhashed⟩ := verifyChain_eq_valid.mp hvalid
    obtain ⟨hlinked', hhashed'⟩ := verifyChain_eq_valid.mp hvalid'
    have hroot : ∀ row ∈ rows ++ rows', Hashed .ok row → row.rowHash ≠ sideTableGenesisHash := by
      intro row hrow hhash heq
      rw [rowHash_eq_toHex hhash] at heq
      exact rowBytes_ne_genesis row
        (hinj _ (mem_preimages hrow) _ List.mem_cons_self heq)
    have hmap : rows.map id = rows'.map id := map_eq_of_lastDigest_eq
      (hlinked.of_root fun row hrow => hroot row (List.mem_append_left _ hrow) (hhashed row hrow).1)
      (hlinked'.of_root fun row hrow =>
        hroot row (List.mem_append_right _ hrow) (hhashed' row hrow).1) ?_ hlast
    · simpa using hmap
    · intro left hleft right hright hdigest
      have hbytes : rowBytes left = rowBytes right := by
        rw [rowHash_eq_toHex (hhashed left hleft).1, rowHash_eq_toHex (hhashed' right hright).1]
          at hdigest
        exact hinj _ (mem_preimages (List.mem_append_left _ hleft)) _
          (mem_preimages (List.mem_append_right _ hright)) hdigest
      obtain ⟨hprev, hrecordId, hrecordHash, hagentDid, hcreatedAt⟩ :=
        fields_eq_of_rowBytes_eq (hplain left hleft) (hplain' right hright) hbytes
      obtain ⟨⟩ := left
      obtain ⟨⟩ := right
      simp only at *
      subst hprev hrecordId hrecordHash hagentDid hcreatedAt hdigest
      exact ⟨rfl, rfl⟩

namespace OneRow

def entry : SideTableEntry where
  recordId := "record-1"
  recordHash := "ab12"
  agentDid := "did:agent:1"
  createdAt := "2026-06-01T09:00:00.000Z"

/-- The row with a link to nowhere. -/
def unlinked : List (SideTableRow String) :=
  [{ nextRow [] entry entry.createdAt with prevRowHash := "" }]

/-- The chain is broken, and valid for an agent that has no row in it. -/
theorem broken_for_some : verifyInMemory none none unlinked =
      .ok (.invalid entry.recordId .anchorMismatch) ∧
    verifyInMemory (some "did:agent:2") none unlinked = .ok .valid := by
  have hgenesis : "" ≠ sideTableGenesisHash := by
    intro hempty
    have hdigest : [] = Sha256.sha256 (utf8 "") := toHex_injective hempty
    have hlength := congrArg List.length hdigest
    rw [Sha256.length_sha256, List.length_nil] at hlength
    cases hlength
  have hrow : ∀ row ∈ unlinked, verifyRow .ok none sideTableGenesisHash row =
      .ok (.invalid entry.recordId .anchorMismatch) := by
    intro row hrow
    rw [List.mem_singleton.mp hrow, verifyRow, if_pos hgenesis]
    rfl
  constructor
  · show verifyRows .ok none sideTableGenesisHash unlinked = _
    simp only [unlinked, verifyRows, hrow _ (List.mem_singleton_self _)]
    rfl
  · exact verifyChain_of_absent (by simp [unlinked, nextRow, entry])

end OneRow

namespace TwoRows

def entry : SideTableEntry where
  recordId := "record-2"
  recordHash := "cd34"
  agentDid := "did:agent:2"
  createdAt := "2026-06-01T09:00:01.000Z"

def first : SideTableRow String := nextRow [] OneRow.entry OneRow.entry.createdAt

/-- The chain of the writer. -/
def appended : List (SideTableRow String) := [first, nextRow [first] entry entry.createdAt]

/-- The chain an auditor is given, with its digests as texts. -/
def exported : List (SideTableRow String) :=
  [⟨"record-1", "ab12", "did:agent:1", "2026-06-01T09:00:00.000Z",
      "6bc18326939770e5665bd9b095c84ca3ff4d5f97f04cbf1a724f469d10725af7",
      "e3b0c44298fc1c149afbf4c8996fb92427ae41e4649b934ca495991b7852b855"⟩,
    ⟨"record-2", "cd34", "did:agent:2", "2026-06-01T09:00:01.000Z",
      "6fca7dc19521db03a983938f2c228ee221863fd63ee9005f5497633a4f89e5eb",
      "6bc18326939770e5665bd9b095c84ca3ff4d5f97f04cbf1a724f469d10725af7"⟩]

theorem appended_valid : verifyInMemory none none appended = .ok .valid :=
  verifyInMemory_nextRow (verifyInMemory_first OneRow.entry) entry

theorem exported_valid : verifyInMemory none none exported = .ok .valid := by
  decide +kernel

theorem appended_plain : ∀ row ∈ appended, Plain row := by
  rw [appended, List.forall_mem_cons, List.forall_mem_singleton]
  exact ⟨plain_nextRow (not_mem_toHex _) (by decide), plain_nextRow (not_mem_toHex _) (by decide)⟩

theorem exported_plain : ∀ row ∈ exported, Plain row := by
  have hdigests : '|' ∉ exported[0].prevRowHash.toList ∧ '|' ∉ exported[1].prevRowHash.toList :=
    ⟨not_mem_ofList (by decide), not_mem_ofList (by decide)⟩
  rw [exported, List.forall_mem_cons, List.forall_mem_singleton]
  exact ⟨List.forall_mem_cons.mpr ⟨hdigests.1, by decide⟩,
    List.forall_mem_cons.mpr ⟨hdigests.2, by decide⟩⟩

/-- Both chains end in the digest of the second record. -/
theorem exported_eq_or_collision : appended = exported ∨ ExhibitsCollision (appended ++ exported) :=
  rows_eq_or_collision appended_valid exported_valid appended_plain exported_plain
    (by decide +kernel)

end TwoRows

/-! ## Writer and verifier -/

/-- A history of append calls, all successful. -/
def appendAll
    (append : SideTableEntry → List (SideTableRow τ) → Except Fault (List (SideTableRow τ))) :
    List SideTableEntry → List (SideTableRow τ) → Except Fault (List (SideTableRow τ))
  | [], rows => .ok rows
  | entry :: entries, rows => do
      let rows ← append entry rows
      appendAll append entries rows

/-- Both chains of one history are accepted under every filter, with the same verdicts. -/
structure SidesAgree (rows : List (SideTableRow String)) (rows' : List (SideTableRow Int)) :
    Prop where
  memory : ∀ agentDid, verifyInMemory agentDid none rows = .ok .valid
  postgres : ∀ agentDid, verifyPostgres agentDid none rows' = .ok .valid
  same : ∀ agentDid mainTableLoader, verifyPostgres agentDid mainTableLoader rows' =
    verifyInMemory agentDid mainTableLoader rows

/-- The text of the row's time is the one that its instant is read back as, or the two texts
have a digest in common. -/
def ReadsBack (timestamptz : String → Except Fault Int) (row : SideTableRow String) : Prop :=
  ∃ ms text, timestamptz row.createdAt = .ok ms ∧ Calendar.toISOString ms = some text ∧
    (text = row.createdAt ∨
      (rowBytes { row with createdAt := text } ≠ rowBytes row ∧
        Sha256.sha256 (rowBytes { row with createdAt := text }) = Sha256.sha256 (rowBytes row)))

/-- The row with its time as it is stored elsewhere. -/
def SideTableRow.withTime {σ : Type} (row : SideTableRow τ) (createdAt : σ) : SideTableRow σ where
  recordId := row.recordId
  recordHash := row.recordHash
  agentDid := row.agentDid
  createdAt := createdAt
  rowHash := row.rowHash
  prevRowHash := row.prevRowHash

/-- The table holds the rows of the chain in memory, each with its time as an instant. -/
def Stores (timestamptz : String → Except Fault Int) (rows : List (SideTableRow String))
    (rows' : List (SideTableRow Int)) : Prop :=
  List.Forall₂ (fun row row' => timestamptz row.createdAt = .ok row'.createdAt ∧
    row' = row.withTime row'.createdAt) rows rows'

theorem lastRowHash_of_stores {timestamptz : String → Except Fault Int}
    {rows : List (SideTableRow String)} {rows' : List (SideTableRow Int)}
    (hstores : Stores timestamptz rows rows') : lastRowHash rows' = lastRowHash rows := by
  have hhashes : rows'.map SideTableRow.rowHash = rows.map SideTableRow.rowHash :=
    map_eq_of_forall₂ hstores fun row row' hrow => by rw [hrow.2]; rfl
  rw [lastRowHash, lastRowHash, ← List.getLast?_map, ← List.getLast?_map, hhashes]

/-- What both writers keep of one history. -/
structure Written (timestamptz : String → Except Fault Int) (rows : List (SideTableRow String))
    (rows' : List (SideTableRow Int)) : Prop where
  linked : Linked sideTableGenesisHash rows
  linked' : Linked sideTableGenesisHash rows'
  hashed : ∀ row ∈ rows, Hashed .ok row
  stores : Stores timestamptz rows rows'

theorem Written.append {timestamptz : String → Except Fault Int} {entry : SideTableEntry}
    {rows next : List (SideTableRow String)} {rows' next' : List (SideTableRow Int)}
    (hwritten : Written timestamptz rows rows') (hnext : appendInMemory entry rows = .ok next)
    (hnext' : appendPostgres timestamptz .poolClient entry rows' = .ok next') :
    Written timestamptz next next' := by
  simp only [appendInMemory, bind_eq_ok, pure_eq_ok] at hnext
  obtain ⟨-, -, rfl⟩ := hnext
  simp only [appendPostgres, bind_eq_ok, pure_eq_ok] at hnext'
  obtain ⟨-, -, createdAt, hread, -, -, rfl⟩ := hnext'
  constructor
  case linked => exact linked_nextRow entry entry.createdAt hwritten.linked
  case linked' => exact linked_nextRow entry createdAt hwritten.linked'
  case hashed =>
    intro row hrow
    obtain hrow | hrow := List.mem_append.mp hrow
    · exact hwritten.hashed row hrow
    · rw [List.mem_singleton.mp hrow]
      exact hashed_nextRow rows entry
  case stores =>
    refine List.rel_append hwritten.stores (.cons ⟨hread, ?_⟩ .nil)
    simp only [nextRow, SideTableRow.withTime, lastRowHash_of_stores hwritten.stores]

theorem Written.appendAll {timestamptz : String → Except Fault Int}
    {entries : List SideTableEntry} {rows final : List (SideTableRow String)}
    {rows' final' : List (SideTableRow Int)} (hwritten : Written timestamptz rows rows')
    (hmemory : appendAll appendInMemory entries rows = .ok final)
    (hpostgres : GovernorLane.appendAll (appendPostgres timestamptz .poolClient) entries rows' =
      .ok final') : Written timestamptz final final' := by
  induction entries generalizing rows rows' with
  | nil =>
      cases hmemory
      cases hpostgres
      exact hwritten
  | cons entry entries ih =>
      simp only [GovernorLane.appendAll, bind_eq_ok] at hmemory hpostgres
      obtain ⟨next, hnext, hmemory⟩ := hmemory
      obtain ⟨next', hnext', hpostgres⟩ := hpostgres
      exact ih (hwritten.append hnext hnext') hmemory hpostgres

theorem rowBytes_createdAt_inj {row : SideTableRow String} {createdAt : String}
    (hbytes : rowBytes { row with createdAt } = rowBytes row) : createdAt = row.createdAt := by
  have htext := congrArg String.toList (utf8_injective hbytes)
  apply String.toList_injective
  simpa [rowPreimage] using htext

/-- A stored row verifies exactly when its time reads back. -/
theorem hashed_withTime_iff {timestamptz : String → Except Fault Int} {row : SideTableRow String}
    {ms : Int} (hhashed : Hashed .ok row) (hread : timestamptz row.createdAt = .ok ms) :
    Hashed GovernorLane.normalizeCreatedAt (row.withTime ms) ↔ ReadsBack timestamptz row := by
  have hhash := rowHash_eq_toHex hhashed
  constructor
  · rintro ⟨text, hnormalize, hstored⟩
    have htext : Calendar.toISOString ms = some text := by
      simp only [GovernorLane.normalizeCreatedAt, SideTableRow.withTime] at hnormalize
      split at hnormalize
      next found hfound => rw [hfound, Except.ok.inj hnormalize]
      next => cases hnormalize
    refine ⟨ms, text, hread, htext, ?_⟩
    by_cases hbytes : rowBytes { row with createdAt := text } = rowBytes row
    · exact .inl (rowBytes_createdAt_inj hbytes)
    · exact .inr ⟨hbytes, toHex_injective (hstored.symm.trans hhash)⟩
  · rintro ⟨ms', text, hread', htext, hsame⟩
    rw [hread, Except.ok.injEq] at hread'
    subst hread'
    refine ⟨text, ?_, ?_⟩
    · simp only [GovernorLane.normalizeCreatedAt, SideTableRow.withTime, htext]
    · show row.rowHash = toHex (Sha256.sha256 (rowBytes { row with createdAt := text }))
      obtain rfl | ⟨-, hdigest⟩ := hsame
      · exact hhash
      · rw [hdigest, hhash]

/-- On a row that is hashed right, only the link and the main table decide. -/
theorem verifyRow_of_hashed {row : SideTableRow τ} (hhashed : Hashed normalizeCreatedAt row)
    (expectedPrev : String) :
    verifyRow normalizeCreatedAt mainTableLoader expectedPrev row =
      .ok (if row.prevRowHash ≠ expectedPrev then .invalid row.recordId .anchorMismatch
        else compareMainTable mainTableLoader row) := by
  obtain ⟨createdAt, hread, hhash⟩ := hhashed
  unfold verifyRow
  split
  next => rfl
  next =>
    simp only [hread, ← hhash, bind, Except.bind, ne_eq, not_true_eq_false, if_false]
    rfl

theorem verifyRows_of_stores {timestamptz : String → Except Fault Int}
    {rows : List (SideTableRow String)} {rows' : List (SideTableRow Int)}
    (hstores : Stores timestamptz rows rows') (hhashed : ∀ row ∈ rows, Hashed .ok row)
    (hhashed' : ∀ row ∈ rows', Hashed GovernorLane.normalizeCreatedAt row) (expectedPrev : String) :
    verifyRows GovernorLane.normalizeCreatedAt mainTableLoader expectedPrev rows' =
      verifyRows .ok mainTableLoader expectedPrev rows := by
  induction hstores generalizing expectedPrev with
  | nil => rfl
  | @cons row row' rows rows' hrow _ ih =>
      rw [List.forall_mem_cons] at hhashed hhashed'
      obtain ⟨-, hsame⟩ := hrow
      have hverdict : verifyRow GovernorLane.normalizeCreatedAt mainTableLoader expectedPrev row' =
          verifyRow .ok mainTableLoader expectedPrev row := by
        rw [verifyRow_of_hashed hhashed.1, verifyRow_of_hashed hhashed'.1, hsame]
        rfl
      have hrest := ih hhashed.2 hhashed'.2 row.rowHash
      have hhash : row'.rowHash = row.rowHash := by
        rw [hsame]
        rfl
      simp only [verifyRows, hverdict, hhash, hrest]

theorem targetRows_eq_nil_of_stores {timestamptz : String → Except Fault Int}
    {rows : List (SideTableRow String)} {rows' : List (SideTableRow Int)}
    (hstores : Stores timestamptz rows rows') (agentDid : Option String) :
    targetRows agentDid rows' = [] ↔ targetRows agentDid rows = [] := by
  induction hstores with
  | nil => cases agentDid <;> simp [targetRows]
  | @cons row row' rows rows' hrow _ ih =>
      cases agentDid with
      | none => simp [targetRows]
      | some did =>
          have hagent : row'.agentDid = row.agentDid := by
            rw [hrow.2]
            rfl
          simp only [targetRows, List.filter_cons, hagent] at ih ⊢
          split
          next => simp
          next => exact ih

/-- Every chain that was written is accepted by the verifier of either side, with the same
verdicts, exactly when the texts of all times are read back as they were written. -/
theorem sides_agree_iff {timestamptz : String → Except Fault Int} {entries : List SideTableEntry}
    {rows : List (SideTableRow String)} {rows' : List (SideTableRow Int)}
    (hmemory : appendAll appendInMemory entries [] = .ok rows)
    (hpostgres : appendAll (appendPostgres timestamptz .poolClient) entries [] = .ok rows') :
    SidesAgree rows rows' ↔ ∀ row ∈ rows, ReadsBack timestamptz row := by
  have hempty : Written timestamptz [] [] :=
    ⟨by simp [BackLinked], by simp [BackLinked], by simp, .nil⟩
  have hwritten : Written timestamptz rows rows' := hempty.appendAll hmemory hpostgres
  have hvalid : verifyInMemory none none rows = .ok .valid :=
    verifyChain_eq_valid.mpr ⟨hwritten.linked, fun row hrow => ⟨hwritten.hashed row hrow, rfl⟩⟩
  have hiff : (∀ row ∈ rows', Hashed GovernorLane.normalizeCreatedAt row) ↔
      ∀ row ∈ rows, ReadsBack timestamptz row := by
    have hhashed := hwritten.hashed
    have hstores := hwritten.stores
    clear hwritten hvalid hmemory hpostgres
    induction hstores with
    | nil => simp
    | @cons row row' rows rows' hrow _ ih =>
        rw [List.forall_mem_cons] at hhashed
        obtain ⟨hread, hsame⟩ := hrow
        have hhead : Hashed GovernorLane.normalizeCreatedAt row' ↔ ReadsBack timestamptz row := by
          rw [hsame]
          exact hashed_withTime_iff hhashed.1 hread
        rw [List.forall_mem_cons, List.forall_mem_cons, hhead]
        exact and_congr_right fun _ => ih hhashed.2
  rw [← hiff]
  constructor
  · intro hagree row hrow
    exact ((verifyChain_eq_valid.mp (hagree.postgres none)).2 row hrow).1
  · intro hhashed
    have hsame : ∀ agentDid mainTableLoader, verifyPostgres agentDid mainTableLoader rows' =
        verifyInMemory agentDid mainTableLoader rows := by
      intro agentDid mainTableLoader
      simp only [verifyPostgres, verifyInMemory, verifyChain,
        targetRows_eq_nil_of_stores hwritten.stores,
        verifyRows_of_stores hwritten.stores hwritten.hashed hhashed]
    have hmemory' : ∀ agentDid, verifyInMemory agentDid none rows = .ok .valid :=
      fun agentDid => verifyChain_of_valid agentDid hvalid
    exact ⟨hmemory', fun agentDid => (hsame agentDid none).trans (hmemory' agentDid), hsame⟩

namespace TwoRows

def timestamptz (text : String) : Except Fault Int :=
  if text = OneRow.entry.createdAt then .ok 1780304400000
  else if text = entry.createdAt then .ok 1780304401000
  else .error (.error "invalid input syntax for type timestamp with time zone")

def stored : SideTableRow Int := nextRow [] OneRow.entry 1780304400000

theorem sides_agree : SidesAgree appended [stored, nextRow [stored] entry 1780304401000] ↔
    ∀ row ∈ appended, ReadsBack timestamptz row := by
  have hmemory : appendAll appendInMemory [OneRow.entry, entry] [] = .ok appended := rfl
  exact sides_agree_iff hmemory rfl

end TwoRows

namespace Seconds

/-- A record whose caller gives its time without milliseconds. -/
def entry : SideTableEntry := { OneRow.entry with createdAt := "2026-06-01T09:00:00Z" }

/-- What the database reads the two spellings as. -/
def timestamptz (text : String) : Except Fault Int :=
  if text = entry.createdAt ∨ text = OneRow.entry.createdAt then .ok 1780304400000
  else .error (.error "invalid input syntax for type timestamp with time zone")

def row : SideTableRow Int := nextRow [] entry 1780304400000

theorem row_hash_ne : row.rowHash ≠ computeRowHash row.prevRowHash row.recordId row.recordHash
    row.agentDid OneRow.entry.createdAt := by
  decide +kernel

/-- The row of the table is refused by the verifier of the same side, while the chain in memory
is accepted. -/
theorem appended_refused :
    appendAll appendInMemory [entry] [] = .ok [nextRow [] entry entry.createdAt] ∧
      appendAll (appendPostgres timestamptz .poolClient) [entry] [] = .ok [row] ∧
      verifyInMemory none none [nextRow [] entry entry.createdAt] = .ok .valid ∧
      verifyPostgres none none [row] = .ok (.invalid entry.recordId .rowTampered) := by
  have hnormalize : GovernorLane.normalizeCreatedAt row.createdAt =
      .ok OneRow.entry.createdAt := by
    decide +kernel
  have hrow : verifyRow GovernorLane.normalizeCreatedAt none sideTableGenesisHash row =
      .ok (.invalid entry.recordId .rowTampered) := by
    unfold verifyRow
    rw [if_neg (by simp [row, nextRow, lastRowHash]), hnormalize]
    simp only [bind, Except.bind]
    rw [if_pos row_hash_ne]
    rfl
  refine ⟨rfl, rfl, verifyInMemory_first entry, ?_⟩
  show verifyRows GovernorLane.normalizeCreatedAt none sideTableGenesisHash [row] = _
  simp only [verifyRows, hrow]
  rfl

end Seconds

end Coivitas.Policy.GovernorLane
