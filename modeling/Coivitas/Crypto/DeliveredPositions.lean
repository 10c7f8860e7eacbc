import Coivitas.Crypto.MigrationRestart
import Coivitas.Foundation.JsText

/-! # Positions as the driver delivers them

`chain_position` is a `BIGINT`, and the driver gives a `BIGINT` as a text. The migration compares
the delivered value with a number before it does anything else with a batch, so over texts no
batch that starts a chain is ever processed. With the values delivered as numbers the migration is
the one of the module before.
-/

namespace Coivitas.Crypto

open Foundation HashChainEntries

namespace Delivered

/-- A value of a row: a number or a text. Values of two kinds are never `===`. -/
inductive JsValue where
  | number (value : Int)
  | text (digits : String)
  deriving DecidableEq, Repr

namespace JsValue

/-- `value - n`; `none` for `NaN`. -/
def minus (value : JsValue) (n : Int) : Option Int :=
  match value with
  | number m => some (m - n)
  | text digits => (bigInt digits).map (· - n)

/-- The value as a `BIGINT` parameter of a statement. -/
def bigint : JsValue → Option Nat
  | number m => m.toNat?
  | text digits => (bigInt digits).bind Int.toNat?

end JsValue

/-- What the driver makes of a position. -/
abbrev Driver := Nat → JsValue

/-- The default of the driver for `BIGINT`. -/
def texts : Driver := fun position => .text (toString position)

/-- A driver with a parser for `BIGINT`. -/
def numbers : Driver := fun position => .number position

variable (P : HccPorts) (R : MigrationRun) (driver : Driver)

/-! ## The migration over delivered values -/

def fetchPrevCommittedHash (chain : ChainPartitionKey) (firstEntry : ChainEntryRow) :
    Migration String := do
  let chainPosition := driver firstEntry.chainPosition
  if chainPosition = .number 0 then
    return genesisPreviousHash
  let wanted := chainPosition.minus 1
  let prev ← select R .fetchPrevCommittedHash fun t =>
    (t.partition chain).find? fun row => some (row.chainPosition : Int) = wanted
  let wantedText := (wanted.map toString).getD "NaN"
  match prev with
  | none =>
      throw (.message ("previousHash anchor missing: chain (" ++ chain.chainNamespace ++ "/" ++
        chain.tenantId.getD "NULL" ++ "/" ++ chain.auditClass.getD "NULL" ++ ") chain_position " ++
        wantedText ++ " not found"))
  | some prev =>
      if prev.hccVersion ≠ "2.0.0" then
        throw (.message ("previousHash anchor in inconsistent state: chain_position " ++
          wantedText ++ " hcc_version=" ++ prev.hccVersion ++
          " (expected \"2.0.0\"; previous batch not committed)"))
      return prev.canonicalPayloadHash

def processBatch (chain : ChainPartitionKey) (firstEntry : ChainEntryRow)
    (rest : List ChainEntryRow) : Migration Unit := do
  select R .connect fun _ => ()
  let body := do
    let anchor ← fetchPrevCommittedHash R driver chain firstEntry
    processRows P R anchor (firstEntry :: rest)
  if R.options.dryRun then body else transaction R body

def processBatchWithRetry (chain : ChainPartitionKey) (firstEntry : ChainEntryRow)
    (rest : List ChainEntryRow) : Nat → MigrationError → Migration Unit
  | 0, lastErr => throw lastErr
  | attempts + 1, _ =>
      tryCatch (processBatch P R driver chain firstEntry rest) fun e =>
        if e = .killed then throw e
        else processBatchWithRetry chain firstEntry rest attempts e

/-- The cursor holds the delivered position of the last row; the server reads it back. -/
def selectNextBatch (chain : ChainPartitionKey) (cursor : Option (JsValue × String)) :
    Migration (List ChainEntryRow) :=
  query R .selectNextBatch fun t =>
    match cursor with
    | none => .ok (t.selectNextBatch chain none R.options.batchSize, t)
    | some (lastChainPosition, lastEntryId) =>
        match lastChainPosition.bigint with
        | none => .error .driver
        | some position =>
            .ok (t.selectNextBatch chain (some (toLex (position, lastEntryId)))
              R.options.batchSize, t)

def migrateChain (chain : ChainPartitionKey) :
    Nat → Option (JsValue × String) → MigrationProgress → Migration MigrationProgress
  | 0, _, _ => throw .unbounded
  | rounds + 1, cursor, progress => do
      let rows ← selectNextBatch R chain cursor
      match rows with
      | [] => return progress
      | firstEntry :: rest => do
          processBatchWithRetry P R driver chain firstEntry rest R.options.retryPerBatch .null
          let progress := progress.advance firstEntry rest R.options.dryRun
          Program.emit (.progress progress)
          let tail := (firstEntry :: rest).getLast (List.cons_ne_nil firstEntry rest)
          migrateChain chain rounds (some (driver tail.chainPosition, tail.entryId)) progress

def migrateChains (rounds : Nat) :
    List ChainPartitionKey → MigrationProgress → Migration MigrationProgress
  | [], progress => return progress
  | chain :: chains, progress => do
      let progress ← migrateChain P R driver chain rounds none progress
      migrateChains rounds chains progress

def migrateHccV01ToV02 [LinearOrder ChainPartitionKey] : Migration MigrationProgress := do
  let w ← Program.get
  let totalEstimate ← select R .preCheck fun t => t.unmigrated.length
  if totalEstimate = 0 then
    return {}
  let chains ← select R .listMigrationChains fun t => t.listMigrationChains
  let progress ← migrateChains P R driver (w.table.rows.length + 1) chains {}
  if R.options.dryRun = false then
    checkPostBackfill R
  return progress

/-! ## Positions delivered as numbers -/

section Numbers

variable {P R}

theorem fetchPrevCommittedHash_numbers (chain : ChainPartitionKey) (first : ChainEntryRow) :
    fetchPrevCommittedHash R numbers chain first = Crypto.fetchPrevCommittedHash R chain first := by
  unfold fetchPrevCommittedHash Crypto.fetchPrevCommittedHash
  by_cases hzero : first.chainPosition = 0
  · rw [if_pos hzero, if_pos (by rw [numbers, hzero]; rfl)]
  · have hone : ((first.chainPosition : Int) - 1) = ((first.chainPosition - 1 : Nat) : Int) := by
      omega
    have hne : numbers first.chainPosition ≠ .number 0 := by
      simpa [numbers] using hzero
    rw [if_neg hzero, if_neg hne]
    have htext : toString ((first.chainPosition - 1 : Nat) : Int) =
        toString (first.chainPosition - 1) := rfl
    simp only [numbers, JsValue.minus, hone, htext, Option.some.injEq, Nat.cast_inj,
      Option.map_some, Option.getD_some] <;> rfl

theorem processBatchWithRetry_numbers (chain : ChainPartitionKey) (first : ChainEntryRow)
    (rest : List ChainEntryRow) (attempts : Nat) (lastErr : MigrationError) :
    processBatchWithRetry P R numbers chain first rest attempts lastErr =
      Crypto.processBatchWithRetry P R chain first rest attempts lastErr := by
  induction attempts generalizing lastErr with
  | zero => rfl
  | succ attempts ih =>
      simp only [processBatchWithRetry, Crypto.processBatchWithRetry, processBatch,
        Crypto.processBatch, fetchPrevCommittedHash_numbers, ih]

theorem selectNextBatch_numbers (chain : ChainPartitionKey) (cursor : Option (Nat ×ₗ String)) :
    selectNextBatch R chain (cursor.map fun c => (numbers (ofLex c).1, (ofLex c).2)) =
      select R .selectNextBatch fun t => t.selectNextBatch chain cursor R.options.batchSize := by
  cases cursor with
  | none => rfl
  | some c =>
      rfl

theorem migrateChain_numbers (chain : ChainPartitionKey) (rounds : Nat)
    (cursor : Option (Nat ×ₗ String)) (progress : MigrationProgress) :
    migrateChain P R numbers chain rounds
        (cursor.map fun c => (numbers (ofLex c).1, (ofLex c).2)) progress =
      Crypto.migrateChain P R chain rounds cursor progress := by
  induction rounds generalizing cursor progress with
  | zero => rfl
  | succ rounds ih =>
      rw [migrateChain, Crypto.migrateChain, selectNextBatch_numbers]
      congr 1
      funext rows
      cases rows with
      | nil => rfl
      | cons first rest =>
          simp only [processBatchWithRetry_numbers]
          rw [← ih (some ((first :: rest).getLast (List.cons_ne_nil first rest)).position)]
          rfl

theorem migrateChains_numbers (rounds : Nat) (chains : List ChainPartitionKey)
    (progress : MigrationProgress) :
    migrateChains P R numbers rounds chains progress =
      Crypto.migrateChains P R rounds chains progress := by
  induction chains generalizing progress with
  | nil => rfl
  | cons chain chains ih =>
      rw [migrateChains, Crypto.migrateChains, ← migrateChain_numbers chain rounds none progress]
      simp only [ih]
      rfl

/-- With a parser for `BIGINT`, the migration is the one over numbers. -/
theorem migrate_numbers [LinearOrder ChainPartitionKey] :
    migrateHccV01ToV02 P R numbers = Crypto.migrateHccV01ToV02 P R := by
  unfold migrateHccV01ToV02 Crypto.migrateHccV01ToV02
  simp only [migrateChains_numbers]

end Numbers

/-! ## Positions delivered as texts -/

section Texts

variable {P R} {chain : ChainPartitionKey} {first : ChainEntryRow} {rest : List ChainEntryRow}
  {w w' : MigrationWorld} {events : List MigrationEvent}

/-- The text of zero is not the number zero, and nothing is at the position before it. -/
theorem fetchPrevCommittedHash_zero (chain : ChainPartitionKey) (hzero : first.chainPosition = 0)
    {hash : String} :
    (fetchPrevCommittedHash R texts chain first).run w ≠ ⟨.ok hash, w', events⟩ := by
  intro hrun
  have hminus : (texts 0).minus 1 = some (-1) := by decide +kernel
  have hne : texts 0 ≠ .number 0 := by simp [texts]
  simp only [fetchPrevCommittedHash, hzero, if_neg hne, hminus, Program.run_bind_eq_ok,
    run_select_eq_ok] at hrun
  obtain ⟨prev, w₁, _, _, ⟨-, hprev, -, -⟩, hrun, -⟩ := hrun
  have hnone : prev = none := by
    rw [← hprev, List.find?_eq_none]
    intro row _ hrow
    simp only [Option.some.injEq, decide_eq_true_eq] at hrow
    omega
  rw [hnone] at hrun
  exact Program.run_throw_ne_ok.mp hrun

theorem processBatch_zero (chain : ChainPartitionKey) (hzero : first.chainPosition = 0)
    (hdry : R.options.dryRun = false) {u : Unit} :
    (processBatch P R texts chain first rest).run w ≠ ⟨.ok u, w', events⟩ := by
  intro hrun
  simp only [processBatch, hdry, Bool.false_eq_true, if_false, transaction,
    Program.run_bind_eq_ok] at hrun
  obtain ⟨_, _, _, _, -, ⟨_, _, _, _, -, ⟨before, _, _, _, -, ⟨_, _, _, _, hbody, -⟩, -⟩, -⟩, -⟩ :=
    hrun
  rcases Program.run_tryCatch_eq_ok hbody with hbody | ⟨e, w₁, _, _, -, hrollback, -⟩
  · rw [Program.run_bind_eq_ok] at hbody
    obtain ⟨_, _, _, _, hfetch, -⟩ := hbody
    exact fetchPrevCommittedHash_zero chain hzero hfetch
  · obtain ⟨-, e', hresult⟩ := run_rollback (R := R) (α := Unit) before.table e w₁
    rw [hrollback] at hresult
    cases hresult

/-- A batch that starts a chain fails in every attempt. -/
theorem processBatchWithRetry_zero (chain : ChainPartitionKey) (hzero : first.chainPosition = 0)
    (hdry : R.options.dryRun = false) (attempts : Nat) (lastErr : MigrationError) {u : Unit} :
    (processBatchWithRetry P R texts chain first rest attempts lastErr).run w ≠
      ⟨.ok u, w', events⟩ := by
  intro hrun
  induction attempts generalizing lastErr w events with
  | zero => exact Program.run_throw_ne_ok.mp hrun
  | succ attempts ih =>
      rw [processBatchWithRetry] at hrun
      rcases Program.run_tryCatch_eq_ok hrun with hrun | ⟨e, w₁, _, _, -, hrun, -⟩
      · exact processBatch_zero chain hzero hdry hrun
      · split at hrun
        next => exact Program.run_throw_ne_ok.mp hrun
        next => exact ih _ hrun

/-- The first batch of a numbered chain of which nothing is migrated starts it. -/
theorem chainPosition_of_first_batch {t : HashChainEntries}
    (hunmigrated : ∀ row ∈ t.rows, row.Unmigrated) (hnumbered : t.Numbered chain) {size : Nat}
    (hrows : t.selectNextBatch chain none size = first :: rest) : first.chainPosition = 0 := by
  have hfirst : first ∈ t.selectNextBatch chain none size := hrows ▸ List.mem_cons_self
  have hmem := (mem_of_mem_page hfirst).1
  simp only [unmigrated, List.mem_filter, decide_eq_true_eq] at hmem
  have hpartition : first ∈ t.partition chain := mem_partition.mpr ⟨hmem.1.1, hmem.2⟩
  by_contra hne
  obtain ⟨q, hq, hsucc⟩ := exists_previous hnumbered hpartition hne
  obtain ⟨hqrow, hqkey⟩ := mem_partition.mp hq
  have hle : first.position ≤ q.position := by
    refine head_le_of_page hrows ?_ (after_none _)
    simp only [unmigrated, List.mem_filter, decide_eq_true_eq]
    exact ⟨⟨hqrow, hunmigrated q hqrow⟩, hqkey⟩
  rw [ChainEntryRow.position, ChainEntryRow.position, Prod.Lex.toLex_le_toLex] at hle
  simp only at hle
  omega

theorem selectNextBatch_ne_nil {t : HashChainEntries} {row : ChainEntryRow}
    (hrow : row ∈ t.unmigrated) {size : Nat} (hsize : 1 ≤ size) :
    t.selectNextBatch row.key none size ≠ [] := by
  intro hempty
  rw [HashChainEntries.selectNextBatch, page, List.take_eq_nil_iff] at hempty
  have hnil := hempty.resolve_left (by omega)
  have hmem : row ∈ ((t.unmigrated.filter fun q => q.key = row.key).filter
      fun q => After none q.position).insertionSort fun a b => a.position ≤ b.position := by
    simp [List.mem_insertionSort, hrow]
  rw [hnil] at hmem
  cases hmem

/-- Of a chain of version 1, not even the first batch is processed. -/
theorem migrateChain_texts (hunmigrated : ∀ row ∈ w.table.rows, row.Unmigrated)
    {row : ChainEntryRow} (hrow : row ∈ w.table.rows) (hnumbered : w.table.Numbered row.key)
    (hdry : R.options.dryRun = false) (hsize : 1 ≤ R.options.batchSize) (rounds : Nat)
    (progress : MigrationProgress) {progress' : MigrationProgress}
    {events : List MigrationEvent} :
    (migrateChain P R texts row.key rounds none progress).run w ≠ ⟨.ok progress', w', events⟩ := by
  intro hrun
  cases rounds with
  | zero => exact Program.run_throw_ne_ok.mp hrun
  | succ rounds =>
      rw [migrateChain, Program.run_bind_eq_ok] at hrun
      obtain ⟨rows, w₁, _, _, hselect, hrun, -⟩ := hrun
      simp only [selectNextBatch, run_query_eq_ok, Except.ok.injEq, Prod.mk.injEq] at hselect
      obtain ⟨-, table, ⟨hrows, -⟩, -⟩ := hselect
      have hpending : row ∈ w.table.unmigrated := by
        rw [unmigrated, List.mem_filter, decide_eq_true_eq]
        exact ⟨hrow, hunmigrated row hrow⟩
      cases rows with
      | nil => exact selectNextBatch_ne_nil hpending hsize hrows
      | cons first rest =>
          rw [Program.run_bind_eq_ok] at hrun
          obtain ⟨_, _, _, _, hbatch, -⟩ := hrun
          exact processBatchWithRetry_zero row.key
            (chainPosition_of_first_batch hunmigrated hnumbered hrows) hdry _ _ hbatch

end Texts

/-! ## Tables of version 1 -/

/-- Every chain is one of version 1: numbered, hashed and linked. -/
structure VersionOne (P : HccPorts) (t : HashChainEntries) : Prop where
  version : ∀ row ∈ t.rows, row.hccVersion = "1.0.0" ∧ row.chainIdentityJcs = none
  identity : ∀ row ∈ t.rows, validateChainIdentitySchema P row.key = true
  numbered : ∀ row ∈ t.rows, t.Numbered row.key
  wellFormed : ∀ row ∈ t.rows, row.WellFormed P
  hashed : ∀ row ∈ t.rows,
    row.canonicalPayloadHash = toHex (P.sha256 (utf8 row.canonicalPayload))
  root : ∀ row ∈ t.rows, row.chainPosition = 0 → row.previousHash = genesisPreviousHash
  links : ∀ q ∈ t.rows, ∀ r ∈ t.rows, q.key = r.key → r.chainPosition = q.chainPosition + 1 →
    r.previousHash = q.canonicalPayloadHash

theorem VersionOne.unmigrated {P : HccPorts} {t : HashChainEntries} (hone : VersionOne P t) :
    ∀ row ∈ t.rows, row.Unmigrated :=
  fun row hrow => .inl (hone.version row hrow).1

/-- The run returns, nothing is left to migrate, and the chains start at the zero hash. -/
def Migrates [LinearOrder ChainPartitionKey] (P : HccPorts) (R : MigrationRun) (driver : Driver)
    (t : HashChainEntries) : Prop :=
  ∃ progress w' events,
    (migrateHccV01ToV02 P R driver).run ⟨t, []⟩ = ⟨.ok progress, w', events⟩ ∧
      w'.table.unmigrated = [] ∧
      ∀ row ∈ w'.table.rows, row.chainPosition = 0 → row.previousHash = genesisPreviousHash

section Progress

variable [LinearOrder ChainPartitionKey] {P R} {t : HashChainEntries}

/-- A run over rows of version 1 does not return. -/
theorem not_migrates_of_mem (hone : VersionOne P t) {row : ChainEntryRow} (hrow : row ∈ t.rows)
    (hdry : R.options.dryRun = false) (hsize : 1 ≤ R.options.batchSize) :
    ¬ Migrates P R texts t := by
  rintro ⟨progress, w', events, hrun, -⟩
  have hpending : row ∈ t.unmigrated := by
    rw [unmigrated, List.mem_filter, decide_eq_true_eq]
    exact ⟨hrow, hone.unmigrated row hrow⟩
  unfold migrateHccV01ToV02 at hrun
  rw [Program.run_get_bind] at hrun
  simp only [Program.run_bind_eq_ok, run_select_eq_ok] at hrun
  obtain ⟨n, w₁, _, _, ⟨-, hcount, rfl, -⟩, hrun, -⟩ := hrun
  rw [if_neg (by rw [← hcount]; exact (List.length_pos_of_mem hpending).ne')] at hrun
  simp only [Program.run_bind_eq_ok, run_select_eq_ok] at hrun
  obtain ⟨chains, w₂, _, _, ⟨-, hchains, rfl, -⟩, ⟨_, _, _, _, hmigrated, -⟩, -⟩ := hrun
  cases hlist : chains with
  | nil =>
      have hmem : row.key ∈ chains :=
        hchains ▸ mem_listMigrationChains ((List.mem_insertionSort _).mpr hpending)
      rw [hlist] at hmem
      cases hmem
  | cons chain rest =>
      have hchain : chain ∈ t.listMigrationChains := by
        rw [hchains, hlist]
        exact List.mem_cons_self
      rw [listMigrationChains, List.mem_insertionSort, List.mem_dedup, List.mem_map] at hchain
      obtain ⟨q, hq, rfl⟩ := hchain
      have hqrow : q ∈ t.rows := List.mem_of_mem_filter hq
      rw [hlist, migrateChains, Program.run_bind_eq_ok] at hmigrated
      obtain ⟨_, _, _, _, hfirst, -⟩ := hmigrated
      exact migrateChain_texts hone.unmigrated hqrow (hone.numbered q hqrow) hdry
        hsize _ _ hfirst

/-- Delivered as texts, the positions of a table of version 1 stop the migration, unless the
table is empty. -/
theorem migrates_iff (hone : VersionOne P t) (hdry : R.options.dryRun = false)
    (hsize : 1 ≤ R.options.batchSize) (hanswered : ∀ history, R.fate history = .answered) :
    Migrates P R texts t ↔ t.rows = [] := by
  constructor
  · intro hmigrates
    by_contra hne
    obtain ⟨row, hrow⟩ := List.exists_mem_of_ne_nil _ hne
    exact not_migrates_of_mem hone hrow hdry hsize hmigrates
  · intro hempty
    have hnone : t.unmigrated = [] := by rw [unmigrated, hempty, List.filter_nil]
    refine ⟨{}, ⟨t, [.preCheck]⟩, [], ?_, hnone, fun row hrow => ?_⟩
    · unfold migrateHccV01ToV02
      rw [Program.run_get_bind, Program.run_bind_eq_ok]
      refine ⟨0, ⟨t, [.preCheck]⟩, [], [], ?_, ?_, rfl⟩
      · rw [run_select_eq_ok, hnone]
        exact ⟨hanswered _, rfl, rfl, rfl⟩
      · rw [if_pos rfl, Program.run_pure_eq_ok]
        exact ⟨rfl, rfl, rfl⟩
    · rw [hempty] at hrow
      cases hrow

end Progress

section Tables

open MigrationRestart

attribute [local instance] byColumns

def noRows : HashChainEntries where
  rows := []
  ids := .nil
  slots := .nil
  links := .nil

theorem noRows_migrates : Migrates ports complete texts noRows ↔ noRows.rows = [] :=
  migrates_iff (by constructor <;> simp [noRows]) rfl (by decide) fun _ => rfl

theorem twoChains_versionOne : VersionOne ports twoChains where
  version := by decide +kernel
  identity := by decide +kernel
  numbered := by decide +kernel
  wellFormed := twoChains_wellFormed
  hashed := by decide +kernel
  root := by decide +kernel
  links := by decide +kernel

/-- Two chains of version 1 that the migration does not get through. -/
theorem twoChains_not_migrated : ¬ ∀ (t : HashChainEntries) (R : MigrationRun),
    VersionOne ports t → R.options.dryRun = false → 1 ≤ R.options.batchSize →
      (∀ history, R.fate history = .answered) → Migrates ports R texts t := by
  intro h
  have hmigrates := h twoChains complete twoChains_versionOne rfl (by decide) fun _ => rfl
  exact not_migrates_of_mem twoChains_versionOne
    (List.head_mem (l := twoChains.rows) (by decide)) rfl (by decide) hmigrates

end Tables

end Delivered

end Coivitas.Crypto
