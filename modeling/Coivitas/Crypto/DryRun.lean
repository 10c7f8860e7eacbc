import Coivitas.Crypto.MigrationRestart

/-! # What a dry run foresees

A dry run reads the links of a batch from the table as it is, where a real run finds the rows
that it has migrated before. The two agree when the row before each batch is settled already.
-/

namespace Coivitas.Crypto

open Foundation HashChainEntries

/-- The rows that a dry run has logged. -/
def computed (events : List MigrationEvent) : List RowDiff :=
  events.filterMap fun
    | .diff diff => some diff
    | .progress _ => none

@[simp] theorem computed_append (events rest : List MigrationEvent) :
    computed (events ++ rest) = computed events ++ computed rest :=
  List.filterMap_append

@[simp] theorem computed_diffs (diffs : List RowDiff) : computed (diffs.map .diff) = diffs := by
  rw [computed, List.filterMap_map]
  exact List.filterMap_some

@[simp] theorem computed_progress (progress : MigrationProgress) :
    computed [.progress progress] = [] := rfl

def MigrationRun.dry (R : MigrationRun) : MigrationRun :=
  { R with options := { R.options with dryRun := true } }

namespace HashChainEntries

variable (P : HccPorts)

/-- The link that a table gives to a row that is first in its batch. -/
def stored (t : HashChainEntries) (row : ChainEntryRow) : Option String :=
  if row.chainPosition = 0 then some genesisPreviousHash
  else
    ((t.partition row.key).find? fun q => q.chainPosition = row.chainPosition - 1).bind fun q =>
      if q.hccVersion = "2.0.0" then some q.canonicalPayloadHash else none

/-- The row is the first of its chain, or the row before it is of version 2 and has the hash that
the migration gives it. -/
def Anchored (t : HashChainEntries) (row : ChainEntryRow) : Prop :=
  row.chainPosition = 0 ∨
    ∃ q ∈ t.partition row.key, q.chainPosition + 1 = row.chainPosition ∧ q.hccVersion = "2.0.0" ∧
      (q.Unmigrated → q.canonicalPayloadHash = q.newHash P)

variable [LinearOrder ChainPartitionKey]

/-- The rows to migrate of a chain. -/
def pendingOf (t : HashChainEntries) (chain : ChainPartitionKey) : List ChainEntryRow :=
  t.pending.filter fun row => row.key = chain

/-- A batch starts every so many rows of a chain. -/
def StartsBatch (t : HashChainEntries) (size : Nat) (row : ChainEntryRow) : Prop :=
  row ∈ t.pending ∧ size ∣ (t.pendingOf row.key).idxOf row

instance (t : HashChainEntries) (size : Nat) (row : ChainEntryRow) :
    Decidable (t.StartsBatch size row) :=
  inferInstanceAs (Decidable (_ ∧ _))

def batchStarts (t : HashChainEntries) (size : Nat) (id : String) : Bool :=
  t.pending.any fun row => row.entryId = id ∧ t.StartsBatch size row

/-- The link that a dry run gives to a row. -/
def dryLink (t : HashChainEntries) (starts : String → Bool) (row : ChainEntryRow) :
    Option String :=
  match if starts row.entryId then none else t.before row with
  | none => t.stored row
  | some q => some (q.newHash P)

def dryDiff (t : HashChainEntries) (starts : String → Bool) (row : ChainEntryRow) : RowDiff :=
  row.diff (row.key.jcs P) (row.newHash P) ((t.dryLink P starts row).getD "")

end HashChainEntries

/-! ## Statements that are answered -/

section Answered

variable {P : HccPorts} {R : MigrationRun} {w : MigrationWorld} {t : HashChainEntries}
  {first : ChainEntryRow}

theorem run_select_answered {α : Type} (hanswered : ∀ history, R.fate history = .answered)
    (statement : Statement) (read : HashChainEntries → α) (w : MigrationWorld) :
    (select R statement read).run w =
      ⟨.ok (read w.table), ⟨w.table, statement :: w.history⟩, []⟩ :=
  run_select_eq_ok.mpr ⟨hanswered _, rfl, rfl, rfl⟩

/-- The first row of a batch is linked as the table has it, if the table has it. -/
theorem fetchPrevCommittedHash_stored (hanswered : ∀ history, R.fate history = .answered)
    (first : ChainEntryRow) (w : MigrationWorld) :
    ∃ w', w'.table = w.table ∧
      match w.table.stored first with
      | some hash => (fetchPrevCommittedHash R first.key first).run w = ⟨.ok hash, w', []⟩
      | none => ∃ e, (fetchPrevCommittedHash R first.key first).run w = ⟨.error e, w', []⟩ := by
  unfold fetchPrevCommittedHash stored
  by_cases hzero : first.chainPosition = 0
  · refine ⟨w, rfl, ?_⟩
    simp only [hzero, if_true]
    rfl
  · refine ⟨⟨w.table, .fetchPrevCommittedHash :: w.history⟩, rfl, ?_⟩
    simp only [hzero, if_false]
    rw [Program.run_bind_ok (run_select_answered hanswered _ _ w)]
    cases hfind : (w.table.partition first.key).find? fun q =>
        q.chainPosition = first.chainPosition - 1 with
    | none => exact ⟨_, rfl⟩
    | some q =>
        by_cases hversion : q.hccVersion = "2.0.0"
        · simp only [Option.bind_some, hversion, ne_eq, not_true_eq_false, if_true, if_false]
          rfl
        · simp only [Option.bind_some, hversion, ne_eq, not_false_eq_true, if_true, if_false]
          exact ⟨_, rfl⟩

/-- The rows of a batch as a dry run logs them. -/
def followed (P : HccPorts) : String → List ChainEntryRow → List RowDiff
  | _, [] => []
  | previous, row :: rest =>
      row.diff (row.key.jcs P) (row.newHash P) previous :: followed P (row.newHash P) rest

theorem processRows_dry (hdry : R.options.dryRun = true) {rows : List ChainEntryRow}
    (hhash : ∀ row ∈ rows, row.Hashable P) (previous : String) (w : MigrationWorld) :
    (processRows P R previous rows).run w =
      ⟨.ok (), w, (followed P previous rows).map .diff⟩ := by
  induction rows generalizing previous with
  | nil => rfl
  | cons row rows ih =>
      rw [List.forall_mem_cons] at hhash
      have hcomputed : recomputeRow P row = .ok (row.key.jcs P, row.newHash P) := hhash.1
      simp only [processRows, Program.run_ofExcept_bind, hcomputed, Except.mapError, hdry,
        Bool.true_eq_false, if_false]
      exact Program.run_bind_eq_ok.mpr
        ⟨(), w, _, _, rfl, ih hhash.2 (row.newHash P), rfl⟩

/-- A batch whose first row is linked by the table is logged at the first attempt. -/
theorem processBatchWithRetry_stored (hanswered : ∀ history, R.fate history = .answered)
    (hdry : R.options.dryRun = true) {rest : List ChainEntryRow}
    (hhash : ∀ row ∈ first :: rest, row.Hashable P) {hash : String}
    (hstored : w.table.stored first = some hash) (attempts : Nat) (lastErr : MigrationError) :
    ∃ w', w'.table = w.table ∧
      (processBatchWithRetry P R first.key first rest (attempts + 1) lastErr).run w =
        ⟨.ok (), w', (followed P hash (first :: rest)).map .diff⟩ := by
  obtain ⟨w', htable, hfetch⟩ := fetchPrevCommittedHash_stored hanswered first
    ⟨w.table, .connect :: w.history⟩
  simp only [hstored] at hfetch
  refine ⟨w', htable, Program.run_tryCatch_ok ?_⟩
  simp only [processBatch, hdry, if_true]
  refine Program.run_bind_eq_ok.mpr ⟨(), _, _, _, run_select_answered hanswered _ _ w, ?_, rfl⟩
  exact Program.run_bind_eq_ok.mpr
    ⟨hash, w', [], _, hfetch, processRows_dry hdry hhash hash w', rfl⟩

/-- Otherwise every attempt fails. -/
theorem processBatchWithRetry_missing (hanswered : ∀ history, R.fate history = .answered)
    (hdry : R.options.dryRun = true) (rest : List ChainEntryRow)
    (hmissing : w.table.stored first = none) (attempts : Nat) (lastErr : MigrationError) :
    ∃ e w', (processBatchWithRetry P R first.key first rest attempts lastErr).run w =
      ⟨.error e, w', []⟩ := by
  induction attempts generalizing w lastErr with
  | zero => exact ⟨lastErr, w, rfl⟩
  | succ attempts ih =>
      obtain ⟨w₁, htable, hfetch⟩ := fetchPrevCommittedHash_stored hanswered first
        ⟨w.table, .connect :: w.history⟩
      simp only [hmissing] at hfetch
      obtain ⟨e, hfetch⟩ := hfetch
      have hattempt : (processBatch P R first.key first rest).run w = ⟨.error e, w₁, []⟩ := by
        simp only [processBatch, hdry, if_true]
        rw [Program.run_bind_ok (run_select_answered hanswered _ _ w),
          Program.run_bind_error hfetch]
        rfl
      rw [processBatchWithRetry, Program.run_tryCatch_error hattempt]
      by_cases hkilled : e = .killed
      · rw [if_pos hkilled]
        exact ⟨e, w₁, rfl⟩
      · rw [if_neg hkilled]
        obtain ⟨e', w₂, hrun⟩ := ih (w := w₁) (by rw [htable]; exact hmissing) e
        exact ⟨e', w₂, by rw [hrun]; rfl⟩

end Answered

/-! ## Batches of a table -/

namespace HashChainEntries

variable [LinearOrder ChainPartitionKey] {P : HccPorts} {t : HashChainEntries}
  {chain : ChainPartitionKey} {first row : ChainEntryRow} {rest : List ChainEntryRow}
  {size k base : Nat}

theorem mem_pendingOf : row ∈ t.pendingOf chain ↔ row ∈ t.pending ∧ row.key = chain := by
  rw [pendingOf, List.mem_filter, decide_eq_true_eq]

theorem nodup_pendingOf (t : HashChainEntries) (chain : ChainPartitionKey) :
    (t.pendingOf chain).Nodup :=
  (nodup_pending t).sublist List.filter_sublist

theorem pairwise_pendingOf (t : HashChainEntries) (chain : ChainPartitionKey) :
    (t.pendingOf chain).Pairwise fun a b => a.position < b.position := by
  have hsorted := (pairwise_pending t).sublist
    (List.filter_sublist (p := fun row => decide (row.key = chain)))
  refine (hsorted.and (nodup_pendingOf t chain)).imp_of_mem fun {a b} ha hb hab => ?_
  obtain ⟨hapending, hakey⟩ := mem_pendingOf.mp ha
  obtain ⟨hbpending, hbkey⟩ := mem_pendingOf.mp hb
  have hle : a.position ≤ b.position := by
    have hplace := hab.1
    rw [ChainEntryRow.place, ChainEntryRow.place, Prod.Lex.toLex_le_toLex, hakey, hbkey] at hplace
    simpa using hplace
  refine lt_of_le_of_ne hle fun hsame => hab.2 ?_
  exact place_inj t a ((List.mem_insertionSort _).mp hapending) b
    ((List.mem_insertionSort _).mp hbpending)
    (by rw [ChainEntryRow.place, ChainEntryRow.place, hakey, hbkey, hsame])

/-- The cursor after so many rows of a chain. -/
def cursorAt (t : HashChainEntries) (chain : ChainPartitionKey) (k : Nat) :
    Option (Nat ×ₗ String) :=
  ((t.pendingOf chain).take k).getLast?.map ChainEntryRow.position

/-- The table that no run has changed gives the next rows of the chain. -/
theorem selectNextBatch_cursorAt (t : HashChainEntries) (chain : ChainPartitionKey) (k size : Nat) :
    t.selectNextBatch chain (t.cursorAt chain k) size =
      ((t.pendingOf chain).drop k).take size := by
  have hinj : ∀ a ∈ t.unmigrated.filter (fun row => row.key = chain),
      ∀ b ∈ t.unmigrated.filter (fun row => row.key = chain), a.position = b.position → a = b := by
    intro a ha b hb hsame
    rw [List.mem_filter, decide_eq_true_eq] at ha hb
    exact place_inj t a ha.1 b hb.1
      (by rw [ChainEntryRow.place, ChainEntryRow.place, ha.2, hb.2, hsame])
  rw [selectNextBatch, page_eq_take_filter hinj, insertionSort_unmigrated]
  exact congrArg _ (filter_after_take (pairwise_pendingOf t chain) k)

theorem batchStarts_iff (hrow : row ∈ t.pending) :
    t.batchStarts size row.entryId = true ↔ t.StartsBatch size row := by
  simp only [batchStarts, List.any_eq_true, decide_eq_true_eq]
  constructor
  · rintro ⟨q, hq, hid, hstarts⟩
    rwa [← eq_of_entryId (mem_pending.mp hq).1 (mem_pending.mp hrow).1 hid]
  · exact fun hstarts => ⟨row, hrow, rfl, hstarts⟩

theorem startsBatch_getElem? {i : Nat} (hrow : (t.pendingOf chain)[i]? = some row) :
    t.StartsBatch size row ↔ size ∣ i := by
  obtain ⟨hpending, rfl⟩ := mem_pendingOf.mp (List.mem_of_getElem? hrow)
  obtain ⟨hi, hget⟩ := List.getElem?_eq_some_iff.mp hrow
  have hindex := (nodup_pendingOf t row.key).idxOf_getElem i hi
  rw [hget] at hindex
  rw [StartsBatch, hindex]
  exact and_iff_right hpending

theorem getElem?_batch (hbatch : ((t.pendingOf chain).drop k).take size = first :: rest) {j : Nat}
    (hrow : (first :: rest)[j]? = some row) :
    (t.pendingOf chain)[k + j]? = some row ∧ j < size := by
  rw [← hbatch, List.getElem?_take] at hrow
  split at hrow
  next hj => exact ⟨by rw [← hrow, List.getElem?_drop], hj⟩
  next => cases hrow

/-- The next rows of a chain are a batch. -/
theorem isBatch_of_take (hrows : t.pendingOf chain <+: t.pending.drop base) (hk : size ∣ k)
    (hbatch : ((t.pendingOf chain).drop k).take size = first :: rest) :
    IsBatch t (t.batchStarts size) (base + k) chain first rest := by
  have hpending : ∀ row ∈ first :: rest, row ∈ t.pending ∧ row.key = chain := fun row hrow =>
    mem_pendingOf.mp (List.mem_of_mem_drop (List.mem_of_mem_take (hbatch ▸ hrow)))
  refine ⟨?_, fun row hrow => (hpending row hrow).2, ?_, fun row hrow => ?_⟩
  · rw [← hbatch, ← List.drop_drop]
    exact (List.take_prefix _ _).trans (hrows.drop k)
  · obtain ⟨hfirst, -⟩ := getElem?_batch hbatch (j := 0) rfl
    exact (batchStarts_iff (hpending first List.mem_cons_self).1).mpr
      ((startsBatch_getElem? hfirst).mpr hk)
  · obtain ⟨j, hj⟩ := List.mem_iff_getElem?.mp hrow
    obtain ⟨hget, hlt⟩ := getElem?_batch hbatch (j := j + 1) hj
    rw [← Bool.not_eq_true, batchStarts_iff (hpending row (List.mem_cons_of_mem _ hrow)).1,
      startsBatch_getElem? hget]
    intro hdvd
    have hle := Nat.le_of_dvd (Nat.succ_pos j) ((Nat.dvd_add_right hk).mp hdvd)
    omega

theorem mem_take_of_leading {rows : List ChainEntryRow} (hrows : rows <+: t.pending.drop base)
    (hrow : row ∈ rows) : row ∈ t.pending.take (base + rows.length) := by
  rw [List.take_add, List.mem_append, ← List.prefix_iff_eq_take.mp hrows]
  exact .inr hrow

/-- The rows behind the first one of a batch are logged with the links of a dry run. -/
theorem followed_of_rest {starts : String → Bool} {i : Nat} {previous : ChainEntryRow}
    {rows : List ChainEntryRow} (hprevious : t.pending[i]? = some previous)
    (hrows : rows <+: t.pending.drop (i + 1)) (hkey : ∀ row ∈ rows, row.key = previous.key)
    (hrest : ∀ row ∈ rows, starts row.entryId = false) :
    followed P (previous.newHash P) rows = rows.map (t.dryDiff P starts) := by
  induction rows generalizing i previous with
  | nil => rfl
  | cons row rows ih =>
      obtain ⟨hget, hnext⟩ := getElem?_of_leading hrows
      rw [List.forall_mem_cons] at hkey hrest
      have hlink : t.dryLink P starts row = some (previous.newHash P) := by
        rw [dryLink, hrest.1, before_of_getElem? hprevious hget hkey.1.symm]
        rfl
      rw [followed, List.map_cons,
        ih hget hnext (fun row' hrow' => (hkey.2 row' hrow').trans hkey.1.symm) hrest.2, dryDiff,
        hlink]
      rfl

theorem followed_of_isBatch {starts : String → Bool} {i : Nat}
    (hbatch : IsBatch t starts i chain first rest) {hash : String}
    (hstored : t.stored first = some hash) :
    followed P hash (first :: rest) = (first :: rest).map (t.dryDiff P starts) := by
  obtain ⟨hget, hnext⟩ := getElem?_of_leading hbatch.rows
  have hlink : t.dryLink P starts first = some hash := by
    rw [dryLink, if_pos hbatch.first]
    exact hstored
  have hkey : ∀ row ∈ rest, row.key = first.key := fun row hrow =>
    (hbatch.key row (List.mem_cons_of_mem _ hrow)).trans
      (hbatch.key first List.mem_cons_self).symm
  rw [followed, List.map_cons, followed_of_rest hget hnext hkey hbatch.rest, dryDiff, hlink]
  rfl

end HashChainEntries

/-! ## Both runs side by side -/

section SideBySide

variable [LinearOrder ChainPartitionKey] {P : HccPorts} {R : MigrationRun} {t : HashChainEntries}
  {chain : ChainPartitionKey} {w w' w₀ : MigrationWorld} {events : List MigrationEvent}
  {k base : Nat}

/-- The numbers that a dry run foresees. -/
def MigrationProgress.counts (progress : MigrationProgress) : Nat × Nat :=
  (progress.batchesProcessed, progress.entriesProcessed)

omit [LinearOrder ChainPartitionKey] in
theorem MigrationProgress.counts_advance {progress progress₀ : MigrationProgress}
    (hcounts : progress₀.counts = progress.counts) (first : ChainEntryRow)
    (rest : List ChainEntryRow) (dryRun dryRun₀ : Bool) :
    (progress₀.advance first rest dryRun₀).counts =
      (progress.advance first rest dryRun).counts := by
  obtain ⟨hbatches, hentries⟩ := Prod.mk.inj hcounts
  simp only [counts, advance]
  rw [hbatches, hentries]

/-- A dry run over some rows logs them all, or the table does not link one that starts a batch. -/
def DryOutcome (P : HccPorts) (t : HashChainEntries) (size : Nat) (rows : List ChainEntryRow)
    (progress : MigrationProgress)
    (run : Execution MigrationWorld MigrationEvent MigrationError MigrationProgress) : Prop :=
  (∃ progress₀ w₀ events₀, run = ⟨.ok progress₀, w₀, events₀⟩ ∧ w₀.table = t ∧
      progress₀.counts = progress.counts ∧
      computed events₀ = rows.map (t.dryDiff P (t.batchStarts size)) ∧
      ∀ row ∈ rows, t.StartsBatch size row → (t.stored row).isSome) ∨
    (∃ e w₀ events₀, run = ⟨.error e, w₀, events₀⟩) ∧
      ∃ row ∈ rows, t.StartsBatch size row ∧ t.stored row = none

theorem DryOutcome.after {size : Nat} {rows done : List ChainEntryRow}
    {progress : MigrationProgress}
    {run : Execution MigrationWorld MigrationEvent MigrationError MigrationProgress}
    (houtcome : DryOutcome P t size rows progress run)
    (hevents : computed events = done.map (t.dryDiff P (t.batchStarts size)))
    (hstored : ∀ row ∈ done, t.StartsBatch size row → (t.stored row).isSome) :
    DryOutcome P t size (done ++ rows) progress (run.after events) := by
  rcases houtcome with ⟨progress₀, w₀, events₀, rfl, htable, hcounts, hlogged, hrows⟩ |
    ⟨⟨e, w₀, events₀, rfl⟩, row, hrow, hmissing⟩
  · refine .inl ⟨progress₀, w₀, events ++ events₀, rfl, htable, hcounts, ?_, fun row hrow => ?_⟩
    · rw [computed_append, hevents, hlogged, List.map_append]
    · rcases List.mem_append.mp hrow with hdone | hrest
      · exact hstored row hdone
      · exact hrows row hrest
  · exact .inr ⟨⟨e, w₀, events ++ events₀, rfl⟩, row, List.mem_append_right _ hrow, hmissing⟩

theorem DryOutcome.afterProgress {size : Nat} {rows : List ChainEntryRow}
    {progress event : MigrationProgress}
    {run : Execution MigrationWorld MigrationEvent MigrationError MigrationProgress}
    (houtcome : DryOutcome P t size rows progress run) :
    DryOutcome P t size rows progress (run.after [.progress event]) := by
  have hnone : computed [.progress event] =
      ([] : List ChainEntryRow).map (t.dryDiff P (t.batchStarts size)) := rfl
  exact houtcome.after hnone fun row hrow => by cases hrow

/-- The cursor after a batch. -/
theorem cursorAt_add {size : Nat} {first : ChainEntryRow} {rest : List ChainEntryRow}
    (hbatch : ((t.pendingOf chain).drop k).take size = first :: rest) :
    t.cursorAt chain (k + (first :: rest).length) =
      some ((first :: rest).getLast (List.cons_ne_nil first rest)).position := by
  have hrest : first :: rest <+: (t.pendingOf chain).drop k := hbatch ▸ List.take_prefix _ _
  rw [cursorAt, List.take_add, ← List.prefix_iff_eq_take.mp hrest, List.getLast?_append,
    List.getLast?_eq_some_getLast (List.cons_ne_nil first rest)]
  rfl

theorem length_batch {size : Nat} {batch : List ChainEntryRow}
    (hbatch : ((t.pendingOf chain).drop k).take size = batch)
    (hk : size ∣ k ∨ k = (t.pendingOf chain).length) (hle : k ≤ (t.pendingOf chain).length) :
    (size ∣ k + batch.length ∨ k + batch.length = (t.pendingOf chain).length) ∧
      k + batch.length ≤ (t.pendingOf chain).length := by
  have hlength := congrArg List.length hbatch
  rw [List.length_take, List.length_drop] at hlength
  refine ⟨?_, by omega⟩
  rcases Nat.lt_or_ge ((t.pendingOf chain).length - k) size with hlt | hge
  · exact .inr (by omega)
  · rw [min_eq_left hge] at hlength
    rcases hk with hdvd | hend
    · exact .inl (hlength ▸ Nat.dvd_add hdvd (dvd_refl size))
    · exact .inr (by omega)

/-- The rows of a chain that are left are those behind the rows that are done. -/
theorem filter_drop (hrows : t.pendingOf chain <+: t.pending.drop base)
    (hle : k ≤ (t.pendingOf chain).length) :
    (t.pending.drop (base + k)).filter (fun row => row.key = chain) =
      (t.pendingOf chain).drop k := by
  obtain ⟨tail, htail⟩ := hrows
  have hnodup : (t.pendingOf chain ++ tail).Nodup :=
    htail ▸ (nodup_pending t).sublist (List.drop_sublist _ _)
  have hnone : tail.filter (fun row => row.key = chain) = [] := by
    refine List.filter_eq_nil_iff.mpr fun row hrow hkey => ?_
    have hpending : row ∈ t.pending :=
      List.mem_of_mem_drop (htail ▸ List.mem_append_right (t.pendingOf chain) hrow)
    exact (List.nodup_append'.mp hnodup).2.2
      (mem_pendingOf.mpr ⟨hpending, of_decide_eq_true hkey⟩) hrow
  rw [← List.drop_drop, ← htail, List.drop_append_of_le_length hle, List.filter_append, hnone,
    List.append_nil]
  exact List.filter_eq_self.mpr fun row hrow =>
    decide_eq_true (mem_pendingOf.mp (List.mem_of_mem_drop hrow)).2

/-- A real run selects the same rows as a dry run. -/
theorem selectNextBatch_at {starts : String → Bool} {u : HashChainEntries}
    (hrows : t.pendingOf chain <+: t.pending.drop base)
    (hlater : ∀ row ∈ t.pending.drop base, chain ≤ row.key)
    (hle : k ≤ (t.pendingOf chain).length) (hat : t.At P starts (base + k) u) (size : Nat) :
    u.selectNextBatch chain (t.cursorAt chain k) size =
      ((t.pendingOf chain).drop k).take size := by
  have hahead : Ahead chain (t.cursorAt chain k) u.pending := by
    rw [hat.pending_eq]
    refine fun row hrow => ⟨hlater row ?_, fun hkey => ?_⟩
    · rw [← List.drop_drop] at hrow
      exact List.mem_of_mem_drop hrow
    · have hmem : row ∈ (t.pendingOf chain).drop k := by
        rw [← filter_drop hrows hle, List.mem_filter, decide_eq_true_eq]
        exact ⟨hrow, hkey⟩
      rw [← filter_after_take (pairwise_pendingOf t chain) k, List.mem_filter,
        decide_eq_true_eq] at hmem
      exact hmem.2
  rw [selectNextBatch_eq hahead, hat.pending_eq, filter_drop hrows hle]

/-- A batch that a real run gets through is logged by a dry run, or it is not linked. -/
theorem processBatchWithRetry_dry {size : Nat} {first : ChainEntryRow} {rest : List ChainEntryRow}
    (hdry : R.options.dryRun = false) (hanswered : ∀ history, R.fate history = .answered)
    (hbatch : IsBatch t (t.batchStarts size) (base + k) chain first rest)
    (hat : t.At P (t.batchStarts size) (base + k) w.table) (htable : w₀.table = t) {u : Unit}
    (hrun : (processBatchWithRetry P R chain first rest R.options.retryPerBatch .null).run w =
      ⟨.ok u, w', events⟩) :
    t.At P (t.batchStarts size) (base + k + (first :: rest).length) w'.table ∧
      ((∃ w₁, w₁.table = t ∧ (t.stored first).isSome ∧
          (processBatchWithRetry P R.dry chain first rest R.options.retryPerBatch .null).run w₀ =
            ⟨.ok (), w₁, ((first :: rest).map (t.dryDiff P (t.batchStarts size))).map .diff⟩) ∨
        t.stored first = none ∧ ∃ e w₁,
          (processBatchWithRetry P R.dry chain first rest R.options.retryPerBatch .null).run w₀ =
            ⟨.error e, w₁, []⟩) := by
  obtain rfl := hbatch.key first List.mem_cons_self
  have hdone : t.At P (t.batchStarts size) (base + k + (first :: rest).length) w'.table := by
    have hprocess := processBatchWithRetry_run hdry hbatch R.options.retryPerBatch .null hat le_rfl
    rw [hrun, max_eq_right (Nat.le_add_right _ _)] at hprocess
    rcases hprocess with ⟨-, e, herror⟩ | hdone
    · cases herror
    · exact hdone
  refine ⟨hdone, ?_⟩
  have hanswered₀ : ∀ history, R.dry.fate history = .answered := hanswered
  cases hstored : t.stored first with
  | none =>
      exact .inr ⟨rfl, processBatchWithRetry_missing hanswered₀ rfl rest (htable ▸ hstored) _ _⟩
  | some hash =>
      have hhash : ∀ row ∈ first :: rest, row.Hashable P := fun row hrow =>
        hdone.clear.hashable row (mem_take_of_leading hbatch.rows hrow)
      rw [← followed_of_isBatch hbatch hstored]
      cases hattempts : R.options.retryPerBatch with
      | zero =>
          rw [hattempts] at hrun
          exact (Program.run_throw_ne_ok.mp hrun).elim
      | succ attempts =>
          obtain ⟨w₁, hsame, hlogged⟩ := processBatchWithRetry_stored (w := w₀) hanswered₀ rfl hhash
            (htable ▸ hstored) attempts .null
          exact .inl ⟨w₁, hsame.trans htable, rfl, hlogged⟩

theorem migrateChain_dry (hdry : R.options.dryRun = false)
    (hanswered : ∀ history, R.fate history = .answered) (hsize : 1 ≤ R.options.batchSize)
    (hrows : t.pendingOf chain <+: t.pending.drop base)
    (hlater : ∀ row ∈ t.pending.drop base, chain ≤ row.key) (rounds : Nat)
    {progress progress₀ progress' : MigrationProgress}
    (hk : R.options.batchSize ∣ k ∨ k = (t.pendingOf chain).length)
    (hle : k ≤ (t.pendingOf chain).length)
    (hat : t.At P (t.batchStarts R.options.batchSize) (base + k) w.table) (htable : w₀.table = t)
    (hcounts : progress₀.counts = progress.counts)
    (hrun : (migrateChain P R chain rounds (t.cursorAt chain k) progress).run w =
      ⟨.ok progress', w', events⟩) :
    t.At P (t.batchStarts R.options.batchSize) (base + (t.pendingOf chain).length) w'.table ∧
      DryOutcome P t R.options.batchSize ((t.pendingOf chain).drop k) progress'
        ((migrateChain P R.dry chain rounds (t.cursorAt chain k) progress₀).run w₀) := by
  induction rounds generalizing k w w₀ progress progress₀ events with
  | zero => exact (Program.run_throw_ne_ok.mp hrun).elim
  | succ rounds ih =>
      have hanswered₀ : ∀ history, R.dry.fate history = .answered := hanswered
      rw [migrateChain, Program.run_bind_ok (run_select_answered hanswered _ _ w),
        selectNextBatch_at hrows hlater hle hat] at hrun
      rw [migrateChain, Program.run_bind_ok (run_select_answered hanswered₀ _ _ w₀), htable,
        show R.dry.options.batchSize = R.options.batchSize from rfl, selectNextBatch_cursorAt]
      obtain ⟨hnext, hnextle⟩ := length_batch rfl hk hle
      cases hbatch : ((t.pendingOf chain).drop k).take R.options.batchSize with
      | nil =>
          rw [hbatch] at hrun
          obtain ⟨rfl, rfl, -⟩ := Program.run_pure_eq_ok.mp hrun
          have hend : (t.pendingOf chain).drop k = [] :=
            (List.take_eq_nil_iff.mp hbatch).resolve_left (by omega)
          have hkend : k = (t.pendingOf chain).length :=
            le_antisymm hle (List.drop_eq_nil_iff.mp hend)
          refine ⟨hkend ▸ hat, .inl ⟨progress₀, _, [], rfl, rfl, hcounts, ?_⟩⟩
          rw [hend]
          exact ⟨rfl, fun row hrow => by cases hrow⟩
      | cons first rest =>
          have hstart : R.options.batchSize ∣ k := by
            refine hk.resolve_right fun hend => ?_
            rw [List.drop_eq_nil_of_le hend.ge, List.take_nil] at hbatch
            cases hbatch
          rw [hbatch] at hrun hnext hnextle
          have hisBatch := isBatch_of_take hrows hstart hbatch
          obtain ⟨_, w₁, _, _, hreal, hrun, -⟩ := Program.run_bind_eq_ok.mp hrun
          have hselected : t.At P (t.batchStarts R.options.batchSize) (base + k)
              (⟨w.table, .selectNextBatch :: w.history⟩ : MigrationWorld).table := hat
          have hselected₀ : (⟨t, .selectNextBatch :: w₀.history⟩ : MigrationWorld).table = t := rfl
          obtain ⟨hdone, hlogged⟩ := processBatchWithRetry_dry
            hdry hanswered hisBatch hselected hselected₀ hreal
          obtain ⟨_, w₂, _, events₂, hemit, hrun, -⟩ := Program.run_bind_eq_ok.mp hrun
          obtain ⟨rfl, -⟩ := Program.run_emit_eq_ok.mp hemit
          rw [Nat.add_assoc] at hdone
          have hrun' : (migrateChain P R chain rounds
              (t.cursorAt chain (k + (first :: rest).length))
              (progress.advance first rest R.options.dryRun)).run w₁ =
                ⟨.ok progress', w', events₂⟩ := by
            rw [cursorAt_add hbatch]
            exact hrun
          have hleading : first :: rest <+: (t.pendingOf chain).drop k :=
            hbatch ▸ List.take_prefix _ _
          have hsplit : (t.pendingOf chain).drop k =
              (first :: rest) ++ (t.pendingOf chain).drop (k + (first :: rest).length) := by
            rw [← List.drop_drop]
            exact (List.prefix_iff_eq_append.mp hleading).symm
          have hfirst : t.StartsBatch R.options.batchSize first :=
            (startsBatch_getElem? (getElem?_batch hbatch (j := 0) rfl).1).mpr hstart
          rcases hlogged with ⟨w₃, htable₃, hsome, hlogged⟩ | ⟨hnone, e, w₃, hlogged⟩
          · obtain ⟨hend, houtcome⟩ := ih hnext hnextle hdone htable₃
              (MigrationProgress.counts_advance hcounts first rest R.options.dryRun true) hrun'
            refine ⟨hend, ?_⟩
            have hstored : ∀ row ∈ first :: rest, t.StartsBatch R.options.batchSize row →
                (t.stored row).isSome := by
              intro row hrow hstarts
              rcases List.mem_cons.mp hrow with rfl | hrest
              · exact hsome
              · rw [← batchStarts_iff hstarts.1, hisBatch.rest row hrest] at hstarts
                cases hstarts
            have hemit₀ : (Program.emit (.progress (progress₀.advance first rest true)) :
                Migration Unit).run w₃ =
                  ⟨.ok (), w₃, [.progress (progress₀.advance first rest true)]⟩ := rfl
            show DryOutcome P t R.options.batchSize _ progress'
              ((processBatchWithRetry P R.dry chain first rest R.options.retryPerBatch .null >>=
                fun _ => Program.emit (.progress (progress₀.advance first rest true)) >>=
                  fun _ => migrateChain P R.dry chain rounds
                    (some ((first :: rest).getLast (List.cons_ne_nil first rest)).position)
                    (progress₀.advance first rest true)).run ⟨t, .selectNextBatch :: w₀.history⟩)
            rw [Program.run_bind_ok hlogged, Program.run_bind_ok hemit₀, ← cursorAt_add hbatch,
              hsplit]
            exact houtcome.afterProgress.after
              (computed_diffs _) hstored
          · have hplain : (⟨t, []⟩ : MigrationWorld).table = t := rfl
            have hend := (ih hnext hnextle hdone hplain
              (MigrationProgress.counts_advance hcounts first rest R.options.dryRun true) hrun').1
            refine ⟨hend, .inr
              ⟨⟨e, w₃, _, Program.run_bind_error hlogged⟩, first, ?_, hfirst, hnone⟩⟩
            rw [hsplit]
            exact List.mem_append_left _ List.mem_cons_self

/-- The rows of the first chain that is left come first. -/
theorem pendingOf_prefix (hlater : ∀ row ∈ t.pending.drop base, chain ≤ row.key)
    (hdone : ∀ row ∈ t.pending.take base, row.key ≠ chain) :
    t.pendingOf chain <+: t.pending.drop base := by
  have hnone : (t.pending.take base).filter (fun row => row.key = chain) = [] :=
    List.filter_eq_nil_iff.mpr fun row hrow hkey => hdone row hrow (of_decide_eq_true hkey)
  rw [pendingOf, ← List.take_append_drop base t.pending, List.filter_append, hnone,
    List.nil_append, List.take_append_drop]
  refine filter_prefix (((pairwise_pending t).sublist (List.drop_sublist base _)).imp_of_mem
    fun {a b} ha _ hle hkey => ?_)
  rw [decide_eq_true_eq] at hkey ⊢
  have hle' : a.key ≤ b.key := ChainEntryRow.key_le_of_place_le hle
  exact le_antisymm (hkey ▸ hle') (hlater a ha)

theorem migrateChains_dry (hdry : R.options.dryRun = false)
    (hanswered : ∀ history, R.fate history = .answered) (hsize : 1 ≤ R.options.batchSize)
    {chains : List ChainPartitionKey} (hsorted : chains.Pairwise (· < ·))
    (hlisted : ∀ row ∈ t.pending.drop base, row.key ∈ chains)
    (hdone : ∀ row ∈ t.pending.take base, row.key ∉ chains) (rounds : Nat)
    {progress progress₀ progress' : MigrationProgress}
    (hat : t.At P (t.batchStarts R.options.batchSize) base w.table) (htable : w₀.table = t)
    (hcounts : progress₀.counts = progress.counts)
    (hrun : (migrateChains P R rounds chains progress).run w = ⟨.ok progress', w', events⟩) :
    (∃ count, t.At P (t.batchStarts R.options.batchSize) count w'.table) ∧
      DryOutcome P t R.options.batchSize (t.pending.drop base) progress'
        ((migrateChains P R.dry rounds chains progress₀).run w₀) := by
  induction chains generalizing base w w₀ progress progress₀ events with
  | nil =>
      obtain ⟨rfl, rfl, -⟩ := Program.run_pure_eq_ok.mp hrun
      have hnone : t.pending.drop base = [] :=
        List.eq_nil_iff_forall_not_mem.mpr fun row hrow => by cases hlisted row hrow
      refine ⟨⟨base, hat⟩, .inl ⟨progress₀, w₀, [], rfl, htable, hcounts, ?_⟩⟩
      rw [hnone]
      exact ⟨rfl, fun row hrow => by cases hrow⟩
  | cons chain chains ih =>
      rw [List.pairwise_cons] at hsorted
      have hlater : ∀ row ∈ t.pending.drop base, chain ≤ row.key := by
        intro row hrow
        rcases List.mem_cons.mp (hlisted row hrow) with heq | hmem
        · exact heq.ge
        · exact (hsorted.1 row.key hmem).le
      have hrows : t.pendingOf chain <+: t.pending.drop base :=
        pendingOf_prefix hlater fun row hrow hkey => hdone row hrow (hkey ▸ List.mem_cons_self)
      have hrest : t.pending.drop (base + (t.pendingOf chain).length) =
          (t.pending.drop base).drop (t.pendingOf chain).length := (List.drop_drop ..).symm
      have hlisted' : ∀ row ∈ t.pending.drop (base + (t.pendingOf chain).length),
          row.key ∈ chains := by
        intro row hrow
        refine (List.mem_cons.mp (hlisted row ?_)).resolve_left fun hkey => ?_
        · rw [hrest] at hrow
          exact List.mem_of_mem_drop hrow
        · have hleft := filter_drop hrows le_rfl
          rw [List.drop_length, List.filter_eq_nil_iff] at hleft
          exact hleft row hrow (decide_eq_true hkey)
      have hdone' : ∀ row ∈ t.pending.take (base + (t.pendingOf chain).length),
          row.key ∉ chains := by
        intro row hrow hmem
        rw [List.take_add, List.mem_append, ← List.prefix_iff_eq_take.mp hrows] at hrow
        rcases hrow with hbefore | hchain
        · exact hdone row hbefore (List.mem_cons_of_mem _ hmem)
        · exact lt_irrefl _ ((mem_pendingOf.mp hchain).2 ▸ hsorted.1 row.key hmem)
      rw [migrateChains, Program.run_bind_eq_ok] at hrun
      obtain ⟨progress₁, w₁, _, events₁, hchain, hrun, -⟩ := hrun
      obtain ⟨hat', houtcome⟩ := migrateChain_dry (k := 0) hdry hanswered hsize hrows hlater rounds
        (.inl (dvd_zero _)) (Nat.zero_le _) hat htable hcounts hchain
      have hsplit : t.pending.drop base = (t.pendingOf chain).drop 0 ++
          t.pending.drop (base + (t.pendingOf chain).length) := by
        rw [hrest, List.drop_zero]
        exact (List.prefix_iff_eq_append.mp hrows).symm
      rw [migrateChains, hsplit]
      rcases houtcome with ⟨progress₂, w₂, events₂, hrun₂, htable₂, hcounts₂, hlogged, hstored⟩ |
        ⟨⟨e, w₂, events₂, hrun₂⟩, row, hrow, hmissing⟩
      · obtain ⟨hend, hnext⟩ := ih hsorted.2 hlisted' hdone' hat' htable₂ hcounts₂ hrun
        refine ⟨hend, ?_⟩
        rw [show (none : Option (Nat ×ₗ String)) = t.cursorAt chain 0 from rfl,
          Program.run_bind_ok hrun₂]
        exact hnext.after hlogged hstored
      · have hplain : (⟨t, []⟩ : MigrationWorld).table = t := rfl
        obtain ⟨hend, -⟩ := ih hsorted.2 hlisted' hdone' hat' hplain rfl hrun
        refine ⟨hend, .inr ⟨⟨e, w₂, events₂, Program.run_bind_error hrun₂⟩, row,
          List.mem_append_left _ hrow, hmissing⟩⟩

/-- Beside a real run that returns, a dry run logs every row, or it meets a row that starts a batch
and is not linked. -/
theorem migrate_dry (hdry : R.options.dryRun = false)
    (hanswered : ∀ history, R.fate history = .answered) (hsize : 1 ≤ R.options.batchSize)
    {progress : MigrationProgress}
    (hrun : (migrateHccV01ToV02 P R).run ⟨t, []⟩ = ⟨.ok progress, w', events⟩) :
    (∃ count, t.At P (t.batchStarts R.options.batchSize) count w'.table) ∧
      DryOutcome P t R.options.batchSize t.pending progress
        ((migrateHccV01ToV02 P R.dry).run ⟨t, []⟩) := by
  have hanswered₀ : ∀ history, R.dry.fate history = .answered := hanswered
  unfold migrateHccV01ToV02 at hrun ⊢
  rw [Program.run_get_bind, Program.run_bind_eq_ok] at hrun
  obtain ⟨total, w₁, _, events₁, hcount, hrun, -⟩ := hrun
  rw [run_select_eq_ok] at hcount
  obtain ⟨-, rfl, rfl, -⟩ := hcount
  rw [Program.run_get_bind, Program.run_bind_ok (run_select_answered hanswered₀ _ _ _)]
  by_cases hzero : t.unmigrated.length = 0
  · have hnone : t.pending = [] := by
      rw [pending, List.length_eq_zero_iff.mp hzero]
      rfl
    rw [if_pos hzero] at hrun
    obtain ⟨rfl, rfl, -⟩ := Program.run_pure_eq_ok.mp hrun
    rw [if_pos hzero, hnone]
    exact ⟨⟨0, At.zero⟩, .inl ⟨{}, _, [], rfl, rfl, rfl, rfl, fun row hrow => by cases hrow⟩⟩
  · rw [if_neg hzero] at hrun
    rw [if_neg hzero, Program.run_bind_ok (run_select_answered hanswered₀ _ _ _)]
    simp only [Program.run_bind_eq_ok, run_select_eq_ok] at hrun
    obtain ⟨chains, w₂, _, _, ⟨-, hchains, rfl, -⟩, ⟨progress₁, w₃, _, _, hmigrated, hcheck⟩, -⟩ :=
      hrun
    simp only [hdry, if_true, Program.run_bind_eq_ok] at hcheck
    obtain ⟨⟨_, w₄, _, _, hpost, hend, -⟩, -⟩ := hcheck
    obtain ⟨rfl, rfl, -⟩ := Program.run_pure_eq_ok.mp hend
    obtain ⟨hsame, -⟩ := checkPostBackfill_eq_ok hpost
    subst hchains
    have hlisted₀ : (⟨t, [.listMigrationChains, .preCheck]⟩ : MigrationWorld).table = t := rfl
    have hnone : ∀ row ∈ t.pending.take 0, row.key ∉ t.listMigrationChains :=
      fun row hrow => by cases hrow
    have hcounts : (({} : MigrationProgress)).counts = ({} : MigrationProgress).counts := rfl
    obtain ⟨⟨count, hat⟩, houtcome⟩ := migrateChains_dry hdry hanswered hsize
      (pairwise_listMigrationChains t)
      (fun row hrow => mem_listMigrationChains (List.mem_of_mem_drop hrow)) hnone _ At.zero hlisted₀
      hcounts hmigrated
    refine ⟨⟨count, hsame ▸ hat⟩, ?_⟩
    rw [List.drop_zero] at houtcome
    have hafter : ∀ run : Execution MigrationWorld MigrationEvent MigrationError MigrationProgress,
        run.after [] = run := fun _ => rfl
    rw [hafter, hafter]
    rcases houtcome with ⟨progress₂, w₂, events₂, hrun₂, htable, hcounts, hlogged⟩ |
      ⟨⟨e, w₂, events₂, hrun₂⟩, hmissing⟩
    · refine .inl ⟨progress₂, w₂, events₂, ?_, htable, hcounts, hlogged⟩
      refine Program.run_bind_eq_ok.mpr ⟨progress₂, w₂, events₂, [], hrun₂, ?_, by simp⟩
      rfl
    · exact .inr ⟨⟨e, w₂, events₂, Program.run_bind_error hrun₂⟩, hmissing⟩

end SideBySide

/-! ## What is foreseen -/

section Foreseen

variable [LinearOrder ChainPartitionKey] {P : HccPorts} {R : MigrationRun} {t : HashChainEntries}
  {row : ChainEntryRow} {size : Nat}

/-- The dry run returns with the numbers of the real one, and logs every row as it is in the table
that the real one leaves. -/
def Foresees (P : HccPorts) (R : MigrationRun) (t : HashChainEntries) (progress : MigrationProgress)
    (after : HashChainEntries) : Prop :=
  ∃ progress₀ w₀ events₀, (migrateHccV01ToV02 P R.dry).run ⟨t, []⟩ = ⟨.ok progress₀, w₀, events₀⟩ ∧
    progress₀.batchesProcessed = progress.batchesProcessed ∧
    progress₀.entriesProcessed = progress.entriesProcessed ∧
    ((computed events₀).map RowDiff.entryId).Perm (t.unmigrated.map ChainEntryRow.entryId) ∧
    ∀ diff ∈ computed events₀, ∃ row ∈ after.rows, row.entryId = diff.entryId ∧
      row.canonicalPayloadHash = diff.newCanonicalPayloadHash ∧
      row.previousHash = diff.newPreviousHash ∧ row.chainIdentityJcs = some diff.chainIdentityJcs

/-- A dry run changes no row, and it foresees a real run that returns. -/
def Predicts (P : HccPorts) (R : MigrationRun) (t : HashChainEntries) : Prop :=
  R.dry.after P t = t ∧
    ∀ progress w' events, (migrateHccV01ToV02 P R).run ⟨t, []⟩ = ⟨.ok progress, w', events⟩ →
      Foresees P R t progress w'.table

omit [LinearOrder ChainPartitionKey] in
theorem anchored_iff (hanchor : (t.anchor P row).isSome) :
    t.Anchored P row ↔ t.stored row = t.anchor P row := by
  unfold anchor at hanchor
  unfold Anchored stored anchor
  by_cases hzero : row.chainPosition = 0
  · simp [hzero]
  · simp only [hzero, if_false, false_or] at hanchor ⊢
    cases hfind : (t.partition row.key).find? fun q => q.chainPosition = row.chainPosition - 1 with
    | none => simp [hfind] at hanchor
    | some q =>
        have hmem := List.mem_of_find?_eq_some hfind
        have hposition : q.chainPosition = row.chainPosition - 1 :=
          of_decide_eq_true (List.find?_some
            (p := fun q : ChainEntryRow => decide (q.chainPosition = row.chainPosition - 1)) hfind)
        have honly : ∀ q' ∈ t.partition row.key, q'.chainPosition + 1 = row.chainPosition →
            q' = q := by
          intro q' hq' hnext
          have hq := mem_partition.mp hmem
          have hq'' := mem_partition.mp hq'
          exact eq_of_slot hq''.1 hq.1 (hq''.2.trans hq.2.symm) (by omega)
        rw [hfind] at hanchor
        simp only [Option.bind_some] at hanchor ⊢
        constructor
        · rintro ⟨q', hq', hnext, hversion, hhash⟩
          obtain rfl := honly q' hq' hnext
          by_cases hunmigrated : q'.Unmigrated
          · rw [if_pos hversion, if_pos hunmigrated, hhash hunmigrated]
          · rw [if_neg hunmigrated]
        · intro hsame
          refine ⟨q, hmem, by omega, ?_⟩
          by_cases hversion : q.hccVersion = "2.0.0"
          · refine ⟨hversion, fun hunmigrated => ?_⟩
            rw [if_pos hversion, if_pos hunmigrated] at hsame
            exact Option.some.inj hsame
          · rw [if_neg hversion] at hanchor hsame
            rw [← hsame] at hanchor
            cases hanchor

/-- A row that does not start a batch has a row before it. -/
theorem before_ne_none (hrow : row ∈ t.pending) (hstarts : ¬ t.StartsBatch size row) :
    t.before row ≠ none := by
  intro hnone
  have hleast := before_eq_none.mp hnone
  obtain ⟨i, hi⟩ := List.mem_iff_getElem?.mp (mem_pendingOf.mpr ⟨hrow, rfl⟩)
  have hpositive : 0 < i := by
    refine Nat.pos_of_ne_zero fun hzero => hstarts ((startsBatch_getElem? hi).mpr ?_)
    exact hzero ▸ dvd_zero _
  obtain ⟨hlt, hget⟩ := List.getElem?_eq_some_iff.mp hi
  have hfirst := List.pairwise_iff_getElem.mp (pairwise_pendingOf t row.key) 0 i
    (hpositive.trans hlt) hlt hpositive
  rw [hget] at hfirst
  obtain ⟨hmem, hkey⟩ := mem_pendingOf.mp (List.getElem_mem (hpositive.trans hlt))
  have hle := hleast _ hmem hkey
  rcases Prod.Lex.toLex_lt_toLex.mp hfirst with hbefore | ⟨hsame, -⟩
  · exact hle.not_gt hbefore
  · have heq := eq_of_slot (mem_pending.mp hmem).1 (mem_pending.mp hrow).1 hkey hsame
    rw [heq] at hfirst
    exact lt_irrefl _ hfirst

theorem link_eq_dryLink (hrow : row ∈ t.pending)
    (hstored : t.StartsBatch size row → t.stored row = t.anchor P row) :
    t.dryLink P (t.batchStarts size) row = t.link P (t.batchStarts size) row := by
  unfold dryLink link
  by_cases hstarts : t.StartsBatch size row
  · rw [if_pos ((batchStarts_iff hrow).mpr hstarts)]
    exact hstored hstarts
  · rw [if_neg (mt (batchStarts_iff hrow).mp hstarts)]
    cases hbefore : t.before row with
    | none => exact absurd hbefore (before_ne_none hrow hstarts)
    | some q => rfl

/-- Given that the real run returns, the dry run foresees it exactly when every row that starts a
batch is anchored in the table as it is. -/
theorem predicts_iff (hdry : R.options.dryRun = false)
    (hanswered : ∀ history, R.fate history = .answered) (hsize : 1 ≤ R.options.batchSize)
    (hreturned : ∃ progress w' events,
      (migrateHccV01ToV02 P R).run ⟨t, []⟩ = ⟨.ok progress, w', events⟩) :
    Predicts P R t ↔ ∀ row, t.StartsBatch R.options.batchSize row → t.Anchored P row := by
  obtain ⟨progress, w', events, hrun⟩ := hreturned
  obtain ⟨⟨count, hat⟩, houtcome⟩ := migrate_dry hdry hanswered hsize hrun
  have hall := hat.take_pending (unmigrated_of_returned hdry hrun)
  have hanchor : ∀ row, t.StartsBatch R.options.batchSize row → (t.anchor P row).isSome := by
    intro row hstarts
    have hlinked := hat.clear.linked row (hall.symm ▸ hstarts.1)
    rwa [link_of_starts ((batchStarts_iff hstarts.1).mpr hstarts)] at hlinked
  have hwritten : ∀ row ∈ t.pending,
      t.relinkRow P (t.batchStarts R.options.batchSize) row ∈ w'.table.rows := by
    intro row hrow
    rw [hat.rows, relinked, List.mem_map]
    exact ⟨row, (mem_pending.mp hrow).1, if_pos (hall.symm ▸ hrow)⟩
  constructor
  · rintro ⟨-, hforesees⟩ row hstarts
    obtain ⟨progress₀, w₀, events₀, hrun₀, -, -, -, hrows⟩ := hforesees progress w' events hrun
    rcases houtcome with ⟨progress₁, w₁, events₁, hrun₁, -, -, hlogged, hstored⟩ |
      ⟨⟨e, w₁, events₁, hrun₁⟩, -⟩
    · obtain ⟨-, -, rfl⟩ := (Execution.mk.injEq ..).mp (hrun₀.symm.trans hrun₁)
      have hdiff : t.dryDiff P (t.batchStarts R.options.batchSize) row ∈ computed events₀ :=
        hlogged ▸ List.mem_map_of_mem hstarts.1
      obtain ⟨r, hr, hid, -, hprevious, -⟩ := hrows _ hdiff
      obtain rfl : r = t.relinkRow P (t.batchStarts R.options.batchSize) row :=
        eq_of_entryId hr (hwritten row hstarts.1) hid
      have hfirst := (batchStarts_iff hstarts.1).mpr hstarts
      refine (anchored_iff (hanchor row hstarts)).mpr ?_
      obtain ⟨hash, hhash⟩ := Option.isSome_iff_exists.mp (hstored row hstarts.1 hstarts)
      obtain ⟨previous, hlink⟩ := Option.isSome_iff_exists.mp (hanchor row hstarts)
      have hsame : (t.link P (t.batchStarts R.options.batchSize) row).getD "" =
          (t.dryLink P (t.batchStarts R.options.batchSize) row).getD "" := hprevious
      rw [link_of_starts hfirst, hlink, dryLink, if_pos hfirst, hhash] at hsame
      rw [hhash, hlink]
      exact congrArg some hsame.symm
    · cases hrun₀.symm.trans hrun₁
  · intro hanchored
    have hstored : ∀ row, t.StartsBatch R.options.batchSize row → t.stored row = t.anchor P row :=
      fun row hstarts => (anchored_iff (hanchor row hstarts)).mp (hanchored row hstarts)
    refine ⟨keeps_of_dryRun (R := R.dry) rfl ⟨t, []⟩, fun progress' w₁ events₁ hrun₁ => ?_⟩
    obtain ⟨hprogress, rfl, -⟩ := (Execution.mk.injEq ..).mp (hrun₁.symm.trans hrun)
    obtain rfl := Except.ok.inj hprogress
    rcases houtcome with ⟨progress₀, w₀, events₀, hrun₀, -, hcounts, hlogged, -⟩ |
      ⟨-, row, -, hstarts, hmissing⟩
    · obtain ⟨hbatches, hentries⟩ := Prod.mk.inj hcounts
      refine ⟨progress₀, w₀, events₀, hrun₀, hbatches, hentries, ?_, fun diff hdiff => ?_⟩
      · rw [hlogged, List.map_map]
        exact (List.perm_insertionSort _ t.unmigrated).map ChainEntryRow.entryId
      · rw [hlogged, List.mem_map] at hdiff
        obtain ⟨row, hrow, rfl⟩ := hdiff
        refine ⟨_, hwritten row hrow, rfl, rfl, ?_, rfl⟩
        show (t.link P _ row).getD "" = (t.dryLink P _ row).getD ""
        rw [link_eq_dryLink hrow (hstored row)]
    · have hlinked := hanchor row hstarts
      rw [← hstored row hstarts, hmissing] at hlinked
      cases hlinked

end Foreseen

/-! ## A chain in batches of one row -/

namespace MigrationRestart

attribute [local instance] byColumns

/-- In one batch, the chain is foreseen. -/
theorem twoChains_foreseen : Predicts ports complete twoChains := by
  have hreturned := exists_returned (x := migrateHccV01ToV02 ports complete)
    (w := ⟨twoChains, []⟩) (by decide +kernel)
  refine (predicts_iff rfl (fun _ => rfl) (by decide) hreturned).mpr fun row hstarts => .inl ?_
  have hstart : ∀ row ∈ twoChains.rows, twoChains.StartsBatch complete.options.batchSize row →
      row.chainPosition = 0 := by
    decide +kernel
  exact hstart row (mem_pending.mp hstarts.1).1 hstarts

def oneByOne : MigrationRun where
  options := { batchSize := 1 }
  fate _ := .answered

/-- Row by row, the real run returns, and the dry run throws at the second row of a chain. -/
theorem twoChains_not_foreseen : ¬ ∀ (t : HashChainEntries) (R : MigrationRun),
    R.options.dryRun = false → (∀ history, R.fate history = .answered) →
      1 ≤ R.options.batchSize → Predicts ports R t := by
  intro h
  obtain ⟨progress, w', events, hrun⟩ := exists_returned
    (x := migrateHccV01ToV02 ports oneByOne) (w := ⟨twoChains, []⟩) (by decide +kernel)
  obtain ⟨progress₀, w₀, events₀, hrun₀, -⟩ :=
    (h twoChains oneByOne rfl (fun _ => rfl) (by decide)).2 progress w' events hrun
  have hfailed : ((migrateHccV01ToV02 ports oneByOne.dry).run
      ⟨twoChains, []⟩).result.toOption.isSome = false := by
    decide
  rw [hrun₀] at hfailed
  cases hfailed

end MigrationRestart

end Coivitas.Crypto
