import Coivitas.Crypto.MigrationRuns

/-! # Every run of the migration ends

The bound on the rounds of the loop over a chain is never reached: each round but the
last one moves the cursor past a row, and no statement changes a position.
-/

namespace Coivitas.Crypto

open Foundation

variable (P : HccPorts)

section Ends

variable {P} {R : MigrationRun} {α β : Type} {x : Migration α} {f : α → Migration β}

/-- No loop of the program is cut short. -/
def Bounded (x : Migration α) : Prop := ∀ w, (x.run w).result ≠ .error .unbounded

theorem bounded_pure (a : α) : Bounded (pure a) := fun _ h => by cases h

theorem bounded_throw {e : MigrationError} (he : e ≠ .unbounded) :
    Bounded (throw e : Migration α) := fun _ h => he (Except.error.inj h)

/-- The rule of sequencing in one world. -/
theorem bounded_bind_at {w : MigrationWorld} (hx : (x.run w).result ≠ .error .unbounded)
    (hf : ∀ a w' events, x.run w = ⟨.ok a, w', events⟩ →
      ((f a).run w').result ≠ .error .unbounded) :
    ((x >>= f).run w).result ≠ .error .unbounded := by
  rcases hrun : x.run w with ⟨result, w₁, events⟩
  rw [hrun] at hx
  cases result with
  | error e =>
      rw [Program.run_bind_error hrun]
      exact fun he => hx (congrArg Except.error (Except.error.inj he))
  | ok a =>
      rw [Program.run_bind_ok hrun]
      exact hf a w₁ events hrun

theorem Bounded.bind (hx : Bounded x) (hf : ∀ a, Bounded (f a)) : Bounded (x >>= f) :=
  fun w => bounded_bind_at (hx w) fun a w' _ _ => hf a w'

theorem Bounded.tryCatch {handler : MigrationError → Migration α} (hx : Bounded x)
    (hhandler : ∀ e, e ≠ .unbounded → Bounded (handler e)) :
    Bounded (tryCatch x handler) := by
  intro w
  have hfirst := hx w
  rcases hrun : x.run w with ⟨result, w₁, events⟩
  rw [hrun] at hfirst
  cases result with
  | error e =>
      rw [Program.run_tryCatch_error hrun]
      exact hhandler e (fun he => hfirst (he ▸ rfl)) w₁
  | ok a =>
      rw [Program.run_tryCatch_ok hrun]
      exact hfirst

theorem bounded_query {statement : Statement}
    {act : HashChainEntries → Except MigrationError (α × HashChainEntries)}
    (hact : ∀ t, act t ≠ .error .unbounded) : Bounded (query R statement act) := by
  intro w
  simp only [query, Program.run]
  cases R.fate (statement :: w.history) <;> cases hcase : act w.table <;>
    simp only [ne_eq, Except.error.injEq, reduceCtorEq, not_false_eq_true]
  rintro rfl
  exact hact w.table hcase

theorem bounded_select (statement : Statement) (read : HashChainEntries → α) :
    Bounded (select R statement read) :=
  bounded_query fun _ h => by cases h

theorem Bounded.transaction (hx : Bounded x) : Bounded (transaction R x) := by
  unfold Crypto.transaction
  refine (bounded_select _ _).bind fun _ => ?_
  refine Bounded.bind (fun _ h => by cases h) fun w => ?_
  refine (hx.tryCatch fun e he w' => ?_).bind fun a => ?_
  · simp only [rollback, Program.run]
    cases R.fate (.rollback :: w'.history) <;>
      simp only [ne_eq, Except.error.injEq, reduceCtorEq, not_false_eq_true, he]
  · refine Bounded.bind (fun w' => ?_) fun _ => bounded_pure a
    simp only [commit, Program.run]
    cases R.fate (.commit :: w'.history) <;>
      simp only [ne_eq, Except.error.injEq, reduceCtorEq, not_false_eq_true]

theorem bounded_processRows (previous : String) (rows : List ChainEntryRow) :
    Bounded (processRows P R previous rows) := by
  induction rows generalizing previous with
  | nil => exact bounded_pure ()
  | cons row rows ih =>
      unfold processRows
      refine Bounded.bind (fun w => ?_) fun texts => ?_
      · show (recomputeRow P row).mapError MigrationError.hashChain ≠ .error .unbounded
        cases recomputeRow P row <;> simp [Except.mapError]
      · dsimp only
        split
        next =>
          refine (bounded_query fun t => ?_).bind fun _ => ih _
          cases t.update row.entryId texts.1 texts.2 previous <;> simp
        next => exact ih _

theorem bounded_fetchPrevCommittedHash (chain : ChainPartitionKey) (first : ChainEntryRow) :
    Bounded (fetchPrevCommittedHash R chain first) := by
  unfold fetchPrevCommittedHash
  split
  next => exact bounded_pure _
  next =>
    refine (bounded_select _ _).bind fun prev => ?_
    cases prev with
    | none => exact bounded_throw (by simp)
    | some prev =>
        dsimp only
        split
        next => exact (bounded_throw (by simp)).bind fun _ => bounded_pure _
        next => exact bounded_pure _

theorem bounded_processBatchWithRetry (chain : ChainPartitionKey) (first : ChainEntryRow)
    (rest : List ChainEntryRow) (attempts : Nat) {lastErr : MigrationError}
    (hlast : lastErr ≠ .unbounded) :
    Bounded (processBatchWithRetry P R chain first rest attempts lastErr) := by
  induction attempts generalizing lastErr with
  | zero => exact bounded_throw hlast
  | succ attempts ih =>
      unfold processBatchWithRetry
      refine Bounded.tryCatch ?_ fun e he => ?_
      · unfold processBatch
        refine (bounded_select _ _).bind fun _ => ?_
        have hbody := (bounded_fetchPrevCommittedHash (R := R) chain first).bind fun previous =>
          bounded_processRows (P := P) (R := R) previous (first :: rest)
        dsimp only
        split
        next => exact hbody
        next => exact hbody.transaction
      · split
        next => exact bounded_throw he
        next => exact ih he

/-- The positions of the rows, which no statement changes. -/
def MigrationWorld.positions (w : MigrationWorld) : List (Nat ×ₗ String) :=
  w.table.rows.map ChainEntryRow.position

theorem Keeps.positions (hx : Program.Keeps MigrationWorld.table x) :
    Program.Keeps MigrationWorld.positions x :=
  fun w => congrArg (fun t : HashChainEntries => t.rows.map ChainEntryRow.position) (hx w)

theorem keeps_positions_processRows (previous : String) (rows : List ChainEntryRow) :
    Program.Keeps MigrationWorld.positions (processRows P R previous rows) := by
  induction rows generalizing previous with
  | nil => exact Program.keeps_pure _ _
  | cons row rows ih =>
      unfold processRows
      refine Program.Keeps.bind (fun _ => rfl) fun texts => ?_
      dsimp only
      split
      next =>
        refine Program.Keeps.bind (fun w => ?_) fun _ => ih _
        simp only [query, Program.run]
        cases hupdate : w.table.update row.entryId texts.1 texts.2 previous with
        | none => cases R.fate (.update :: w.history) <;> rfl
        | some t' =>
            have hpositions : t'.rows.map ChainEntryRow.position =
                w.table.rows.map ChainEntryRow.position := by
              rw [HashChainEntries.update] at hupdate
              split at hupdate
              next =>
                obtain rfl := Option.some.inj hupdate
                exact HashChainEntries.map_updated _ _ _ _ _ _ fun _ => rfl
              next => cases hupdate
            cases R.fate (.update :: w.history) with
            | answered => exact hpositions
            | lost => exact hpositions
            | failed => rfl
            | killed => rfl
      next => exact ih _

theorem keeps_transaction {γ : Type} (f : HashChainEntries → γ)
    (hx : Program.Keeps (fun w => f w.table) x) :
    Program.Keeps (fun w => f w.table) (transaction R x) := by
  intro w
  rcases run_transaction (R := R) x w with ⟨hsame, -⟩ | ⟨a, w₁, w₂, events, hbody, hbefore, hafter⟩
  · exact congrArg f hsame
  · have hkept := hx w₁
    rw [hbody] at hkept
    show f ((transaction R x).run w).world.table = f w.table
    rw [hafter, ← hbefore]
    exact hkept

theorem keeps_positions_processBatchWithRetry (chain : ChainPartitionKey) (first : ChainEntryRow)
    (rest : List ChainEntryRow) (attempts : Nat) (lastErr : MigrationError) :
    Program.Keeps MigrationWorld.positions
      (processBatchWithRetry P R chain first rest attempts lastErr) := by
  induction attempts generalizing lastErr with
  | zero => exact Program.keeps_throw _ _
  | succ attempts ih =>
      unfold processBatchWithRetry
      refine Program.Keeps.tryCatch ?_ fun e => ?_
      · unfold processBatch
        refine Program.Keeps.bind (Keeps.positions (keeps_select _ _)) fun _ => ?_
        have hbody := Program.Keeps.bind
          (Keeps.positions (keeps_fetchPrevCommittedHash (R := R) chain first)) fun previous =>
          keeps_positions_processRows (P := P) (R := R) previous (first :: rest)
        dsimp only
        split
        next => exact hbody
        next =>
          exact keeps_transaction (fun t => t.rows.map ChainEntryRow.position) hbody
      · split
        next => exact Program.keeps_throw _ _
        next => exact ih e

/-- A batch moves the cursor past a row at least. -/
theorem length_after_lt {cursor : Option (Nat ×ₗ String)} {last : Nat ×ₗ String}
    {positions : List (Nat ×ₗ String)} (hlast : last ∈ positions) (hafter : After cursor last) :
    (positions.filter fun p => After (some last) p).length <
      (positions.filter fun p => After cursor p).length := by
  have hsub : (positions.filter fun p => After (some last) p) =
      (positions.filter fun p => After cursor p).filter fun p => last < p := by
    rw [List.filter_filter]
    refine List.filter_congr fun p _ => ?_
    rw [Bool.eq_iff_iff, Bool.and_eq_true, decide_eq_true_eq, decide_eq_true_eq, decide_eq_true_eq,
      after_some]
    exact ⟨fun hlt => ⟨hlt, fun c hc => (hafter c hc).trans hlt⟩, And.left⟩
  rw [hsub]
  refine List.length_filter_lt_length_iff_exists.mpr ⟨last, ?_, by simp⟩
  exact List.mem_filter.mpr ⟨hlast, decide_eq_true hafter⟩

/-- With a round for each row that is left and one more, the loop ends by itself. -/
theorem bounded_migrateChain (chain : ChainPartitionKey) (rounds : Nat)
    (cursor : Option (Nat ×ₗ String)) (progress : MigrationProgress) (w : MigrationWorld)
    (hrounds : (w.positions.filter fun p => After cursor p).length < rounds) :
    ((migrateChain P R chain rounds cursor progress).run w).result ≠ .error .unbounded := by
  induction rounds generalizing cursor progress w with
  | zero => omega
  | succ rounds ih =>
      unfold migrateChain
      refine bounded_bind_at (bounded_select _ _ w) fun rows w₁ _ hrun => ?_
      obtain ⟨-, hrows, rfl, -⟩ := run_select_eq_ok.mp hrun
      cases rows with
      | nil => exact fun h => by cases h
      | cons first rest =>
          have hselected : ∀ row ∈ first :: rest,
              row ∈ w.table.selectNextBatch chain cursor R.options.batchSize :=
            fun row hrow => hrows ▸ hrow
          obtain ⟨hmem, hafter⟩ := mem_of_mem_page
            (hselected _ (List.getLast_mem (List.cons_ne_nil first rest)))
          have hposition := List.mem_map_of_mem (f := ChainEntryRow.position)
            (List.mem_of_mem_filter (List.mem_of_mem_filter hmem))
          have hless := length_after_lt hposition hafter
          have hends := bounded_processBatchWithRetry (P := P) (R := R) chain first rest
            R.options.retryPerBatch (by simp : MigrationError.null ≠ .unbounded)
            ⟨w.table, .selectNextBatch :: w.history⟩
          refine bounded_bind_at hends fun _ w₂ _ hbatch => ?_
          have hkept := keeps_positions_processBatchWithRetry (P := P) (R := R) chain first rest
            R.options.retryPerBatch .null ⟨w.table, .selectNextBatch :: w.history⟩
          rw [hbatch] at hkept
          refine ih _ (progress.advance first rest R.options.dryRun) w₂ ?_
          have hsame : w₂.positions = w.positions := hkept
          rw [hsame]
          exact Nat.lt_of_lt_of_le hless (Nat.le_of_lt_succ hrounds)

theorem keeps_positions_migrateChain (chain : ChainPartitionKey) (rounds : Nat)
    (cursor : Option (Nat ×ₗ String)) (progress : MigrationProgress) :
    Program.Keeps MigrationWorld.positions (migrateChain P R chain rounds cursor progress) := by
  induction rounds generalizing cursor progress with
  | zero => exact Program.keeps_throw _ _
  | succ rounds ih =>
      unfold migrateChain
      refine Program.Keeps.bind (Keeps.positions (keeps_select _ _)) fun rows => ?_
      cases rows with
      | nil => exact Program.keeps_pure _ _
      | cons first rest =>
          exact Program.Keeps.bind (keeps_positions_processBatchWithRetry _ _ _ _ _) fun _ =>
            Program.Keeps.bind (fun _ => rfl) fun _ => ih _ _

theorem bounded_migrateChains (rounds : Nat) (chains : List ChainPartitionKey)
    (progress : MigrationProgress) (w : MigrationWorld) (hrounds : w.positions.length < rounds) :
    ((migrateChains P R rounds chains progress).run w).result ≠ .error .unbounded := by
  induction chains generalizing progress w with
  | nil => exact fun h => by cases h
  | cons chain chains ih =>
      have hleft : (w.positions.filter fun p => After none p).length < rounds :=
        (List.length_filter_le _ _).trans_lt hrounds
      refine bounded_bind_at (bounded_migrateChain chain rounds none progress w hleft) ?_
      intro progress' w' events hrun
      have hkept := keeps_positions_migrateChain (P := P) (R := R) chain rounds none progress w
      rw [hrun] at hkept
      exact ih progress' w' ((congrArg List.length hkept).trans_lt hrounds)

theorem bounded_checkPostBackfill : Bounded (checkPostBackfill R) := by
  unfold checkPostBackfill
  refine (bounded_select _ _).bind fun remaining => ?_
  split
  next => exact bounded_throw (by simp)
  next => exact bounded_pure ()

variable [LinearOrder ChainPartitionKey]

/-- The rounds of every loop suffice: a run returns, or it throws what a statement or a row
made it throw. -/
theorem migrate_ends (P : HccPorts) (R : MigrationRun) (t : HashChainEntries) :
    ((migrateHccV01ToV02 P R).run ⟨t, []⟩).result ≠ .error .unbounded := by
  unfold migrateHccV01ToV02
  rw [Program.run_get_bind]
  refine bounded_bind_at (bounded_select _ _ _) fun total w _ hw => ?_
  obtain ⟨-, -, rfl, -⟩ := run_select_eq_ok.mp hw
  split
  next => exact fun h => by cases h
  next =>
    refine bounded_bind_at (bounded_select _ _ _) fun chains w' _ hw' => ?_
    obtain ⟨-, -, rfl, -⟩ := run_select_eq_ok.mp hw'
    have hpositions : (t.rows.map ChainEntryRow.position).length < t.rows.length + 1 := by
      rw [List.length_map]
      exact Nat.lt_succ_self _
    refine bounded_bind_at (bounded_migrateChains _ _ _ _ hpositions) fun progress w'' _ _ => ?_
    split
    next => exact (bounded_checkPostBackfill.bind fun _ => bounded_pure _) w''
    next => exact fun h => by cases h

end Ends

end Coivitas.Crypto
