import Coivitas.Crypto.MigrationInvariant

/-! # Runs of the migration

Whatever becomes of its statements, a run takes the rows to migrate in their order: it
leaves a table that is reached from the first one by migrating some of them.
-/

namespace Coivitas.Crypto

open Foundation

variable (P : HccPorts)

/-! ## Statements and transactions -/

section Statements

variable {R : MigrationRun} {α : Type} {w w' : MigrationWorld} {events : List MigrationEvent}

@[simp] theorem run_query_eq_ok {statement : Statement}
    {act : HashChainEntries → Except MigrationError (α × HashChainEntries)} {a : α} :
    (query R statement act).run w = ⟨.ok a, w', events⟩ ↔
      R.fate (statement :: w.history) = .answered ∧
        ∃ table, act w.table = .ok (a, table) ∧ w' = ⟨table, statement :: w.history⟩ ∧
          events = [] := by
  unfold query Program.run
  cases hfate : R.fate (statement :: w.history) <;> cases hact : act w.table <;>
    simp [hfate, hact, Prod.ext_iff, eq_comm, and_comm]

@[simp] theorem run_select_eq_ok {statement : Statement} {read : HashChainEntries → α} {a : α} :
    (select R statement read).run w = ⟨.ok a, w', events⟩ ↔
      R.fate (statement :: w.history) = .answered ∧ read w.table = a ∧
        w' = ⟨w.table, statement :: w.history⟩ ∧ events = [] := by
  rw [select, run_query_eq_ok]
  simp [Prod.ext_iff, and_assoc]

/-- Reading never changes the table. -/
theorem keeps_select (statement : Statement) (read : HashChainEntries → α) :
    Program.Keeps MigrationWorld.table (select R statement read) := by
  intro w
  simp only [select, query, Program.run]
  cases R.fate (statement :: w.history) <;> rfl

/-- Rolled back, the table is the one from before, and an error is thrown. -/
theorem run_rollback (before : HashChainEntries) (e : MigrationError) (w : MigrationWorld) :
    ((rollback R before e : Migration α).run w).world.table = before ∧
      ∃ e', ((rollback R before e : Migration α).run w).result = .error e' := by
  simp only [rollback, Program.run]
  cases R.fate (.rollback :: w.history) with
  | killed => exact ⟨rfl, _, rfl⟩
  | answered => exact ⟨rfl, _, rfl⟩
  | failed => exact ⟨rfl, _, rfl⟩
  | lost => exact ⟨rfl, _, rfl⟩

/-- The commit returns with the new table, or throws with the new or the old one. -/
theorem run_commit (before : HashChainEntries) (w : MigrationWorld) :
    ((commit R before).run w).world.table = w.table ∨
      ((commit R before).run w).world.table = before ∧
        ∃ e, ((commit R before).run w).result = .error e := by
  simp only [commit, Program.run]
  cases R.fate (.commit :: w.history) with
  | answered => exact .inl rfl
  | lost => exact .inl rfl
  | failed => exact .inr ⟨rfl, _, rfl⟩
  | killed => exact .inr ⟨rfl, _, rfl⟩

/-- A transaction leaves the table as it was, or what its body made of it. -/
theorem run_transaction (body : Migration α) (w : MigrationWorld) :
    (((transaction R body).run w).world.table = w.table ∧
        ∃ e, ((transaction R body).run w).result = .error e) ∨
      ∃ (a : α) (w₁ w₂ : MigrationWorld) (events : List MigrationEvent),
        body.run w₁ = ⟨.ok a, w₂, events⟩ ∧ w₁.table = w.table ∧
          ((transaction R body).run w).world.table = w₂.table := by
  have hbegin := keeps_select (R := R) .begin (fun _ => ()) w
  unfold transaction
  rcases hstart : (select R .begin fun _ => ()).run w with ⟨result, w₁, events⟩
  rw [hstart] at hbegin
  cases result with
  | error e =>
      rw [Program.run_bind_error hstart]
      exact .inl ⟨hbegin, e, rfl⟩
  | ok u =>
      rw [Program.run_bind_ok hstart, Program.run_get_bind]
      rcases hbody : body.run w₁ with ⟨result, w₂, events'⟩
      cases result with
      | error e =>
          obtain ⟨htable, e', hresult⟩ := run_rollback (R := R) (α := α) w₁.table e w₂
          rcases hrollback : (rollback R w₁.table e : Migration α).run w₂ with
            ⟨result, w₃, events''⟩
          rw [hrollback] at htable hresult
          obtain rfl : result = .error e' := hresult
          have hcaught : (tryCatch body (rollback R w₁.table)).run w₁ =
              ⟨.error e', w₃, events' ++ events''⟩ := by
            rw [Program.run_tryCatch_error hbody, hrollback]
            rfl
          rw [Program.run_bind_error hcaught]
          exact .inl ⟨htable.trans hbegin, e', rfl⟩
      | ok a =>
          rw [Program.run_bind_ok (Program.run_tryCatch_ok hbody)]
          rcases hcommit : (commit R w₁.table).run w₂ with ⟨result, w₃, events''⟩
          have hended := run_commit (R := R) w₁.table w₂
          rw [hcommit] at hended
          rcases hended with hnew | ⟨hold, e, hresult⟩
          · refine .inr ⟨a, w₁, w₂, events', hbody, hbegin, ?_⟩
            cases result with
            | ok u =>
                rw [Program.run_bind_ok hcommit]
                exact hnew
            | error e =>
                rw [Program.run_bind_error hcommit]
                exact hnew
          · obtain rfl : result = .error e := hresult
            rw [Program.run_bind_error hcommit]
            exact .inl ⟨hold.trans hbegin, e, rfl⟩

end Statements

/-! ## Batches -/

section Batches

open HashChainEntries

variable [LinearOrder ChainPartitionKey] {P} {R : MigrationRun} {t : HashChainEntries}
  {starts : String → Bool} {count i : Nat} {w w' : MigrationWorld} {chain : ChainPartitionKey}
  {first : ChainEntryRow} {rest : List ChainEntryRow} {events : List MigrationEvent}

/-- Each row is linked to the hash of the one before it, the first one to a given hash. -/
def Follow (P : HccPorts) (t : HashChainEntries) (starts : String → Bool) :
    String → List ChainEntryRow → Prop
  | _, [] => True
  | previous, row :: rest => t.link P starts row = some previous ∧
      Follow P t starts (row.newHash P) rest

theorem getElem?_of_leading {rows : List ChainEntryRow} {row : ChainEntryRow}
    (hrows : row :: rows <+: t.pending.drop i) :
    t.pending[i]? = some row ∧ rows <+: t.pending.drop (i + 1) := by
  obtain ⟨tail, htail⟩ := hrows
  have hdrop : t.pending.drop i = row :: (rows ++ tail) := htail.symm
  have hget : t.pending[i]? = some row := by
    have hhead := congrArg (·[0]?) hdrop
    simpa using hhead
  refine ⟨hget, tail, ?_⟩
  have hnext := congrArg List.tail hdrop
  simpa using hnext.symm

/-- The rows of a batch are migrated one after the other. -/
theorem processRows_eq_ok (hdry : R.options.dryRun = false) {rows : List ChainEntryRow}
    {previous : String} (hat : t.At P starts count w.table) (hrows : rows <+: t.pending.drop i)
    (hi : i ≤ count) (hfollow : Follow P t starts previous rows)
    (hrun : (processRows P R previous rows).run w = ⟨.ok (), w', events⟩) :
    t.At P starts (max count (i + rows.length)) w'.table := by
  induction rows generalizing i count previous w events with
  | nil =>
      simp only [processRows, Program.run_pure_eq_ok] at hrun
      obtain ⟨-, rfl, -⟩ := hrun
      rwa [List.length_nil, Nat.add_zero, max_eq_left hi]
  | cons row rows ih =>
      obtain ⟨hget, hrest⟩ := getElem?_of_leading hrows
      obtain ⟨hlink, hfollow⟩ := hfollow
      simp only [processRows, Program.run_ofExcept_bind] at hrun
      cases hcomputed : recomputeRow P row with
      | error e => simp [hcomputed, Except.mapError] at hrun
      | ok texts =>
          obtain ⟨jcs, hash⟩ := texts
          obtain ⟨rfl, rfl, hhash⟩ := ChainEntryRow.recomputeRow_eq_ok P hcomputed
          simp only [hcomputed, Except.mapError, hdry, if_true, Program.run_bind_eq_ok,
            run_query_eq_ok] at hrun
          obtain ⟨_, w₁, _, events', ⟨-, table, hupdate, rfl, -⟩, hrun, -⟩ := hrun
          split at hupdate
          next u' hu' =>
            obtain ⟨-, rfl⟩ := Prod.mk.inj (Except.ok.inj hupdate)
            have hstep := ih (hat.update hget hi hhash hlink hu') hrest (le_max_right _ _)
              hfollow hrun
            have hmax : max (max count (i + 1)) (i + 1 + rows.length) =
                max count (i + (row :: rows).length) := by
              rw [List.length_cons]
              omega
            rwa [hmax] at hstep
          next => cases hupdate

theorem find?_partition (hat : t.At P starts count w.table) (position : Nat) :
    ((w.table.partition chain).find? fun q => q.chainPosition = position) =
      ((t.partition chain).find? fun q => q.chainPosition = position).map fun q =>
        if q ∈ t.pending.take count then t.relinkRow P starts q else q := by
  rw [partition, hat.rows, relinked, List.filter_map, List.find?_map]
  have hkey : ((fun row : ChainEntryRow => decide (row.key = chain)) ∘ fun row =>
      if row ∈ t.pending.take count then t.relinkRow P starts row else row) =
        fun row => decide (row.key = chain) := by
    funext row
    simp only [Function.comp_apply]
    split <;> rfl
  have hposition : ((fun row : ChainEntryRow => decide (row.chainPosition = position)) ∘ fun row =>
      if row ∈ t.pending.take count then t.relinkRow P starts row else row) =
        fun row => decide (row.chainPosition = position) := by
    funext row
    simp only [Function.comp_apply]
    split <;> rfl
  rw [hkey, hposition, partition]

/-- The hash that the first row of a batch is linked to, once the rows before it are done. -/
theorem fetchPrevCommittedHash_eq_ok (hat : t.At P starts count w.table)
    (hfirst : t.pending[i]? = some first) (hi : i ≤ count) {previous : String}
    (hrun : (fetchPrevCommittedHash R first.key first).run w = ⟨.ok previous, w', events⟩) :
    t.anchor P first = some previous ∧ w'.table = w.table := by
  unfold fetchPrevCommittedHash at hrun
  by_cases hzero : first.chainPosition = 0
  · simp only [hzero, if_true, Program.run_pure_eq_ok] at hrun
    obtain ⟨rfl, rfl, -⟩ := hrun
    exact ⟨if_pos hzero, rfl⟩
  · simp only [hzero, if_false, Program.run_bind_eq_ok, run_select_eq_ok] at hrun
    obtain ⟨prev, w₁, _, _, ⟨-, hprev, rfl, -⟩, hrun, -⟩ := hrun
    rw [find?_partition hat] at hprev
    cases hfind : (t.partition first.key).find? fun q =>
        q.chainPosition = first.chainPosition - 1 with
    | none =>
        rw [hfind, Option.map_none] at hprev
        subst hprev
        simp at hrun
    | some q =>
        rw [hfind, Option.map_some] at hprev
        subst hprev
        have hmem := List.mem_of_find?_eq_some hfind
        rw [partition, List.mem_filter, decide_eq_true_eq] at hmem
        have hposition : q.chainPosition = first.chainPosition - 1 :=
          of_decide_eq_true
            (List.find?_some (p := fun q : ChainEntryRow =>
              decide (q.chainPosition = first.chainPosition - 1)) hfind)
        have hanchor : t.anchor P first = if q.Unmigrated then some (q.newHash P)
            else if q.hccVersion = "2.0.0" then some q.canonicalPayloadHash else none := by
          rw [anchor, if_neg hzero, hfind]
          rfl
        by_cases hpending : q.Unmigrated
        · have hdone : q ∈ t.pending.take count := by
            refine List.take_subset_take_left _ hi (mem_take_of_lt hfirst ?_ hmem.2 (by omega))
            exact mem_pending.mpr ⟨hmem.1, hpending⟩
          rw [hanchor, if_pos hpending]
          simp only [hdone, if_true, relinkRow, ChainEntryRow.relink, ne_eq, not_true_eq_false,
            if_false, Program.run_pure_eq_ok] at hrun
          obtain ⟨rfl, rfl, -⟩ := hrun
          exact ⟨rfl, rfl⟩
        · have hsame : q ∉ t.pending.take count := by
            intro hdone
            exact hpending (mem_pending.mp (List.take_subset _ _ hdone)).2
          rw [hanchor, if_neg hpending]
          simp only [hsame, if_false] at hrun
          by_cases hversion : q.hccVersion = "2.0.0"
          · simp only [hversion, ne_eq, not_true_eq_false, if_false,
              Program.run_pure_eq_ok] at hrun
            obtain ⟨rfl, rfl, -⟩ := hrun
            exact ⟨if_pos hversion, rfl⟩
          · simp [hversion, Program.run_bind_eq_ok] at hrun

/-- The rows of one partition that follow each other, the first of them first in its batch. -/
structure IsBatch (t : HashChainEntries) (starts : String → Bool) (i : Nat)
    (chain : ChainPartitionKey) (first : ChainEntryRow) (rest : List ChainEntryRow) : Prop where
  rows : first :: rest <+: t.pending.drop i
  key : ∀ row ∈ first :: rest, row.key = chain
  first : starts first.entryId = true
  rest : ∀ row ∈ rest, starts row.entryId = false

theorem link_of_starts (hstarts : starts first.entryId = true) :
    t.link P starts first = t.anchor P first := by
  rw [link, if_pos hstarts]

theorem follow_of_rest {previous : ChainEntryRow} {rows : List ChainEntryRow}
    (hprevious : t.pending[i]? = some previous) (hrows : rows <+: t.pending.drop (i + 1))
    (hkey : ∀ row ∈ rows, row.key = previous.key)
    (hrest : ∀ row ∈ rows, starts row.entryId = false) :
    Follow P t starts (previous.newHash P) rows := by
  induction rows generalizing i previous with
  | nil => trivial
  | cons row rows ih =>
      obtain ⟨hget, hnext⟩ := getElem?_of_leading hrows
      rw [List.forall_mem_cons] at hkey hrest
      refine ⟨?_, ih hget hnext (fun row' hrow' => (hkey.2 row' hrow').trans hkey.1.symm) hrest.2⟩
      rw [link, hrest.1, before_of_getElem? hprevious hget hkey.1.symm]
      rfl

theorem IsBatch.follow (hbatch : IsBatch t starts i chain first rest) {previous : String}
    (hanchor : t.anchor P first = some previous) :
    Follow P t starts previous (first :: rest) := by
  obtain ⟨hget, hnext⟩ := getElem?_of_leading hbatch.rows
  refine ⟨(link_of_starts hbatch.first).trans hanchor, follow_of_rest hget hnext ?_ hbatch.rest⟩
  intro row hrow
  exact (hbatch.key row (List.mem_cons_of_mem _ hrow)).trans
    (hbatch.key first List.mem_cons_self).symm

/-- An attempt leaves the table as it was or migrates the batch; it returns only then. -/
theorem processBatch_run (hdry : R.options.dryRun = false)
    (hbatch : IsBatch t starts i chain first rest) (hat : t.At P starts count w.table)
    (hi : i ≤ count) :
    let e := (processBatch P R chain first rest).run w
    (e.world.table = w.table ∧ ∃ error, e.result = .error error) ∨
      t.At P starts (max count (i + (first :: rest).length)) e.world.table := by
  have hconnect := keeps_select (R := R) .connect (fun _ => ()) w
  simp only [processBatch, hdry, Bool.false_eq_true, if_false]
  rcases hstart : (select R .connect fun _ => ()).run w with ⟨result, w₁, events⟩
  rw [hstart] at hconnect
  cases result with
  | error e =>
      rw [Program.run_bind_error hstart]
      exact .inl ⟨hconnect, e, rfl⟩
  | ok u =>
      rw [Program.run_bind_ok hstart]
      rcases run_transaction (R := R) (do
          let anchor ← fetchPrevCommittedHash R chain first
          processRows P R anchor (first :: rest)) w₁ with
        ⟨htable, hfailed⟩ | ⟨_, w₂, w₃, _, hbody, htable, hdone⟩
      · exact .inl ⟨htable.trans hconnect, hfailed⟩
      · rw [Program.run_bind_eq_ok] at hbody
        obtain ⟨previous, w₄, _, _, hfetch, hrows, -⟩ := hbody
        have hat₂ : t.At P starts count w₂.table := by
          rw [htable, show w₁.table = w.table from hconnect]
          exact hat
        obtain rfl := hbatch.key first List.mem_cons_self
        obtain ⟨hanchor, hsame⟩ :=
          fetchPrevCommittedHash_eq_ok hat₂ (getElem?_of_leading hbatch.rows).1 hi hfetch
        rw [← hsame] at hat₂
        refine .inr ?_
        have hmigrated := processRows_eq_ok hdry hat₂ hbatch.rows hi (hbatch.follow hanchor) hrows
        rw [← hdone] at hmigrated
        exact hmigrated

/-- The attempts together leave the table as it was or migrate the batch. -/
theorem processBatchWithRetry_run (hdry : R.options.dryRun = false)
    (hbatch : IsBatch t starts i chain first rest) (attempts : Nat) (lastErr : MigrationError)
    (hat : t.At P starts count w.table) (hi : i ≤ count) :
    let e := (processBatchWithRetry P R chain first rest attempts lastErr).run w
    (t.At P starts count e.world.table ∧ ∃ error, e.result = .error error) ∨
      t.At P starts (max count (i + (first :: rest).length)) e.world.table := by
  induction attempts generalizing count w lastErr with
  | zero => exact .inl ⟨hat, lastErr, rfl⟩
  | succ attempts ih =>
      have hattempt := processBatch_run hdry hbatch hat hi
      rcases hrun : (processBatch P R chain first rest).run w with ⟨result, w₁, events⟩
      rw [hrun] at hattempt
      unfold processBatchWithRetry
      cases result with
      | ok u =>
          rw [Program.run_tryCatch_ok hrun]
          rcases hattempt with ⟨-, error, herror⟩ | hdone
          · cases herror
          · exact .inr hdone
      | error e =>
          rw [Program.run_tryCatch_error hrun]
          by_cases hkilled : e = .killed
          · simp only [hkilled, if_true]
            rcases hattempt with ⟨hsame, -⟩ | hdone
            · refine .inl ⟨?_, .killed, rfl⟩
              show t.At P starts count w₁.table
              rw [show w₁.table = w.table from hsame]
              exact hat
            · exact .inr hdone
          · simp only [hkilled, if_false]
            rcases hattempt with ⟨hsame, -⟩ | hdone
            · refine ih e ?_ hi
              rw [show w₁.table = w.table from hsame]
              exact hat
            · have hagain := ih e hdone (hi.trans (le_max_left _ _))
              rw [max_eq_left (le_max_right count _)] at hagain
              exact .inr (hagain.elim And.left id)

end Batches

/-! ## Programs that only read -/

section Reading

variable {P} {R : MigrationRun}

theorem keeps_fetchPrevCommittedHash (chain : ChainPartitionKey) (first : ChainEntryRow) :
    Program.Keeps MigrationWorld.table (fetchPrevCommittedHash R chain first) := by
  unfold fetchPrevCommittedHash
  split
  next => exact Program.keeps_pure _ _
  next =>
    refine Program.Keeps.bind (keeps_select _ _) fun prev => ?_
    cases prev with
    | none => exact Program.keeps_throw _ _
    | some prev =>
        dsimp only
        split
        next => exact Program.Keeps.bind (Program.keeps_throw _ _) fun _ => Program.keeps_pure _ _
        next => exact Program.keeps_pure _ _

theorem keeps_checkPostBackfill :
    Program.Keeps MigrationWorld.table (checkPostBackfill R) := by
  unfold checkPostBackfill
  refine Program.Keeps.bind (keeps_select _ _) fun remaining => ?_
  split
  next => exact Program.keeps_throw _ _
  next => exact Program.keeps_pure _ _

theorem keeps_processRows (hdry : R.options.dryRun = true) (previous : String)
    (rows : List ChainEntryRow) :
    Program.Keeps MigrationWorld.table (processRows P R previous rows) := by
  induction rows generalizing previous with
  | nil => exact Program.keeps_pure _ _
  | cons row rows ih =>
      unfold processRows
      refine Program.Keeps.bind (fun _ => rfl) fun texts => ?_
      simp only [hdry, Bool.true_eq_false, if_false]
      exact Program.Keeps.bind (fun _ => rfl) fun _ => ih _

theorem keeps_processBatchWithRetry (hdry : R.options.dryRun = true) (chain : ChainPartitionKey)
    (first : ChainEntryRow) (rest : List ChainEntryRow) (attempts : Nat)
    (lastErr : MigrationError) :
    Program.Keeps MigrationWorld.table
      (processBatchWithRetry P R chain first rest attempts lastErr) := by
  induction attempts generalizing lastErr with
  | zero => exact Program.keeps_throw _ _
  | succ attempts ih =>
      unfold processBatchWithRetry
      refine Program.Keeps.tryCatch ?_ fun e => ?_
      · unfold processBatch
        refine Program.Keeps.bind (keeps_select _ _) fun _ => ?_
        simp only [hdry, if_true]
        exact Program.Keeps.bind (keeps_fetchPrevCommittedHash _ _) fun _ =>
          keeps_processRows hdry _ _
      · split
        next => exact Program.keeps_throw _ _
        next => exact ih e

theorem keeps_migrateChain (hdry : R.options.dryRun = true) (chain : ChainPartitionKey)
    (rounds : Nat) (cursor : Option (Nat ×ₗ String)) (progress : MigrationProgress) :
    Program.Keeps MigrationWorld.table (migrateChain P R chain rounds cursor progress) := by
  induction rounds generalizing cursor progress with
  | zero => exact Program.keeps_throw _ _
  | succ rounds ih =>
      unfold migrateChain
      refine Program.Keeps.bind (keeps_select _ _) fun rows => ?_
      cases rows with
      | nil => exact Program.keeps_pure _ _
      | cons first rest =>
          exact Program.Keeps.bind (keeps_processBatchWithRetry hdry _ _ _ _ _) fun _ =>
            Program.Keeps.bind (fun _ => rfl) fun _ => ih _ _

theorem checkPostBackfill_eq_ok {w w' : MigrationWorld} {events : List MigrationEvent}
    (hrun : (checkPostBackfill R).run w = ⟨.ok (), w', events⟩) :
    w'.table = w.table ∧ w.table.unmigrated = [] := by
  simp only [checkPostBackfill, Program.run_bind_eq_ok, run_select_eq_ok] at hrun
  obtain ⟨remaining, _, _, _, ⟨-, hremaining, rfl, -⟩, hrun, -⟩ := hrun
  by_cases hzero : remaining = 0
  · simp only [hzero, ne_eq, not_true_eq_false, if_false, Program.run_pure_eq_ok] at hrun
    obtain ⟨-, rfl, -⟩ := hrun
    exact ⟨rfl, List.length_eq_zero_iff.mp (hremaining.trans hzero)⟩
  · simp [hzero] at hrun

end Reading

/-! ## Runs -/

section Runs

open HashChainEntries

variable [LinearOrder ChainPartitionKey] {P} {R : MigrationRun} {t u : HashChainEntries}
  {starts : String → Bool} {count : Nat} {w w' : MigrationWorld} {chain : ChainPartitionKey}
  {cursor : Option (Nat ×ₗ String)}

/-- The rows to migrate are in the chain or in later ones, and after the cursor. -/
def Ahead (chain : ChainPartitionKey) (cursor : Option (Nat ×ₗ String))
    (rows : List ChainEntryRow) : Prop :=
  ∀ row ∈ rows, chain ≤ row.key ∧ (row.key = chain → After cursor row.position)

/-- Within a chain, the order of the migration is the order of the positions. -/
theorem insertionSort_unmigrated (u : HashChainEntries) (chain : ChainPartitionKey) :
    (u.unmigrated.filter fun row => row.key = chain).insertionSort
        (fun a b => a.position ≤ b.position) = u.pending.filter fun row => row.key = chain := by
  rw [pending, ← insertionSort_filter (place_inj u)]
  refine insertionSort_congr (List.pairwise_of_forall_mem_list fun a ha b hb => ?_)
  rw [List.mem_filter, decide_eq_true_eq] at ha hb
  rw [ChainEntryRow.place, ChainEntryRow.place, Prod.Lex.toLex_le_toLex, ha.2, hb.2]
  simp

theorem selectNextBatch_eq (hahead : Ahead chain cursor u.pending) (batchSize : Nat) :
    u.selectNextBatch chain cursor batchSize =
      (u.pending.filter fun row => row.key = chain).take batchSize := by
  have hafter : (u.unmigrated.filter fun row => row.key = chain).filter
      (fun row => After cursor row.position) = u.unmigrated.filter fun row => row.key = chain := by
    refine List.filter_eq_self.mpr fun row hrow => ?_
    rw [List.mem_filter, decide_eq_true_eq] at hrow
    have hpending : row ∈ u.pending := (List.mem_insertionSort _).mpr hrow.1
    exact decide_eq_true ((hahead row hpending).2 hrow.2)
  rw [selectNextBatch, page, hafter, insertionSort_unmigrated]

/-- The rows of the first chain with rows to migrate come first. -/
theorem filter_key_ahead (hahead : Ahead chain cursor u.pending) :
    u.pending.filter (fun row => row.key = chain) <+: u.pending := by
  refine filter_prefix ((pairwise_pending u).imp_of_mem fun {a b} ha _ hle hkey => ?_)
  rw [decide_eq_true_eq] at hkey ⊢
  have hle' : a.key ≤ b.key := ChainEntryRow.key_le_of_place_le hle
  exact le_antisymm (hkey ▸ hle') (hahead a ha).1

/-- Some of the rows are migrated, under some division into batches. -/
def Reached (P : HccPorts) (t u : HashChainEntries) : Prop :=
  ∃ starts count, t.At P starts count u

theorem pending_subset {starts' : String → Bool} {count' : Nat} {u' : HashChainEntries}
    (hat : t.At P starts count u) (hat' : t.At P starts' count' u') (hle : count ≤ count') :
    u'.pending ⊆ u.pending := by
  rw [hat.pending_eq, hat'.pending_eq]
  exact List.drop_subset_drop_left _ hle

/-- A batch of the next rows, after another division into batches has been taken. -/
theorem exists_isBatch {first : ChainEntryRow} {rest : List ChainEntryRow}
    (hat : t.At P starts count u) (hrows : first :: rest <+: t.pending.drop count)
    (hkey : ∀ row ∈ first :: rest, row.key = chain) :
    ∃ starts', t.At P starts' count u ∧ IsBatch t starts' count chain first rest := by
  have hmem : ∀ row ∈ first :: rest, row ∈ t.pending.drop count := fun row hrow => hrows.subset hrow
  have hrow : ∀ row ∈ t.pending, row ∈ t.rows := fun row hrow => (mem_pending.mp hrow).1
  have hnodup : (first :: rest).Nodup :=
    ((nodup_pending t).sublist (List.drop_sublist _ _)).sublist hrows.sublist
  let batch := (first :: rest).map ChainEntryRow.entryId
  let starts' : String → Bool := fun id => if id ∈ batch then id = first.entryId else starts id
  have hin : ∀ row ∈ first :: rest, starts' row.entryId = decide (row.entryId = first.entryId) :=
    fun row hrow => if_pos (List.mem_map_of_mem hrow)
  refine ⟨starts', hat.congr fun row hdone => ?_, hrows, hkey, by simp [hin], ?_⟩
  · have hout : row.entryId ∉ batch := by
      rw [List.mem_map]
      rintro ⟨row', hrow', hid⟩
      have hsame := eq_of_entryId (hrow row' (List.mem_of_mem_drop (hmem row' hrow')))
        (hrow row (List.mem_of_mem_take hdone)) hid
      have hdisjoint := nodup_pending t
      rw [← List.take_append_drop count t.pending] at hdisjoint
      exact (List.nodup_append'.mp hdisjoint).2.2 hdone (hsame ▸ hmem row' hrow')
    exact (if_neg hout).symm
  · intro row hrest
    rw [hin row (List.mem_cons_of_mem _ hrest), decide_eq_false_iff_not]
    intro hid
    have hsame := eq_of_entryId
      (hrow row (List.mem_of_mem_drop (hmem row (List.mem_cons_of_mem _ hrest))))
      (hrow first (List.mem_of_mem_drop (hmem first List.mem_cons_self))) hid
    exact (List.nodup_cons.mp hnodup).1 (hsame ▸ hrest)

/-- After a batch, the rest of the chain is after the last row of the batch. -/
theorem Ahead.next {first : ChainEntryRow} {rest : List ChainEntryRow}
    (hahead : Ahead chain cursor (t.pending.drop count))
    (hrows : first :: rest <+: t.pending.drop count)
    (hkey : ∀ row ∈ first :: rest, row.key = chain) :
    Ahead chain (some ((first :: rest).getLast (List.cons_ne_nil first rest)).position)
      (t.pending.drop (count + (first :: rest).length)) := by
  obtain ⟨tail, htail⟩ := hrows
  have hdrop : t.pending.drop (count + (first :: rest).length) = tail := by
    rw [← List.drop_drop, ← htail, List.drop_left]
  set last := (first :: rest).getLast (List.cons_ne_nil first rest) with hlast
  have hlastmem : last ∈ first :: rest := List.getLast_mem _
  have hnodup : ((first :: rest) ++ tail).Nodup :=
    htail ▸ (nodup_pending t).sublist (List.drop_sublist _ _)
  have hsorted : ((first :: rest) ++ tail).Pairwise fun a b => a.place ≤ b.place :=
    htail ▸ (pairwise_pending t).sublist (List.drop_sublist _ _)
  have hunmigrated : ∀ row ∈ (first :: rest) ++ tail, row ∈ t.unmigrated := fun row hrow =>
    (List.mem_insertionSort _).mp (List.mem_of_mem_drop (htail ▸ hrow))
  rw [hdrop]
  intro row hrow
  have hall : row ∈ (first :: rest) ++ tail := List.mem_append_right _ hrow
  refine ⟨(hahead row (htail ▸ hall)).1, fun hrowkey => after_some.mpr ?_⟩
  have hle := (List.pairwise_append.mp hsorted).2.2 last hlastmem row hrow
  have hne : last ≠ row := fun hsame =>
    (List.nodup_append'.mp hnodup).2.2 hlastmem (hsame ▸ hrow)
  have hlastkey : last.key = row.key := (hkey last hlastmem).trans hrowkey.symm
  refine lt_of_le_of_ne ?_ fun hposition => hne ?_
  · rw [ChainEntryRow.place, ChainEntryRow.place, Prod.Lex.toLex_le_toLex] at hle
    rcases hle with hlt | ⟨-, hle⟩
    · exact absurd (hlastkey ▸ hlt) (lt_irrefl _)
    · exact hle
  · exact place_inj t last (hunmigrated last (List.mem_append_left _ hlastmem)) row
      (hunmigrated row hall) (by rw [ChainEntryRow.place, ChainEntryRow.place, hlastkey, hposition])

/-- What is left of a table that is reached, once a chain is done. -/
def Beyond (R : MigrationRun) (chain : ChainPartitionKey) (u : HashChainEntries) : Prop :=
  R.options.batchSize = 0 ∨ ∀ row ∈ u.pending, chain < row.key

theorem beyond_of_empty
    (hahead : R.options.batchSize = 0 ∨ Ahead chain cursor u.pending)
    (hempty : u.selectNextBatch chain cursor R.options.batchSize = []) : Beyond R chain u := by
  by_cases hsize : R.options.batchSize = 0
  · exact .inl hsize
  · have hahead := hahead.resolve_left hsize
    rw [selectNextBatch_eq hahead, List.take_eq_nil_iff] at hempty
    refine .inr fun row hrow => ?_
    have hnone := List.filter_eq_nil_iff.mp (hempty.resolve_left hsize) row hrow
    rw [decide_eq_true_eq] at hnone
    exact lt_of_le_of_ne (hahead row hrow).1 (Ne.symm hnone)

/-- The loop over a chain: the rows to migrate come in the order of the migration. -/
theorem migrateChain_run (hdry : R.options.dryRun = false) (rounds : Nat)
    (progress : MigrationProgress) (hreached : Reached P t w.table)
    (hahead : R.options.batchSize = 0 ∨ Ahead chain cursor w.table.pending) :
    let e := (migrateChain P R chain rounds cursor progress).run w
    (Reached P t e.world.table ∧ e.world.table.pending ⊆ w.table.pending) ∧
      ∀ progress', e.result = .ok progress' → Beyond R chain e.world.table := by
  induction rounds generalizing cursor progress w with
  | zero => exact ⟨⟨hreached, List.Subset.refl _⟩, fun _ h => by cases h⟩
  | succ rounds ih =>
      have hselect := keeps_select (R := R) .selectNextBatch
        (fun t => t.selectNextBatch chain cursor R.options.batchSize) w
      unfold migrateChain
      rcases hrun : (select R .selectNextBatch fun t =>
        t.selectNextBatch chain cursor R.options.batchSize).run w with ⟨result, w₁, events⟩
      rw [hrun] at hselect
      cases result with
      | error e =>
          rw [Program.run_bind_error hrun]
          refine ⟨?_, fun _ h => by cases h⟩
          rw [show w₁.table = w.table from hselect]
          exact ⟨hreached, List.Subset.refl _⟩
      | ok rows =>
          rw [Program.run_bind_ok hrun]
          obtain ⟨-, hrows, rfl, -⟩ := run_select_eq_ok.mp hrun
          cases rows with
          | nil =>
              exact ⟨⟨hreached, List.Subset.refl _⟩, fun _ _ => beyond_of_empty hahead hrows⟩
          | cons first rest =>
              have hpositive : R.options.batchSize ≠ 0 := by
                intro hzero
                rw [HashChainEntries.selectNextBatch, page, hzero, List.take_zero] at hrows
                cases hrows
              have hahead := hahead.resolve_left hpositive
              obtain ⟨starts, count, hat⟩ := hreached
              rw [selectNextBatch_eq hahead] at hrows
              have hprefix : first :: rest <+: t.pending.drop count := by
                rw [← hat.pending_eq, ← hrows]
                exact (List.take_prefix _ _).trans (filter_key_ahead hahead)
              have hkey : ∀ row ∈ first :: rest, row.key = chain := by
                intro row hrow
                rw [← hrows] at hrow
                exact of_decide_eq_true (List.mem_filter.mp (List.mem_of_mem_take hrow)).2
              rw [hat.pending_eq] at hahead
              obtain ⟨starts', hat', hbatch⟩ := exists_isBatch hat hprefix hkey
              have hprocess := processBatchWithRetry_run
                (w := ⟨w.table, .selectNextBatch :: w.history⟩) hdry hbatch
                R.options.retryPerBatch .null hat' (le_refl count)
              dsimp only
              rcases hbatchRun : (processBatchWithRetry P R chain first rest
                R.options.retryPerBatch .null).run ⟨w.table, .selectNextBatch :: w.history⟩ with
                ⟨result, w₂, events'⟩
              rw [hbatchRun] at hprocess
              rw [max_eq_right (Nat.le_add_right count _)] at hprocess
              cases result with
              | error e =>
                  rw [Program.run_bind_error hbatchRun]
                  refine ⟨?_, fun _ h => by cases h⟩
                  rcases hprocess with ⟨hsame, -⟩ | hdone
                  · exact ⟨⟨starts', count, hsame⟩, pending_subset hat hsame (le_refl count)⟩
                  · exact ⟨⟨starts', _, hdone⟩, pending_subset hat hdone (Nat.le_add_right _ _)⟩
              | ok u =>
                  rcases hprocess with ⟨-, error, herror⟩ | hdone
                  · cases herror
                  · rw [Program.run_bind_ok hbatchRun]
                    have hnext := hahead.next hprefix hkey
                    rw [← hdone.pending_eq] at hnext
                    obtain ⟨⟨hreached', hsubset⟩, hbeyond⟩ := ih
                      (progress.advance first rest R.options.dryRun)
                      (w := w₂) ⟨starts', _, hdone⟩ (.inr hnext)
                    exact ⟨⟨hreached', List.Subset.trans hsubset
                      (pending_subset hat hdone (Nat.le_add_right _ _))⟩, hbeyond⟩

/-- The chains are done one after the other. -/
theorem migrateChains_run (hdry : R.options.dryRun = false) (rounds : Nat)
    {chains : List ChainPartitionKey} (hsorted : chains.Pairwise (· < ·))
    (progress : MigrationProgress) (hreached : Reached P t w.table)
    (hlisted : R.options.batchSize = 0 ∨ ∀ row ∈ w.table.pending, row.key ∈ chains) :
    Reached P t ((migrateChains P R rounds chains progress).run w).world.table := by
  induction chains generalizing progress w with
  | nil => exact hreached
  | cons chain chains ih =>
      rw [List.pairwise_cons] at hsorted
      have hahead : R.options.batchSize = 0 ∨ Ahead chain none w.table.pending := by
        refine hlisted.imp_right fun hlisted row hrow => ⟨?_, fun _ => after_none _⟩
        rcases List.mem_cons.mp (hlisted row hrow) with heq | hmem
        · exact heq.ge
        · exact (hsorted.1 row.key hmem).le
      have hchain := migrateChain_run hdry rounds progress hreached hahead
      unfold migrateChains
      rcases hrun : (migrateChain P R chain rounds none progress).run w with
        ⟨result, w₁, events⟩
      rw [hrun] at hchain
      cases result with
      | error e =>
          rw [Program.run_bind_error hrun]
          exact hchain.1.1
      | ok progress' =>
          rw [Program.run_bind_ok hrun]
          refine ih hsorted.2 progress' hchain.1.1 ?_
          rcases hlisted with hzero | hlisted
          · exact .inl hzero
          · refine (hchain.2 progress' rfl).imp_right fun hbeyond row hrow => ?_
            refine (List.mem_cons.mp (hlisted row (hchain.1.2 hrow))).resolve_left fun heq => ?_
            exact lt_irrefl _ (heq ▸ hbeyond row hrow)

/-- A statement that reads, and then a program that keeps to the tables that are reached. -/
theorem reached_select_bind {α β : Type} {statement : Statement} {read : HashChainEntries → α}
    {f : α → Migration β} (hreached : Reached P t w.table)
    (hf : ∀ a w', w'.table = w.table → read w.table = a → Reached P t ((f a).run w').world.table) :
    Reached P t ((select R statement read >>= f).run w).world.table := by
  have hselect := keeps_select (R := R) statement read w
  rcases hrun : (select R statement read).run w with ⟨result, w₁, events⟩
  rw [hrun] at hselect
  cases result with
  | error e =>
      rw [Program.run_bind_error hrun]
      exact (show w₁.table = w.table from hselect) ▸ hreached
  | ok a =>
      rw [Program.run_bind_ok hrun]
      exact hf a w₁ hselect (run_select_eq_ok.mp hrun).2.1

theorem pairwise_listMigrationChains (u : HashChainEntries) :
    u.listMigrationChains.Pairwise (· < ·) := by
  have hsorted : u.listMigrationChains.Pairwise (· ≤ ·) := pairwise_sorted id _
  have hnodup : u.listMigrationChains.Nodup :=
    (List.perm_insertionSort _ _).nodup_iff.mpr (List.nodup_dedup _)
  exact (hsorted.and hnodup).imp fun h => lt_of_le_of_ne h.1 h.2

theorem mem_listMigrationChains {row : ChainEntryRow} (hrow : row ∈ u.pending) :
    row.key ∈ u.listMigrationChains := by
  rw [listMigrationChains, List.mem_insertionSort, List.mem_dedup]
  exact List.mem_map_of_mem ((List.mem_insertionSort _).mp hrow)

/-- A dry run only reads. -/
theorem keeps_of_dryRun (hdry : R.options.dryRun = true) :
    Program.Keeps MigrationWorld.table (migrateHccV01ToV02 P R) := by
  have hchains : ∀ rounds chains progress, Program.Keeps MigrationWorld.table
      (migrateChains P R rounds chains progress) := by
    intro rounds chains
    induction chains with
    | nil => exact fun _ => Program.keeps_pure _ _
    | cons chain chains ih =>
        exact fun _ => Program.Keeps.bind (keeps_migrateChain hdry _ _ _ _) fun _ => ih _
  unfold migrateHccV01ToV02
  refine Program.Keeps.bind (fun _ => rfl) fun w => ?_
  refine Program.Keeps.bind (keeps_select _ _) fun total => ?_
  split
  next => exact Program.keeps_pure _ _
  next =>
    refine Program.Keeps.bind (keeps_select _ _) fun chains => ?_
    refine Program.Keeps.bind (hchains _ _ _) fun _ => ?_
    split
    next => exact Program.Keeps.bind keeps_checkPostBackfill fun _ => Program.keeps_pure _ _
    next => exact Program.keeps_pure _ _

/-- What follows the loops leaves the table alone. -/
theorem reached_bind {α β : Type} {x : Migration α} {f : α → Migration β}
    (hx : Reached P t (x.run w).world.table)
    (hf : ∀ a, Program.Keeps MigrationWorld.table (f a)) :
    Reached P t ((x >>= f).run w).world.table := by
  rcases hrun : x.run w with ⟨result, w₁, events⟩
  rw [hrun] at hx
  cases result with
  | error e =>
      rw [Program.run_bind_error hrun]
      exact hx
  | ok a =>
      rw [Program.run_bind_ok hrun]
      have hkept := hf a w₁
      exact (show ((f a).run w₁).world.table = w₁.table from hkept) ▸ hx

/-- A run leaves a table that is reached, whatever becomes of its statements. -/
theorem reached_after (hreached : Reached P t u) : Reached P t (R.after P u) := by
  cases hdry : R.options.dryRun with
  | true =>
      have hkept : R.after P u = u := keeps_of_dryRun hdry ⟨u, []⟩
      rwa [hkept]
  | false =>
      unfold MigrationRun.after migrateHccV01ToV02
      rw [Program.run_get_bind]
      refine reached_select_bind hreached fun n w hw _ => ?_
      dsimp only at hw
      split
      next => exact hw ▸ hreached
      next =>
        refine reached_select_bind (hw ▸ hreached) fun chains w' hw' hchains => ?_
        rw [hw] at hw' hchains
        subst hchains
        have hlisted : R.options.batchSize = 0 ∨
            ∀ row ∈ w'.table.pending, row.key ∈ u.listMigrationChains :=
          .inr fun row hrow => mem_listMigrationChains (hw' ▸ hrow)
        refine reached_bind (migrateChains_run hdry (u.rows.length + 1)
          (pairwise_listMigrationChains u) {} (hw' ▸ hreached) hlisted) fun progress => ?_
        exact Program.Keeps.bind keeps_checkPostBackfill fun _ => Program.keeps_pure _ _

theorem reached_afterRuns {runs : List MigrationRun} (hreached : Reached P t u) :
    Reached P t (afterRuns P runs u) := by
  induction runs generalizing u with
  | nil => exact hreached
  | cons R runs ih => exact ih (reached_after hreached)

/-- A run that returns and is no dry run leaves nothing to migrate. -/
theorem unmigrated_of_returned (hdry : R.options.dryRun = false) {progress : MigrationProgress}
    {events : List MigrationEvent}
    (hrun : (migrateHccV01ToV02 P R).run ⟨u, []⟩ = ⟨.ok progress, w', events⟩) :
    w'.table.unmigrated = [] := by
  unfold migrateHccV01ToV02 at hrun
  rw [Program.run_get_bind] at hrun
  simp only [hdry, if_true, Program.run_bind_eq_ok, run_select_eq_ok] at hrun
  obtain ⟨n, w₁, _, _, ⟨-, hcount, rfl, -⟩, hrun, -⟩ := hrun
  split at hrun
  next hzero =>
    simp only [Program.run_pure_eq_ok] at hrun
    obtain ⟨-, rfl, -⟩ := hrun
    exact List.length_eq_zero_iff.mp (hcount.trans hzero)
  next =>
    simp only [Program.run_bind_eq_ok] at hrun
    obtain ⟨_, w₂, _, _, -, ⟨_, w₃, _, _, -, ⟨_, w₄, _, _, hcheck, hrun, -⟩, -⟩, -⟩ := hrun
    obtain ⟨hsame, hempty⟩ := checkPostBackfill_eq_ok hcheck
    simp only [Program.run_pure_eq_ok] at hrun
    obtain ⟨-, rfl, -⟩ := hrun
    rw [hsame]
    exact hempty

/-- With nothing to migrate, a run changes nothing. -/
theorem after_of_migrated (hmigrated : u.unmigrated = []) : R.after P u = u := by
  unfold MigrationRun.after migrateHccV01ToV02
  rw [Program.run_get_bind]
  have hselect := keeps_select (R := R) .preCheck (fun t => t.unmigrated.length) ⟨u, []⟩
  rcases hrun : (select R .preCheck fun t => t.unmigrated.length).run ⟨u, []⟩ with
    ⟨result, w₁, events⟩
  rw [hrun] at hselect
  cases result with
  | error e =>
      rw [Program.run_bind_error hrun]
      exact hselect
  | ok n =>
      rw [Program.run_bind_ok hrun]
      have hcount := (run_select_eq_ok.mp hrun).2.1
      rw [hmigrated, List.length_nil] at hcount
      subst hcount
      exact hselect

end Runs

end Coivitas.Crypto
