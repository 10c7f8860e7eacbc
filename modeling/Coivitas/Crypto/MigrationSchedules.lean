import Coivitas.Crypto.MigrationRuns

/-! # Every schedule happens

What the invariant of the migration allows, some runs do: each of them commits one batch of
the division and dies before its next statement.
-/

namespace Coivitas.Crypto

open Foundation HashChainEntries

/-- A run that dies after its first batch. -/
def oneBatch (size : Nat) : MigrationRun where
  options := { batchSize := size, retryPerBatch := 1 }
  fate history := if .commit ∈ history.tail then .killed else .answered

variable {P : HccPorts} {size count : Nat} {t u : HashChainEntries} {starts : String → Bool}
  {w : MigrationWorld} {first : ChainEntryRow} {rest : List ChainEntryRow}

/-! ## Statements before and after the commit -/

section Statements

variable {α : Type} {statement : Statement}

theorem run_query_open {act : HashChainEntries → Except MigrationError (α × HashChainEntries)}
    {a : α} {table : HashChainEntries} (hopen : .commit ∉ w.history)
    (hact : act w.table = .ok (a, table)) :
    (query (oneBatch size) statement act).run w =
      ⟨.ok a, ⟨table, statement :: w.history⟩, []⟩ :=
  run_query_eq_ok.mpr ⟨if_neg hopen, table, hact, rfl, rfl⟩

theorem run_select_open {read : HashChainEntries → α} (hopen : .commit ∉ w.history) :
    (select (oneBatch size) statement read).run w =
      ⟨.ok (read w.table), ⟨w.table, statement :: w.history⟩, []⟩ :=
  run_query_open hopen rfl

theorem run_select_closed {read : HashChainEntries → α} (hclosed : .commit ∈ w.history) :
    (select (oneBatch size) statement read).run w =
      ⟨.error .killed, ⟨w.table, statement :: w.history⟩, []⟩ := by
  have hfate : (oneBatch size).fate (statement :: w.history) = .killed := if_pos hclosed
  simp only [select, query, Program.run, hfate]

/-- A transaction whose body returns is committed. -/
theorem run_transaction_open {body : Migration α} {a : α} {w' : MigrationWorld}
    {events : List MigrationEvent} (hopen : .commit ∉ w.history)
    (hbody : body.run ⟨w.table, .begin :: w.history⟩ = ⟨.ok a, w', events⟩)
    (hopen' : .commit ∉ w'.history) :
    (transaction (oneBatch size) body).run w =
      ⟨.ok a, ⟨w'.table, .commit :: w'.history⟩, events⟩ := by
  have hcommit : ∀ before, (commit (oneBatch size) before).run w' =
      ⟨.ok (), ⟨w'.table, .commit :: w'.history⟩, []⟩ := by
    intro before
    have hfate : (oneBatch size).fate (.commit :: w'.history) = .answered := if_neg hopen'
    simp only [commit, Program.run, hfate]
  unfold transaction
  rw [Program.run_bind_ok (run_select_open hopen), Program.run_get_bind,
    Program.run_bind_ok (Program.run_tryCatch_ok hbody), Program.run_bind_ok (hcommit _)]
  simp [Execution.after, Program.run, pure]

end Statements

/-! ## One batch -/

variable [LinearOrder ChainPartitionKey]

theorem processRows_open {rows : List ChainEntryRow} {previous : String}
    (hat : t.At P starts count w.table) (hrows : rows <+: t.pending.drop count)
    (hfollow : Follow P t starts previous rows) (hclear : t.Clear P starts (count + rows.length))
    (hopen : .commit ∉ w.history) :
    ∃ w' events, (processRows P (oneBatch size) previous rows).run w = ⟨.ok (), w', events⟩ ∧
      .commit ∉ w'.history := by
  induction rows generalizing count previous w with
  | nil => exact ⟨w, [], rfl, hopen⟩
  | cons row rows ih =>
      obtain ⟨hget, hrest⟩ := getElem?_of_leading hrows
      obtain ⟨hlink, hfollow⟩ := hfollow
      rw [List.length_cons, Nat.add_comm rows.length, ← Nat.add_assoc] at hclear
      have hnext : t.Clear P starts (count + 1) := hclear.of_le (Nat.le_add_right _ _)
      have hhash : row.Hashable P :=
        hnext.hashable row ((mem_take_succ hget).mpr (.inr rfl))
      obtain ⟨u', hupdate⟩ := hat.exists_update hget hlink hnext
      have hat' : t.At P starts (count + 1) u' := by
        have hstep := hat.update hget le_rfl hhash hlink hupdate
        rwa [max_eq_right (Nat.le_succ count)] at hstep
      have hopen' : Statement.commit ∉ Statement.update :: w.history := by simpa using hopen
      obtain ⟨w', events, hrun, hafter⟩ := ih (w := ⟨u', .update :: w.history⟩) hat' hrest hfollow
        hclear hopen'
      refine ⟨w', events, ?_, hafter⟩
      have hcomputed : recomputeRow P row = .ok (row.key.jcs P, row.newHash P) := hhash
      simp only [processRows, Program.run_ofExcept_bind, hcomputed, Except.mapError]
      refine Program.run_bind_eq_ok.mpr ⟨(), _, [], events, run_query_open hopen ?_, hrun, rfl⟩
      simp only [hupdate]

theorem fetchPrevCommittedHash_open {previous : String} (hat : t.At P starts count w.table)
    (hfirst : t.pending[count]? = some first) (hanchor : t.anchor P first = some previous)
    (hopen : .commit ∉ w.history) :
    ∃ w' events, (fetchPrevCommittedHash (oneBatch size) first.key first).run w =
      ⟨.ok previous, w', events⟩ ∧ w'.table = w.table ∧ .commit ∉ w'.history := by
  unfold fetchPrevCommittedHash
  by_cases hzero : first.chainPosition = 0
  · rw [anchor, if_pos hzero] at hanchor
    obtain rfl := Option.some.inj hanchor
    exact ⟨w, [], by simp [hzero], rfl, hopen⟩
  · rw [anchor, if_neg hzero, Option.bind_eq_some_iff] at hanchor
    obtain ⟨q, hfind, hprevious⟩ := hanchor
    have hmem := List.mem_of_find?_eq_some hfind
    rw [partition, List.mem_filter, decide_eq_true_eq] at hmem
    have hposition : q.chainPosition = first.chainPosition - 1 :=
      of_decide_eq_true (List.find?_some
        (p := fun q : ChainEntryRow => decide (q.chainPosition = first.chainPosition - 1)) hfind)
    refine ⟨⟨w.table, .fetchPrevCommittedHash :: w.history⟩, [], ?_, rfl, by simpa using hopen⟩
    simp only [hzero, if_false]
    refine Program.run_bind_eq_ok.mpr ⟨_, _, [], [], run_select_open hopen, ?_, rfl⟩
    rw [find?_partition hat, hfind, Option.map_some]
    by_cases hunmigrated : q.Unmigrated
    · have hdone : q ∈ t.pending.take count :=
        mem_take_of_lt hfirst (mem_pending.mpr ⟨hmem.1, hunmigrated⟩) hmem.2 (by omega)
      rw [if_pos hunmigrated] at hprevious
      simpa [hdone, relinkRow, ChainEntryRow.relink] using hprevious
    · have hkept : q ∉ t.pending.take count := fun hdone =>
        hunmigrated (mem_pending.mp (List.take_subset _ _ hdone)).2
      rw [if_neg hunmigrated] at hprevious
      by_cases hversion : q.hccVersion = "2.0.0"
      · rw [if_pos hversion] at hprevious
        simpa [hkept, hversion] using hprevious
      · rw [if_neg hversion] at hprevious
        cases hprevious

/-- The batch is migrated and committed at the first attempt. -/
theorem processBatchWithRetry_open {previous : String} (hat : t.At P starts count w.table)
    (hrows : first :: rest <+: t.pending.drop count) (hanchor : t.anchor P first = some previous)
    (hfollow : Follow P t starts previous (first :: rest))
    (hclear : t.Clear P starts (count + (first :: rest).length)) (hopen : .commit ∉ w.history) :
    ∃ w' events, (processBatchWithRetry P (oneBatch size) first.key first rest 1 .null).run w =
        ⟨.ok (), w', events⟩ ∧
      t.At P starts (count + (first :: rest).length) w'.table ∧ .commit ∈ w'.history := by
  have hopen' : Statement.commit ∉ Statement.begin :: Statement.connect :: w.history := by
    simpa using hopen
  obtain ⟨w₁, events₁, hfetch, htable, hopen₁⟩ : ∃ w' events,
      (fetchPrevCommittedHash (oneBatch size) first.key first).run
          ⟨w.table, .begin :: .connect :: w.history⟩ = ⟨.ok previous, w', events⟩ ∧
        w'.table = w.table ∧ .commit ∉ w'.history :=
    fetchPrevCommittedHash_open (w := ⟨w.table, .begin :: .connect :: w.history⟩) hat
      (getElem?_of_leading hrows).1 hanchor hopen'
  have hat₁ : t.At P starts count w₁.table := htable ▸ hat
  obtain ⟨w₂, events₂, hprocess, hopen₂⟩ : ∃ w' events,
      (processRows P (oneBatch size) previous (first :: rest)).run w₁ = ⟨.ok (), w', events⟩ ∧
        .commit ∉ w'.history :=
    processRows_open hat₁ hrows hfollow hclear hopen₁
  have hbody : (do
        let anchor ← fetchPrevCommittedHash (oneBatch size) first.key first
        processRows P (oneBatch size) anchor (first :: rest)).run
          ⟨w.table, .begin :: .connect :: w.history⟩ = ⟨.ok (), w₂, events₁ ++ events₂⟩ :=
    Program.run_bind_eq_ok.mpr ⟨previous, w₁, events₁, events₂, hfetch, hprocess, rfl⟩
  have hconnect : Statement.commit ∉ Statement.connect :: w.history := by simpa using hopen
  have hrun : (processBatch P (oneBatch size) first.key first rest).run w =
      ⟨.ok (), ⟨w₂.table, .commit :: w₂.history⟩, events₁ ++ events₂⟩ :=
    Program.run_bind_eq_ok.mpr ⟨(), _, [], _, run_select_open hopen,
      run_transaction_open hconnect hbody hopen₂, rfl⟩
  refine ⟨_, _, Program.run_tryCatch_ok hrun, ?_, List.mem_cons_self⟩
  have hdone := processRows_eq_ok (R := oneBatch size) rfl hat₁ hrows le_rfl hfollow hprocess
  rwa [max_eq_right (Nat.le_add_right _ _)] at hdone

omit [LinearOrder ChainPartitionKey] in
/-- The run dies when it asks for the next batch. -/
theorem migrateChain_closed (hclosed : .commit ∈ w.history) (chain : ChainPartitionKey)
    (rounds : Nat) (cursor : Option (Nat ×ₗ String)) (progress : MigrationProgress) :
    ∃ w' e events, (migrateChain P (oneBatch size) chain rounds cursor progress).run w =
      ⟨.error e, w', events⟩ ∧ w'.table = w.table := by
  cases rounds with
  | zero => exact ⟨w, .unbounded, [], rfl, rfl⟩
  | succ rounds =>
      exact ⟨_, .killed, [], Program.run_bind_error (run_select_closed hclosed), rfl⟩

/-! ## One run -/

theorem filter_key_take (hrows : first :: rest <+: u.pending)
    (hkey : ∀ row ∈ first :: rest, row.key = first.key) :
    (u.pending.filter fun row => row.key = first.key).take (first :: rest).length =
      first :: rest := by
  obtain ⟨tail, htail⟩ := hrows
  rw [← htail, List.filter_append, List.filter_eq_self.mpr (by simpa using hkey), List.take_left]

theorem key_le_of_head {row : ChainEntryRow} (hfirst : u.pending[0]? = some first)
    (hrow : row ∈ u.pending) : first.key ≤ row.key := by
  obtain ⟨rows, hrows⟩ : ∃ rows, u.pending = first :: rows := by
    cases hpending : u.pending with
    | nil => simp [hpending] at hfirst
    | cons row rows =>
        rw [hpending] at hfirst
        exact ⟨rows, by rw [Option.some.inj hfirst]⟩
  have hsorted := pairwise_pending u
  rw [hrows] at hrow hsorted
  rcases List.mem_cons.mp hrow with rfl | hrest
  · exact le_rfl
  · exact ChainEntryRow.key_le_of_place_le ((List.pairwise_cons.mp hsorted).1 row hrest)

/-- The chain of the first row to migrate comes first. -/
theorem listMigrationChains_eq_cons (hfirst : u.pending[0]? = some first) :
    ∃ chains, u.listMigrationChains = first.key :: chains := by
  have hmem := mem_listMigrationChains (List.mem_of_getElem? hfirst)
  have hsorted := pairwise_listMigrationChains u
  cases hchains : u.listMigrationChains with
  | nil => simp [hchains] at hmem
  | cons chain chains =>
      rw [hchains] at hmem hsorted
      have hlisted : chain ∈ u.listMigrationChains := by simp [hchains]
      rw [listMigrationChains, List.mem_insertionSort, List.mem_dedup, List.mem_map] at hlisted
      obtain ⟨row, hrow, rfl⟩ := hlisted
      have hpending : row ∈ u.pending := (List.mem_insertionSort _).mpr hrow
      have hle : first.key ≤ row.key := key_le_of_head hfirst hpending
      rcases List.mem_cons.mp hmem with hsame | hlater
      · rw [hsame]
        exact ⟨chains, rfl⟩
      · exact absurd ((List.pairwise_cons.mp hsorted).1 _ hlater) hle.not_gt

/-- The loop over the first chain ends after the batch. -/
theorem migrateChain_open {previous : String} (rounds : Nat) (progress : MigrationProgress)
    (hat : t.At P starts count w.table) (hrows : first :: rest <+: t.pending.drop count)
    (hselected : w.table.selectNextBatch first.key none size = first :: rest)
    (hanchor : t.anchor P first = some previous)
    (hfollow : Follow P t starts previous (first :: rest))
    (hclear : t.Clear P starts (count + (first :: rest).length)) (hopen : .commit ∉ w.history) :
    ∃ w' e events, (migrateChain P (oneBatch size) first.key (rounds + 1) none progress).run w =
        ⟨.error e, w', events⟩ ∧ t.At P starts (count + (first :: rest).length) w'.table := by
  have hselect : (select (oneBatch size) .selectNextBatch fun t =>
      t.selectNextBatch first.key none (oneBatch size).options.batchSize).run w =
        ⟨.ok (first :: rest), ⟨w.table, .selectNextBatch :: w.history⟩, []⟩ := by
    rw [run_select_open hopen]
    exact hselected ▸ rfl
  obtain ⟨w₁, events₁, hbatch, hdone, hclosed⟩ : ∃ w' events,
      (processBatchWithRetry P (oneBatch size) first.key first rest 1 .null).run
          ⟨w.table, .selectNextBatch :: w.history⟩ = ⟨.ok (), w', events⟩ ∧
        t.At P starts (count + (first :: rest).length) w'.table ∧ .commit ∈ w'.history :=
    processBatchWithRetry_open (w := ⟨w.table, .selectNextBatch :: w.history⟩) hat hrows hanchor
      hfollow hclear (by simpa using hopen)
  obtain ⟨w₂, e, events₂, hrest, htable⟩ : ∃ w' e events,
      (migrateChain P (oneBatch size) first.key rounds
          (some ((first :: rest).getLast (List.cons_ne_nil first rest)).position)
          (progress.advance first rest false)).run w₁ = ⟨.error e, w', events⟩ ∧
        w'.table = w₁.table :=
    migrateChain_closed hclosed _ _ _ _
  have hemit : (Program.emit (.progress (progress.advance first rest false)) : Migration Unit).run w₁ =
      ⟨.ok (), w₁, [.progress (progress.advance first rest false)]⟩ := rfl
  have hloop : (migrateChain P (oneBatch size) first.key (rounds + 1) none progress).run w =
      ((((migrateChain P (oneBatch size) first.key rounds
        (some ((first :: rest).getLast (List.cons_ne_nil first rest)).position)
        (progress.advance first rest false)).run w₁).after
          [.progress (progress.advance first rest false)]).after events₁).after [] := by
    refine (Program.run_bind_ok hselect).trans (congrArg _ ?_)
    refine (Program.run_bind_ok hbatch).trans (congrArg _ ?_)
    exact Program.run_bind_ok hemit
  refine ⟨w₂, e, events₁ ++ (.progress (progress.advance first rest false) :: events₂), ?_, htable ▸ hdone⟩
  rw [hloop, hrest]
  rfl

theorem oneBatch_after {previous : String} (hat : t.At P starts count u)
    (hrows : first :: rest <+: t.pending.drop count)
    (hkey : ∀ row ∈ first :: rest, row.key = first.key) (hanchor : t.anchor P first = some previous)
    (hfollow : Follow P t starts previous (first :: rest))
    (hclear : t.Clear P starts (count + (first :: rest).length)) :
    t.At P starts (count + (first :: rest).length)
      ((oneBatch (first :: rest).length).after P u) := by
  have hleading := hrows
  rw [← hat.pending_eq] at hleading
  have hfirst : u.pending[0]? = some first := by
    obtain ⟨tail, htail⟩ := hleading
    rw [← htail]
    rfl
  obtain ⟨chains, hchains⟩ := listMigrationChains_eq_cons hfirst
  have hahead : Ahead first.key none u.pending := fun row hrow =>
    ⟨key_le_of_head hfirst hrow, fun _ => after_none _⟩
  have hselected : u.selectNextBatch first.key none (first :: rest).length = first :: rest := by
    rw [selectNextBatch_eq hahead, filter_key_take hleading hkey]
  have hcount : u.unmigrated.length ≠ 0 := by
    rw [ne_eq, List.length_eq_zero_iff]
    intro hnone
    simp [pending, hnone] at hfirst
  set R := oneBatch (first :: rest).length with hR
  have hpre : (select R .preCheck fun t => t.unmigrated.length).run ⟨u, []⟩ =
      ⟨.ok u.unmigrated.length, ⟨u, [.preCheck]⟩, []⟩ := run_select_open (by simp)
  have hlist : (select R .listMigrationChains fun t => t.listMigrationChains).run
      ⟨u, [.preCheck]⟩ =
        ⟨.ok (first.key :: chains), ⟨u, [.listMigrationChains, .preCheck]⟩, []⟩ := by
    rw [run_select_open (by simp)]
    exact hchains ▸ rfl
  obtain ⟨w', e, events, hloop, hdone⟩ : ∃ w' e events,
      (migrateChain P R first.key (u.rows.length + 1) none {}).run
          ⟨u, [.listMigrationChains, .preCheck]⟩ = ⟨.error e, w', events⟩ ∧
        t.At P starts (count + (first :: rest).length) w'.table :=
    migrateChain_open (w := ⟨u, [.listMigrationChains, .preCheck]⟩) _ _ hat hrows hselected hanchor
      hfollow hclear (by simp)
  have hrun : (migrateHccV01ToV02 P R).run ⟨u, []⟩ =
      ((⟨.error e, w', events⟩ : Execution _ _ _ _).after []).after [] := by
    unfold migrateHccV01ToV02
    rw [Program.run_get_bind]
    refine (Program.run_bind_ok hpre).trans (congrArg _ ?_)
    rw [if_neg hcount]
    refine (Program.run_bind_ok hlist).trans (congrArg _ ?_)
    exact Program.run_bind_error (Program.run_bind_error hloop)
  rw [MigrationRun.after, hrun]
  exact hdone

/-! ## All runs of a division -/

/-- A row that is not linked like a first row follows a row of its partition. -/
theorem key_eq_of_link_ne {i : Nat} {q r : ChainEntryRow} (hq : t.pending[i]? = some q)
    (hr : t.pending[i + 1]? = some r) (hlink : t.link P starts r ≠ t.anchor P r) :
    r.key = q.key ∧ starts r.entryId = false := by
  have hstarts : starts r.entryId = false := by
    by_contra hfirst
    exact hlink (link_of_starts (by simpa using hfirst))
  refine ⟨?_, hstarts⟩
  cases hbefore : t.before r with
  | none => exact absurd (by simp [link, hstarts, hbefore]) hlink
  | some p =>
      obtain ⟨hp, hkey, hlt, -⟩ := before_eq_some hbefore
      have hle : p.key ≤ q.key := ChainEntryRow.key_le_of_place_le
        (place_le_of_mem_take hq (mem_take_of_lt hr hp hkey hlt))
      have hle' : q.key ≤ r.key := ChainEntryRow.key_le_of_place_le (place_le_succ hq hr)
      exact le_antisymm (hkey ▸ hle) hle'

theorem rest_of_link_ne {i : Nat} {rows : List ChainEntryRow} (hfirst : t.pending[i]? = some first)
    (hrows : rows <+: t.pending.drop (i + 1))
    (hlinks : ∀ row ∈ rows, t.link P starts row ≠ t.anchor P row) :
    ∀ row ∈ rows, row.key = first.key ∧ starts row.entryId = false := by
  induction rows generalizing i first with
  | nil => simp
  | cons row rows ih =>
      obtain ⟨hget, hnext⟩ := getElem?_of_leading hrows
      rw [List.forall_mem_cons] at hlinks
      have hrow := key_eq_of_link_ne hfirst hget hlinks.1
      refine List.forall_mem_cons.mpr ⟨hrow, fun row' hrow' => ?_⟩
      obtain ⟨hkey, hstarts⟩ := ih hget hnext hlinks.2 row' hrow'
      exact ⟨hkey.trans hrow.1, hstarts⟩

theorem link_of_head (hfirst : t.pending[0]? = some first) :
    t.link P starts first = t.anchor P first := by
  have hbefore : t.before first = none := by
    refine before_eq_none.mpr fun q hq hkey => ?_
    by_contra hlt
    have hnone := mem_take_of_lt hfirst hq hkey (by omega)
    simp at hnone
  simp only [link, hbefore, ite_self]

/-- Nothing stops the migration of so many rows: then some runs migrate them. The induction
is on their number; the last batch begins at the last row linked like a first one. -/
theorem exists_runs (hclear : t.Clear P starts count) (hle : count ≤ t.pending.length) :
    ∃ runs, t.At P starts count (afterRuns P runs t) := by
  classical
  induction count using Nat.strong_induction_on with
  | _ count ih =>
      rcases Nat.eq_zero_or_pos count with rfl | hpos
      · exact ⟨[], At.zero⟩
      · let Starts : Nat → Prop := fun j =>
          ∃ row, t.pending[j]? = some row ∧ t.link P starts row = t.anchor P row
        have hzero : Starts 0 :=
          ⟨_, List.getElem?_eq_getElem (by omega), link_of_head (List.getElem?_eq_getElem _)⟩
        let j := Nat.findGreatest Starts (count - 1)
        obtain ⟨first, hfirst, hlink⟩ : Starts j := Nat.findGreatest_spec (Nat.zero_le _) hzero
        have hj : j ≤ count - 1 := Nat.findGreatest_le _
        have hinner : ∀ k, j < k → k ≤ count - 1 → ¬ Starts k := fun k hlt hle =>
          Nat.findGreatest_is_greatest hlt hle
        obtain ⟨runs, hat⟩ := ih j (by omega) (hclear.of_le (by omega)) (by omega)
        set rest := (t.pending.drop (j + 1)).take (count - (j + 1)) with hrest
        have hdrop : t.pending.drop j = first :: t.pending.drop (j + 1) := by
          obtain ⟨hj, rfl⟩ := List.getElem?_eq_some_iff.mp hfirst
          exact List.drop_eq_getElem_cons hj
        have hrows : first :: rest <+: t.pending.drop j := by
          rw [hdrop, List.prefix_cons_inj]
          exact List.take_prefix _ _
        have hlength : j + (first :: rest).length = count := by
          rw [List.length_cons, hrest, List.length_take, List.length_drop]
          omega
        have hlinks : ∀ row ∈ rest, t.link P starts row ≠ t.anchor P row := by
          intro row hrow hsame
          obtain ⟨k, hk⟩ := List.mem_iff_getElem?.mp hrow
          rw [hrest, List.getElem?_take] at hk
          split at hk
          next hlt =>
            rw [List.getElem?_drop] at hk
            exact hinner (j + 1 + k) (by omega) (by omega) ⟨row, hk, hsame⟩
          next => cases hk
        have hshape := rest_of_link_ne hfirst (List.take_prefix _ _) hlinks
        have hmem : first ∈ t.pending.take count :=
          List.take_subset_take_left _ (by omega) ((mem_take_succ hfirst).mpr (.inr rfl))
        obtain ⟨previous, hprevious⟩ := Option.isSome_iff_exists.mp (hclear.linked first hmem)
        have hfollow : Follow P t starts previous (first :: rest) :=
          ⟨hprevious, follow_of_rest hfirst (List.take_prefix _ _)
            (fun row hrow => (hshape row hrow).1) fun row hrow => (hshape row hrow).2⟩
        refine ⟨runs ++ [oneBatch (first :: rest).length], ?_⟩
        rw [afterRuns, List.foldl_append]
        have hdone := oneBatch_after hat hrows
          (List.forall_mem_cons.mpr ⟨rfl, fun row hrow => (hshape row hrow).1⟩)
          (hlink.symm.trans hprevious) hfollow (hlength.symm ▸ hclear)
        rwa [hlength] at hdone

end Coivitas.Crypto
