import Coivitas.Policy.EnvelopeExclusivity

/-! # The rows of the envelope ledger over a run

What a step does to the rows: it locks, writes, commits or restores rows that are there,
drops rows that were never committed, and a claim adds one row at the end. So a committed
row stays, with its columns, and changes only once, when it is pending.
-/

namespace Coivitas.Policy.EnvelopeLedger

open Foundation

/-! ## One row -/

/-- A committed state is as it was, or it was pending and is final or expired now. -/
def RowState.Advances (state state' : RowState) : Prop :=
  state' = state ∨ state.status = .pending ∧ state'.status ≠ .pending

theorem RowState.Advances.trans {state state' state'' : RowState} (hfirst : state.Advances state')
    (hsecond : state'.Advances state'') : state.Advances state'' := by
  obtain rfl | ⟨hpending, hdone⟩ := hfirst
  · exact hsecond
  · obtain rfl | ⟨hpending', -⟩ := hsecond
    · exact .inr ⟨hpending, hdone⟩
    · exact absurd hpending' hdone

/-- What a step does to a row that is there. -/
structure LedgerRow.Moves (row row' : LedgerRow) : Prop where
  id : row'.id = row.id
  envelopeId : row'.envelopeId = row.envelopeId
  ttlSeconds : row'.ttlSeconds = row.ttlSeconds
  claimerId : row'.claimerId = row.claimerId
  claimedAt : row'.claimedAt = row.claimedAt
  stored : row'.stored = row.stored ∨ row'.stored = some row'.current
  current : row'.current = row.current ∨
    (row.current.status = .pending ∧ row'.current.status ≠ .pending) ∨
    row.stored = some row'.current

/-- What its transaction sees of a row comes after what was committed of it. -/
def LedgerRow.Ordered (row : LedgerRow) : Prop := ∀ state ∈ row.stored, state.Advances row.current

theorem LedgerRow.Moves.refl (row : LedgerRow) : row.Moves row :=
  ⟨rfl, rfl, rfl, rfl, rfl, .inl rfl, .inl rfl⟩

section Moves

variable {row row' : LedgerRow}

theorem LedgerRow.Ordered.current (hordered : row.Ordered) (hmoves : row.Moves row') :
    ∀ state ∈ row.stored, state.Advances row'.current := by
  intro state hstate
  have hadvances := hordered state hstate
  obtain hsame | ⟨hpending, hdone⟩ | hrestored := hmoves.current
  · rwa [hsame]
  · obtain heq | ⟨-, hne⟩ := hadvances
    · exact .inr ⟨heq ▸ hpending, hdone⟩
    · exact absurd hpending hne
  · obtain rfl : state = row'.current := Option.some.inj (hstate.symm.trans hrestored)
    exact .inl rfl

theorem LedgerRow.Ordered.moves (hordered : row.Ordered) (hmoves : row.Moves row') :
    row'.Ordered := by
  intro state hstate
  obtain hsame | hcommitted := hmoves.stored
  · exact hordered.current hmoves state (hsame ▸ hstate)
  · exact .inl (Option.some.inj (hcommitted.symm.trans hstate))

/-- A committed row stays, and its state advances. -/
theorem LedgerRow.Ordered.stored (hordered : row.Ordered) (hmoves : row.Moves row') :
    ∀ state ∈ row.stored, ∃ state' ∈ row'.stored, state.Advances state' := by
  intro state hstate
  obtain hsame | hcommitted := hmoves.stored
  · exact ⟨state, hsame ▸ hstate, .inl rfl⟩
  · exact ⟨row'.current, hcommitted, hordered.current hmoves state hstate⟩

end Moves

/-! ## All rows -/

/-- The rows move, and some that were never committed are dropped. -/
def RowsMove (rows rows' : List LedgerRow) : Prop :=
  ∃ f : LedgerRow → Option LedgerRow, rows' = rows.filterMap f ∧
    (∀ row ∈ rows, ∀ row' ∈ f row, row.Moves row') ∧ ∀ row ∈ rows, f row = none → row.stored = none

namespace RowsMove

theorem refl (rows : List LedgerRow) : RowsMove rows rows :=
  ⟨some, List.filterMap_some.symm, fun row _ row' hrow' => Option.mem_some.mp hrow' ▸ .refl row,
    fun _ _ hnone => by cases hnone⟩

theorem map {rows : List LedgerRow} {f : LedgerRow → LedgerRow}
    (hmoves : ∀ row ∈ rows, row.Moves (f row)) : RowsMove rows (rows.map f) := by
  refine ⟨fun row => some (f row), ?_, ?_, fun _ _ hnone => by cases hnone⟩
  · rw [← List.filterMap_eq_map]
    rfl
  · rintro row hrow _ ⟨⟩
    exact hmoves row hrow

theorem change {s : LedgerSystem} {p : LedgerRow → Prop} [DecidablePred p]
    {f : LedgerRow → LedgerRow} (hmoves : ∀ row ∈ s.rows, p row → row.Moves (f row)) :
    RowsMove s.rows (s.change p f).rows := by
  refine map fun row hrow => ?_
  split
  next hp => exact hmoves row hrow hp
  next => exact .refl row

theorem rollback (s : LedgerSystem) (i : Nat) : RowsMove s.rows (s.rollback i).rows := by
  refine ⟨LedgerSystem.rollbackRow i, rfl, fun row hrow row' hrow' => ?_, fun row hrow hnone => ?_⟩
  · unfold LedgerSystem.rollbackRow at hrow'
    split at hrow'
    next =>
      obtain ⟨state, hstate, rfl⟩ := Option.map_eq_some_iff.mp hrow'
      exact ⟨rfl, rfl, rfl, rfl, rfl, .inl rfl, .inr (.inr hstate)⟩
    next =>
      cases hrow'
      exact .refl row
  · unfold LedgerSystem.rollbackRow at hnone
    split at hnone
    next => exact Option.map_eq_none_iff.mp hnone
    next => cases hnone

theorem commit (s : LedgerSystem) (i : Nat) (result : LedgerResult) :
    RowsMove s.rows (s.commit i result).rows := by
  refine map fun row _ => ?_
  split
  next => exact ⟨rfl, rfl, rfl, rfl, rfl, .inr rfl, .inl rfl⟩
  next => exact .refl row

variable {rows rows' : List LedgerRow}

/-- Where a row comes from. -/
theorem mem (hmove : RowsMove rows rows') {row' : LedgerRow} (hrow' : row' ∈ rows') :
    ∃ row ∈ rows, row.Moves row' := by
  obtain ⟨f, rfl, hmoves, -⟩ := hmove
  obtain ⟨row, hrow, hf⟩ := List.mem_filterMap.mp hrow'
  exact ⟨row, hrow, hmoves row hrow row' hf⟩

/-- A committed row is still there. -/
theorem kept (hmove : RowsMove rows rows') {row : LedgerRow} (hrow : row ∈ rows)
    (hstored : row.stored ≠ none) : ∃ row' ∈ rows', row.Moves row' := by
  obtain ⟨f, rfl, hmoves, hdropped⟩ := hmove
  cases hf : f row with
  | none => exact absurd (hdropped row hrow hf) hstored
  | some row' => exact ⟨row', List.mem_filterMap.mpr ⟨row, hrow, hf⟩, hmoves row hrow row' hf⟩

theorem ids (hmove : RowsMove rows rows') :
    (rows'.map LedgerRow.id).Sublist (rows.map LedgerRow.id) := by
  obtain ⟨f, rfl, hmoves, hdropped⟩ := hmove
  clear hdropped
  induction rows with
  | nil => exact List.Sublist.refl _
  | cons row rows ih =>
      obtain ⟨hrow, hrows⟩ := List.forall_mem_cons.mp hmoves
      rw [List.map_cons]
      cases hf : f row with
      | none =>
          rw [List.filterMap_cons_none hf]
          exact (ih hrows).cons _
      | some row' =>
          rw [List.filterMap_cons_some hf, List.map_cons, (hrow row' hf).id]
          exact (ih hrows).cons_cons _

end RowsMove

/-! ## One step -/

/-- The rows after a step of call `i`: moved, and perhaps with the row of its claim. -/
def RowsStep (s s' : LedgerSystem) (i : Nat) : Prop :=
  ∃ moved, RowsMove s.rows moved ∧
    (s'.rows = moved ∧ s'.nextId = s.nextId ∨
      ∃ envelopeId ttl claimerId now, s'.rows = moved ++ [LedgerSystem.newRow i s.nextId envelopeId
          ttl claimerId now] ∧ s'.nextId = s.nextId + 1 ∧
        ∃ call ∈ s.calls.get? i, call.Claims envelopeId)

theorem RowsStep.of_move {s s' : LedgerSystem} {i : Nat} (hmove : RowsMove s.rows s'.rows)
    (hnext : s'.nextId = s.nextId) : RowsStep s s' i :=
  ⟨s'.rows, hmove, .inl ⟨rfl, hnext⟩⟩

section Statements

variable {s s' : LedgerSystem} {i : Nat} {t : LedgerTransaction} {now : Int}
  {seen : List (Nat × LedgerClaimStatus)}

theorem LedgerRow.Moves.lock (row : LedgerRow) (i : Nat) :
    row.Moves { row with holder := some i } :=
  ⟨rfl, rfl, rfl, rfl, rfl, .inl rfl, .inl rfl⟩

theorem LedgerRow.Moves.write {row : LedgerRow} {state : RowState}
    (hpending : row.current.status = .pending) (hdone : state.status ≠ .pending) (i : Nat) :
    row.Moves { row with holder := some i, current := state } :=
  ⟨rfl, rfl, rfl, rfl, rfl, .inl rfl, .inr (.inl ⟨hpending, hdone⟩)⟩

theorem check_rows {envelopeId : String} (hcheck : s.check i t now seen envelopeId = some s') :
    RowsStep s s' i := by
  unfold LedgerSystem.check at hcheck
  split at hcheck
  next =>
    cases hcheck
    exact .of_move (.refl s.rows) rfl
  next row rest =>
    split at hcheck
    next => cases hcheck
    next =>
      cases hcheck
      exact .of_move (.change fun other _ _ => .lock other i) rfl

theorem insert_rows {envelopeId : String} {ttlSeconds : Option Int}
    {claimerId claimer : Option String} {ttl : Int} (hcall : s.calls.get? i = some (.opened t))
    (hoperation : t.operation = .claim envelopeId ttlSeconds claimer)
    (hinsert : s.insert i t now envelopeId ttl claimerId = some s') : RowsStep s s' i := by
  unfold LedgerSystem.insert at hinsert
  split at hinsert
  next =>
    cases hinsert
    exact .of_move (.rollback s i) rfl
  next =>
    split at hinsert
    next => cases hinsert
    next =>
      cases hinsert
      exact .of_move (.refl s.rows) rfl
    next =>
      cases hinsert
      exact ⟨s.rows, .refl s.rows, .inr ⟨envelopeId, ttl, claimerId, now, rfl, rfl, _, hcall,
        claims_of_operation hoperation⟩⟩

theorem select_rows {ifFound ifNone : Stage}
    (hselect : s.select i t now seen ifFound ifNone = some s') : RowsStep s s' i := by
  unfold LedgerSystem.select at hselect
  split at hselect
  next => cases hselect
  next =>
    split at hselect
    next =>
      cases hselect
      exact .of_move (.change fun row _ _ => .lock row i) rfl
    next =>
      cases hselect
      exact .of_move (.refl s.rows) rfl

namespace Plain

variable (hplain : Plain s i t seen)

include hplain

theorem moves {row : LedgerRow} {state : RowState} (hrow : row ∈ s.rows)
    (hcandidate : t.Candidate i now seen row) (hfree : ¬ row.HeldByOther i)
    (hdone : state.status ≠ .pending) :
    row.Moves { row with holder := some i, current := state } :=
  .write (hplain.inv.candidate hplain.call hplain.noClaim hplain.seen hplain.pending hrow
    hcandidate hfree).2 hdone i

theorem update_rows {envelopeId : String} {state : RowState} {result : LedgerResult}
    (hdone : state.status ≠ .pending)
    (hupdate : s.update i t now seen envelopeId state result = some s') : RowsStep s s' i := by
  unfold LedgerSystem.update at hupdate
  split at hupdate
  next => cases hupdate
  next hblocked =>
    split at hupdate
    next =>
      split at hupdate
      next => cases hupdate
      next =>
        cases hupdate
        exact .of_move (.rollback s i) rfl
      next =>
        cases hupdate
        exact .of_move (.change fun row hrow hcandidate =>
          hplain.moves hrow hcandidate (not_blocked hblocked hrow hcandidate) hdone) rfl
    next =>
      cases hupdate
      exact .of_move (.rollback s i) rfl

theorem expire_rows {envelopeId : String}
    (hexpire : s.expire i t now seen envelopeId = some s') : RowsStep s s' i := by
  unfold LedgerSystem.expire at hexpire
  split at hexpire
  next => cases hexpire
  next hblocked =>
    split at hexpire
    next =>
      cases hexpire
      exact .of_move (.change fun row hrow hcandidate => hplain.moves hrow hcandidate
        (not_blocked hblocked hrow hcandidate) (by simp)) rfl
    next =>
      cases hexpire
      exact .of_move (.refl s.rows) rfl

theorem sweep_rows (limit : Nat) : RowsStep s (s.sweep i t now seen limit) i := by
  refine .of_move ?_ rfl
  unfold LedgerSystem.sweep LedgerSystem.commit LedgerSystem.change
  dsimp only
  rw [List.map_map]
  refine .map fun row hrow => ?_
  dsimp only [Function.comp_apply]
  by_cases hswept : row.id ∈ (s.swept i t now seen limit).map LedgerRow.id ∧
      t.Candidate i now seen row ∧ ¬ row.HeldByOther i
  · obtain ⟨-, hpending⟩ := hplain.inv.candidate hplain.call hplain.noClaim hplain.seen
      hplain.pending hrow hswept.2.1 hswept.2.2
    rw [if_pos hswept, if_pos rfl]
    refine ⟨rfl, rfl, rfl, rfl, rfl, .inr rfl, .inr (.inl ⟨hpending, ?_⟩)⟩
    simp [LedgerSystem.commitRow]
  · rw [if_neg hswept]
    split
    next => exact ⟨rfl, rfl, rfl, rfl, rfl, .inr rfl, .inl rfl⟩
    next => exact .refl row

end Plain

theorem complete_rows (hinv : LedgerInv s) {defaultTtlSeconds : Int}
    (hcall : s.calls.get? i = some (.opened t)) (hseen : t.seen = some seen)
    (hcomplete : s.complete i t now seen defaultTtlSeconds = some s') : RowsStep s s' i := by
  have hplain : (∀ envelopeId ttlSeconds claimerId,
      t.operation ≠ .claim envelopeId ttlSeconds claimerId) →
      (∀ status, t.stage.accepts status = true → status = .pending) → Plain s i t seen :=
    fun hoperation hpending => ⟨hinv, hcall, not_claims_of_operation hoperation, hseen, hpending⟩
  unfold LedgerSystem.complete at hcomplete
  split at hcomplete
  next hop hstage => exact check_rows hcomplete
  next hop hstage => exact insert_rows hcall hop hcomplete
  next hop hstage => exact select_rows hcomplete
  next hop hstage =>
    exact (hplain (by simp [hop]) (by simp [hstage, Stage.accepts])).update_rows (by simp)
      hcomplete
  next hop hstage =>
    exact (hplain (by simp [hop]) (by simp [hstage, Stage.accepts])).expire_rows hcomplete
  next =>
    cases hcomplete
    exact .of_move (.refl s.rows) rfl
  next hop hstage => exact select_rows hcomplete
  next hop hstage =>
    exact (hplain (by simp [hop]) (by simp [hstage, Stage.accepts])).update_rows (by simp)
      hcomplete
  next =>
    cases hcomplete
    exact .of_move (.refl s.rows) rfl
  next hop hstage =>
    cases hcomplete
    exact (hplain (by simp [hop]) (by simp [hstage, Stage.accepts])).sweep_rows _
  next => cases hcomplete

end Statements

/-- The call of an event. -/
def LedgerEvent.call : LedgerEvent → Nat
  | begin i _ _ => i
  | issue i _ => i
  | complete i _ => i
  | commit i => i
  | rollback i => i

theorem step_rows {defaultTtlSeconds : Int} {s s' : LedgerSystem} {event : LedgerEvent}
    (hinv : LedgerInv s) (hstep : s.step defaultTtlSeconds event = some s') :
    RowsStep s s' event.call := by
  cases event with
  | begin i operation now =>
      simp only [LedgerSystem.step] at hstep
      split at hstep
      next =>
        cases hstep
        exact .of_move (.refl s.rows) rfl
      next => cases hstep
  | issue i now =>
      simp only [LedgerSystem.step] at hstep
      split at hstep
      next t hcall =>
        split at hstep
        next => cases hstep
        next => cases hstep
        next =>
          cases hstep
          exact .of_move (.refl s.rows) rfl
      next => cases hstep
  | complete i now =>
      simp only [LedgerSystem.step] at hstep
      split at hstep
      next t hcall =>
        split at hstep
        next seen hseen => exact complete_rows hinv hcall hseen hstep
        next => cases hstep
      next => cases hstep
  | commit i =>
      simp only [LedgerSystem.step] at hstep
      split at hstep
      next t hcall =>
        split at hstep
        next result hstage =>
          cases hstep
          exact .of_move (.commit s i result) rfl
        next => cases hstep
      next => cases hstep
  | rollback i =>
      simp only [LedgerSystem.step] at hstep
      split at hstep
      next t hcall =>
        cases hstep
        exact .of_move (.rollback s i) rfl
      next => cases hstep

/-! ## Runs -/

/-- The ids are given out in order, and what was committed of a row comes first. -/
structure RowsInv (s : LedgerSystem) : Prop where
  ids : (s.rows.map LedgerRow.id).Nodup
  below : ∀ row ∈ s.rows, row.id < s.nextId
  ordered : ∀ row ∈ s.rows, row.Ordered

theorem empty_rowsInv : RowsInv .empty := by
  constructor <;> simp [LedgerSystem.empty]

theorem RowsInv.step {s s' : LedgerSystem} {i : Nat} (hinv : RowsInv s)
    (hstep : RowsStep s s' i) : RowsInv s' := by
  obtain ⟨moved, hmove, ⟨hrows, hnext⟩ |
    ⟨envelopeId, ttl, claimerId, now, hrows, hnext, -⟩⟩ := hstep
  · constructor
    case ids => rw [hrows]; exact hinv.ids.sublist hmove.ids
    case below =>
      rw [hrows, hnext]
      intro row' hrow'
      obtain ⟨row, hrow, hmoves⟩ := hmove.mem hrow'
      exact hmoves.id ▸ hinv.below row hrow
    case ordered =>
      rw [hrows]
      intro row' hrow'
      obtain ⟨row, hrow, hmoves⟩ := hmove.mem hrow'
      exact (hinv.ordered row hrow).moves hmoves
  · have hbelow : ∀ row' ∈ moved, row'.id < s.nextId := by
      intro row' hrow'
      obtain ⟨row, hrow, hmoves⟩ := hmove.mem hrow'
      exact hmoves.id ▸ hinv.below row hrow
    constructor
    case ids =>
      rw [hrows, List.map_append, List.nodup_append]
      refine ⟨hinv.ids.sublist hmove.ids, List.nodup_singleton _, ?_⟩
      intro id hid id' hid'
      obtain ⟨row', hrow', rfl⟩ := List.mem_map.mp hid
      rw [List.mem_singleton.mp hid']
      exact (hbelow row' hrow').ne
    case below =>
      rw [hrows, hnext]
      refine List.forall_mem_append.mpr ⟨fun row' hrow' => (hbelow row' hrow').trans
        (Nat.lt_succ_self _), ?_⟩
      rw [List.forall_mem_singleton]
      exact Nat.lt_succ_self _
    case ordered =>
      rw [hrows]
      refine List.forall_mem_append.mpr ⟨fun row' hrow' => ?_, ?_⟩
      · obtain ⟨row, hrow, hmoves⟩ := hmove.mem hrow'
        exact (hinv.ordered row hrow).moves hmoves
      · rw [List.forall_mem_singleton]
        intro state hstate
        cases hstate

/-- A committed row is there later, with its id and its columns, and its state has advanced. -/
def LedgerRow.Later (row row' : LedgerRow) : Prop :=
  row'.id = row.id ∧ row'.envelopeId = row.envelopeId ∧ row'.ttlSeconds = row.ttlSeconds ∧
    row'.claimerId = row.claimerId ∧ row'.claimedAt = row.claimedAt ∧
    ∀ state ∈ row.stored, ∃ state' ∈ row'.stored, state.Advances state'

/-- Every committed row of the one ledger is in the other. -/
def RowsKept (s s' : LedgerSystem) : Prop :=
  ∀ row ∈ s.rows, row.stored ≠ none → ∃ row' ∈ s'.rows, row.Later row'

theorem RowsKept.refl (s : LedgerSystem) : RowsKept s s :=
  fun row hrow _ => ⟨row, hrow, rfl, rfl, rfl, rfl, rfl,
    fun state hstate => ⟨state, hstate, .inl rfl⟩⟩

theorem RowsKept.trans {s s' s'' : LedgerSystem} (hfirst : RowsKept s s')
    (hsecond : RowsKept s' s'') : RowsKept s s'' := by
  intro row hrow hstored
  obtain ⟨row', hrow', hid, henvelope, httl, hclaimer, hclaimed, hstate⟩ := hfirst row hrow hstored
  obtain ⟨state, hsome⟩ := Option.ne_none_iff_exists'.mp hstored
  obtain ⟨state', hsome', -⟩ := hstate state hsome
  obtain ⟨row'', hrow'', hid', henvelope', httl', hclaimer', hclaimed', hstate'⟩ :=
    hsecond row' hrow' (Option.ne_none_iff_exists'.mpr ⟨state', hsome'⟩)
  refine ⟨row'', hrow'', hid'.trans hid, henvelope'.trans henvelope, httl'.trans httl,
    hclaimer'.trans hclaimer, hclaimed'.trans hclaimed, fun state hsome => ?_⟩
  obtain ⟨state', hsome', hadvances⟩ := hstate state hsome
  obtain ⟨state'', hsome'', hadvances'⟩ := hstate' state' hsome'
  exact ⟨state'', hsome'', hadvances.trans hadvances'⟩

theorem RowsInv.kept {s s' : LedgerSystem} {i : Nat} (hinv : RowsInv s)
    (hstep : RowsStep s s' i) : RowsKept s s' := by
  intro row hrow hstored
  obtain ⟨moved, hmove, hrows⟩ := hstep
  obtain ⟨row', hrow', hmoves⟩ := hmove.kept hrow hstored
  refine ⟨row', ?_, hmoves.id, hmoves.envelopeId, hmoves.ttlSeconds, hmoves.claimerId,
    hmoves.claimedAt, (hinv.ordered row hrow).stored hmoves⟩
  obtain ⟨hrows, -⟩ | ⟨_, _, _, _, hrows, -⟩ := hrows
  · exact hrows ▸ hrow'
  · exact hrows ▸ List.mem_append_left _ hrow'

end Coivitas.Policy.EnvelopeLedger
