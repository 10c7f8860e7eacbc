import Coivitas.Policy.SequentialRuns

/-! # Lease safety of the envelope ledger

In sequential runs, on clocks that advance as they like: a row that is finalized was pending,
its lease had not ended when the update was issued and its claimer was given, and where a
finalization has found an ended lease the envelope can be claimed again.
-/

namespace Coivitas.Policy.EnvelopeLedger

open Foundation

/-! ## How a finalization ends -/

section Ends

variable {defaultTtlSeconds : Int} {s s' : LedgerSystem} {i : Nat} {t t' : LedgerTransaction}
  {now : Int} {seen : List (Nat × LedgerClaimStatus)}

/-- A success comes from the update, an ended lease from the expiry. -/
def Ends (s : LedgerSystem) (i : Nat) (t : LedgerTransaction) (now : Int)
    (seen : List (Nat × LedgerClaimStatus)) (s' : LedgerSystem) : LedgerResult → Prop
  | .finalized envelopeId finalizedAt => ∃ resultSummary claimerId,
      t.operation = .finalize envelopeId resultSummary claimerId ∧ t.stage = .update ∧
        finalizedAt = now ∧ ¬ s.Blocked i t now seen ∧ s.Found i t now seen ∧
        s' = (s.writeFound i t now seen ⟨.committed, some now, resultSummary⟩).goTo i t
          (.ending (.finalized envelopeId now))
  | .leaseExpired envelopeId => ∃ resultSummary claimerId,
      t.operation = .finalize envelopeId resultSummary claimerId ∧ t.stage = .expire ∧
        ¬ s.Blocked i t now seen ∧ s.Found i t now seen ∧
        s' = (s.writeFound i t now seen ⟨.expired, some now, none⟩).goTo i t
          (.ending (.leaseExpired envelopeId))
  | _ => True

theorem stage_of_goTo {s₀ : LedgerSystem} {stage : Stage}
    (hcall : (s₀.goTo i t stage).calls.get? i = some (.opened t')) : t'.stage = stage := by
  obtain rfl := LedgerCall.opened.inj (Option.some.inj ((calls_goTo s₀ i t stage).symm.trans hcall))
  rfl

theorem complete_ends {result : LedgerResult}
    (hcomplete : s.complete i t now seen defaultTtlSeconds = some s')
    (hcall : s'.calls.get? i = some (.opened t')) (hstage : t'.stage = .ending result) :
    Ends s i t now seen s' result := by
  have hrollback : s' ≠ s.rollback i := by
    rintro rfl
    rw [LedgerSystem.rollback, OrderedMap.get?_set, if_pos rfl] at hcall
    cases hcall
  have hgoTo : ∀ (s₀ : LedgerSystem) stage, s' = s₀.goTo i t stage → stage = .ending result := by
    rintro s₀ stage rfl
    exact (stage_of_goTo hcall).symm.trans hstage
  have hselect : ∀ ifFound ifNone, (∀ result, ifFound ≠ .ending result) →
      (∀ result, ifNone ≠ .ending result) → s.select i t now seen ifFound ifNone ≠ some s' := by
    intro ifFound ifNone hfound hnone hselect
    unfold LedgerSystem.select at hselect
    split at hselect
    next => cases hselect
    next =>
      split at hselect
      next => exact hfound _ (hgoTo _ _ (Option.some.inj hselect).symm)
      next => exact hnone _ (hgoTo _ _ (Option.some.inj hselect).symm)
  have hupdate : ∀ envelopeId state result',
      s.update i t now seen envelopeId state result' = some s' → result' = result ∧
        ¬ s.Blocked i t now seen ∧ s.Found i t now seen ∧
        s' = (s.writeFound i t now seen state).goTo i t (.ending result') := by
    intro envelopeId state result' hupdate
    unfold LedgerSystem.update at hupdate
    split at hupdate
    next => cases hupdate
    next hblocked =>
      split at hupdate
      next hfound =>
        split at hupdate
        next => cases hupdate
        next => exact absurd (Option.some.inj hupdate).symm hrollback
        next =>
          obtain rfl := Option.some.inj hupdate
          exact ⟨Stage.ending.inj (hgoTo _ _ rfl), hblocked, hfound, rfl⟩
      next => exact absurd (Option.some.inj hupdate).symm hrollback
  unfold LedgerSystem.complete at hcomplete
  split at hcomplete
  next envelopeId _ _ hop hcheck =>
    unfold LedgerSystem.check at hcomplete
    split at hcomplete
    next => cases hgoTo _ _ (Option.some.inj hcomplete).symm
    next row rest =>
      split at hcomplete
      next => cases hcomplete
      next =>
        have hresult := hgoTo _ _ (Option.some.inj hcomplete).symm
        split at hresult <;> cases hresult <;> trivial
  next envelopeId _ _ hop hinsert =>
    unfold LedgerSystem.insert at hcomplete
    split at hcomplete
    next => exact absurd (Option.some.inj hcomplete).symm hrollback
    next =>
      split at hcomplete
      next => cases hcomplete
      next =>
        cases hgoTo _ _ (Option.some.inj hcomplete).symm
        trivial
      next =>
        cases hgoTo _ _ (Option.some.inj hcomplete).symm
        trivial
  next => exact absurd hcomplete (hselect _ _ (by simp) (by simp))
  next envelopeId resultSummary claimerId hop hstage' =>
    obtain ⟨rfl, hblocked, hfound, hwritten⟩ := hupdate _ _ _ hcomplete
    exact ⟨resultSummary, claimerId, hop, hstage', rfl, hblocked, hfound, hwritten⟩
  next envelopeId resultSummary claimerId hop hstage' =>
    unfold LedgerSystem.expire at hcomplete
    split at hcomplete
    next => cases hcomplete
    next hblocked =>
      split at hcomplete
      next hfound =>
        obtain rfl := Option.some.inj hcomplete
        cases hgoTo _ _ rfl
        exact ⟨resultSummary, claimerId, hop, hstage', hblocked, hfound, rfl⟩
      next => cases hgoTo _ _ (Option.some.inj hcomplete).symm
  next =>
    have hresult := hgoTo _ _ (Option.some.inj hcomplete).symm
    split at hresult <;> cases hresult <;> trivial
  next => exact absurd hcomplete (hselect _ _ (by simp) (by simp))
  next =>
    obtain ⟨rfl, -⟩ := hupdate _ _ _ hcomplete
    trivial
  next =>
    have hresult := hgoTo _ _ (Option.some.inj hcomplete).symm
    split at hresult <;> cases hresult <;> trivial
  next =>
    obtain rfl := Option.some.inj hcomplete
    rw [LedgerSystem.sweep, LedgerSystem.commit, OrderedMap.get?_set, if_pos rfl] at hcall
    cases hcall
  next => cases hcomplete

end Ends

/-! ## What a finalization saw -/

section Finalization

variable {defaultTtlSeconds : Int} {s s' : LedgerSystem} {i : Nat} {t : LedgerTransaction}
  {now : Int} {seen : List (Nat × LedgerClaimStatus)} {events : List LedgerEvent}
  {row : LedgerRow}

theorem mem_snapshot {rows : List LedgerRow} {entry : Nat × LedgerClaimStatus}
    (hentry : entry ∈ t.snapshot i now rows) : ∃ row ∈ rows, row.id = entry.1 ∧
      applies t.operation t.stage now row := by
  obtain ⟨row, hrow, hf⟩ := List.mem_filterMap.mp hentry
  refine ⟨row, hrow, ?_⟩
  split at hf
  next => cases hf
  next =>
    split at hf
    next hmeets =>
      cases hf
      exact ⟨rfl, hmeets.2⟩
    next => cases hf

/-- A row that a statement acts on met its condition when the statement was issued. -/
theorem Reached.candidate (hreached : Reached defaultTtlSeconds events s)
    (hcall : s.calls.get? i = some (.opened t)) (hseen : t.seen = some seen) (hrow : row ∈ s.rows)
    (hcandidate : t.Candidate i now seen row) :
    ∃ before issuedAt s₀, events = before ++ [.issue i issuedAt] ∧
      Reached defaultTtlSeconds before s₀ ∧ s₀.rows = s.rows ∧
      applies t.operation t.stage issuedAt row := by
  obtain ⟨before, issuedAt, s₀, t₀, hevents, hreached₀, -, rfl, rfl⟩ := hreached.issued hcall hseen
  obtain rfl := Option.some.inj hseen
  obtain ⟨entry, hentry, hid, -⟩ := hcandidate
  obtain ⟨row₀, hrow₀, hid₀, happlies⟩ := mem_snapshot hentry
  obtain rfl := List.inj_on_of_nodup_map hreached₀.invariants.2.1.ids hrow₀ hrow (hid₀.trans hid)
  exact ⟨before, issuedAt, s₀, hevents, hreached₀, rfl, happlies⟩

/-- A row that a finalization writes was committed as pending. -/
theorem Reached.pending (hreached : Reached defaultTtlSeconds events s)
    (hcall : s.calls.get? i = some (.opened t)) (hseen : t.seen = some seen)
    (hclaim : ∀ envelopeId ttlSeconds claimerId,
      t.operation ≠ .claim envelopeId ttlSeconds claimerId)
    (haccepts : ∀ status, t.stage.accepts status = true → status = .pending) (hrow : row ∈ s.rows)
    (hcandidate : t.Candidate i now seen row) (hblocked : ¬ s.Blocked i t now seen) :
    row.stored.map RowState.status = some .pending := by
  obtain ⟨hledger, hrows, -⟩ := hreached.invariants
  obtain ⟨hstored, hpending⟩ := hledger.candidate hcall (not_claims_of_operation hclaim) hseen
    haccepts hrow hcandidate (not_blocked hblocked hrow hcandidate)
  obtain ⟨state, hstate⟩ := Option.ne_none_iff_exists'.mp hstored
  rw [hstate, Option.map_some]
  obtain hsame | ⟨-, hne⟩ := hrows.ordered row hrow state hstate
  · rw [← hsame, hpending]
  · exact absurd hpending hne

theorem Reached.related (hreached : Reached defaultTtlSeconds events s) :
    Related (LedgerSystem.step defaultTtlSeconds) RowsKept LedgerSystem.empty events := by
  refine (related_iff_along RowsKept.refl RowsKept.trans).mpr ?_
  refine Along.of_invariant (fun s => LedgerInv s ∧ RowsInv s) ?_ ?_
    ⟨empty_ledgerInv, empty_rowsInv⟩ hreached.sequential
  · rintro s event s' ⟨hledger, hrows⟩ hgood hstep
    exact ⟨step_ledgerInv hledger (claimsApart_of_sequential hgood) hstep,
      hrows.step (step_rows hledger hstep)⟩
  · rintro s event ⟨hledger, hrows⟩ hgood s' hstep
    exact hrows.kept (step_rows hledger hstep)

/-- What a commit made known stays in the ledger. -/
theorem Reached.kept {before after : List LedgerEvent} {s₀ : LedgerSystem} {result : LedgerResult}
    (hreached : Reached defaultTtlSeconds (before ++ .commit i :: after) s)
    (hreached₀ : Reached defaultTtlSeconds before s₀)
    (hopen : s₀.calls.get? i = some (.opened t)) (hstage : t.stage = .ending result)
    (hafter : Foundation.run (LedgerSystem.step defaultTtlSeconds) (s₀.commit i result) after =
      some s) : RowsKept (s₀.commit i result) s := by
  have hstep : s₀.step defaultTtlSeconds (.commit i) = some (s₀.commit i result) := by
    simp only [LedgerSystem.step, hopen, hstage]
  refine hreached.related (before ++ [.commit i]) after [] _ _ (by simp) ?_ hafter
  refine run_append.mpr ⟨s₀, hreached₀.run, ?_⟩
  rw [run_cons hstep]
  rfl

/-- The row that a call has written, after its commit. -/
theorem mem_commit {result : LedgerResult} {written : LedgerRow}
    (hwritten : written ∈ s.rows) (hholder : written.holder = some i) :
    LedgerSystem.commitRow written ∈ (s.commit i result).rows :=
  List.mem_map.mpr ⟨written, hwritten, if_pos hholder⟩

/-- A success was issued while a row of the envelope was pending, not after the end of its
lease and for its claimer, and this row is committed. -/
def FinalizedInTime (defaultTtlSeconds : Int) (events : List LedgerEvent) (s : LedgerSystem)
    (i : Nat) (envelopeId : String) (resultSummary : Option Json) (claimerId : Option String)
    (finalizedAt : Int) : Prop :=
  ∃ before issuedAt after s₀ row,
    events = before ++ .issue i issuedAt :: .complete i finalizedAt :: .commit i :: after ∧
      run (LedgerSystem.step defaultTtlSeconds) LedgerSystem.empty before = some s₀ ∧
      row ∈ s₀.rows ∧ row.envelopeId = envelopeId ∧
      row.stored.map RowState.status = some .pending ∧
      issuedAt ≤ row.leaseEnd ∧ row.Owned claimerId ∧
      ∃ row' ∈ s.rows, row'.id = row.id ∧
        row'.stored = some ⟨.committed, some finalizedAt, resultSummary⟩

theorem Reached.finalizedInTime (hreached : Reached defaultTtlSeconds events s)
    {envelopeId envelopeId' : String} {resultSummary : Option Json} {claimerId : Option String}
    {startedAt finalizedAt : Int}
    (hbegin : .begin i (.finalize envelopeId resultSummary claimerId) startedAt ∈ events)
    (hcall : s.calls.get? i = some (.done (some (.finalized envelopeId' finalizedAt)))) :
    envelopeId' = envelopeId ∧ FinalizedInTime defaultTtlSeconds events s i envelopeId
      resultSummary claimerId finalizedAt := by
  obtain ⟨before, after, s₂, t₂, rfl, hreached₂, hopen₂, hstage₂, hafter⟩ :=
    hreached.returned (by simp) hcall
  have hkept := hreached.kept hreached₂ hopen₂ hstage₂ hafter
  obtain ⟨before, completedAt, s₁, t, seen, rfl, hreached₁, hopen, hseen, hcomplete⟩ :=
    hreached₂.ended hopen₂ hstage₂
  obtain ⟨resultSummary', claimerId', hoperation, hstage, rfl, hblocked, ⟨row, hrow, hcandidate⟩,
    rfl⟩ := complete_ends hcomplete hopen₂ hstage₂
  have hbegin₁ : .begin i (.finalize envelopeId resultSummary claimerId) startedAt ∈ before := by
    have hnot := @begin_not_mem _ _ _ i _ (.finalize envelopeId resultSummary claimerId) startedAt
      ?_ hafter
    · simpa [hnot] using hbegin
    · rw [LedgerSystem.commit, OrderedMap.get?_set, if_pos rfl]
      exact Option.some_ne_none _
  cases hoperation.symm.trans (hreached₁.operation hbegin₁ hopen)
  obtain ⟨before, issuedAt, s₀, rfl, hreached₀, hrows, happlies⟩ :=
    hreached₁.candidate hopen hseen hrow hcandidate
  have hpending := hreached₁.pending hopen hseen (by simp [hoperation])
    (by simp [hstage, Stage.accepts]) hrow hcandidate hblocked
  rw [hoperation, hstage] at happlies
  obtain ⟨henvelope, hlease, howned⟩ := happlies
  refine ⟨rfl, before, issuedAt, after, s₀, row, by simp, hreached₀.run, hrows ▸ hrow, henvelope,
    hpending, hlease, howned, ?_⟩
  have hwritten : ({ row with
      holder := some i
      current := ⟨.committed, some finalizedAt, resultSummary⟩ } : LedgerRow) ∈
      (s₁.writeFound i t finalizedAt seen ⟨.committed, some finalizedAt, resultSummary⟩).rows :=
    List.mem_map.mpr ⟨row, hrow, if_pos hcandidate⟩
  obtain ⟨row', hrow', hid, -, -, -, -, hlater⟩ := hkept _ (mem_commit hwritten rfl)
    (Option.some_ne_none _)
  obtain ⟨state, hstate, rfl | ⟨hne, -⟩⟩ := hlater _ rfl
  · exact ⟨row', hrow', hid, hstate⟩
  · cases hne

end Finalization

/-! ## Claiming again -/

section Reclaim

variable {defaultTtlSeconds : Int} {s s' : LedgerSystem} {event : LedgerEvent} {i : Nat}
  {t : LedgerTransaction} {events : List LedgerEvent} {envelopeId : String}

/-- No row of the envelope is live, and no claim of it is under way. -/
structure Lapsed (s : LedgerSystem) (envelopeId : String) : Prop where
  rows : ∀ row ∈ s.rows, row.envelopeId = envelopeId → ¬ row.Live
  calls : ∀ i call, s.calls.get? i = some call → ¬ call.Claims envelopeId

/-- The event begins a claim of the envelope. -/
def LedgerEvent.Claims (envelopeId : String) : LedgerEvent → Prop
  | begin _ (.claim id _ _) _ => id = envelopeId
  | _ => False

theorem LedgerRow.Moves.live {row row' : LedgerRow} (hordered : row.Ordered)
    (hmoves : row.Moves row') (hlive : row'.Live) : row.Live := by
  intro state hstate hexpired
  obtain ⟨state', hstate', rfl | ⟨hpending, -⟩⟩ := hordered.stored hmoves state hstate
  · exact hlive state' hstate' hexpired
  · cases hexpired.symm.trans hpending

theorem Follows.claims {t : LedgerTransaction} {call : LedgerCall} (hfollows : Follows t call)
    (hclaims : call.Claims envelopeId) : (LedgerCall.opened t).Claims envelopeId := by
  cases call with
  | opened t' =>
      unfold LedgerCall.Claims at hclaims ⊢
      dsimp only at hclaims ⊢
      rwa [hfollows.1] at hclaims
  | done result => exact hclaims.elim

theorem Lapsed.step (hlapsed : Lapsed s envelopeId) (hledger : LedgerInv s) (hrows : RowsInv s)
    (hnot : ¬ event.Claims envelopeId) (hstep : s.step defaultTtlSeconds event = some s') :
    Lapsed s' envelopeId := by
  constructor
  case rows =>
    obtain ⟨moved, hmove, hrows'⟩ := step_rows hledger hstep
    have hmoved : ∀ row' ∈ moved, row'.envelopeId = envelopeId → ¬ row'.Live := by
      intro row' hrow' henvelope hlive
      obtain ⟨row, hrow, hmoves⟩ := hmove.mem hrow'
      exact hlapsed.rows row hrow (hmoves.envelopeId.symm.trans henvelope)
        (hmoves.live (hrows.ordered row hrow) hlive)
    obtain ⟨hsame, -⟩ | ⟨id, ttl, claimerId, now, hadded, -, call, hcall, hclaims⟩ := hrows'
    · rwa [hsame]
    · rw [hadded]
      refine List.forall_mem_append.mpr ⟨hmoved, ?_⟩
      rw [List.forall_mem_singleton]
      rintro rfl
      exact absurd hclaims (hlapsed.calls _ call hcall)
  case calls =>
    obtain ⟨call, hcalls, hcallStep⟩ := step_calls hstep
    intro j other hother hclaims
    rw [hcalls, OrderedMap.get?_set] at hother
    split at hother
    next =>
      obtain rfl := Option.some.inj hother
      cases hcallStep with
      | @begin _ operation _ _ hnew =>
          cases operation with
          | claim id ttlSeconds claimerId => exact hnot hclaims
          | finalize id resultSummary claimerId => exact hclaims
          | reject id claimerId => exact hclaims
          | expireStalePending limit => exact hclaims
      | issue hcall hnone hstage => exact hlapsed.calls _ _ hcall hclaims
      | complete hcall hseen hcomplete hfollows =>
          exact hlapsed.calls _ _ hcall (hfollows.claims hclaims)
      | commit hcall hstage => exact hclaims
      | rollback hcall => exact hclaims
    next => exact hlapsed.calls j other hother hclaims

/-- Where a finalization has found an ended lease, it has expired the only live row. -/
theorem Reached.lapsed (hreached : Reached defaultTtlSeconds events s)
    (hopen : s.calls.get? i = some (.opened t))
    (hstage : t.stage = .ending (.leaseExpired envelopeId)) :
    Lapsed (s.commit i (.leaseExpired envelopeId)) envelopeId := by
  obtain ⟨-, -, hone⟩ := hreached.invariants
  constructor
  case calls =>
    intro j call hcall hclaims
    rw [LedgerSystem.commit, OrderedMap.get?_set] at hcall
    split at hcall
    next =>
      obtain rfl := Option.some.inj hcall
      exact hclaims
    next hne =>
      cases call with
      | opened t' => exact hne (hone _ _ _ _ hopen hcall)
      | done result => exact hclaims
  case rows =>
    obtain ⟨before, now, s₁, t₁, seen, rfl, hreached₁, hopen₁, hseen, hcomplete⟩ :=
      hreached.ended hopen hstage
    obtain ⟨resultSummary, claimerId, hoperation, hstage₁, hblocked, ⟨row, hrow, hcandidate⟩,
      rfl⟩ := complete_ends hcomplete hopen hstage
    obtain ⟨_, _, _, -, -, -, happlies⟩ := hreached₁.candidate hopen₁ hseen hrow hcandidate
    rw [hoperation] at happlies
    have hpending := hreached₁.pending hopen₁ hseen (by simp [hoperation])
      (by simp [hstage₁, Stage.accepts]) hrow hcandidate hblocked
    intro row' hrow' henvelope hlive
    obtain ⟨written, hwritten, rfl⟩ := List.mem_map.mp hrow'
    have hsound := hreached.invariants.1.sound written hwritten
    obtain ⟨old, hold, hchange⟩ := List.mem_map.mp hwritten
    have hsame : written.stored = old.stored ∧ written.envelopeId = old.envelopeId := by
      rw [← hchange]
      split <;> exact ⟨rfl, rfl⟩
    by_cases heq : old = row
    · subst heq
      rw [if_pos hcandidate] at hchange
      subst hchange
      rw [if_pos rfl] at hlive
      exact hlive _ rfl rfl
    · have hwrittenLive : written.Live := by
        split at hlive
        next => exact (RowStep.commit (i := i) hsound).live hlive
        next => exact hlive
      have holdLive : old.Live := fun state hstate => hwrittenLive state (hsame.1 ▸ hstate)
      have holdEnvelope : old.envelopeId = row.envelopeId := by
        rw [← hsame.2, happlies.1]
        split at henvelope <;> exact henvelope
      exact hreached₁.invariants.1.live_unique hold hrow heq holdEnvelope holdLive
        (live_of_stored (by decide) hpending)

/-- The events of a claim that runs to its end. -/
def claimEvents (j : Nat) (envelopeId : String) (ttlSeconds : Option Int)
    (claimerId : Option String) (begun checked found inserted completed : Int) :
    List LedgerEvent :=
  [.begin j (.claim envelopeId ttlSeconds claimerId) begun, .issue j checked, .complete j found,
    .issue j inserted, .complete j completed, .commit j]

/-- A new claim of the envelope with a valid lease, at whatever times its statements run, is
made, and its row is pending. -/
def Reclaimable (defaultTtlSeconds : Int) (s : LedgerSystem) (envelopeId : String) : Prop :=
  ∀ j ttlSeconds claimerId begun checked found inserted completed, s.calls.get? j = none →
    LedgerSystem.ValidTtl (ttlSeconds.getD defaultTtlSeconds) →
      ∃ s', run (LedgerSystem.step defaultTtlSeconds) s (claimEvents j envelopeId ttlSeconds
          claimerId begun checked found inserted completed) = some s' ∧
        s'.calls.get? j = some (.done (some (.claimed s.nextId envelopeId completed
          (ttlSeconds.getD defaultTtlSeconds)))) ∧
        ∃ row ∈ s'.rows, row.id = s.nextId ∧ row.envelopeId = envelopeId ∧
          row.stored.map RowState.status = some .pending

/-- Every row of the envelope has expired, and no row is locked. -/
theorem Lapsed.free (hlapsed : Lapsed s envelopeId) (hledger : LedgerInv s) (hidle : s.Idle)
    {row : LedgerRow} (hrow : row ∈ s.rows) : row.holder = none ∧ row.stored = some row.current ∧
      (row.envelopeId = envelopeId → row.current.status = .expired) := by
  have hfree : row.holder = none := by
    rw [Option.eq_none_iff_forall_ne_some]
    intro i hholder
    obtain ⟨t, hopen, -⟩ := hledger.held row hrow i hholder
    exact idle_iff.mp hidle i t hopen
  have hstored := (hledger.sound row hrow).free hfree
  refine ⟨hfree, hstored, fun henvelope => ?_⟩
  by_contra hne
  refine hlapsed.rows row hrow henvelope fun state hstate => ?_
  rw [hstored] at hstate
  exact Option.some.inj hstate ▸ hne

theorem Lapsed.snapshot_eq_nil (hlapsed : Lapsed s envelopeId) (hledger : LedgerInv s)
    (hidle : s.Idle) {ttlSeconds : Option Int} {claimerId : Option String}
    (hoperation : t.operation = .claim envelopeId ttlSeconds claimerId) (hstage : t.stage = .check)
    (now : Int) : t.snapshot i now s.rows = [] := by
  refine List.filterMap_eq_nil_iff.mpr fun row hrow => ?_
  obtain ⟨hholder, hstored, hexpired⟩ := hlapsed.free hledger hidle hrow
  have hvisible : row.visible i = some row.current := by
    rw [LedgerRow.visible, hholder, if_neg (Option.some_ne_none i).symm, hstored]
  rw [hvisible]
  refine if_neg ?_
  rintro ⟨haccepts, happlies⟩
  rw [hstage] at haccepts
  rw [hoperation] at happlies
  exact of_decide_eq_true haccepts (hexpired happlies.1)

theorem Lapsed.uniqueIndex_eq_clear (hlapsed : Lapsed s envelopeId) (hledger : LedgerInv s)
    (hidle : s.Idle) (i : Nat) : uniqueIndex i .pending envelopeId s.rows = .clear := by
  have hclear : ∀ row ∈ s.rows.filter (fun row => row.envelopeId = envelopeId),
      uniqueRow i .pending row = .clear := by
    intro row hmem
    obtain ⟨hrow, henvelope⟩ := List.mem_filter.mp hmem
    obtain ⟨hholder, -, hexpired⟩ := hlapsed.free hledger hidle hrow
    rw [uniqueRow, if_neg (fun hheld => hheld.1 hholder), if_neg]
    rw [hexpired (of_decide_eq_true henvelope)]
    decide
  unfold uniqueIndex
  dsimp only
  rw [if_neg, if_neg]
  · rw [List.any_eq_true]
    rintro ⟨row, hrow, hviolated⟩
    rw [hclear row hrow] at hviolated
    exact absurd (of_decide_eq_true hviolated) (by decide)
  · rw [List.any_eq_true]
    rintro ⟨row, hrow, hwait⟩
    rw [hclear row hrow] at hwait
    exact absurd (of_decide_eq_true hwait) (by decide)

theorem check_eq_insert (s : LedgerSystem) (i : Nat) (t : LedgerTransaction) (now : Int)
    (envelopeId : String) : s.check i t now [] envelopeId = some (s.goTo i t .insert) := by
  have hnone : s.rows.filter (fun row => t.Candidate i now [] row) = [] := by
    refine List.filter_eq_nil_iff.mpr fun row _ hcandidate => ?_
    obtain ⟨entry, hentry, -⟩ := of_decide_eq_true hcandidate
    cases hentry
  unfold LedgerSystem.check
  rw [hnone]

theorem Lapsed.reclaimable (hlapsed : Lapsed s envelopeId) (hledger : LedgerInv s)
    (hidle : s.Idle) : Reclaimable defaultTtlSeconds s envelopeId := by
  intro j ttlSeconds claimerId begun checked found inserted completed hnew httl
  let claim (stage : Stage) (seen : Option (List (Nat × LedgerClaimStatus))) : LedgerTransaction :=
    ⟨.claim envelopeId ttlSeconds claimerId, begun, stage, seen⟩
  have hget : ∀ (s₀ : LedgerSystem) call, (s₀.setCall j call).calls.get? j = some call :=
    fun s₀ call => (OrderedMap.get?_set ..).trans (if_pos rfl)
  have hstart : s.step defaultTtlSeconds (.begin j (.claim envelopeId ttlSeconds claimerId) begun) =
      some (s.setCall j (.opened (claim .check none))) := by
    simp only [LedgerSystem.step, hnew]
    rfl
  refine run_cons hstart ▸ ?_
  generalize hs₁ : s.setCall j (.opened (claim .check none)) = s₁
  have hrows₁ : s₁.rows = s.rows ∧ s₁.nextId = s.nextId := hs₁ ▸ ⟨rfl, rfl⟩
  -- The check sees no row, so the claim goes on to its insertion.
  have hcheck : s₁.step defaultTtlSeconds (.issue j checked) =
      some (s₁.setCall j (.opened (claim .check (some [])))) := by
    have hsnapshot : (claim .check none).snapshot j checked s₁.rows = [] :=
      hrows₁.1 ▸ hlapsed.snapshot_eq_nil hledger hidle rfl rfl checked
    have hopen : s₁.calls.get? j = some (.opened (claim .check none)) := hs₁ ▸ hget s _
    simp only [LedgerSystem.step, hopen]
    exact congrArg (fun seen => some (s₁.setCall j (.opened (claim .check (some seen)))))
      hsnapshot
  refine run_cons hcheck ▸ ?_
  generalize hs₂ : s₁.setCall j (.opened (claim .check (some []))) = s₂
  have hrows₂ : s₂.rows = s.rows ∧ s₂.nextId = s.nextId := hs₂ ▸ hrows₁
  have hfound : s₂.step defaultTtlSeconds (.complete j found) =
      some (s₂.goTo j (claim .check (some [])) .insert) := by
    have hopen : s₂.calls.get? j = some (.opened (claim .check (some []))) := hs₂ ▸ hget s₁ _
    simp only [LedgerSystem.step, hopen]
    exact check_eq_insert s₂ j (claim .check (some [])) found envelopeId
  refine run_cons hfound ▸ ?_
  generalize hs₃ : s₂.goTo j (claim .check (some [])) .insert = s₃
  have hrows₃ : s₃.rows = s.rows ∧ s₃.nextId = s.nextId := hs₃ ▸ hrows₂
  have hinsert : s₃.step defaultTtlSeconds (.issue j inserted) = some (s₃.setCall j
      (.opened (claim .insert (some ((claim .insert none).snapshot j inserted s₃.rows))))) := by
    have hopen : s₃.calls.get? j = some (.opened (claim .insert none)) := hs₃ ▸ calls_goTo s₂ j _ _
    simp only [LedgerSystem.step, hopen]
    rfl
  refine run_cons hinsert ▸ ?_
  generalize (claim .insert none).snapshot j inserted s₃.rows = seen
  generalize hs₄ : s₃.setCall j (.opened (claim .insert (some seen))) = s₄
  have hrows₄ : s₄.rows = s.rows ∧ s₄.nextId = s.nextId := hs₄ ▸ hrows₃
  -- No index has an entry of the envelope.
  have hclear : uniqueIndex j .pending envelopeId s₄.rows = .clear :=
    hrows₄.1 ▸ hlapsed.uniqueIndex_eq_clear hledger hidle j
  let ttl := ttlSeconds.getD defaultTtlSeconds
  let row := LedgerSystem.newRow j s.nextId envelopeId ttl claimerId completed
  have hcomplete : s₄.step defaultTtlSeconds (.complete j completed) =
      some (({ s₄ with rows := s.rows ++ [row], nextId := s.nextId + 1 } : LedgerSystem).goTo j
        (claim .insert (some seen)) (.ending (.claimed s.nextId envelopeId completed ttl))) := by
    have hopen : s₄.calls.get? j = some (.opened (claim .insert (some seen))) := hs₄ ▸ hget s₃ _
    simp only [LedgerSystem.step, hopen]
    show s₄.insert j (claim .insert (some seen)) completed envelopeId ttl claimerId = _
    rw [LedgerSystem.insert, if_neg (not_not.mpr httl), hclear]
    dsimp only [row]
    rw [hrows₄.1, hrows₄.2]
  refine run_cons hcomplete ▸ ?_
  generalize hs₅ : ({ s₄ with
    rows := s.rows ++ [row]
    nextId := s.nextId + 1 } : LedgerSystem).goTo j (claim .insert (some seen))
      (.ending (.claimed s.nextId envelopeId completed ttl)) = s₅
  have hcommit : s₅.step defaultTtlSeconds (.commit j) =
      some (s₅.commit j (.claimed s.nextId envelopeId completed ttl)) := by
    have hopen := hs₅ ▸ calls_goTo { s₄ with rows := s.rows ++ [row], nextId := s.nextId + 1 } j
      (claim .insert (some seen)) (.ending (.claimed s.nextId envelopeId completed ttl))
    simp only [LedgerSystem.step, hopen]
  refine ⟨_, (run_cons hcommit).trans rfl, ?_, ?_⟩
  · rw [LedgerSystem.commit, OrderedMap.get?_set, if_pos rfl]
  · have hrow : row ∈ s₅.rows := hs₅ ▸ List.mem_append_right _ (List.mem_singleton_self _)
    exact ⟨_, mem_commit hrow rfl, rfl, rfl, rfl⟩

end Reclaim

/-! ## Lease safety -/

/-- The row is committed as pending, committed or rejected. -/
def LedgerRow.Active (row : LedgerRow) : Prop := ∃ state ∈ row.stored, state.status ≠ .expired

/-- Committed rows stay and change only from pending, an envelope has one active row at most, a
success is for a pending row within its lease, and after an ended lease the next claim of the
envelope is made. -/
structure LeaseSafe (defaultTtlSeconds : Int) (events : List LedgerEvent) (s : LedgerSystem) :
    Prop where
  kept : Related (LedgerSystem.step defaultTtlSeconds) RowsKept LedgerSystem.empty events
  ids : (s.rows.map LedgerRow.id).Nodup
  oneActive : ∀ row ∈ s.rows, ∀ other ∈ s.rows, row.envelopeId = other.envelopeId →
    row.Active → other.Active → row = other
  finalized : ∀ i envelopeId envelopeId' resultSummary claimerId startedAt finalizedAt,
    .begin i (.finalize envelopeId resultSummary claimerId) startedAt ∈ events →
      s.calls.get? i = some (.done (some (.finalized envelopeId' finalizedAt))) →
        envelopeId' = envelopeId ∧ FinalizedInTime defaultTtlSeconds events s i envelopeId
          resultSummary claimerId finalizedAt
  reclaimable : ∀ before after i envelopeId s₀, events = before ++ [.commit i] ++ after →
    run (LedgerSystem.step defaultTtlSeconds) LedgerSystem.empty (before ++ [.commit i]) = some s₀ →
      s₀.calls.get? i = some (.done (some (.leaseExpired envelopeId))) →
        (∀ event ∈ after, ¬ event.Claims envelopeId) → s.Idle →
          Reclaimable defaultTtlSeconds s envelopeId

theorem LedgerRow.Active.live {row : LedgerRow} (hactive : row.Active) : row.Live := by
  obtain ⟨state, hstate, hne⟩ := hactive
  exact live_of_stored hne (by rw [hstate]; rfl)

/-- Leases are safe after every sequential run, whatever the clock shows in it. -/
theorem leaseSafe_of_sequential (defaultTtlSeconds : Int) (events : List LedgerEvent)
    (s : LedgerSystem)
    (hsequential : Along (LedgerSystem.step defaultTtlSeconds) Sequential LedgerSystem.empty events)
    (hrun : run (LedgerSystem.step defaultTtlSeconds) LedgerSystem.empty events = some s) :
    LeaseSafe defaultTtlSeconds events s := by
  have hreached : Reached defaultTtlSeconds events s := ⟨hrun, hsequential⟩
  obtain ⟨hledger, hrows, -⟩ := hreached.invariants
  constructor
  case kept => exact hreached.related
  case ids => exact hrows.ids
  case oneActive =>
    intro row hrow other hother henvelope hactive hactive'
    by_contra hne
    exact hledger.live_unique hrow hother hne henvelope hactive.live hactive'.live
  case finalized =>
    intro i envelopeId envelopeId' resultSummary claimerId startedAt finalizedAt hbegin hcall
    exact hreached.finalizedInTime hbegin hcall
  case reclaimable =>
    rintro before after i envelopeId s₀ rfl hbefore hcall hnone hidle
    obtain ⟨s₀', hrun₀, hafter⟩ := run_append.mp hrun
    cases hbefore.symm.trans hrun₀
    obtain ⟨hsequential₀, hsequential'⟩ := (along_append hrun₀).mp hsequential
    have hreached₀ : Reached defaultTtlSeconds (before ++ [.commit i]) s₀ := ⟨hrun₀, hsequential₀⟩
    obtain ⟨hledger₀, hrows₀, -⟩ := hreached₀.invariants
    obtain ⟨s₁, hreached₁, -, hstep⟩ := reached_concat.mp hreached₀
    obtain ⟨call, hcalls, hcallStep⟩ := step_calls hstep
    cases hcallStep with
    | commit hopen hstage =>
        rw [hcalls, OrderedMap.get?_set, LedgerEvent.call, if_pos rfl] at hcall
        cases hcall
        have hlapsed := hreached₁.lapsed hopen hstage
        have hgood := hsequential'.and
          (along_of_forall_mem fun event hevent _ => hnone event hevent)
        have hend : LedgerInv s ∧ RowsInv s ∧ Lapsed s envelopeId := by
          refine run_invariant (fun s => LedgerInv s ∧ RowsInv s ∧ Lapsed s envelopeId) ?_
            ⟨hledger₀, hrows₀, hlapsed⟩ hgood hafter
          rintro s event s' ⟨hledger, hrows, hlapsed⟩ ⟨hgood, hnot⟩ hstep
          exact ⟨step_ledgerInv hledger (claimsApart_of_sequential hgood) hstep,
            hrows.step (step_rows hledger hstep), hlapsed.step hledger hrows hnot hstep⟩
        exact hend.2.2.reclaimable hledger hidle

namespace Delivery

/-- A claim whose lease of thirty seconds ends before it is finalized. -/
def lapsing : List LedgerEvent :=
  ([.begin 0 claim 0] : List LedgerEvent) ++ statements 0 1 ++
    ([.commit 0, .begin 1 (.finalize envelope none none) 31000000] : List LedgerEvent) ++
    statements 1 31000001 ++ ([.commit 1] : List LedgerEvent)

/-- The call has found an ended lease of the envelope. -/
def foundLapsed : Option LedgerCall → Bool
  | some (.done (some (.leaseExpired id))) => decide (id = envelope)
  | _ => false

theorem claimed_again : ∃ s, run (LedgerSystem.step 30) LedgerSystem.empty lapsing = some s ∧
    s.history.map Prod.snd = [.pending, .expired] ∧ Reclaimable 30 s envelope := by
  have hsequential : Along (LedgerSystem.step 30) Sequential LedgerSystem.empty lapsing := by
    decide +kernel
  have hrun : (run (LedgerSystem.step 30) LedgerSystem.empty lapsing).any (fun s =>
      decide (s.history.map Prod.snd = [.pending, .expired] ∧ s.Idle ∧
        foundLapsed (s.calls.get? 1) = true)) = true := by
    decide +kernel
  obtain ⟨s, hs, hend⟩ := (Option.any_eq_true _ _).mp hrun
  obtain ⟨hhistory, hidle, hfound⟩ := of_decide_eq_true hend
  refine ⟨s, hs, hhistory, ?_⟩
  have hcall : s.calls.get? 1 = some (.done (some (.leaseExpired envelope))) := by
    unfold foundLapsed at hfound
    split at hfound
    next id hid => rw [hid, of_decide_eq_true hfound]
    next => cases hfound
  exact (leaseSafe_of_sequential 30 lapsing s hsequential hs).reclaimable _ [] 1 envelope s
    (List.append_nil _).symm hs hcall (by simp) hidle

end Delivery

end Coivitas.Policy.EnvelopeLedger
