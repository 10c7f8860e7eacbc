import Mathlib.Data.List.Pairwise
import Coivitas.Policy.EnvelopeLedger

/-! # Terminal exclusivity of the envelope ledger

A claim looks for a row and inserts one in two statements, and its check does not see a
row that another claim inserts meanwhile. Where the claims of one envelope do not overlap,
at most one row of an envelope has not expired, however finalizations, rejections and
expiries are interleaved; so no envelope is both committed and rejected, and none is
pending again after it was either.
-/

namespace Coivitas.Policy.EnvelopeLedger

open Foundation

/-! ## The property and its condition -/

/-- No envelope has a committed and a rejected row. -/
def NeverBoth (rows : List LedgerRow) : Prop :=
  ∀ row ∈ rows, ∀ other ∈ rows, row.envelopeId = other.envelopeId →
    row.stored.map RowState.status = some .committed →
      other.stored.map RowState.status ≠ some .rejected

/-- No envelope is pending again after it was committed or rejected. -/
def NeverReopened (history : List (String × LedgerClaimStatus)) : Prop :=
  history.Pairwise fun earlier later =>
    earlier.1 = later.1 → earlier.2.Final → later.2 ≠ .pending

instance (rows : List LedgerRow) : Decidable (NeverBoth rows) := by
  unfold NeverBoth
  infer_instance

instance (history : List (String × LedgerClaimStatus)) : Decidable (NeverReopened history) := by
  unfold NeverReopened
  infer_instance

def Exclusive (s : LedgerSystem) : Prop := NeverBoth s.rows ∧ NeverReopened s.history

/-- The call is a claim of the envelope whose transaction has not ended. -/
def LedgerCall.Claims (envelopeId : String) : LedgerCall → Prop
  | opened t =>
      match t.operation with
      | .claim id _ _ => id = envelopeId
      | _ => False
  | done _ => False

instance (envelopeId : String) (call : LedgerCall) : Decidable (call.Claims envelopeId) := by
  cases call <;> unfold LedgerCall.Claims <;> dsimp only <;> (try split) <;> infer_instance

/-- A claim begins when no other claim of its envelope is under way. -/
def ClaimsApart (s : LedgerSystem) : LedgerEvent → Prop
  | .begin _ (.claim envelopeId _ _) _ => ∀ entry ∈ s.calls.entries, ¬ entry.2.Claims envelopeId
  | _ => True

instance (s : LedgerSystem) (event : LedgerEvent) : Decidable (ClaimsApart s event) := by
  unfold ClaimsApart
  split <;> infer_instance

/-! ## Invariant -/

/-- The row is not known to have expired. -/
def LedgerRow.Live (row : LedgerRow) : Prop := ∀ state ∈ row.stored, state.status ≠ .expired

/-- Not both rows are live, if they are of one envelope. -/
def LedgerRow.NotBothLive (row other : LedgerRow) : Prop :=
  row.envelopeId = other.envelopeId → row.Live → ¬ other.Live

instance : Std.Symm LedgerRow.NotBothLive where
  symm _ _ hboth henvelope hlive hlive' := hboth henvelope.symm hlive' hlive

/-- What holds of a row by itself: without a holder it is as it was committed, and only a
pending row changes. -/
structure LedgerRow.Sound (row : LedgerRow) : Prop where
  free : row.holder = none → row.stored = some row.current
  changed : ∀ state ∈ row.stored, state.status ≠ .pending → row.current.status = state.status
  inserted : row.stored = none → row.current.status = .pending

/-- A claim that has not inserted its row: it holds nothing, has seen every live row, and
found none. -/
def LedgerTransaction.Informed (rows : List LedgerRow) (i : Nat) (t : LedgerTransaction) : Prop :=
  match t.operation, t.stage with
  | .claim envelopeId _ _, .check =>
      (∀ row ∈ rows, row.holder ≠ some i) ∧
        ∀ seen ∈ t.seen, ∀ row ∈ rows, row.envelopeId = envelopeId → row.Live →
          ∃ entry ∈ seen, entry.1 = row.id
  | .claim envelopeId _ _, .insert =>
      (∀ row ∈ rows, row.holder ≠ some i) ∧ ∀ row ∈ rows, row.envelopeId = envelopeId → ¬ row.Live
  | _, _ => True

structure LedgerInv (s : LedgerSystem) : Prop where
  oneLive : s.rows.Pairwise LedgerRow.NotBothLive
  sound : ∀ row ∈ s.rows, row.Sound
  held : ∀ row ∈ s.rows, ∀ i, row.holder = some i → ∃ t, s.calls.get? i = some (.opened t) ∧
    (row.stored = none → (LedgerCall.opened t).Claims row.envelopeId)
  apart : ∀ i j envelopeId, ∀ call ∈ s.calls.get? i, ∀ other ∈ s.calls.get? j,
    call.Claims envelopeId → other.Claims envelopeId → i = j
  informed : ∀ i t, s.calls.get? i = some (.opened t) → t.Informed s.rows i
  accepted : ∀ i t, s.calls.get? i = some (.opened t) →
    ∀ seen ∈ t.seen, ∀ entry ∈ seen, t.stage.accepts entry.2 = true
  reopened : NeverReopened s.history
  recorded : ∀ entry ∈ s.history, entry.2.Final → ∃ row ∈ s.rows, row.envelopeId = entry.1 ∧
    row.stored.map RowState.status = some entry.2

/-! ## Changes of the calls -/

/-- A call moves on while the rows stay as they are: it claims what it claimed before, or what
nobody claims. -/
theorem LedgerInv.setCall {s : LedgerSystem} (hinv : LedgerInv s) {i : Nat} {call : LedgerCall}
    (hclaims : ∀ envelopeId, call.Claims envelopeId →
      (∃ old ∈ s.calls.get? i, old.Claims envelopeId) ∨
        ∀ j, ∀ other ∈ s.calls.get? j, ¬ other.Claims envelopeId)
    (hheld : ∀ row ∈ s.rows, row.holder = some i → ∃ t, call = .opened t ∧
      (row.stored = none → call.Claims row.envelopeId))
    (hopened : ∀ t, call = .opened t → t.Informed s.rows i ∧
      ∀ seen ∈ t.seen, ∀ entry ∈ seen, t.stage.accepts entry.2 = true) :
    LedgerInv (s.setCall i call) where
  oneLive := hinv.oneLive
  sound := hinv.sound
  held := by
    intro row hrow j hholder
    rw [LedgerSystem.setCall, OrderedMap.get?_set]
    split
    next hij =>
      subst hij
      obtain ⟨t, rfl, hclaim⟩ := hheld row hrow hholder
      exact ⟨t, rfl, hclaim⟩
    next => exact hinv.held row hrow j hholder
  apart := by
    -- A claim of the new call is an old claim of `i`, or there was none.
    have hold : ∀ j envelopeId, ∀ other ∈ (s.setCall i call).calls.get? j,
        other.Claims envelopeId → (∃ old ∈ s.calls.get? j, old.Claims envelopeId) ∨
          (i = j ∧ ∀ k, ∀ old ∈ s.calls.get? k, ¬ old.Claims envelopeId) := by
      intro j envelopeId other hother hclaim
      rw [LedgerSystem.setCall, OrderedMap.get?_set] at hother
      split at hother
      next hij =>
        subst hij
        cases hother
        exact (hclaims envelopeId hclaim).imp id fun hnone => ⟨rfl, hnone⟩
      next => exact .inl ⟨other, hother, hclaim⟩
    intro j k envelopeId first hfirst second hsecond hclaim hclaim'
    obtain ⟨old, hold₁, hc₁⟩ | ⟨hij, hnone⟩ := hold j envelopeId first hfirst hclaim
    · obtain ⟨old', hold₂, hc₂⟩ | ⟨_, hnone⟩ := hold k envelopeId second hsecond hclaim'
      · exact hinv.apart j k envelopeId old hold₁ old' hold₂ hc₁ hc₂
      · exact absurd hc₁ (hnone j old hold₁)
    · obtain ⟨old', hold₂, hc₂⟩ | ⟨hik, _⟩ := hold k envelopeId second hsecond hclaim'
      · exact absurd hc₂ (hnone k old' hold₂)
      · exact hij.symm.trans hik
  informed := by
    intro j t hcall
    rw [LedgerSystem.setCall, OrderedMap.get?_set] at hcall
    split at hcall
    next hij =>
      subst hij
      exact (hopened t (Option.some.inj hcall)).1
    next => exact hinv.informed j t hcall
  accepted := by
    intro j t hcall
    rw [LedgerSystem.setCall, OrderedMap.get?_set] at hcall
    split at hcall
    next hij =>
      subst hij
      exact (hopened t (Option.some.inj hcall)).2
    next => exact hinv.accepted j t hcall
  reopened := hinv.reopened
  recorded := hinv.recorded

/-- A transaction that goes on to its next statement. -/
theorem LedgerInv.goTo {s : LedgerSystem} (hinv : LedgerInv s) {i : Nat} {t : LedgerTransaction}
    {stage : Stage} (hcall : s.calls.get? i = some (.opened t))
    (hinformed : ({ t with stage := stage, seen := none } : LedgerTransaction).Informed s.rows i) :
    LedgerInv (s.goTo i t stage) := by
  refine hinv.setCall (fun envelopeId hclaim => .inl ⟨_, hcall, hclaim⟩) ?_ ?_
  · intro row hrow hholder
    obtain ⟨t', hcall', hclaim⟩ := hinv.held row hrow i hholder
    cases hcall.symm.trans hcall'
    exact ⟨_, rfl, hclaim⟩
  · rintro t' ⟨⟩
    exact ⟨hinformed, fun seen hseen => by cases hseen⟩

/-! ## Changes of the rows -/

/-- What a statement of transaction `i`, or its end, does to a row. -/
structure RowStep (i : Nat) (row row' : LedgerRow) : Prop where
  id : row'.id = row.id
  envelopeId : row'.envelopeId = row.envelopeId
  live : row'.Live → row.Live
  holder : row'.holder = row.holder ∨ row'.holder = some i ∨ row'.holder = none
  sound : row'.Sound
  inserted : row'.stored = none → row.stored = none ∧ row'.holder = row.holder
  final : ∀ status, LedgerClaimStatus.Final status → row.stored.map RowState.status = some status →
    row'.stored.map RowState.status = some status

theorem RowStep.refl {i : Nat} {row : LedgerRow} (hsound : row.Sound) : RowStep i row row :=
  ⟨rfl, rfl, fun hlive => hlive, .inl rfl, hsound, fun hnone => ⟨hnone, rfl⟩, fun _ _ hst => hst⟩

/-- A claim stays informed when rows are locked by others, written, released or removed. -/
theorem Informed.filterMap {rows : List LedgerRow} {f : LedgerRow → Option LedgerRow} {i j : Nat}
    {t : LedgerTransaction} (hstep : ∀ row ∈ rows, ∀ row' ∈ f row, RowStep i row row')
    (hholder : ∀ row ∈ rows, ∀ row' ∈ f row, row'.holder = some j → row.holder = some j)
    (hinformed : t.Informed rows j) : t.Informed (rows.filterMap f) j := by
  have hfree : (∀ row ∈ rows, row.holder ≠ some j) →
      ∀ row' ∈ rows.filterMap f, row'.holder ≠ some j := by
    intro hfree row' hrow' hj
    obtain ⟨row, hrow, hf⟩ := List.mem_filterMap.mp hrow'
    exact hfree row hrow (hholder row hrow row' hf hj)
  unfold LedgerTransaction.Informed at hinformed ⊢
  split
  next envelopeId _ _ hop hstage =>
    rw [hop, hstage] at hinformed
    refine ⟨hfree hinformed.1, fun seen hseen row' hrow' henvelope hlive => ?_⟩
    obtain ⟨row, hrow, hf⟩ := List.mem_filterMap.mp hrow'
    have hrowStep := hstep row hrow row' hf
    rw [hrowStep.id]
    exact hinformed.2 seen hseen row hrow (hrowStep.envelopeId ▸ henvelope) (hrowStep.live hlive)
  next envelopeId _ _ hop hstage =>
    rw [hop, hstage] at hinformed
    refine ⟨hfree hinformed.1, fun row' hrow' henvelope hlive => ?_⟩
    obtain ⟨row, hrow, hf⟩ := List.mem_filterMap.mp hrow'
    have hrowStep := hstep row hrow row' hf
    exact hinformed.2 row hrow (hrowStep.envelopeId ▸ henvelope) (hrowStep.live hlive)
  next => trivial

/-- Rows change by the hand of an open transaction, and statuses become known. -/
theorem LedgerInv.filterMap {s : LedgerSystem} (hinv : LedgerInv s) {i : Nat}
    {t : LedgerTransaction} (hcall : s.calls.get? i = some (.opened t))
    {f : LedgerRow → Option LedgerRow}
    (hstep : ∀ row ∈ s.rows, ∀ row' ∈ f row, RowStep i row row')
    (hkept : ∀ row ∈ s.rows, f row = none → row.stored = none)
    (hinformed : t.Informed (s.rows.filterMap f) i)
    {history : List (String × LedgerClaimStatus)} (hreopened : NeverReopened history)
    (hrecorded : ∀ entry ∈ history, entry ∈ s.history ∨ (entry.2.Final →
      ∃ row ∈ s.rows.filterMap f, row.envelopeId = entry.1 ∧
        row.stored.map RowState.status = some entry.2)) :
    LedgerInv { s with rows := s.rows.filterMap f, history } where
  oneLive := by
    refine List.pairwise_filterMap.mpr (hinv.oneLive.imp_of_mem ?_)
    intro row other hrow hother hone row' hrow' other' hother' henvelope hlive hlive'
    have hstep₁ := hstep row hrow row' hrow'
    have hstep₂ := hstep other hother other' hother'
    rw [hstep₁.envelopeId, hstep₂.envelopeId] at henvelope
    exact hone henvelope (hstep₁.live hlive) (hstep₂.live hlive')
  sound := by
    intro row' hrow'
    obtain ⟨row, hrow, hf⟩ := List.mem_filterMap.mp hrow'
    exact (hstep row hrow row' hf).sound
  held := by
    intro row' hrow' j hholder
    obtain ⟨row, hrow, hf⟩ := List.mem_filterMap.mp hrow'
    have hrowStep := hstep row hrow row' hf
    rw [hrowStep.envelopeId]
    obtain hsame | hi | hnone := hrowStep.holder
    · obtain ⟨t', hcall', hclaim⟩ := hinv.held row hrow j (hsame ▸ hholder)
      exact ⟨t', hcall', fun hstored => hclaim (hrowStep.inserted hstored).1⟩
    · cases hi.symm.trans hholder
      refine ⟨t, hcall, fun hstored => ?_⟩
      obtain ⟨hold, hsame⟩ := hrowStep.inserted hstored
      obtain ⟨t', hcall', hclaim⟩ := hinv.held row hrow i (hsame ▸ hholder)
      cases hcall.symm.trans hcall'
      exact hclaim hold
    · cases hnone.symm.trans hholder
  apart := hinv.apart
  informed := by
    intro j t' hcall'
    by_cases hij : i = j
    · subst hij
      cases hcall.symm.trans hcall'
      exact hinformed
    · refine Informed.filterMap hstep ?_ (hinv.informed j t' hcall')
      intro row hrow row' hf hj
      obtain hsame | hi | hnone := (hstep row hrow row' hf).holder
      · exact hsame ▸ hj
      · exact absurd (Option.some.inj (hi.symm.trans hj)) hij
      · cases hnone.symm.trans hj
  accepted := hinv.accepted
  reopened := hreopened
  recorded := by
    intro entry hentry hfinal
    obtain hold | hnew := hrecorded entry hentry
    · obtain ⟨row, hrow, henvelope, hstored⟩ := hinv.recorded entry hold hfinal
      cases hf : f row with
      | none =>
          rw [hkept row hrow hf] at hstored
          cases hstored
      | some row' =>
          have hrowStep := hstep row hrow row' hf
          exact ⟨row', List.mem_filterMap.mpr ⟨row, hrow, hf⟩,
            hrowStep.envelopeId.trans henvelope, hrowStep.final _ hfinal hstored⟩
    · exact hnew hfinal

/-- A lock or a write of an open transaction that is past its claim's insertion. -/
theorem LedgerInv.change {s : LedgerSystem} (hinv : LedgerInv s) {i : Nat}
    {t : LedgerTransaction} (hcall : s.calls.get? i = some (.opened t))
    {p : LedgerRow → Prop} [DecidablePred p] {f : LedgerRow → LedgerRow}
    (hstep : ∀ row ∈ s.rows, p row → RowStep i row (f row))
    (hinformed : ∀ rows, t.Informed rows i) : LedgerInv (s.change p f) := by
  have hrows : (s.change p f).rows =
      s.rows.filterMap fun row => some (if p row then f row else row) := by
    rw [LedgerSystem.change, ← List.filterMap_eq_map]
    rfl
  have hstep' : ∀ row ∈ s.rows, ∀ row' ∈ some (if p row then f row else row),
      RowStep i row row' := by
    rintro row hrow row' ⟨⟩
    split
    next hp => exact hstep row hrow hp
    next => exact .refl (hinv.sound row hrow)
  have hnew := hinv.filterMap hcall hstep' (by simp) (hinformed _) hinv.reopened
    fun entry hentry => .inl hentry
  rw [← hrows] at hnew
  exact hnew

/-- A row that no other transaction has locked is locked. -/
theorem RowStep.lock {i : Nat} {row : LedgerRow} (hsound : row.Sound)
    (hfree : ¬ row.HeldByOther i) : RowStep i row { row with holder := some i } where
  id := rfl
  envelopeId := rfl
  live := fun hlive => hlive
  holder := .inr (.inl rfl)
  sound := ⟨by simp, hsound.changed, hsound.inserted⟩
  inserted := by
    intro hstored
    refine ⟨hstored, ?_⟩
    by_contra hne
    refine hfree ⟨fun hnone => ?_, fun hi => hne hi.symm⟩
    have := hsound.free hnone
    rw [show row.stored = none from hstored] at this
    cases this
  final := fun _ _ hstored => hstored

/-- A pending row that was committed once is written. -/
theorem RowStep.write {i : Nat} {row : LedgerRow} {state : RowState} (hsound : row.Sound)
    (hstored : row.stored ≠ none) (hpending : row.current.status = .pending) :
    RowStep i row { row with holder := some i, current := state } := by
  have hold : ∀ old ∈ row.stored, old.status = .pending := by
    intro old hmem
    by_contra hne
    exact hne ((hsound.changed old hmem hne).symm.trans hpending)
  refine ⟨rfl, rfl, fun hlive => hlive, .inr (.inl rfl), ⟨by simp, ?_, ?_⟩, ?_, ?_⟩
  · intro old hmem hne
    exact absurd (hold old hmem) hne
  · intro hnone
    exact absurd hnone hstored
  · intro hnone
    exact absurd hnone hstored
  · intro status _ hstatus
    exact hstatus

/-! ## The ends of a transaction -/

theorem RowStep.commit {i : Nat} {row : LedgerRow} (hsound : row.Sound) :
    RowStep i row (LedgerSystem.commitRow row) := by
  refine ⟨rfl, rfl, ?_, .inr (.inr rfl), ⟨fun _ => rfl, ?_, by simp [LedgerSystem.commitRow]⟩,
    by simp [LedgerSystem.commitRow], ?_⟩
  · intro hlive state hstate hexpired
    refine hlive row.current rfl ?_
    rw [hsound.changed state hstate (by rw [hexpired]; decide), hexpired]
  · rintro state ⟨⟩ _
    rfl
  · intro status hfinal hstored
    obtain ⟨state, hstate, rfl⟩ := Option.map_eq_some_iff.mp hstored
    have hne : state.status ≠ .pending := by
      rintro hpending
      rw [hpending] at hfinal
      exact absurd hfinal (by decide)
    exact congrArg some (hsound.changed state hstate hne)

/-- What becomes known of a row was not known, so the row was live. -/
theorem published_spec {i : Nat} {row : LedgerRow} {entry : String × LedgerClaimStatus}
    (hsound : row.Sound) (hentry : LedgerSystem.published i row = some entry) :
    row.holder = some i ∧ row.Live ∧ entry = (row.envelopeId, row.current.status) ∧
      (entry.2 = .pending → row.stored = none) := by
  unfold LedgerSystem.published at hentry
  split at hentry
  next hnew =>
    cases hentry
    have hstatus : ∀ state ∈ row.stored, state.status = .pending := by
      intro state hstate
      by_contra hne
      refine hnew.2 ?_
      rw [hsound.changed state hstate hne, hstate, Option.map_some]
    refine ⟨hnew.1, ?_, rfl, ?_⟩
    · intro state hstate hexpired
      cases hexpired.symm.trans (hstatus state hstate)
    · intro hpending
      cases hstored : row.stored with
      | none => rfl
      | some state =>
          refine absurd ?_ hnew.2
          rw [hstored, Option.map_some, hstatus state hstored]
          exact congrArg some hpending.symm
  next => cases hentry

theorem LedgerInv.live_unique {s : LedgerSystem} (hinv : LedgerInv s) {row other : LedgerRow}
    (hrow : row ∈ s.rows) (hother : other ∈ s.rows) (hne : row ≠ other)
    (henvelope : row.envelopeId = other.envelopeId) (hlive : row.Live) : ¬ other.Live :=
  hinv.oneLive.forall hrow hother hne henvelope hlive

theorem live_of_stored {row : LedgerRow} {status : LedgerClaimStatus} (hne : status ≠ .expired)
    (hstored : row.stored.map RowState.status = some status) : row.Live := by
  intro state hstate hexpired
  rw [hstate, Option.map_some, hexpired] at hstored
  exact hne (Option.some.inj hstored).symm

theorem LedgerInv.reopened_published {s : LedgerSystem} (hinv : LedgerInv s) (i : Nat) :
    NeverReopened (s.history ++ s.rows.filterMap (LedgerSystem.published i)) := by
  refine List.pairwise_append.mpr ⟨hinv.reopened, ?_, ?_⟩
  · refine List.pairwise_filterMap.mpr (hinv.oneLive.imp_of_mem ?_)
    intro row other hrow hother hone entry hentry entry' hentry' henvelope
    obtain ⟨_, hlive, rfl, _⟩ := published_spec (hinv.sound row hrow) hentry
    obtain ⟨_, hlive', rfl, _⟩ := published_spec (hinv.sound other hother) hentry'
    exact absurd hlive' (hone henvelope hlive)
  · intro entry hentry entry' hentry' henvelope hfinal hpending
    obtain ⟨row, hrow, hid, hstored⟩ := hinv.recorded entry hentry hfinal
    obtain ⟨other, hother, hpublished⟩ := List.mem_filterMap.mp hentry'
    obtain ⟨_, hlive', hvalue, hnone⟩ := published_spec (hinv.sound other hother) hpublished
    have hne : entry.2 ≠ .expired := by
      intro hexpired
      rw [hexpired] at hfinal
      exact absurd hfinal (by decide)
    have hlive : row.Live := live_of_stored hne hstored
    refine hinv.live_unique hrow hother ?_ ?_ hlive hlive'
    · rintro rfl
      rw [hnone hpending] at hstored
      cases hstored
    · rw [hid, henvelope, hvalue]

/-- The end of a transaction with what it wrote. -/
theorem LedgerInv.commit {s : LedgerSystem} (hinv : LedgerInv s) {i : Nat}
    {t : LedgerTransaction} (hcall : s.calls.get? i = some (.opened t))
    (hinformed : ∀ rows, t.Informed rows i) (result : LedgerResult) :
    LedgerInv (s.commit i result) := by
  have hrows : (s.rows.map fun row =>
      if row.holder = some i then LedgerSystem.commitRow row else row) =
      s.rows.filterMap fun row =>
        some (if row.holder = some i then LedgerSystem.commitRow row else row) := by
    rw [← List.filterMap_eq_map]
    rfl
  have hnew := hinv.filterMap hcall (f := fun row =>
      some (if row.holder = some i then LedgerSystem.commitRow row else row)) ?_ (by simp)
    (hinformed _) (hinv.reopened_published i) ?_
  · rw [← hrows] at hnew
    refine hnew.setCall (fun _ hclaim => hclaim.elim) ?_ (by rintro t' ⟨⟩)
    intro row' hrow' hholder
    obtain ⟨row, hrow, rfl⟩ := List.mem_map.mp hrow'
    split at hholder
    next => cases hholder
    next hne => exact absurd hholder hne
  · rintro row hrow row' ⟨⟩
    split
    next => exact .commit (hinv.sound row hrow)
    next => exact .refl (hinv.sound row hrow)
  · intro entry hentry
    obtain hold | hnew := List.mem_append.mp hentry
    · exact .inl hold
    · refine .inr fun _ => ?_
      obtain ⟨row, hrow, hpublished⟩ := List.mem_filterMap.mp hnew
      obtain ⟨hholder, _, rfl, _⟩ := published_spec (hinv.sound row hrow) hpublished
      refine ⟨LedgerSystem.commitRow row, List.mem_filterMap.mpr ⟨row, hrow, ?_⟩, rfl, rfl⟩
      rw [if_pos hholder]

theorem RowStep.rollback {i : Nat} {row row' : LedgerRow} (hsound : row.Sound)
    (hrollback : LedgerSystem.rollbackRow i row = some row') :
    RowStep i row row' ∧ row'.holder ≠ some i := by
  unfold LedgerSystem.rollbackRow at hrollback
  split at hrollback
  next =>
    obtain ⟨state, hstate, rfl⟩ := Option.map_eq_some_iff.mp hrollback
    refine ⟨⟨rfl, rfl, fun hlive => hlive, .inr (.inr rfl), ⟨fun _ => hstate, ?_, ?_⟩, ?_,
      fun _ _ hstored => hstored⟩, by simp⟩
    · intro state' hstate' _
      cases hstate.symm.trans hstate'
      rfl
    · intro hnone
      cases hstate.symm.trans hnone
    · intro hnone
      cases hstate.symm.trans hnone
  next hne =>
    cases hrollback
    exact ⟨.refl hsound, hne⟩

theorem LedgerInv.rollback {s : LedgerSystem} (hinv : LedgerInv s) {i : Nat}
    {t : LedgerTransaction} (hcall : s.calls.get? i = some (.opened t)) :
    LedgerInv (s.rollback i) := by
  have hstep : ∀ row ∈ s.rows, ∀ row' ∈ LedgerSystem.rollbackRow i row,
      RowStep i row row' ∧ row'.holder ≠ some i :=
    fun row hrow row' hf => RowStep.rollback (hinv.sound row hrow) hf
  have hnew := hinv.filterMap hcall (fun row hrow row' hf => (hstep row hrow row' hf).1) ?_
    (Informed.filterMap (fun row hrow row' hf => (hstep row hrow row' hf).1)
      (fun row hrow row' hf hi => absurd hi (hstep row hrow row' hf).2) (hinv.informed i t hcall))
    hinv.reopened fun entry hentry => .inl hentry
  · refine hnew.setCall (fun _ hclaim => hclaim.elim) ?_ (by rintro t' ⟨⟩)
    intro row' hrow' hholder
    obtain ⟨row, hrow, hf⟩ := List.mem_filterMap.mp hrow'
    exact absurd hholder (hstep row hrow row' hf).2
  · intro row hrow hf
    unfold LedgerSystem.rollbackRow at hf
    split at hf
    next => exact Option.map_eq_none_iff.mp hf
    next => cases hf

/-! ## Statements -/

section Statements

variable {s s' : LedgerSystem} {i : Nat} {t : LedgerTransaction} {now : Int}
  {seen : List (Nat × LedgerClaimStatus)}

theorem claims_of_operation {envelopeId : String} {ttlSeconds : Option Int}
    {claimerId : Option String}
    (hoperation : t.operation = .claim envelopeId ttlSeconds claimerId) :
    (LedgerCall.opened t).Claims envelopeId := by
  unfold LedgerCall.Claims
  dsimp only
  rw [hoperation]

theorem calls_goTo (s : LedgerSystem) (i : Nat) (t : LedgerTransaction) (stage : Stage) :
    (s.goTo i t stage).calls.get? i = some (.opened { t with stage := stage, seen := none }) :=
  (OrderedMap.get?_set ..).trans (if_pos rfl)

theorem informed_ending (t : LedgerTransaction) (result : LedgerResult) (rows : List LedgerRow)
    (i : Nat) : ({ t with stage := .ending result, seen := none } : LedgerTransaction).Informed
      rows i := by
  unfold LedgerTransaction.Informed
  split <;> trivial

theorem informed_of_not_claim (hclaim : ∀ envelopeId, ¬ (LedgerCall.opened t).Claims envelopeId)
    (stage : Stage) (seen : Option (List (Nat × LedgerClaimStatus))) (rows : List LedgerRow)
    (i : Nat) :
    ({ t with stage := stage, seen := seen } : LedgerTransaction).Informed rows i := by
  unfold LedgerTransaction.Informed
  split
  next envelopeId _ _ hop _ => exact absurd (claims_of_operation hop) (hclaim envelopeId)
  next envelopeId _ _ hop _ => exact absurd (claims_of_operation hop) (hclaim envelopeId)
  next => trivial

/-- A check that finds no row ends with no live row of the envelope. -/
theorem LedgerInv.check (hinv : LedgerInv s) {envelopeId : String} {ttlSeconds : Option Int}
    {claimerId : Option String} (hcall : s.calls.get? i = some (.opened t))
    (hoperation : t.operation = .claim envelopeId ttlSeconds claimerId) (hstage : t.stage = .check)
    (hseen : t.seen = some seen) (hcheck : s.check i t now seen envelopeId = some s') :
    LedgerInv s' := by
  have hinformed := hinv.informed i t hcall
  unfold LedgerTransaction.Informed at hinformed
  rw [hoperation, hstage] at hinformed
  obtain ⟨hfree, hall⟩ := hinformed
  unfold LedgerSystem.check at hcheck
  split at hcheck
  next hnone =>
    cases hcheck
    refine hinv.goTo hcall ?_
    unfold LedgerTransaction.Informed
    rw [hoperation]
    refine ⟨hfree, fun row hrow henvelope hlive => ?_⟩
    obtain ⟨entry, hentry, hid⟩ := hall seen hseen row hrow henvelope hlive
    have hskipped : ¬ t.Candidate i now seen row := by
      intro hcandidate
      have hmem : row ∈ s.rows.filter fun row => t.Candidate i now seen row :=
        List.mem_filter.mpr ⟨hrow, decide_eq_true hcandidate⟩
      rw [hnone] at hmem
      cases hmem
    -- The row is not locked, so it is as it was committed; it was skipped as expired.
    have hholder : row.holder = none := by
      by_contra hheld
      exact hskipped ⟨entry, hentry, hid, .inl ⟨hheld, hfree row hrow⟩⟩
    refine hlive row.current ((hinv.sound row hrow).free hholder) ?_
    by_contra hne
    refine hskipped ⟨entry, hentry, hid, .inr (.inr ⟨?_, ?_⟩)⟩
    · rw [hstage]
      exact decide_eq_true hne
    · rw [hoperation]
      exact ⟨henvelope, trivial⟩
  next row rest hfound =>
    split at hcheck
    next => cases hcheck
    next hlocked =>
      cases hcheck
      have hending : LedgerInv (s.goTo i t (.ending
          (if row.current.status.Final then .alreadyTerminal envelopeId
            else .alreadyPending envelopeId))) :=
        hinv.goTo hcall (informed_ending t _ s.rows i)
      exact hending.change (calls_goTo s i t _)
        (fun other hother hp => .lock (hinv.sound other hother) hp.2)
        (fun rows => informed_ending t _ rows i)

/-- The row of a claim joins a ledger without a live row of its envelope. -/
theorem LedgerInv.append (hinv : LedgerInv s) {result : LedgerResult} {envelopeId : String}
    {ttlSeconds : Option Int} {claimerId : Option String} {row : LedgerRow} {nextId : Nat}
    (hcall : s.calls.get? i = some (.opened t)) (hstage : t.stage = .ending result)
    (hoperation : t.operation = .claim envelopeId ttlSeconds claimerId)
    (henvelope : row.envelopeId = envelopeId) (hholder : row.holder = some i)
    (hstored : row.stored = none) (hpending : row.current.status = .pending)
    (hnone : ∀ old ∈ s.rows, old.envelopeId = envelopeId → ¬ old.Live) :
    LedgerInv { s with rows := s.rows ++ [row], nextId } where
  oneLive := by
    refine List.pairwise_append.mpr ⟨hinv.oneLive, List.pairwise_singleton _ _, ?_⟩
    intro old hold new hnew hsame hlive
    rw [List.mem_singleton.mp hnew, henvelope] at hsame
    exact absurd hlive (hnone old hold hsame)
  sound := by
    intro new hnew
    obtain hold | hnew := List.mem_append.mp hnew
    · exact hinv.sound new hold
    · cases List.mem_singleton.mp hnew
      refine ⟨fun hfree => ?_, fun state hstate => ?_, fun _ => hpending⟩
      · cases hholder.symm.trans hfree
      · cases hstored.symm.trans hstate
  held := by
    intro new hnew j hj
    obtain hold | hnew := List.mem_append.mp hnew
    · exact hinv.held new hold j hj
    · cases List.mem_singleton.mp hnew
      cases hholder.symm.trans hj
      exact ⟨t, hcall, fun _ => henvelope ▸ claims_of_operation hoperation⟩
  apart := hinv.apart
  informed := by
    intro j t' hcall'
    have hinformed := hinv.informed j t' hcall'
    -- A claim that has not inserted its row is another one, of another envelope.
    have hother : ∀ id ttl claimer, t'.operation = .claim id ttl claimer → j ≠ i →
        row.envelopeId ≠ id := by
      rintro id ttl claimer hoperation' hne rfl
      refine hne (hinv.apart j i row.envelopeId _ hcall' _ hcall
        (claims_of_operation hoperation') ?_)
      exact henvelope ▸ claims_of_operation hoperation
    unfold LedgerTransaction.Informed at hinformed ⊢
    split
    next id ttl claimer hoperation' hstage' =>
      rw [hoperation', hstage'] at hinformed
      have hne : j ≠ i := by
        rintro rfl
        cases hcall.symm.trans hcall'
        cases hstage.symm.trans hstage'
      refine ⟨List.forall_mem_append.mpr ⟨hinformed.1, ?_⟩, fun seen hseen => ?_⟩
      · rw [List.forall_mem_singleton, hholder]
        exact fun h => hne (Option.some.inj h).symm
      · refine List.forall_mem_append.mpr ⟨hinformed.2 seen hseen, ?_⟩
        rw [List.forall_mem_singleton]
        exact fun hid => absurd hid (hother id ttl claimer hoperation' hne)
    next id ttl claimer hoperation' hstage' =>
      rw [hoperation', hstage'] at hinformed
      have hne : j ≠ i := by
        rintro rfl
        cases hcall.symm.trans hcall'
        cases hstage.symm.trans hstage'
      refine ⟨List.forall_mem_append.mpr ⟨hinformed.1, ?_⟩,
        List.forall_mem_append.mpr ⟨hinformed.2, ?_⟩⟩
      · rw [List.forall_mem_singleton, hholder]
        exact fun h => hne (Option.some.inj h).symm
      · rw [List.forall_mem_singleton]
        exact fun hid => absurd hid (hother id ttl claimer hoperation' hne)
    next => trivial
  accepted := hinv.accepted
  reopened := hinv.reopened
  recorded := by
    intro entry hentry hfinal
    obtain ⟨old, hold, hrest⟩ := hinv.recorded entry hentry hfinal
    exact ⟨old, List.mem_append_left _ hold, hrest⟩

theorem LedgerInv.insert (hinv : LedgerInv s) {envelopeId : String} {ttlSeconds : Option Int}
    {claimerId : Option String} {ttl : Int} (hcall : s.calls.get? i = some (.opened t))
    (hoperation : t.operation = .claim envelopeId ttlSeconds claimerId)
    (hstage : t.stage = .insert)
    (hinsert : s.insert i t now envelopeId ttl claimerId = some s') : LedgerInv s' := by
  have hinformed := hinv.informed i t hcall
  unfold LedgerTransaction.Informed at hinformed
  rw [hoperation, hstage] at hinformed
  unfold LedgerSystem.insert at hinsert
  split at hinsert
  next =>
    cases hinsert
    exact hinv.rollback hcall
  next =>
    split at hinsert
    next => cases hinsert
    next =>
      cases hinsert
      exact hinv.goTo hcall (informed_ending t _ s.rows i)
    next =>
      cases hinsert
      have hending := hinv.goTo hcall
        (informed_ending t (.claimed s.nextId envelopeId now ttl) s.rows i)
      exact hending.append (calls_goTo s i t _) rfl hoperation rfl rfl rfl rfl hinformed.2

/-- A row that a statement on pending rows acts on is a committed one, and pending. -/
theorem LedgerInv.candidate (hinv : LedgerInv s) (hcall : s.calls.get? i = some (.opened t))
    (hclaim : ∀ envelopeId, ¬ (LedgerCall.opened t).Claims envelopeId) (hseen : t.seen = some seen)
    (hpending : ∀ status, t.stage.accepts status = true → status = .pending)
    {row : LedgerRow} (hrow : row ∈ s.rows) (hcandidate : t.Candidate i now seen row)
    (hfree : ¬ row.HeldByOther i) : row.stored ≠ none ∧ row.current.status = .pending := by
  refine ⟨fun hstored => ?_, ?_⟩
  · by_cases hholder : row.holder = none
    · cases hstored.symm.trans ((hinv.sound row hrow).free hholder)
    · have hi : row.holder = some i := by
        by_contra hne
        exact hfree ⟨hholder, hne⟩
      obtain ⟨t', hcall', hclaims⟩ := hinv.held row hrow i hi
      cases hcall.symm.trans hcall'
      exact hclaim _ (hclaims hstored)
  · obtain ⟨entry, hentry, _, hheld | hsame | haccepted⟩ := hcandidate
    · exact absurd hheld hfree
    · exact hsame.trans (hpending _ (hinv.accepted i t hcall seen hseen entry hentry))
    · exact hpending _ haccepted.1

theorem not_blocked (hblocked : ¬ s.Blocked i t now seen) {row : LedgerRow} (hrow : row ∈ s.rows)
    (hcandidate : t.Candidate i now seen row) : ¬ row.HeldByOther i :=
  fun hheld => hblocked ⟨row, hrow, hcandidate, hheld⟩

/-- The statements of a transaction that is no claim leave the invariant. -/
structure Plain (s : LedgerSystem) (i : Nat) (t : LedgerTransaction)
    (seen : List (Nat × LedgerClaimStatus)) : Prop where
  inv : LedgerInv s
  call : s.calls.get? i = some (.opened t)
  noClaim : ∀ envelopeId, ¬ (LedgerCall.opened t).Claims envelopeId
  seen : t.seen = some seen
  pending : ∀ status, t.stage.accepts status = true → status = .pending

namespace Plain

variable (hplain : Plain s i t seen)

include hplain

theorem goTo (stage : Stage) : LedgerInv (s.goTo i t stage) :=
  hplain.inv.goTo hplain.call (informed_of_not_claim hplain.noClaim _ _ _ _)

theorem writeFound (hblocked : ¬ s.Blocked i t now seen) (state : RowState) (stage : Stage) :
    LedgerInv ((s.writeFound i t now seen state).goTo i t stage) := by
  refine LedgerInv.goTo ?_ hplain.call (informed_of_not_claim hplain.noClaim _ _ _ _)
  refine hplain.inv.change hplain.call (fun row hrow hcandidate => ?_)
    fun rows => informed_of_not_claim hplain.noClaim t.stage t.seen rows i
  obtain ⟨hstored, hpending⟩ := hplain.inv.candidate hplain.call hplain.noClaim hplain.seen
    hplain.pending hrow hcandidate (not_blocked hblocked hrow hcandidate)
  exact .write (hplain.inv.sound row hrow) hstored hpending

theorem select {ifFound ifNone : Stage} (hselect : s.select i t now seen ifFound ifNone = some s') :
    LedgerInv s' := by
  unfold LedgerSystem.select at hselect
  split at hselect
  next => cases hselect
  next hblocked =>
    split at hselect
    next =>
      cases hselect
      refine LedgerInv.goTo ?_ hplain.call (informed_of_not_claim hplain.noClaim _ _ _ _)
      exact hplain.inv.change hplain.call (fun row hrow hcandidate =>
          .lock (hplain.inv.sound row hrow) (not_blocked hblocked hrow hcandidate))
        fun rows => informed_of_not_claim hplain.noClaim t.stage t.seen rows i
    next =>
      cases hselect
      exact hplain.goTo _

theorem update {envelopeId : String} {state : RowState} {result : LedgerResult}
    (hupdate : s.update i t now seen envelopeId state result = some s') : LedgerInv s' := by
  unfold LedgerSystem.update at hupdate
  split at hupdate
  next => cases hupdate
  next hblocked =>
    split at hupdate
    next =>
      split at hupdate
      next => cases hupdate
      next =>
        cases hupdate
        exact hplain.inv.rollback hplain.call
      next =>
        cases hupdate
        exact hplain.writeFound hblocked state _
    next =>
      cases hupdate
      exact hplain.inv.rollback hplain.call

theorem expire {envelopeId : String} (hexpire : s.expire i t now seen envelopeId = some s') :
    LedgerInv s' := by
  unfold LedgerSystem.expire at hexpire
  split at hexpire
  next => cases hexpire
  next hblocked =>
    split at hexpire
    next =>
      cases hexpire
      exact hplain.writeFound hblocked _ _
    next =>
      cases hexpire
      exact hplain.goTo _

theorem sweep (limit : Nat) : LedgerInv (s.sweep i t now seen limit) := by
  have hinformed : ∀ rows, t.Informed rows i :=
    fun rows => informed_of_not_claim hplain.noClaim t.stage t.seen rows i
  unfold LedgerSystem.sweep
  refine LedgerInv.commit (t := t) ?_ (by exact hplain.call) hinformed _
  refine hplain.inv.change hplain.call (fun row hrow hswept => ?_) hinformed
  obtain ⟨hstored, hpending⟩ := hplain.inv.candidate hplain.call hplain.noClaim hplain.seen
    hplain.pending hrow hswept.2.1 hswept.2.2
  exact .write (hplain.inv.sound row hrow) hstored hpending

end Plain

theorem not_claims_of_operation (hoperation : ∀ envelopeId ttlSeconds claimerId,
    t.operation ≠ .claim envelopeId ttlSeconds claimerId) (envelopeId : String) :
    ¬ (LedgerCall.opened t).Claims envelopeId := by
  unfold LedgerCall.Claims
  dsimp only
  split
  next id _ _ hclaim => exact absurd hclaim (hoperation _ _ _)
  next => exact id

theorem LedgerInv.complete (hinv : LedgerInv s) {defaultTtlSeconds : Int}
    (hcall : s.calls.get? i = some (.opened t)) (hseen : t.seen = some seen)
    (hcomplete : s.complete i t now seen defaultTtlSeconds = some s') : LedgerInv s' := by
  have hplain : (∀ envelopeId ttlSeconds claimerId,
      t.operation ≠ .claim envelopeId ttlSeconds claimerId) →
      (∀ status, t.stage.accepts status = true → status = .pending) → Plain s i t seen :=
    fun hoperation hpending => ⟨hinv, hcall, not_claims_of_operation hoperation, hseen, hpending⟩
  have hread : (∀ envelopeId ttlSeconds claimerId,
      t.operation ≠ .claim envelopeId ttlSeconds claimerId) →
      ∀ result, LedgerInv (s.goTo i t (.ending result)) :=
    fun hoperation result => hinv.goTo hcall (informed_ending t result s.rows i)
  unfold LedgerSystem.complete at hcomplete
  split at hcomplete
  next hop hstage => exact hinv.check hcall hop hstage hseen hcomplete
  next hop hstage => exact hinv.insert hcall hop hstage hcomplete
  next hop hstage =>
    exact (hplain (by simp [hop]) (by simp [hstage, Stage.accepts])).select hcomplete
  next hop hstage =>
    exact (hplain (by simp [hop]) (by simp [hstage, Stage.accepts])).update hcomplete
  next hop hstage =>
    exact (hplain (by simp [hop]) (by simp [hstage, Stage.accepts])).expire hcomplete
  next hop hstage =>
    cases hcomplete
    exact hread (by simp [hop]) _
  next hop hstage =>
    exact (hplain (by simp [hop]) (by simp [hstage, Stage.accepts])).select hcomplete
  next hop hstage =>
    exact (hplain (by simp [hop]) (by simp [hstage, Stage.accepts])).update hcomplete
  next hop hstage =>
    cases hcomplete
    exact hread (by simp [hop]) _
  next hop hstage =>
    cases hcomplete
    exact (hplain (by simp [hop]) (by simp [hstage, Stage.accepts])).sweep _
  next => cases hcomplete

/-- The snapshot of a claim's check has every live row of the envelope: a row that is not
committed yet belongs to a claim under way, and there is no other. -/
theorem LedgerInv.issue (hinv : LedgerInv s) (hcall : s.calls.get? i = some (.opened t)) :
    LedgerInv (s.setCall i (.opened { t with seen := some (t.snapshot i now s.rows) })) := by
  refine hinv.setCall (fun envelopeId hclaim => .inl ⟨_, hcall, hclaim⟩) ?_ ?_
  · intro row hrow hholder
    obtain ⟨t', hcall', hclaim⟩ := hinv.held row hrow i hholder
    cases hcall.symm.trans hcall'
    exact ⟨_, rfl, hclaim⟩
  · rintro t' ⟨⟩
    refine ⟨?_, ?_⟩
    · have hinformed := hinv.informed i t hcall
      unfold LedgerTransaction.Informed at hinformed ⊢
      split
      next envelopeId ttlSeconds claimerId hop hstage =>
        dsimp only at hop hstage
        rw [hop, hstage] at hinformed
        refine ⟨hinformed.1, ?_⟩
        rintro _ ⟨⟩ row hrow henvelope hlive
        cases hstored : row.stored with
        | none =>
            have hheld : row.holder ≠ none := by
              intro hfree
              cases hstored.symm.trans ((hinv.sound row hrow).free hfree)
            obtain ⟨j, hj⟩ := Option.ne_none_iff_exists'.mp hheld
            obtain ⟨t', hcall', hclaim⟩ := hinv.held row hrow j hj
            have hij := hinv.apart i j row.envelopeId _ hcall _ hcall'
              (henvelope ▸ claims_of_operation hop) (hclaim hstored)
            exact absurd hj (hij ▸ hinformed.1 row hrow)
        | some state =>
            refine ⟨(row.id, state.status), List.mem_filterMap.mpr ⟨row, hrow, ?_⟩, rfl⟩
            have haccepts : t.stage.accepts state.status = true := by
              rw [hstage]
              exact decide_eq_true (hlive state hstored)
            have happlies : applies t.operation t.stage now row := by
              rw [hop]
              exact ⟨henvelope, trivial⟩
            rw [LedgerRow.visible, if_neg (hinformed.1 row hrow), hstored]
            exact if_pos ⟨haccepts, happlies⟩
      next envelopeId ttlSeconds claimerId hop hstage =>
        dsimp only at hop hstage
        rw [hop, hstage] at hinformed
        exact hinformed
      next => trivial
    · rintro _ ⟨⟩ entry hentry
      obtain ⟨row, hrow, hf⟩ := List.mem_filterMap.mp hentry
      split at hf
      next => cases hf
      next state hstate =>
        split at hf
        next haccepts =>
          cases hf
          exact haccepts.1
        next => cases hf

end Statements

/-! ## Runs -/

theorem step_ledgerInv {defaultTtlSeconds : Int} {s s' : LedgerSystem} {event : LedgerEvent}
    (hinv : LedgerInv s) (hapart : ClaimsApart s event)
    (hstep : s.step defaultTtlSeconds event = some s') : LedgerInv s' := by
  cases event with
  | begin i operation now =>
      simp only [LedgerSystem.step] at hstep
      split at hstep
      next hnone =>
        cases hstep
        have hfree : ∀ row ∈ s.rows, row.holder ≠ some i := by
          intro row hrow hholder
          obtain ⟨t, hcall, _⟩ := hinv.held row hrow i hholder
          cases hnone.symm.trans hcall
        refine hinv.setCall ?_ (fun row hrow hholder => absurd hholder (hfree row hrow)) ?_
        · intro envelopeId hclaim
          refine .inr fun j other hother => ?_
          cases operation with
          | claim id ttlSeconds claimerId =>
              cases hclaim
              exact hapart (j, other) ((OrderedMap.mem_entries_iff _ _ _).mpr hother)
          | finalize id resultSummary claimerId => exact hclaim.elim
          | reject id claimerId => exact hclaim.elim
          | expireStalePending limit => exact hclaim.elim
        · rintro t ⟨⟩
          refine ⟨?_, fun seen hseen => by cases hseen⟩
          cases operation with
          | claim id ttlSeconds claimerId => exact ⟨hfree, fun seen hseen => by cases hseen⟩
          | finalize id resultSummary claimerId => trivial
          | reject id claimerId => trivial
          | expireStalePending limit => trivial
      next => cases hstep
  | issue i now =>
      simp only [LedgerSystem.step] at hstep
      split at hstep
      next t hcall =>
        split at hstep
        next => cases hstep
        next => cases hstep
        next =>
          cases hstep
          exact hinv.issue hcall
      next => cases hstep
  | complete i now =>
      simp only [LedgerSystem.step] at hstep
      split at hstep
      next t hcall =>
        split at hstep
        next seen hseen => exact hinv.complete hcall hseen hstep
        next => cases hstep
      next => cases hstep
  | commit i =>
      simp only [LedgerSystem.step] at hstep
      split at hstep
      next t hcall =>
        split at hstep
        next result hstage =>
          cases hstep
          refine hinv.commit hcall (fun rows => ?_) result
          unfold LedgerTransaction.Informed
          rw [hstage]
          split <;> trivial
        next => cases hstep
      next => cases hstep
  | rollback i =>
      simp only [LedgerSystem.step] at hstep
      split at hstep
      next t hcall =>
        cases hstep
        exact hinv.rollback hcall
      next => cases hstep

theorem empty_ledgerInv : LedgerInv LedgerSystem.empty := by
  constructor <;> simp [LedgerSystem.empty, NeverReopened]

/-- Two committed rows of an envelope are one row, so it has one final status. -/
theorem LedgerInv.exclusive {s : LedgerSystem} (hinv : LedgerInv s) : Exclusive s := by
  refine ⟨fun row hrow other hother henvelope hcommitted hrejected => ?_, hinv.reopened⟩
  refine hinv.live_unique hrow hother ?_ henvelope (live_of_stored (by decide) hcommitted)
    (live_of_stored (by decide) hrejected)
  rintro rfl
  cases hcommitted.symm.trans hrejected

/-- The ledger is exclusive after every interleaving in which the claims of one envelope do
not overlap. -/
theorem exclusive_of_claimsApart (defaultTtlSeconds : Int) (events : List LedgerEvent)
    (s : LedgerSystem)
    (hapart : Along (LedgerSystem.step defaultTtlSeconds) ClaimsApart LedgerSystem.empty events)
    (hrun : run (LedgerSystem.step defaultTtlSeconds) LedgerSystem.empty events = some s) :
    Exclusive s :=
  (run_invariant LedgerInv (fun _ _ _ hinv hgood hstep => step_ledgerInv hinv hgood hstep)
    empty_ledgerInv hapart hrun).exclusive

/-! ## An envelope -/

namespace Delivery

def envelope : String := "env-7741"

def claim : Operation := .claim envelope none none

/-- The two statements of a transaction, one after the other. -/
def statements (i : Nat) (now : Int) : List LedgerEvent :=
  [.issue i now, .complete i now, .issue i (now + 1), .complete i (now + 1)]

/-- The first claim has found no row; the second one is made and finalized before the first
inserts its row, which is rejected in the end. -/
def overlapping : List LedgerEvent :=
  ([.begin 0 claim 0, .issue 0 0, .complete 0 1, .begin 1 claim 2] : List LedgerEvent) ++
    statements 1 3 ++
    ([.commit 1, .begin 2 (.finalize envelope none none) 5] : List LedgerEvent) ++
    statements 2 6 ++
    ([.commit 2, .issue 0 8, .complete 0 9, .commit 0,
      .begin 3 (.reject envelope none) 10] : List LedgerEvent) ++
    statements 3 11 ++ ([.commit 3] : List LedgerEvent)

/-- The envelope is committed, pending again and rejected. -/
theorem committed_and_rejected : ∃ s, run (LedgerSystem.step 30) LedgerSystem.empty overlapping =
    some s ∧ ¬ NeverBoth s.rows ∧ ¬ NeverReopened s.history := by
  have hrun : (run (LedgerSystem.step 30) LedgerSystem.empty overlapping).any (fun s =>
      decide (¬ NeverBoth s.rows ∧ ¬ NeverReopened s.history)) = true := by
    decide +kernel
  obtain ⟨s, hs, hviolated⟩ := (Option.any_eq_true _ _).mp hrun
  exact ⟨s, hs, of_decide_eq_true hviolated⟩

/-- A finalization and a rejection race for the row of the first claim, and a second claim
comes late. -/
def racing : List LedgerEvent :=
  ([.begin 0 claim 0] : List LedgerEvent) ++ statements 0 1 ++
    ([.commit 0, .begin 1 (.finalize envelope none none) 3, .begin 2 (.reject envelope none) 3,
      .issue 1 4, .issue 2 4, .complete 1 5, .issue 1 6, .complete 1 6, .begin 3 claim 7,
      .issue 3 7, .commit 1, .complete 2 8, .issue 2 9, .complete 2 9, .commit 2, .complete 3 10,
      .commit 3] : List LedgerEvent)

theorem finalized_only : ∃ s, run (LedgerSystem.step 30) LedgerSystem.empty racing = some s ∧
    s.history.map Prod.snd = [.pending, .committed] ∧ Exclusive s := by
  have hapart : Along (LedgerSystem.step 30) ClaimsApart LedgerSystem.empty racing := by
    decide +kernel
  have hrun : (run (LedgerSystem.step 30) LedgerSystem.empty racing).any (fun s =>
      decide (s.history.map Prod.snd = [.pending, .committed])) = true := by
    decide +kernel
  obtain ⟨s, hs, hhistory⟩ := (Option.any_eq_true _ _).mp hrun
  exact ⟨s, hs, of_decide_eq_true hhistory,
    exclusive_of_claimsApart 30 racing s hapart hs⟩

end Delivery

end Coivitas.Policy.EnvelopeLedger
