import Coivitas.Communication.ScopeValidator
import Mathlib.Tactic.Linarith
import Mathlib.Tactic.Ring

/-! # Accounting of the scope validator

What a call of `validateScope` does to the committed tables: nothing when it is
rejected or throws, and when it is accepted one quota step and one value step, each
of which counts a new key once and leaves a recorded key alone.
-/

namespace Coivitas.Communication.Bridge

open Foundation Coivitas.Types

/-! ## Rounding -/

/-- A whole number of cents. -/
def IsCents (q : ℚ) : Prop := ∃ z : ℤ, q = z / 100

theorem isCents_roundCents (q : ℚ) : IsCents (roundCents q) := by
  unfold roundCents
  split
  next => exact ⟨⌊q * 100 + 1 / 2⌋, rfl⟩
  next =>
    refine ⟨-⌊-q * 100 + 1 / 2⌋, ?_⟩
    push_cast
    ring

theorem roundCents_of_isCents {q : ℚ} (hcents : IsCents q) : roundCents q = q := by
  obtain ⟨z, rfl⟩ := hcents
  have hfloor : ∀ n : ℤ, ⌊(n : ℚ) + 1 / 2⌋ = n := by
    intro n
    rw [Int.floor_intCast_add]
    norm_num
  unfold roundCents
  split
  next =>
    rw [show (z : ℚ) / 100 * 100 + 1 / 2 = z + 1 / 2 by ring, hfloor]
  next =>
    have hneg : -((z : ℚ) / 100) * 100 + 1 / 2 = ((-z : ℤ) : ℚ) + 1 / 2 := by
      push_cast
      ring
    rw [hneg, hfloor]
    push_cast
    ring

theorem IsCents.add {a b : ℚ} (ha : IsCents a) (hb : IsCents b) : IsCents (a + b) := by
  obtain ⟨y, rfl⟩ := ha
  obtain ⟨z, rfl⟩ := hb
  refine ⟨y + z, ?_⟩
  push_cast
  ring

/-! ## Requests -/

section Requests

variable {α : Type} {db db' : Database} {events : List Empty} {a : α}

theorem run_send_eq_ok {action : Database → Except Fault (α × Database)}
    (h : (send action).run db = ⟨.ok a, db', events⟩) :
    action { db with replies := db.replies.tail } = .ok (a, db') := by
  unfold send Program.run at h
  dsimp only at h
  split at h
  next => cases congrArg Execution.result h
  next =>
    split at h
    next b db'' haction =>
      obtain ⟨rfl, rfl, -⟩ := by simpa using h
      exact haction
    next => cases congrArg Execution.result h

theorem run_send_eq_error {action : Database → Except Fault (α × Database)} {fault : Fault}
    (h : (send action).run db = ⟨.error fault, db', events⟩) : db'.committed = db.committed := by
  unfold send Program.run at h
  dsimp only at h
  split at h
  next =>
    obtain ⟨-, rfl, -⟩ := by simpa using h
    rfl
  next =>
    split at h
    next => cases congrArg Execution.result h
    next =>
      obtain ⟨-, rfl, -⟩ := by simpa using h
      rfl

theorem run_query_eq_ok {statement : Statement α}
    (h : (query statement).run db = ⟨.ok a, db', events⟩) :
    statement db.working = .ok (a, db'.working) ∧ db'.committed = db.committed := by
  have haction := run_send_eq_ok h
  split at haction
  next b tables hstatement =>
    obtain ⟨rfl, rfl⟩ := by simpa using haction
    exact ⟨hstatement, rfl⟩
  next => cases haction

theorem keeps_send {action : Database → Except Fault (α × Database)}
    (haction : ∀ db a db', action db = .ok (a, db') → db'.committed = db.committed) :
    Program.Keeps Database.committed (send action) := by
  intro db
  unfold send Program.run
  dsimp only
  split
  next => rfl
  next =>
    split
    next b db' h => exact haction { db with replies := db.replies.tail } b db' h
    next => rfl

theorem keeps_query (statement : Statement α) :
    Program.Keeps Database.committed (query statement) := by
  refine keeps_send ?_
  intro db a db' haction
  split at haction
  next b tables =>
    obtain ⟨-, rfl⟩ := by simpa using haction
    rfl
  next => cases haction

theorem keeps_acquireClient : Program.Keeps Database.committed acquireClient := by
  refine keeps_send ?_
  rintro db a db' ⟨⟩
  rfl

theorem keeps_beginTransaction : Program.Keeps Database.committed beginTransaction := by
  refine keeps_send ?_
  rintro db a db' ⟨⟩
  rfl

theorem keeps_rollback : Program.Keeps Database.committed rollback := by
  refine keeps_send ?_
  rintro db a db' ⟨⟩
  rfl

end Requests

/-! ## Steps of an accepted call -/

def okRow : IdempotencyRow := ⟨.ok, none, none⟩

/-- The tables after a call counted for its day under a new key. -/
def countedCall (input : ScopeTxBodyInput) (tables : Tables) : Tables :=
  { tables with
    quotaCounter := Function.update tables.quotaCounter (input.token, input.today)
      (some ((tables.quotaCounter (input.token, input.today)).getD 0 + 1))
    quotaIdempotency := Function.update tables.quotaIdempotency
      (input.requestIdempotencyKey, input.token) (some okRow) }

/-- The tables after a value counted under a new key. -/
def countedValue (input : ScopeTxBodyInput) (currency : String) (value : ℚ) (tables : Tables) :
    Tables :=
  { tables with
    valueCounter := Function.update tables.valueCounter (input.token, currency)
      (some (roundCents ((tables.valueCounter (input.token, currency)).getD 0 + value)))
    valueIdempotency := Function.update tables.valueIdempotency
      (input.requestIdempotencyKey, input.token, currency) (some okRow) }

/-- What the quota part of an accepted call does. The cap guards the update of a
counter, not its first insertion. -/
inductive QuotaStep (input : ScopeTxBodyInput) (tables : Tables) : Tables → Prop where
  | unclaimed (hclaim : input.perDayClaim = none) : QuotaStep input tables tables
  | recorded {claim : ScopeClaim} {row : IdempotencyRow} (hclaim : input.perDayClaim = some claim)
      (hrow : tables.quotaIdempotency (input.requestIdempotencyKey, input.token) = some row) :
      QuotaStep input tables tables
  | counted {claim : ScopeClaim} (hclaim : input.perDayClaim = some claim)
      (hnew : tables.quotaIdempotency (input.requestIdempotencyKey, input.token) = none)
      (hguard : ∀ callsCount ∈ tables.quotaCounter (input.token, input.today),
        ((callsCount + 1 : ℤ) : ℚ) ≤ claim.value) :
      QuotaStep input tables (countedCall input tables)

/-- What the value part of an accepted call does. -/
inductive ValueStep (input : ScopeTxBodyInput) (tables : Tables) : Tables → Prop where
  | unclaimed (hclaim : input.totalClaim = none) : ValueStep input tables tables
  | recorded {claim : ScopeClaim} {row : IdempotencyRow} (hclaim : input.totalClaim = some claim)
      (hrow : tables.valueIdempotency (input.requestIdempotencyKey, input.token,
        claim.currency.getD "") = some row) : ValueStep input tables tables
  | counted {claim : ScopeClaim} {value : ℚ} (hclaim : input.totalClaim = some claim)
      (hvalue : input.mcpCallValue = some value)
      (hnew : tables.valueIdempotency (input.requestIdempotencyKey, input.token,
        claim.currency.getD "") = none)
      (hguard : ∀ totalValue ∈ tables.valueCounter (input.token, claim.currency.getD ""),
        totalValue + value ≤ claim.value) :
      ValueStep input tables (countedValue input (claim.currency.getD "") value tables)

/-- An accepted call is a quota step and a value step. -/
def Accounted (input : ScopeTxBodyInput) (tables tables' : Tables) : Prop :=
  ∃ middle, QuotaStep input tables middle ∧ ValueStep input middle tables'

/-! ## Statements -/

theorem incrementQuota_eq_ok {token day : String} {maxPerDay : ℚ} {tables tables' : Tables}
    {count : Int} (h : incrementQuota token day maxPerDay tables = .ok (some count, tables')) :
    (∀ callsCount ∈ tables.quotaCounter (token, day),
      ((callsCount + 1 : ℤ) : ℚ) ≤ maxPerDay) ∧
      tables' = { tables with
        quotaCounter := Function.update tables.quotaCounter (token, day)
          (some ((tables.quotaCounter (token, day)).getD 0 + 1)) } := by
  simp only [incrementQuota, toInteger, bind_eq_ok, exists_unit, require_eq_ok, pure_eq_ok] at h
  obtain ⟨limit, ⟨hden, -, rfl⟩, hrest⟩ := h
  cases hcount : tables.quotaCounter (token, day) with
  | none =>
      simp only [hcount, pure_eq_ok, Prod.mk.injEq] at hrest
      exact ⟨by simp, by rw [← hrest.2]; rfl⟩
  | some callsCount =>
      simp only [hcount, bind_eq_ok, exists_unit, require_eq_ok] at hrest
      obtain ⟨-, hrest⟩ := hrest
      split at hrest
      next hle =>
        simp only [pure_eq_ok, Prod.mk.injEq] at hrest
        refine ⟨?_, by rw [← hrest.2]; rfl⟩
        rintro _ ⟨⟩
        rw [← Rat.coe_int_num_of_den_eq_one hden]
        exact_mod_cast hle
      next => simp at hrest

theorem incrementValue_eq_ok {token currency : String} {value maxTotalValue stored : ℚ}
    {tables tables' : Tables}
    (h : incrementValue token currency value maxTotalValue tables = .ok (some stored, tables')) :
    (∀ totalValue ∈ tables.valueCounter (token, currency), totalValue + value ≤ maxTotalValue) ∧
      tables' = { tables with
        valueCounter := Function.update tables.valueCounter (token, currency)
          (some (roundCents ((tables.valueCounter (token, currency)).getD 0 + value))) } := by
  simp only [incrementValue, toNumeric, bind_eq_ok, exists_unit, require_eq_ok, pure_eq_ok] at h
  obtain ⟨_, ⟨-, rfl⟩, hrest⟩ := h
  cases htotal : tables.valueCounter (token, currency) with
  | none =>
      simp only [htotal, pure_eq_ok, Prod.mk.injEq] at hrest
      obtain ⟨-, rfl⟩ := hrest
      exact ⟨by simp, by simp⟩
  | some totalValue =>
      simp only [htotal] at hrest
      split at hrest
      next hle =>
        simp only [bind_eq_ok, exists_unit, require_eq_ok, pure_eq_ok, Prod.mk.injEq] at hrest
        obtain ⟨_, ⟨-, rfl⟩, -, rfl⟩ := hrest
        exact ⟨by simpa using hle, by simp⟩
      next => simp at hrest

/-! ## The transaction body -/

/-- Every idempotency row is `ok`. -/
structure AllOk (tables : Tables) : Prop where
  quota : ∀ key row, tables.quotaIdempotency key = some row → row.cachedResult = .ok
  value : ∀ key row, tables.valueIdempotency key = some row → row.cachedResult = .ok

theorem update_ok {κ : Type} [DecidableEq κ] {rows : κ → Option IdempotencyRow} {key : κ}
    (hrows : ∀ k row, rows k = some row → row.cachedResult = .ok) :
    ∀ k row, Function.update rows key (some okRow) k = some row → row.cachedResult = .ok := by
  intro k row hrow
  by_cases hk : k = key
  · subst hk
    rw [Function.update_self] at hrow
    cases hrow
    rfl
  · rw [Function.update_of_ne hk] at hrow
    exact hrows k row hrow

theorem AllOk.quotaStep {input : ScopeTxBodyInput} {tables tables' : Tables}
    (hok : AllOk tables) (hstep : QuotaStep input tables tables') : AllOk tables' := by
  cases hstep with
  | unclaimed => exact hok
  | recorded => exact hok
  | counted => exact ⟨update_ok hok.quota, hok.value⟩

theorem AllOk.valueStep {input : ScopeTxBodyInput} {tables tables' : Tables}
    (hok : AllOk tables) (hstep : ValueStep input tables tables') : AllOk tables' := by
  cases hstep with
  | unclaimed => exact hok
  | recorded => exact hok
  | counted => exact ⟨hok.quota, update_ok hok.value⟩

theorem AllOk.accounted {input : ScopeTxBodyInput} {tables tables' : Tables}
    (hok : AllOk tables) (haccounted : Accounted input tables tables') : AllOk tables' := by
  obtain ⟨middle, hquota, hvalue⟩ := haccounted
  exact (hok.quotaStep hquota).valueStep hvalue

section Body

variable {input : ScopeTxBodyInput} {db db' : Database} {events : List Empty}
  {r : Option ScopeTxBodyResult}

/-- A key whose row is `ok` is passed; a new key is reserved and counted. -/
theorem run_idempotent_eq_ok {slot : Slot} {race fallback : String}
    {first : DbProgram (Option ScopeTxBodyResult)}
    (hok : ∀ row, slot.read db.working = some row → row.cachedResult = .ok)
    (h : (idempotent slot race fallback first).run db = ⟨.ok r, db', events⟩) :
    (∃ row, slot.read db.working = some row ∧ r = none ∧ db'.working = db.working) ∨
      slot.read db.working = none ∧ ∃ db₁ rest,
        db₁.working = slot.write ⟨.pending, none, none⟩ db.working ∧
          first.run db₁ = ⟨.ok r, db', rest⟩ := by
  simp only [idempotent, Program.run_bind_eq_ok] at h
  obtain ⟨inserted, db₁, _, _, hinsert, hrest, -⟩ := h
  have hstatement := (run_query_eq_ok hinsert).1
  cases hread : slot.read db.working with
  | none =>
      simp only [insertPending, hread, Except.ok.injEq, Prod.mk.injEq] at hstatement
      obtain ⟨rfl, hworking⟩ := hstatement
      exact Or.inr ⟨rfl, db₁, _, hworking.symm, hrest⟩
  | some row =>
      simp only [insertPending, hread, Except.ok.injEq, Prod.mk.injEq] at hstatement
      obtain ⟨rfl, hworking⟩ := hstatement
      simp only [Bool.false_eq_true, if_false, Program.run_bind_eq_ok] at hrest
      obtain ⟨cached, db₂, _, _, hselect, hreturn, -⟩ := hrest
      have hcached := (run_query_eq_ok hselect).1
      rw [← hworking] at hcached
      simp only [selectCached, hread, Except.ok.injEq, Prod.mk.injEq] at hcached
      obtain ⟨rfl, hworking'⟩ := hcached
      simp only [hok row hread, Program.run_pure_eq_ok] at hreturn
      obtain ⟨rfl, rfl, -⟩ := hreturn
      exact Or.inl ⟨row, rfl, rfl, hworking'.symm⟩

theorem run_countCall_eq_ok {claim : ScopeClaim} {tables : Tables}
    (hworking : db.working =
      (quotaSlot input.requestIdempotencyKey input.token).write ⟨.pending, none, none⟩ tables)
    (h : (countCall input claim).run db = ⟨.ok r, db', events⟩) :
    (r = none ∧ (∀ callsCount ∈ tables.quotaCounter (input.token, input.today),
        ((callsCount + 1 : ℤ) : ℚ) ≤ claim.value) ∧ db'.working = countedCall input tables) ∨
      ∃ rejection, r = some (.rollback (.rejected rejection)) := by
  simp only [countCall, Program.run_bind_eq_ok] at h
  obtain ⟨count, db₁, _, _, hincrement, hrest, -⟩ := h
  cases count with
  | none =>
      simp only [Program.run_pure_eq_ok] at hrest
      exact Or.inr ⟨_, hrest.1.symm⟩
  | some count =>
      simp only [Program.run_bind_eq_ok, Program.run_pure_eq_ok] at hrest
      obtain ⟨_, db₂, _, _, hfinalize, ⟨rfl, rfl, -⟩, -⟩ := hrest
      obtain ⟨hguard, hcounted⟩ := incrementQuota_eq_ok (run_query_eq_ok hincrement).1
      have hfinal := (run_query_eq_ok hfinalize).1
      rw [hcounted, hworking] at hfinal
      rw [hworking] at hguard
      refine Or.inl ⟨rfl, hguard, ?_⟩
      simp only [finalizeOk, quotaSlot, Function.update_self, Function.update_idem,
        Except.ok.injEq, Prod.mk.injEq, true_and] at hfinal
      exact hfinal.symm

theorem run_countValue_eq_ok {claim : ScopeClaim} {currency : String} {tables : Tables}
    (hworking : db.working = (valueSlot input.requestIdempotencyKey input.token currency).write
      ⟨.pending, none, none⟩ tables)
    (h : (countValue input claim currency).run db = ⟨.ok r, db', events⟩) :
    (r = none ∧ ∃ value, input.mcpCallValue = some value ∧
        (∀ totalValue ∈ tables.valueCounter (input.token, currency),
          totalValue + value ≤ claim.value) ∧
        db'.working = countedValue input currency value tables) ∨
      ∃ rejection, r = some (.rollback (.rejected rejection)) := by
  cases hvalue : input.mcpCallValue with
  | none =>
      simp only [countValue, hvalue, Program.run_pure_eq_ok] at h
      exact Or.inr ⟨_, h.1.symm⟩
  | some value =>
      simp only [countValue, hvalue, Program.run_bind_eq_ok] at h
      obtain ⟨stored, db₁, _, _, hincrement, hrest, -⟩ := h
      cases stored with
      | none =>
          simp only [Program.run_pure_eq_ok] at hrest
          exact Or.inr ⟨_, hrest.1.symm⟩
      | some stored =>
          simp only [Program.run_bind_eq_ok, Program.run_pure_eq_ok] at hrest
          obtain ⟨_, db₂, _, _, hfinalize, ⟨rfl, rfl, -⟩, -⟩ := hrest
          obtain ⟨hguard, hcounted⟩ := incrementValue_eq_ok (run_query_eq_ok hincrement).1
          have hfinal := (run_query_eq_ok hfinalize).1
          rw [hcounted, hworking] at hfinal
          rw [hworking] at hguard
          refine Or.inl ⟨rfl, value, rfl, hguard, ?_⟩
          simp only [finalizeOk, valueSlot, Function.update_self, Function.update_idem,
            Except.ok.injEq, Prod.mk.injEq, true_and] at hfinal
          exact hfinal.symm

theorem run_quotaPart_eq_ok (hok : AllOk db.working)
    (h : (quotaPart input).run db = ⟨.ok r, db', events⟩) :
    (r = none ∧ QuotaStep input db.working db'.working) ∨
      ∃ rejection, r = some (.rollback (.rejected rejection)) := by
  unfold quotaPart at h
  cases hclaim : input.perDayClaim with
  | none =>
      simp only [hclaim, Program.run_pure_eq_ok] at h
      obtain ⟨rfl, rfl, -⟩ := h
      exact Or.inl ⟨rfl, .unclaimed hclaim⟩
  | some claim =>
      simp only [hclaim] at h
      rcases run_idempotent_eq_ok (fun row => hok.quota _ row) h with
        ⟨row, hrow, hr, hsame⟩ | ⟨hnew, db₁, rest, hworking, hfirst⟩
      · rw [hsame]
        exact Or.inl ⟨hr, .recorded hclaim hrow⟩
      · rcases run_countCall_eq_ok hworking hfirst with ⟨hr, hguard, hcounted⟩ | hrollback
        · rw [hcounted]
          exact Or.inl ⟨hr, .counted hclaim hnew hguard⟩
        · exact Or.inr hrollback

theorem run_valuePart_eq_ok (hok : AllOk db.working)
    (h : (valuePart input).run db = ⟨.ok r, db', events⟩) :
    (r = none ∧ ValueStep input db.working db'.working) ∨
      ∃ rejection, r = some (.rollback (.rejected rejection)) := by
  unfold valuePart at h
  cases hclaim : input.totalClaim with
  | none =>
      simp only [hclaim, Program.run_pure_eq_ok] at h
      obtain ⟨rfl, rfl, -⟩ := h
      exact Or.inl ⟨rfl, .unclaimed hclaim⟩
  | some claim =>
      simp only [hclaim] at h
      rcases run_idempotent_eq_ok (fun row => hok.value _ row) h with
        ⟨row, hrow, hr, hsame⟩ | ⟨hnew, db₁, rest, hworking, hfirst⟩
      · rw [hsame]
        exact Or.inl ⟨hr, .recorded hclaim hrow⟩
      · rcases run_countValue_eq_ok hworking hfirst with
          ⟨hr, value, hvalue, hguard, hcounted⟩ | hrollback
        · rw [hcounted]
          exact Or.inl ⟨hr, .counted hclaim hvalue hnew hguard⟩
        · exact Or.inr hrollback

/-- The body accepts with a quota step and a value step, or asks for a rollback. -/
theorem run_runScopeTxBody_eq_ok {result : ScopeTxBodyResult} (hok : AllOk db.working)
    (h : (runScopeTxBody input).run db = ⟨.ok result, db', events⟩) :
    (result = .commit .ok ∧ Accounted input db.working db'.working) ∨
      ∃ rejection, result = .rollback (.rejected rejection) := by
  simp only [runScopeTxBody, Program.run_bind_eq_ok] at h
  obtain ⟨quota, db₁, _, _, hquota, hrest, -⟩ := h
  rcases run_quotaPart_eq_ok hok hquota with ⟨rfl, hquotaStep⟩ | ⟨rejection, rfl⟩
  · simp only [Program.run_bind_eq_ok] at hrest
    obtain ⟨value, db₂, _, _, hvalue, hreturn, -⟩ := hrest
    rcases run_valuePart_eq_ok (hok.quotaStep hquotaStep) hvalue with
      ⟨rfl, hvalueStep⟩ | ⟨rejection, rfl⟩
    · simp only [Program.run_pure_eq_ok] at hreturn
      obtain ⟨rfl, rfl, -⟩ := hreturn
      exact Or.inl ⟨rfl, db₁.working, hquotaStep, hvalueStep⟩
    · simp only [Program.run_pure_eq_ok] at hreturn
      exact Or.inr ⟨rejection, hreturn.1.symm⟩
  · simp only [Program.run_pure_eq_ok] at hrest
    exact Or.inr ⟨rejection, hrest.1.symm⟩

end Body

/-! ## The retried transaction -/

section Calls

open Program

variable {input : ScopeTxBodyInput}

theorem keeps_idempotent (slot : Slot) (race fallback : String)
    {first : DbProgram (Option ScopeTxBodyResult)} (hfirst : Program.Keeps Database.committed first) :
    Program.Keeps Database.committed (idempotent slot race fallback first) := by
  refine (keeps_query _).bind fun inserted => ?_
  cases inserted with
  | true => exact hfirst
  | false =>
      refine (keeps_query _).bind fun cached => ?_
      cases cached with
      | none => exact keeps_throw _ _
      | some row =>
          dsimp only
          cases row.cachedResult with
          | ok => exact keeps_pure _ _
          | fail => exact keeps_pure _ _
          | pending => exact keeps_throw _ _

theorem keeps_countCall (claim : ScopeClaim) :
    Program.Keeps Database.committed (countCall input claim) := by
  refine (keeps_query _).bind fun count => ?_
  cases count with
  | none => exact keeps_pure _ _
  | some _ => exact (keeps_query _).bind fun _ => keeps_pure _ _

theorem keeps_countValue (claim : ScopeClaim) (currency : String) :
    Program.Keeps Database.committed (countValue input claim currency) := by
  unfold countValue
  cases input.mcpCallValue with
  | none => exact keeps_pure _ _
  | some value =>
      refine (keeps_query _).bind fun stored => ?_
      cases stored with
      | none => exact keeps_pure _ _
      | some _ => exact (keeps_query _).bind fun _ => keeps_pure _ _

/-- Until the commit, a transaction works on its own copy. -/
theorem keeps_runScopeTxBody : Program.Keeps Database.committed (runScopeTxBody input) := by
  have hquota : Program.Keeps Database.committed (quotaPart input) := by
    unfold quotaPart
    cases input.perDayClaim with
    | none => exact keeps_pure _ _
    | some claim => exact keeps_idempotent _ _ _ (keeps_countCall claim)
  have hvalue : Program.Keeps Database.committed (valuePart input) := by
    unfold valuePart
    cases input.totalClaim with
    | none => exact keeps_pure _ _
    | some claim => exact keeps_idempotent _ _ _ (keeps_countValue claim _)
  refine hquota.bind fun quota => ?_
  cases quota with
  | some result => exact keeps_pure _ _
  | none =>
      refine hvalue.bind fun value => ?_
      cases value with
      | some result => exact keeps_pure _ _
      | none => exact keeps_pure _ _

/-- A call of the validator, or one attempt of it, on the committed tables: it is
accepted and accounted for, or the tables are as before. -/
def Settles (input : ScopeTxBodyInput) (tables : Tables)
    (execution : Execution Database Empty Fault ValidateScopeResult) : Prop :=
  execution.result = .ok .ok ∧ Accounted input tables execution.world.committed ∨
    execution.result ≠ .ok .ok ∧ execution.world.committed = tables

theorem settles_attempt {db : Database} (hok : AllOk db.committed) :
    Settles input db.committed ((attempt input).run db) := by
  unfold attempt
  have hkeepBegin := keeps_beginTransaction db
  rcases hbegin : beginTransaction.run db with ⟨_ | ⟨⟩, db₁, events₁⟩
  · rw [run_bind_error hbegin]
    rw [hbegin] at hkeepBegin
    exact Or.inr ⟨by simp, hkeepBegin⟩
  rw [hbegin] at hkeepBegin
  have hworking : db₁.working = db.committed := by
    have haction := run_send_eq_ok hbegin
    obtain ⟨-, rfl⟩ := by simpa using haction
    rfl
  rw [run_bind_ok hbegin]
  have hkeepBody := (keeps_runScopeTxBody : Program.Keeps Database.committed (runScopeTxBody input)) db₁
  rcases hbody : (runScopeTxBody input).run db₁ with ⟨_ | result, db₂, events₂⟩
  · rw [run_bind_error hbody]
    rw [hbody] at hkeepBody
    exact Or.inr ⟨by simp [Execution.after], hkeepBody.trans hkeepBegin⟩
  rw [hbody] at hkeepBody
  rw [run_bind_ok hbody]
  have hunchanged : db₂.committed = db.committed := hkeepBody.trans hkeepBegin
  rcases run_runScopeTxBody_eq_ok (hworking ▸ hok) hbody with
    ⟨rfl, haccounted⟩ | ⟨rejection, rfl⟩
  · rcases hcommit : commit.run db₂ with ⟨_ | ⟨⟩, db₃, events₃⟩
    · rw [run_bind_error hcommit]
      exact Or.inr ⟨by simp [Execution.after], (run_send_eq_error hcommit).trans hunchanged⟩
    · rw [run_bind_ok hcommit]
      have haction := run_send_eq_ok hcommit
      obtain ⟨-, rfl⟩ := by simpa using haction
      exact Or.inl ⟨rfl, hworking ▸ haccounted⟩
  · have hkeepRollback := keeps_rollback db₂
    rcases hrollback : rollback.run db₂ with ⟨_ | ⟨⟩, db₃, events₃⟩
    · rw [run_bind_error hrollback]
      rw [hrollback] at hkeepRollback
      exact Or.inr ⟨by simp [Execution.after], hkeepRollback.trans hunchanged⟩
    · rw [run_bind_ok hrollback]
      rw [hrollback] at hkeepRollback
      refine Or.inr ⟨?_, hkeepRollback.trans hunchanged⟩
      show (Except.ok (.rejected rejection) : Except Fault ValidateScopeResult) ≠ _
      simp

theorem keeps_recover (err : Fault) : Program.Keeps Database.committed (recover err) := by
  refine (keeps_rollback.tryCatch fun _ => keeps_pure _ _).bind fun _ => ?_
  split
  next => exact keeps_pure _ _
  next => exact keeps_throw _ _

/-- The handler never turns an error into an accepted call. -/
theorem recover_ne_accepted (err : Fault) (db : Database) (outcome : ValidateScopeResult) :
    ((recover err).run db).result ≠ .ok (.inr outcome) := by
  intro h
  rcases hrun : (recover err).run db with ⟨result, db', events⟩
  rw [hrun] at h
  dsimp only at h
  subst h
  simp only [recover, run_bind_eq_ok] at hrun
  obtain ⟨_, _, _, _, -, hreturn, -⟩ := hrun
  split at hreturn
  next => simp at hreturn
  next => simp at hreturn

/-- Attempts that throw change nothing, and the last one decides. -/
theorem settles_retryLoop (attempts : Nat) (lastErr : Option Fault) {db : Database}
    (hok : AllOk db.committed) :
    Settles input db.committed ((retryLoop input attempts lastErr).run db) := by
  induction attempts generalizing lastErr db with
  | zero => exact Or.inr ⟨nofun, rfl⟩
  | succ attempts ih =>
      have hkeepAcquire := keeps_acquireClient db
      rcases hacquire : acquireClient.run db with ⟨_ | ⟨⟩, db₁, events₁⟩
      · rw [retryLoop, run_bind_error hacquire]
        rw [hacquire] at hkeepAcquire
        exact Or.inr ⟨nofun, hkeepAcquire⟩
      rw [hacquire] at hkeepAcquire
      rw [retryLoop, run_bind_ok hacquire]
      have hattempt : Settles input db.committed ((attempt input).run db₁) :=
        hkeepAcquire ▸ settles_attempt (hkeepAcquire ▸ hok)
      rcases hrun : (attempt input).run db₁ with ⟨err | outcome, db₂, events₂⟩
      · rw [hrun] at hattempt
        have hunchanged : db₂.committed = db.committed := by
          rcases hattempt with ⟨hresult, -⟩ | ⟨-, hsame⟩
          · cases hresult
          · exact hsame
        have hkeepRecover := keeps_recover err db₂
        rcases hrecover : (recover err).run db₂ with ⟨fault | ⟨err' | outcome⟩, db₃, events₃⟩
        · rw [hrecover] at hkeepRecover
          rw [run_bind_error (by rw [run_tryCatch_error (run_bind_error hrun), hrecover]; rfl)]
          exact Or.inr ⟨nofun, hkeepRecover.trans hunchanged⟩
        · rw [hrecover] at hkeepRecover
          rw [run_bind_ok (by rw [run_tryCatch_error (run_bind_error hrun), hrecover]; rfl)]
          have hcommitted : db₃.committed = db.committed := hkeepRecover.trans hunchanged
          have hrest := ih (some err') (hcommitted ▸ hok)
          rw [hcommitted] at hrest
          exact hrest
        · exact absurd (by rw [hrecover]) (recover_ne_accepted err db₂ outcome)
      · rw [run_bind_ok (by rw [run_tryCatch_ok (by rw [run_bind_ok hrun]; rfl)])]
        rw [hrun] at hattempt
        exact hattempt

/-- What a call of `validateScope` does to the committed tables. -/
theorem settles_validateScope (input : ValidateScopeInput) (today : String) {db : Database}
    (hok : AllOk db.committed) :
    Settles (txBodyInput input today) db.committed ((validateScope input today).run db) := by
  unfold validateScope
  cases preCheck input with
  | error rejection => exact Or.inr ⟨nofun, rfl⟩
  | ok _ =>
      dsimp only
      split
      next hunclaimed =>
        exact Or.inl ⟨rfl, db.committed, .unclaimed hunclaimed.1, .unclaimed hunclaimed.2⟩
      next => exact settles_retryLoop _ _ hok

end Calls

/-! ## Reachable tables -/

/-- The tables after any calls, each with its own claims, day and database replies. -/
inductive Reachable : Tables → Prop where
  | empty : Reachable Tables.empty
  | call {tables : Tables} (hreachable : Reachable tables) (input : ValidateScopeInput)
      (today : String) (working : Tables) (replies : List (Option Fault)) :
      Reachable ((validateScope input today).run ⟨tables, working, replies⟩).world.committed

theorem Accounted.cents {input : ScopeTxBodyInput} {tables tables' : Tables}
    (haccounted : Accounted input tables tables')
    (hcents : ∀ key total, tables.valueCounter key = some total → IsCents total) :
    ∀ key total, tables'.valueCounter key = some total → IsCents total := by
  obtain ⟨middle, hquota, hvalue⟩ := haccounted
  have hmiddle : middle.valueCounter = tables.valueCounter := by cases hquota <;> rfl
  rw [← hmiddle] at hcents
  cases hvalue with
  | unclaimed => exact hcents
  | recorded => exact hcents
  | @counted claim value =>
      intro key total htotal
      by_cases hkey : key = (input.token, claim.currency.getD "")
      · subst hkey
        simp only [countedValue, Function.update_self, Option.some.injEq] at htotal
        rw [← htotal]
        exact isCents_roundCents _
      · simp only [countedValue, Function.update_of_ne hkey] at htotal
        exact hcents key total htotal

theorem Reachable.sound {tables : Tables} (hreachable : Reachable tables) :
    AllOk tables ∧ ∀ key total, tables.valueCounter key = some total → IsCents total := by
  induction hreachable with
  | empty => exact ⟨⟨nofun, nofun⟩, nofun⟩
  | @call tables _ input today working replies ih =>
      have hok : AllOk (⟨tables, working, replies⟩ : Database).committed := ih.1
      rcases settles_validateScope input today hok with ⟨-, haccounted⟩ | ⟨-, hsame⟩
      · exact ⟨ih.1.accounted haccounted, haccounted.cents ih.2⟩
      · rw [hsame]
        exact ih

/-- A call whose keys are recorded everywhere it needs them changes nothing. -/
theorem Accounted.eq_of_recorded {input : ScopeTxBodyInput} {tables tables' : Tables}
    (haccounted : Accounted input tables tables')
    (hquota : ∀ claim ∈ input.perDayClaim,
      tables.quotaIdempotency (input.requestIdempotencyKey, input.token) ≠ none)
    (hvalue : ∀ claim ∈ input.totalClaim, tables.valueIdempotency
      (input.requestIdempotencyKey, input.token, claim.currency.getD "") ≠ none) :
    tables' = tables := by
  obtain ⟨middle, hquotaStep, hvalueStep⟩ := haccounted
  have hmiddle : middle = tables := by
    cases hquotaStep with
    | unclaimed => rfl
    | recorded => rfl
    | counted hclaim hnew => exact absurd hnew (hquota _ hclaim)
  subst hmiddle
  cases hvalueStep with
  | unclaimed => rfl
  | recorded => rfl
  | counted hclaim _ hnew => exact absurd hnew (hvalue _ hclaim)

theorem Accounted.quotaCounter_of_new {input : ScopeTxBodyInput} {tables tables' : Tables}
    (haccounted : Accounted input tables tables') {claim : ScopeClaim}
    (hclaim : input.perDayClaim = some claim)
    (hnew : tables.quotaIdempotency (input.requestIdempotencyKey, input.token) = none) :
    tables'.quotaCounter = Function.update tables.quotaCounter (input.token, input.today)
      (some ((tables.quotaCounter (input.token, input.today)).getD 0 + 1)) := by
  obtain ⟨middle, hquotaStep, hvalueStep⟩ := haccounted
  have hmiddle : tables'.quotaCounter = middle.quotaCounter := by cases hvalueStep <;> rfl
  rw [hmiddle]
  cases hquotaStep with
  | unclaimed hnone => exact absurd (hnone.symm.trans hclaim) (by simp)
  | recorded _ hrow => exact absurd (hrow.symm.trans hnew) (by simp)
  | counted => rfl

theorem Accounted.valueCounter_of_new {input : ScopeTxBodyInput} {tables tables' : Tables}
    (haccounted : Accounted input tables tables') {claim : ScopeClaim} {value : ℚ}
    (hclaim : input.totalClaim = some claim) (hvalue : input.mcpCallValue = some value)
    (hnew : tables.valueIdempotency
      (input.requestIdempotencyKey, input.token, claim.currency.getD "") = none) :
    tables'.valueCounter =
      Function.update tables.valueCounter (input.token, claim.currency.getD "")
        (some (roundCents
          ((tables.valueCounter (input.token, claim.currency.getD "")).getD 0 + value))) := by
  obtain ⟨middle, hquotaStep, hvalueStep⟩ := haccounted
  have hcounter : middle.valueCounter = tables.valueCounter := by cases hquotaStep <;> rfl
  have hrows : middle.valueIdempotency = tables.valueIdempotency := by cases hquotaStep <;> rfl
  rw [← hrows] at hnew
  rw [← hcounter]
  cases hvalueStep with
  | unclaimed hnone => exact absurd (hnone.symm.trans hclaim) (by simp)
  | recorded hsome hrow =>
      obtain rfl := Option.some.inj (hsome.symm.trans hclaim)
      exact absurd (hrow.symm.trans hnew) (by simp)
  | counted hsome hvalue' =>
      obtain rfl := Option.some.inj (hsome.symm.trans hclaim)
      obtain rfl := Option.some.inj (hvalue'.symm.trans hvalue)
      rfl

/-- A rejected or throwing call leaves the tables as they are. An accepted call counts
a new key once: one call for the day, and its value, rounded to the cents of the
column. With recorded keys it changes nothing. Every committed row is `ok`. -/
theorem validateScope_accounts_once {tables : Tables} (hreachable : Reachable tables)
    (input : ValidateScopeInput) (today : String) (working : Tables)
    (replies : List (Option Fault)) :
    let execution := (validateScope input today).run ⟨tables, working, replies⟩
    let after := execution.world.committed
    let token := uuid input.tokenId
    let key := input.requestIdempotencyKey
    (execution.result ≠ .ok .ok → after = tables) ∧
    (execution.result = .ok .ok →
      (∀ claim, findClaim "max_per_day" input.disclosedClaims = some claim →
        tables.quotaIdempotency (key, token) = none →
          after.quotaCounter = Function.update tables.quotaCounter (token, today)
            (some ((tables.quotaCounter (token, today)).getD 0 + 1))) ∧
      (∀ claim value, findClaim "max_total_value" input.disclosedClaims = some claim →
        input.arguments.value = some value →
        tables.valueIdempotency (key, token, claim.currency.getD "") = none →
          let total := (tables.valueCounter (token, claim.currency.getD "")).getD 0
          after.valueCounter = Function.update tables.valueCounter
              (token, claim.currency.getD "") (some (roundCents (total + value))) ∧
            (IsCents value → roundCents (total + value) = total + value)) ∧
      ((findClaim "max_per_day" input.disclosedClaims ≠ none →
          tables.quotaIdempotency (key, token) ≠ none) →
        (∀ claim, findClaim "max_total_value" input.disclosedClaims = some claim →
          input.arguments.value ≠ none →
            tables.valueIdempotency (key, token, claim.currency.getD "") ≠ none) →
        after = tables)) ∧
    AllOk after := by
  intro execution after token key
  obtain ⟨hok, hcents⟩ := hreachable.sound
  have hsettles : Settles (txBodyInput input today) tables execution :=
    settles_validateScope input today (show AllOk (⟨tables, working, replies⟩ : Database).committed
      from hok)
  have htotalClaim : ∀ claim, findClaim "max_total_value" input.disclosedClaims = some claim →
      input.arguments.value ≠ none → input.totalClaim = some claim := by
    intro claim hclaim hvalue
    rw [ValidateScopeInput.totalClaim, if_pos (Option.isSome_iff_ne_none.mpr hvalue), hclaim]
  rcases hsettles with ⟨hresult, haccounted⟩ | ⟨hresult, hsame⟩
  · refine ⟨fun h => absurd hresult h, fun _ => ⟨?_, ?_, ?_⟩, hok.accounted haccounted⟩
    · intro claim hclaim hnew
      exact haccounted.quotaCounter_of_new hclaim hnew
    · intro claim value hclaim hvalue hnew total
      refine ⟨haccounted.valueCounter_of_new (htotalClaim claim hclaim (by simp [hvalue])) hvalue
        hnew, ?_⟩
      intro hvalueCents
      apply roundCents_of_isCents
      refine IsCents.add ?_ hvalueCents
      show IsCents ((tables.valueCounter (token, claim.currency.getD "")).getD 0)
      cases htotal : tables.valueCounter (token, claim.currency.getD "") with
      | none => exact ⟨0, by simp⟩
      | some stored => exact hcents _ stored htotal
    · intro hquota hvalue
      refine haccounted.eq_of_recorded ?_ ?_
      · intro claim hclaim
        refine hquota ?_
        rw [show findClaim "max_per_day" input.disclosedClaims = some claim from hclaim]
        simp
      · intro claim hclaim
        have hfound : (if input.arguments.value.isSome then
            findClaim "max_total_value" input.disclosedClaims else none) = some claim := hclaim
        split at hfound
        next hsome => exact hvalue claim hfound (Option.isSome_iff_ne_none.mp hsome)
        next => cases hfound
  · refine ⟨fun _ => hsame, fun h => absurd h hresult, ?_⟩
    rw [show after = tables from hsame]
    exact hok

/-! ## A value below a cent -/

namespace Micropayment

def claims : List ScopeClaim := [⟨"max_per_day", 5, none⟩, ⟨"max_total_value", 100, some "USD"⟩]

def call (value : ℚ) : ValidateScopeInput where
  arguments := ⟨none, some value, some "USD"⟩
  disclosedClaims := claims
  tokenId := "550e8400-e29b-41d4-a716-446655440001"
  requestIdempotencyKey := "req-1"

def database : Database := ⟨Tables.empty, Tables.empty, []⟩

theorem small_accepted :
    ((validateScope (call (1 / 1000)) "2026-05-04").run database).result = .ok .ok := by
  decide +kernel

theorem small_not_counted :
    ((validateScope (call (1 / 1000)) "2026-05-04").run database).world.committed.valueCounter
      ("550e8400-e29b-41d4-a716-446655440001", "USD") = some 0 := by
  decide +kernel

/-- A tenth of a cent is accepted and the counter of the token stays at zero. -/
theorem value_not_counted_exactly : ¬ ∀ (tables : Tables) (_ : Reachable tables)
    (input : ValidateScopeInput) (today : String) (working : Tables)
    (replies : List (Option Fault)) (claim : ScopeClaim) (value : ℚ),
    let execution := (validateScope input today).run ⟨tables, working, replies⟩
    let token := uuid input.tokenId
    let currency := claim.currency.getD ""
    execution.result = .ok .ok →
    findClaim "max_total_value" input.disclosedClaims = some claim →
    input.arguments.value = some value →
    tables.valueIdempotency (input.requestIdempotencyKey, token, currency) = none →
      execution.world.committed.valueCounter (token, currency) =
        some ((tables.valueCounter (token, currency)).getD 0 + value) := by
  intro h
  have hcounted := h Tables.empty .empty (call (1 / 1000)) "2026-05-04" Tables.empty []
    ⟨"max_total_value", 100, some "USD"⟩ (1 / 1000) small_accepted (by decide +kernel) rfl rfl
  have hstored := small_not_counted.symm.trans hcounted
  exact absurd hstored (by decide +kernel)

theorem payment_accepted :
    ((validateScope (call 60) "2026-05-04").run database).result = .ok .ok := by
  decide +kernel

/-- A first payment of 60 counts one call and 60. -/
theorem payment_counted :
    let execution := (validateScope (call 60) "2026-05-04").run database
    let token := "550e8400-e29b-41d4-a716-446655440001"
    execution.result = .ok .ok ∧
      execution.world.committed.quotaCounter (token, "2026-05-04") = some 1 ∧
      execution.world.committed.valueCounter (token, "USD") = some 60 := by
  intro execution token
  obtain ⟨-, haccepted, -⟩ := validateScope_accounts_once Reachable.empty (call 60) "2026-05-04"
    Tables.empty []
  obtain ⟨hquota, hvalue, -⟩ := haccepted payment_accepted
  have htoken : uuid (call 60).tokenId = token := by decide +kernel
  refine ⟨payment_accepted, ?_, ?_⟩
  · have hcounter := hquota ⟨"max_per_day", 5, none⟩ (by decide +kernel) rfl
    have hat := congrFun hcounter (token, "2026-05-04")
    rw [htoken, Function.update_self] at hat
    exact hat
  · obtain ⟨hcounter, hexact⟩ := hvalue ⟨"max_total_value", 100, some "USD"⟩ 60 (by decide +kernel)
      rfl rfl
    have hat := congrFun hcounter (token, "USD")
    rw [hexact ⟨6000, by norm_num⟩, htoken] at hat
    rw [show (⟨"max_total_value", 100, some "USD"⟩ : ScopeClaim).currency.getD "" = "USD" from rfl,
      Function.update_self] at hat
    refine hat.trans ?_
    norm_num [Tables.empty]

end Micropayment

end Coivitas.Communication.Bridge
