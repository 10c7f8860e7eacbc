import Coivitas.Foundation.KeyedRuns
import Coivitas.Foundation.Outcome
import Mathlib.Algebra.Order.WithTop.Untop0
import Mathlib.Data.Rat.Floor
import Mathlib.Tactic.Linarith

/-! # The rate limiter of the tenants

Each tenant has a bucket of tokens or a window of timestamps, by its configuration. The clock
is exact. The bound of the window and the isolation of the tenants hold throughout; the bucket
keeps its bound and its word on retries exactly when it refills and has room for a token, or
never refills.
-/

namespace Coivitas.Sdk

open Foundation

namespace RateLimiter

inductive Algorithm where
  | tokenBucket
  | slidingWindow
  deriving DecidableEq, Repr

structure TenantRateLimiterConfig where
  windowMs : ℚ
  maxRequests : ℚ
  algorithm : Algorithm
  burstCapacity : Option ℚ
  refillRatePerSecond : Option ℚ
  deriving DecidableEq, Repr

/-- A time or a wait may be infinite. -/
structure RateLimitResult where
  allowed : Bool
  remaining : ℚ
  resetAtMs : WithTop ℚ
  retryAfterSeconds : Option (WithTop ℤ)
  tenantId : String
  deriving DecidableEq

inductive TenantBucketState where
  | tokenBucket (tokens lastRefillMs : ℚ)
  | slidingWindow (requestTimestamps : List ℚ)
  deriving DecidableEq, Repr

/-- The type leaves no other algorithm to refuse. The refill rate is not looked at. -/
def validateRateLimiterConfig (config : TenantRateLimiterConfig) : Except String Unit := do
  require (¬ (config.windowMs ≤ 0 ∨ config.maxRequests ≤ 0))
    "TenantRateLimiterConfig.windowMs and maxRequests must be positive numbers."
  require (∀ burstCapacity ∈ config.burstCapacity, ¬ burstCapacity < 0)
    "TenantRateLimiterConfig.burstCapacity must be non-negative."

/-! ## The two algorithms -/

/-- `config.burstCapacity ?? config.maxRequests` -/
def TenantRateLimiterConfig.burst (config : TenantRateLimiterConfig) : ℚ :=
  config.burstCapacity.getD config.maxRequests

/-- `config.refillRatePerSecond ?? config.maxRequests / (config.windowMs / 1000)` -/
def TenantRateLimiterConfig.refillRate (config : TenantRateLimiterConfig) : ℚ :=
  config.refillRatePerSecond.getD (config.maxRequests / (config.windowMs / 1000))

/-- `Math.ceil(need / rate)` of a positive need; no rate, no end. -/
def ceilDiv (need rate : ℚ) : WithTop ℤ := if rate = 0 then ⊤ else ((⌈need / rate⌉ : ℤ) : WithTop ℤ)

/-- `nowMs + waitMs` -/
def after (nowMs : ℚ) (waitMs : WithTop ℤ) : WithTop ℚ := waitMs.map fun wait : ℤ => nowMs + (wait : ℚ)

/-- The tokens and the time of the last refill; a new bucket is full. -/
def bucketOf (burstCapacity nowMs : ℚ) : Option TenantBucketState → ℚ × ℚ
  | some (.tokenBucket tokens lastRefillMs) => (tokens, lastRefillMs)
  | _ => (burstCapacity, nowMs)

def timestampsOf : Option TenantBucketState → List ℚ
  | some (.slidingWindow requestTimestamps) => requestTimestamps
  | _ => []

/-- The tokens after the refill at a call. -/
def refilled (config : TenantRateLimiterConfig) (state : Option TenantBucketState) (nowMs : ℚ) :
    ℚ :=
  let burstCapacity := config.burst
  let refillRatePerMs := config.refillRate / 1000
  let (tokens, lastRefillMs) := bucketOf burstCapacity nowMs state
  let elapsedMs := nowMs - lastRefillMs
  min burstCapacity (tokens + elapsedMs * refillRatePerMs)

/-- The timestamps that are still in the window. -/
def kept (config : TenantRateLimiterConfig) (state : Option TenantBucketState) (nowMs : ℚ) :
    List ℚ :=
  let windowStart := nowMs - config.windowMs
  (timestampsOf state).filter fun ts => ts > windowStart

def checkTokenBucket (tenantId : String) (config : TenantRateLimiterConfig)
    (state : Option TenantBucketState) (nowMs : ℚ) : RateLimitResult × TenantBucketState :=
  let refillRatePerMs := config.refillRate / 1000
  let tokens := refilled config state nowMs
  if tokens < 1 then
    let waitMs := ceilDiv (1 - tokens) refillRatePerMs
    (⟨false, 0, after nowMs waitMs, some (waitMs.map fun wait : ℤ => ⌈(wait : ℚ) / 1000⌉), tenantId⟩,
      .tokenBucket tokens nowMs)
  else
    let tokens := tokens - 1
    let remaining := (⌊tokens⌋ : ℚ)
    let msToNextRefill := if 0 < remaining then 0 else ceilDiv 1 refillRatePerMs
    (⟨true, remaining, after nowMs msToNextRefill, none, tenantId⟩, .tokenBucket tokens nowMs)

def checkSlidingWindow (tenantId : String) (config : TenantRateLimiterConfig)
    (state : Option TenantBucketState) (nowMs : ℚ) : RateLimitResult × TenantBucketState :=
  let requestTimestamps := kept config state nowMs
  if config.maxRequests ≤ requestTimestamps.length then
    -- the list is not empty: at least one request is allowed
    let oldestTs := requestTimestamps.headD 0
    let resetAtMs := oldestTs + config.windowMs
    let waitMs := max 0 (resetAtMs - nowMs)
    (⟨false, 0, resetAtMs, some (⌈waitMs / 1000⌉ : ℤ), tenantId⟩, .slidingWindow requestTimestamps)
  else
    let requestTimestamps := requestTimestamps ++ [nowMs]
    (⟨true, config.maxRequests - requestTimestamps.length, (nowMs + config.windowMs : ℚ), none,
      tenantId⟩, .slidingWindow requestTimestamps)

/-- What a call of one tenant answers and leaves as the state of that tenant. -/
def checkTenant (tenantId : String) (config : TenantRateLimiterConfig) :
    Keyed.Machine TenantBucketState ℚ RateLimitResult :=
  match config.algorithm with
  | .tokenBucket => checkTokenBucket tenantId config
  | .slidingWindow => checkSlidingWindow tenantId config

/-! ## The limiter -/

end RateLimiter

open RateLimiter

structure MemoryTenantRateLimiter where
  tenantStates : OrderedMap String TenantBucketState
  tenantConfigs : OrderedMap String TenantRateLimiterConfig
  defaultConfig : TenantRateLimiterConfig

namespace MemoryTenantRateLimiter

def create (defaultConfig : TenantRateLimiterConfig) : Except String MemoryTenantRateLimiter := do
  validateRateLimiterConfig defaultConfig
  return ⟨.empty, .empty, defaultConfig⟩

def setTenantConfig (limiter : MemoryTenantRateLimiter) (tenantId : String)
    (config : TenantRateLimiterConfig) : Except String MemoryTenantRateLimiter := do
  validateRateLimiterConfig config
  return { limiter with
    tenantConfigs := limiter.tenantConfigs.set tenantId config
    tenantStates := limiter.tenantStates.delete tenantId }

def configOf (limiter : MemoryTenantRateLimiter) (tenantId : String) : TenantRateLimiterConfig :=
  (limiter.tenantConfigs.get? tenantId).getD limiter.defaultConfig

def check (limiter : MemoryTenantRateLimiter) (tenantId : String) (nowMs : ℚ) :
    RateLimitResult × MemoryTenantRateLimiter :=
  let (result, state) := checkTenant tenantId (limiter.configOf tenantId)
    (limiter.tenantStates.get? tenantId) nowMs
  (result, { limiter with tenantStates := limiter.tenantStates.set tenantId state })

/-- A limiter with its configurations set before the first call. -/
def configure (defaultConfig : TenantRateLimiterConfig) :
    List (String × TenantRateLimiterConfig) → Except String MemoryTenantRateLimiter
  | [] => create defaultConfig
  | (tenantId, config) :: settings => do
      let limiter ← configure defaultConfig settings
      limiter.setTenantConfig tenantId config

/-- The calls with their answers. -/
def run : MemoryTenantRateLimiter → List (String × ℚ) → List (String × ℚ × RateLimitResult)
  | _, [] => []
  | limiter, (tenantId, nowMs) :: calls =>
      (tenantId, nowMs, (limiter.check tenantId nowMs).1) ::
        run (limiter.check tenantId nowMs).2 calls

/-- The limiter is one machine for each tenant. -/
theorem run_eq (limiter : MemoryTenantRateLimiter) (calls : List (String × ℚ)) :
    limiter.run calls =
      Keyed.run (fun tenantId => checkTenant tenantId (limiter.configOf tenantId))
        limiter.tenantStates calls := by
  induction calls generalizing limiter with
  | nil => rfl
  | cons call calls ih =>
      obtain ⟨tenantId, nowMs⟩ := call
      rw [run, Keyed.run, ih]
      rfl

end MemoryTenantRateLimiter

/-! ## What is promised of the answers -/

namespace RateLimiter

/-- The calls let in at the times in question. -/
def admitted (answers : List (ℚ × RateLimitResult)) (inside : ℚ → Prop) [DecidablePred inside] :
    ℕ :=
  answers.countP fun answer => answer.2.allowed && decide (inside answer.1)

/-- No more calls than allowed in a window, whichever end of it is open. -/
def WindowExact (config : TenantRateLimiterConfig) (answers : List (ℚ × RateLimitResult)) : Prop :=
  ∀ start : ℚ,
    (admitted answers fun t => start ≤ t ∧ t < start + config.windowMs : ℚ) ≤ config.maxRequests ∧
      (admitted answers fun t => start < t ∧ t ≤ start + config.windowMs : ℚ) ≤ config.maxRequests

/-- No more calls in some seconds than the bucket holds and is refilled with. -/
def BucketBounded (config : TenantRateLimiterConfig) (answers : List (ℚ × RateLimitResult)) :
    Prop :=
  ∀ start seconds : ℚ, 0 ≤ seconds →
    (admitted answers fun t => start ≤ t ∧ t ≤ start + seconds * 1000 : ℚ) ≤
      config.burst + config.refillRate * seconds

/-- After a denial, a next call at the reset time is let in. -/
def RetryHonest (answers : List (ℚ × RateLimitResult)) : Prop :=
  answers.IsChain fun denied next =>
    denied.2.allowed = false → denied.2.resetAtMs = next.1 → next.2.allowed = true

/-- The promises of a tenant's configuration. -/
def RateExact (config : TenantRateLimiterConfig) (answers : List (ℚ × RateLimitResult)) : Prop :=
  (match config.algorithm with
    | .slidingWindow => WindowExact config answers
    | .tokenBucket => BucketBounded config answers) ∧ RetryHonest answers

/-- The windows are exact; a bucket either never refills or refills up to a token at least. -/
def TenantRateLimiterConfig.Sound (config : TenantRateLimiterConfig) : Prop :=
  config.algorithm = .slidingWindow ∨ config.refillRate = 0 ∨
    (0 < config.refillRate ∧ 1 ≤ config.burst)

end RateLimiter

/-- In every run on a clock that does not go back, each tenant gets the answers it would get
alone, and they keep the promises of its configuration. -/
def MemoryTenantRateLimiter.Exact (limiter : MemoryTenantRateLimiter) : Prop :=
  ∀ calls : List (String × ℚ), (calls.map Prod.snd).Pairwise (· ≤ ·) → ∀ tenantId,
    Keyed.project tenantId (limiter.run calls) =
        Keyed.project tenantId (limiter.run (calls.filter fun call => call.1 = tenantId)) ∧
      RateExact (limiter.configOf tenantId) (Keyed.project tenantId (limiter.run calls))

/-! ## The window -/

namespace RateLimiter

variable {config : TenantRateLimiterConfig} {tenantId : String}

theorem admitted_cons (answer : ℚ × RateLimitResult) (answers : List (ℚ × RateLimitResult))
    (inside : ℚ → Prop) [DecidablePred inside] :
    admitted (answer :: answers) inside = admitted answers inside +
      if answer.2.allowed = true ∧ inside answer.1 then 1 else 0 := by
  simp [admitted, List.countP_cons]

/-- Nothing is let in outside the times of the calls. -/
theorem admitted_eq_zero {answers : List (ℚ × RateLimitResult)} {inside : ℚ → Prop}
    [DecidablePred inside] (houtside : ∀ t ∈ answers.map Prod.fst, ¬ inside t) :
    admitted answers inside = 0 := by
  rw [admitted, List.countP_eq_zero]
  intro answer hanswer
  simp [houtside answer.1 (List.mem_map_of_mem hanswer)]

theorem checkSlidingWindow_denied {state : Option TenantBucketState} {nowMs : ℚ}
    (hfull : config.maxRequests ≤ (kept config state nowMs).length) :
    (checkSlidingWindow tenantId config state nowMs).1.allowed = false ∧
      (checkSlidingWindow tenantId config state nowMs).1.resetAtMs =
        ((kept config state nowMs).headD 0 + config.windowMs : ℚ) ∧
      (checkSlidingWindow tenantId config state nowMs).2 =
        .slidingWindow (kept config state nowMs) := by
  unfold checkSlidingWindow
  dsimp only
  rw [if_pos hfull]
  exact ⟨rfl, rfl, rfl⟩

theorem checkSlidingWindow_admitted {state : Option TenantBucketState} {nowMs : ℚ}
    (hroom : ¬ config.maxRequests ≤ (kept config state nowMs).length) :
    (checkSlidingWindow tenantId config state nowMs).1.allowed = true ∧
      (checkSlidingWindow tenantId config state nowMs).2 =
        .slidingWindow (kept config state nowMs ++ [nowMs]) := by
  unfold checkSlidingWindow
  dsimp only
  rw [if_neg hroom]
  exact ⟨rfl, rfl⟩

theorem length_kept_le (state : Option TenantBucketState) (nowMs : ℚ) :
    (kept config state nowMs).length ≤ (timestampsOf state).length := List.length_filter_le _ _

/-- A window never holds more than it may. -/
theorem length_timestampsOf_next {n : ℕ} (hmax : config.maxRequests = n)
    {state : Option TenantBucketState} (hlength : (timestampsOf state).length ≤ n) (nowMs : ℚ) :
    (timestampsOf (some (checkSlidingWindow tenantId config state nowMs).2)).length ≤ n := by
  have hkept := @length_kept_le config state nowMs
  by_cases hfull : config.maxRequests ≤ (kept config state nowMs).length
  · rw [(checkSlidingWindow_denied hfull).2.2]
    exact hkept.trans hlength
  · rw [(checkSlidingWindow_admitted hfull).2, timestampsOf, List.length_append,
      List.length_singleton]
    rw [hmax, Nat.cast_le] at hfull
    omega

/-- The timestamps kept in a set narrower than the window, and the calls let in in it from here
on, are no more than allowed. -/
theorem admitted_window {n : ℕ} (hmax : config.maxRequests = n) {inside : ℚ → Prop}
    [DecidablePred inside] (hnarrow : ∀ x y, inside x → inside y → y - x < config.windowMs)
    {times : List ℚ} (hsorted : times.Pairwise (· ≤ ·)) {state : Option TenantBucketState}
    (hlength : (timestampsOf state).length ≤ n) :
    (timestampsOf state).countP inside +
      admitted (Keyed.answers (checkSlidingWindow tenantId config) state times) inside ≤ n := by
  induction times generalizing state with
  | nil =>
      rw [Keyed.answers, admitted, List.countP_nil, Nat.add_zero]
      exact List.countP_le_length.trans hlength
  | cons nowMs times ih =>
      rw [List.pairwise_cons] at hsorted
      by_cases hdropped : ∃ x ∈ timestampsOf state, inside x ∧ x ≤ nowMs - config.windowMs
      · -- a timestamp of the set has left the window, so the set is over
        obtain ⟨x, hx, hinside, hold⟩ := hdropped
        have hover : ∀ t ∈ nowMs :: times, ¬ inside t := by
          intro t ht ht'
          have hlater : nowMs ≤ t := by
            rcases List.mem_cons.mp ht with rfl | ht
            · exact le_refl t
            · exact hsorted.1 t ht
          have hnear := hnarrow x t hinside ht'
          linarith
        rw [admitted_eq_zero (by rwa [Keyed.map_fst_answers]), Nat.add_zero]
        exact List.countP_le_length.trans hlength
      · have hcount : (kept config state nowMs).countP inside =
            (timestampsOf state).countP inside := by
          rw [kept, List.countP_filter]
          refine List.countP_congr fun x hx => ?_
          simp only [Bool.and_eq_true, decide_eq_true_eq, and_iff_left_iff_imp]
          intro hinside
          by_contra hout
          exact hdropped ⟨x, hx, hinside, not_lt.mp hout⟩
        have hnext := ih hsorted.2
          (@length_timestampsOf_next config tenantId n hmax state hlength nowMs)
        rw [Keyed.answers, admitted_cons, ← hcount]
        by_cases hfull : config.maxRequests ≤ (kept config state nowMs).length
        · obtain ⟨hallowed, -, hstate⟩ :=
            @checkSlidingWindow_denied config tenantId state nowMs hfull
          rw [hstate, timestampsOf] at hnext
          rw [hallowed, hstate]
          simpa using hnext
        · obtain ⟨hallowed, hstate⟩ :=
            @checkSlidingWindow_admitted config tenantId state nowMs hfull
          rw [hstate, timestampsOf, List.countP_append, List.countP_singleton] at hnext
          rw [hallowed, hstate]
          simp only [true_and, decide_eq_true_eq] at hnext ⊢
          omega

theorem windowExact_answers {n : ℕ} (hmax : config.maxRequests = n) {times : List ℚ}
    (hsorted : times.Pairwise (· ≤ ·)) :
    WindowExact config (Keyed.answers (checkSlidingWindow tenantId config) none times) := by
  have hbound : ∀ (inside : ℚ → Prop) [DecidablePred inside],
      (∀ x y, inside x → inside y → y - x < config.windowMs) →
        (admitted (Keyed.answers (checkSlidingWindow tenantId config) none times) inside : ℚ) ≤
          config.maxRequests := by
    intro inside _ hnarrow
    have hcount := @admitted_window config tenantId n hmax _ _ hnarrow _ hsorted none
      (show (timestampsOf none).length ≤ n from Nat.zero_le n)
    rw [hmax, Nat.cast_le]
    exact (Nat.le_add_left _ _).trans hcount
  intro start
  constructor
  · refine hbound _ fun x y hx hy => ?_
    linarith [hx.1, hy.2]
  · refine hbound _ fun x y hx hy => ?_
    linarith [hx.1, hy.2]

/-- The oldest timestamp has left the window at the reset time. -/
theorem retry_window {n : ℕ} (hmax : config.maxRequests = n) (hpositive : 0 < n)
    {state : Option TenantBucketState} (hlength : (timestampsOf state).length ≤ n) (nowMs next : ℚ)
    (hdenied : (checkSlidingWindow tenantId config state nowMs).1.allowed = false)
    (hreset : (checkSlidingWindow tenantId config state nowMs).1.resetAtMs = next) :
    (checkSlidingWindow tenantId config
      (some (checkSlidingWindow tenantId config state nowMs).2) next).1.allowed = true := by
  by_cases hfull : config.maxRequests ≤ (kept config state nowMs).length
  · obtain ⟨-, hat, hstate⟩ := @checkSlidingWindow_denied config tenantId state nowMs hfull
    rw [hat, WithTop.coe_inj] at hreset
    rw [hstate]
    rw [hmax, Nat.cast_le] at hfull
    have hkept := (@length_kept_le config state nowMs).trans hlength
    rcases hlist : kept config state nowMs with _ | ⟨oldest, rest⟩
    · rw [hlist, List.length_nil] at hfull
      omega
    · rw [hlist, List.headD_cons] at hreset
      refine (checkSlidingWindow_admitted ?_).1
      have hleft : kept config (some (.slidingWindow (oldest :: rest))) next =
          rest.filter fun ts => ts > oldest := by
        rw [kept, ← hreset, add_sub_cancel_right, timestampsOf,
          List.filter_cons_of_neg (by simp)]
      have hshort := List.length_filter_le (fun ts => decide (ts > oldest)) rest
      rw [hlist, List.length_cons] at hkept
      rw [hleft, hmax, Nat.cast_le]
      omega
  · rw [(checkSlidingWindow_admitted hfull).1] at hdenied
    cases hdenied

/-! ## The bucket -/

theorem checkTokenBucket_denied {state : Option TenantBucketState} {nowMs : ℚ}
    (hempty : refilled config state nowMs < 1) :
    (checkTokenBucket tenantId config state nowMs).1.allowed = false ∧
      (checkTokenBucket tenantId config state nowMs).1.resetAtMs =
        after nowMs (ceilDiv (1 - refilled config state nowMs) (config.refillRate / 1000)) ∧
      (checkTokenBucket tenantId config state nowMs).2 =
        .tokenBucket (refilled config state nowMs) nowMs := by
  unfold checkTokenBucket
  dsimp only
  rw [if_pos hempty]
  exact ⟨rfl, rfl, rfl⟩

theorem checkTokenBucket_admitted {state : Option TenantBucketState} {nowMs : ℚ}
    (hroom : ¬ refilled config state nowMs < 1) :
    (checkTokenBucket tenantId config state nowMs).1.allowed = true ∧
      (checkTokenBucket tenantId config state nowMs).2 =
        .tokenBucket (refilled config state nowMs - 1) nowMs := by
  unfold checkTokenBucket
  dsimp only
  rw [if_neg hroom]
  exact ⟨rfl, rfl⟩

/-- A call takes one token when it is let in. -/
theorem checkTokenBucket_spent (state : Option TenantBucketState) (nowMs : ℚ) :
    ∃ tokens, (checkTokenBucket tenantId config state nowMs).2 = .tokenBucket tokens nowMs ∧
      (0 ≤ refilled config state nowMs → 0 ≤ tokens) ∧
      tokens + (if (checkTokenBucket tenantId config state nowMs).1.allowed = true then 1 else 0) =
        refilled config state nowMs := by
  by_cases hempty : refilled config state nowMs < 1
  · obtain ⟨hallowed, -, hstate⟩ := @checkTokenBucket_denied config tenantId state nowMs hempty
    exact ⟨_, hstate, id, by rw [hallowed]; simp⟩
  · obtain ⟨hallowed, hstate⟩ := @checkTokenBucket_admitted config tenantId state nowMs hempty
    exact ⟨_, hstate, fun _ => by linarith, by rw [hallowed]; simp⟩

theorem refilled_le_burst (state : Option TenantBucketState) (nowMs : ℚ) :
    refilled config state nowMs ≤ config.burst := min_le_left _ _

/-- A bucket that is not overdrawn and was refilled before. -/
def Behind (state : Option TenantBucketState) (nowMs : ℚ) : Prop :=
  ∀ tokens lastRefillMs, state = some (.tokenBucket tokens lastRefillMs) →
    0 ≤ tokens ∧ lastRefillMs ≤ nowMs

theorem refilled_nonneg (hburst : 0 ≤ config.burst) (hrate : 0 ≤ config.refillRate)
    {state : Option TenantBucketState} {nowMs : ℚ} (hbehind : Behind state nowMs) :
    0 ≤ refilled config state nowMs := by
  have hfresh : 0 ≤ config.burst + (nowMs - nowMs) * (config.refillRate / 1000) := by
    rw [sub_self, zero_mul, add_zero]
    exact hburst
  match state with
  | none => exact le_min hburst hfresh
  | some (.slidingWindow _) => exact le_min hburst hfresh
  | some (.tokenBucket tokens lastRefillMs) =>
      obtain ⟨htokens, hlast⟩ := hbehind tokens lastRefillMs rfl
      have hrefill : 0 ≤ (nowMs - lastRefillMs) * (config.refillRate / 1000) :=
        mul_nonneg (sub_nonneg.mpr hlast) (by positivity)
      exact le_min hburst (add_nonneg htokens hrefill)

/-- From a bucket on, no more calls are let in until a time than it holds and is refilled with. -/
theorem admitted_bucket {inside : ℚ → Prop} [DecidablePred inside] {stop : ℚ}
    (hstop : ∀ t, inside t → t ≤ stop) (hburst : 0 ≤ config.burst) (hrate : 0 ≤ config.refillRate)
    {times : List ℚ} (hsorted : times.Pairwise (· ≤ ·)) {tokens lastRefillMs : ℚ}
    (htokens : 0 ≤ tokens) (hlater : ∀ t ∈ times, lastRefillMs ≤ t) (hlast : lastRefillMs ≤ stop) :
    (admitted (Keyed.answers (checkTokenBucket tenantId config)
      (some (.tokenBucket tokens lastRefillMs)) times) inside : ℚ) ≤
        tokens + (stop - lastRefillMs) * (config.refillRate / 1000) := by
  have hrate' : 0 ≤ config.refillRate / 1000 := by positivity
  have hrefill : ∀ {a b : ℚ}, a ≤ b → 0 ≤ (b - a) * (config.refillRate / 1000) :=
    fun hle => mul_nonneg (sub_nonneg.mpr hle) hrate'
  induction times generalizing tokens lastRefillMs with
  | nil =>
      simp only [Keyed.answers, admitted, List.countP_nil, Nat.cast_zero]
      linarith [hrefill hlast]
  | cons nowMs times ih =>
      rw [List.pairwise_cons] at hsorted
      have hnow := hlater nowMs List.mem_cons_self
      by_cases hover : stop < nowMs
      · have hnone : ∀ t ∈ nowMs :: times, ¬ inside t := by
          intro t ht hinside
          have htime := hstop t hinside
          rcases List.mem_cons.mp ht with rfl | ht
          · linarith
          · linarith [hsorted.1 t ht]
        rw [admitted_eq_zero (by rwa [Keyed.map_fst_answers])]
        push_cast
        linarith [hrefill hlast]
      · obtain ⟨left, hstate, hleft, hspent⟩ := @checkTokenBucket_spent config
          tenantId (some (.tokenBucket tokens lastRefillMs)) nowMs
        have hrefilled : refilled config (some (.tokenBucket tokens lastRefillMs)) nowMs ≤
            tokens + (nowMs - lastRefillMs) * (config.refillRate / 1000) := min_le_right _ _
        have hnonneg := refilled_nonneg hburst hrate
          (show Behind (some (.tokenBucket tokens lastRefillMs)) nowMs by
            rintro _ _ ⟨⟩
            exact ⟨htokens, hnow⟩)
        have hrest := ih hsorted.2 (hleft hnonneg) hsorted.1 (not_lt.mp hover)
        rw [Keyed.answers, admitted_cons, hstate]
        push_cast
        have hone : (if (checkTokenBucket tenantId config (some (.tokenBucket tokens lastRefillMs))
              nowMs).1.allowed = true ∧ inside nowMs then (1 : ℚ) else 0) ≤
            if (checkTokenBucket tenantId config (some (.tokenBucket tokens lastRefillMs))
              nowMs).1.allowed = true then 1 else 0 := by
          split_ifs <;> simp_all
        linarith [hone]

/-- Before the interval nothing is counted, and at its first call the bucket is full at most. -/
theorem admitted_interval {start stop : ℚ} (hinterval : start ≤ stop) (hburst : 0 ≤ config.burst)
    (hrate : 0 ≤ config.refillRate) {times : List ℚ} (hsorted : times.Pairwise (· ≤ ·))
    {state : Option TenantBucketState} (hbehind : ∀ t ∈ times, Behind state t) :
    (admitted (Keyed.answers (checkTokenBucket tenantId config) state times)
      (fun t => start ≤ t ∧ t ≤ stop) : ℚ) ≤
        config.burst + (stop - start) * (config.refillRate / 1000) := by
  have hrate' : 0 ≤ config.refillRate / 1000 := by positivity
  induction times generalizing state with
  | nil =>
      have hrefill := mul_nonneg (sub_nonneg.mpr hinterval) hrate'
      simp only [Keyed.answers, admitted, List.countP_nil, Nat.cast_zero]
      linarith
  | cons nowMs times ih =>
      rw [List.pairwise_cons] at hsorted
      obtain ⟨left, hstate, hleft, hspent⟩ := @checkTokenBucket_spent config
        tenantId state nowMs
      have hnonneg := hleft (refilled_nonneg hburst hrate (hbehind nowMs List.mem_cons_self))
      rw [Keyed.answers, admitted_cons, hstate]
      by_cases hinside : start ≤ nowMs ∧ nowMs ≤ stop
      · have hrest := @admitted_bucket config tenantId
          (fun t => start ≤ t ∧ t ≤ stop) _ stop (fun t ht => ht.2) hburst hrate _ hsorted.2
          _ _ hnonneg hsorted.1 hinside.2
        have hfull := @refilled_le_burst config state nowMs
        have hlate := mul_nonneg (sub_nonneg.mpr hinside.1) hrate'
        simp only [hinside, and_self, and_true]
        push_cast
        linarith
      · have hrest := @ih hsorted.2 (some (.tokenBucket left nowMs)) (by
          rintro t ht _ _ ⟨⟩
          exact ⟨hnonneg, hsorted.1 t ht⟩)
        simpa only [hinside, and_false, if_false, Nat.add_zero] using hrest

theorem bucketBounded_answers (hburst : 0 ≤ config.burst) (hrate : 0 ≤ config.refillRate)
    {times : List ℚ} (hsorted : times.Pairwise (· ≤ ·)) :
    BucketBounded config (Keyed.answers (checkTokenBucket tenantId config) none times) := by
  intro start seconds hseconds
  have hbound := @admitted_interval config tenantId start
    (start + seconds * 1000) (by linarith) hburst hrate _ hsorted
    none (by rintro _ _ _ _ ⟨⟩)
  have hrefill : (start + seconds * 1000 - start) * (config.refillRate / 1000) =
      config.refillRate * seconds := by ring
  rwa [hrefill] at hbound

/-- A bucket that refills up to a token holds one at the reset time. -/
theorem retry_bucket (hrate : config.refillRate = 0 ∨ (0 < config.refillRate ∧ 1 ≤ config.burst))
    (state : Option TenantBucketState) (nowMs next : ℚ)
    (hdenied : (checkTokenBucket tenantId config state nowMs).1.allowed = false)
    (hreset : (checkTokenBucket tenantId config state nowMs).1.resetAtMs = next) :
    (checkTokenBucket tenantId config
      (some (checkTokenBucket tenantId config state nowMs).2) next).1.allowed = true := by
  by_cases hempty : refilled config state nowMs < 1
  · obtain ⟨-, hat, hstate⟩ := @checkTokenBucket_denied config tenantId state nowMs hempty
    rw [hat] at hreset
    rw [hstate]
    rcases hrate with hrate | ⟨hrate, hburst⟩
    · rw [hrate, zero_div, ceilDiv, if_pos rfl] at hreset
      cases hreset
    · have hrate' : 0 < config.refillRate / 1000 := by positivity
      rw [ceilDiv, if_neg hrate'.ne'] at hreset
      have htime : nowMs + (⌈(1 - refilled config state nowMs) / (config.refillRate / 1000)⌉ : ℤ) =
          next := WithTop.coe_inj.mp hreset
      have hneed := (div_le_iff₀ hrate').mp
        (Int.le_ceil ((1 - refilled config state nowMs) / (config.refillRate / 1000)))
      refine (checkTokenBucket_admitted (not_lt.mpr (le_min hburst ?_))).1
      show 1 ≤ refilled config state nowMs + (next - nowMs) * (config.refillRate / 1000)
      rw [← htime, add_sub_cancel_left]
      linarith
  · rw [(checkTokenBucket_admitted hempty).1] at hdenied
    cases hdenied

/-! ## The promises, by configuration -/

theorem validateRateLimiterConfig_eq_ok : validateRateLimiterConfig config = .ok () ↔
    0 < config.windowMs ∧ 0 < config.maxRequests ∧ ∀ burstCapacity ∈ config.burstCapacity,
      0 ≤ burstCapacity := by
  simp only [validateRateLimiterConfig, bind_eq_ok, exists_unit, require_eq_ok, not_or, not_le,
    not_lt, and_assoc]

theorem burst_nonneg (hvalid : validateRateLimiterConfig config = .ok ()) : 0 ≤ config.burst := by
  obtain ⟨-, hmax, hburst⟩ := validateRateLimiterConfig_eq_ok.mp hvalid
  rw [TenantRateLimiterConfig.burst]
  cases hcapacity : config.burstCapacity with
  | none => exact hmax.le
  | some burstCapacity => exact hburst burstCapacity hcapacity

theorem rateExact_of_sound (hvalid : validateRateLimiterConfig config = .ok ()) {n : ℕ}
    (hmax : config.maxRequests = n) (hsound : config.Sound) {times : List ℚ}
    (hsorted : times.Pairwise (· ≤ ·)) :
    RateExact config (Keyed.answers (checkTenant tenantId config) none times) := by
  obtain ⟨-, hpositive, -⟩ := validateRateLimiterConfig_eq_ok.mp hvalid
  cases halgorithm : config.algorithm with
  | slidingWindow =>
      simp only [RateExact, checkTenant, halgorithm]
      rw [hmax, Nat.cast_pos] at hpositive
      refine ⟨windowExact_answers hmax hsorted, ?_⟩
      have hkeep : ∀ state nowMs, (timestampsOf state).length ≤ n →
          (timestampsOf (some (checkSlidingWindow tenantId config state nowMs).2)).length ≤ n :=
        fun state nowMs hlength => length_timestampsOf_next hmax hlength nowMs
      have hempty : (timestampsOf none).length ≤ n := Nat.zero_le n
      refine Keyed.isChain_answers hkeep (fun state nowMs next hlength => ?_) hempty times
      exact retry_window hmax hpositive hlength nowMs next
  | tokenBucket =>
      have hrate : config.refillRate = 0 ∨ (0 < config.refillRate ∧ 1 ≤ config.burst) := by
        rcases hsound with hwindow | hrate
        · rw [halgorithm] at hwindow
          cases hwindow
        · exact hrate
      have hnonneg : 0 ≤ config.refillRate := by
        rcases hrate with hzero | hboth
        · exact hzero.ge
        · exact hboth.1.le
      simp only [RateExact, checkTenant, halgorithm]
      refine ⟨bucketBounded_answers (burst_nonneg hvalid) hnonneg hsorted, ?_⟩
      exact @Keyed.isChain_answers _ _ _ _ (fun _ => True) _ (fun _ _ _ => trivial)
        (fun state nowMs next _ => retry_bucket hrate state nowMs next) _ trivial times

/-- A bucket that loses tokens breaks its bound after enough seconds. -/
theorem not_bounded_of_negative (hrate : config.refillRate < 0) :
    ¬ BucketBounded config (Keyed.answers (checkTenant tenantId config) none []) := by
  intro hbounded
  have hlong := hbounded 0 ((|config.burst| + 1) / -config.refillRate)
    (div_nonneg (by positivity) (by linarith))
  have hlost : config.refillRate * ((|config.burst| + 1) / -config.refillRate) =
      -(|config.burst| + 1) := by
    have hne : config.refillRate ≠ 0 := hrate.ne
    field_simp
  rw [hlost] at hlong
  have hcount : (0 : ℚ) ≤ admitted (Keyed.answers (checkTenant tenantId config) none [])
      (fun t => 0 ≤ t ∧ t ≤ 0 + (|config.burst| + 1) / -config.refillRate * 1000) :=
    Nat.cast_nonneg _
  linarith [le_abs_self config.burst]

/-- The wait a bucket without room for a token is given at its first call. -/
def firstWait (config : TenantRateLimiterConfig) : ℚ :=
  (⌈(1 - config.burst) / (config.refillRate / 1000)⌉ : ℤ)

/-- A bucket without room for a token denies the call at the reset time. -/
theorem not_honest_of_small (halgorithm : config.algorithm = .tokenBucket)
    (hrate : 0 < config.refillRate) (hburst : config.burst < 1) :
    ¬ RetryHonest (Keyed.answers (checkTenant tenantId config) none [0, firstWait config]) := by
  have hdenied : ∀ state nowMs, refilled config state nowMs < 1 := fun state nowMs =>
    (refilled_le_burst state nowMs).trans_lt hburst
  have hfresh : refilled config none 0 = config.burst := by simp [refilled, bucketOf]
  intro hhonest
  simp only [Keyed.answers, RetryHonest, checkTenant, halgorithm, List.isChain_cons_cons] at hhonest
  have hretry := hhonest.1 (checkTokenBucket_denied (hdenied none 0)).1 (by
    rw [(checkTokenBucket_denied (hdenied none 0)).2.1, hfresh, ceilDiv,
      if_neg (by positivity)]
    exact WithTop.coe_inj.mpr (zero_add _))
  rw [(checkTokenBucket_denied (hdenied _ _)).1] at hretry
  cases hretry

end RateLimiter

namespace MemoryTenantRateLimiter

/-- A new limiter has no state and only accepted configurations. -/
theorem configure_eq_ok {defaultConfig : TenantRateLimiterConfig}
    {settings : List (String × TenantRateLimiterConfig)} {limiter : MemoryTenantRateLimiter}
    (hconfigure : configure defaultConfig settings = .ok limiter) :
    (∀ tenantId, limiter.tenantStates.get? tenantId = none) ∧
      ∀ tenantId, validateRateLimiterConfig (limiter.configOf tenantId) = .ok () := by
  induction settings generalizing limiter with
  | nil =>
      simp only [configure, create, bind_eq_ok, exists_unit, pure_eq_ok] at hconfigure
      obtain ⟨hvalid, rfl⟩ := hconfigure
      exact ⟨fun _ => rfl, fun _ => hvalid⟩
  | cons setting settings ih =>
      obtain ⟨tenantId, config⟩ := setting
      simp only [configure, setTenantConfig, bind_eq_ok, exists_unit, pure_eq_ok] at hconfigure
      obtain ⟨before, hbefore, hvalid, rfl⟩ := hconfigure
      obtain ⟨hstates, hconfigs⟩ := ih hbefore
      refine ⟨fun other => ?_, fun other => ?_⟩
      · rw [OrderedMap.get?_delete, hstates other, ite_self]
      · show validateRateLimiterConfig (((before.tenantConfigs.set tenantId config).get?
          other).getD before.defaultConfig) = .ok ()
        rw [OrderedMap.get?_set]
        split
        · exact hvalid
        · exact hconfigs other

/-- A tenant is answered by its own machine. -/
theorem project_run {limiter : MemoryTenantRateLimiter} {tenantId : String}
    (hstate : limiter.tenantStates.get? tenantId = none) (calls : List (String × ℚ)) :
    Keyed.project tenantId (limiter.run calls) =
      Keyed.answers (checkTenant tenantId (limiter.configOf tenantId)) none
        (Keyed.project tenantId calls) := by
  rw [run_eq, Keyed.project_run, hstate]

/-- The limiter keeps its promises exactly when every tenant's configuration is sound. -/
theorem rateLimits_exact_iff {defaultConfig : TenantRateLimiterConfig}
    {settings : List (String × TenantRateLimiterConfig)} {limiter : MemoryTenantRateLimiter}
    (hconfigure : configure defaultConfig settings = .ok limiter)
    (hinteger : ∀ tenantId, ∃ n : ℤ, (limiter.configOf tenantId).maxRequests = n) :
    limiter.Exact ↔ ∀ tenantId, (limiter.configOf tenantId).Sound := by
  obtain ⟨hstates, hvalid⟩ := configure_eq_ok hconfigure
  constructor
  · intro hexact tenantId
    have halone : ∀ times : List ℚ, times.Pairwise (· ≤ ·) →
        RateExact (limiter.configOf tenantId)
          (Keyed.answers (checkTenant tenantId (limiter.configOf tenantId)) none times) := by
      intro times hsorted
      have hproject : Keyed.project tenantId (times.map fun t => (tenantId, t)) = times := by
        simp [Keyed.project, List.filter_map, Function.comp_def]
      have hanswers := (hexact (times.map fun t => (tenantId, t))
        (by simpa [Function.comp_def] using hsorted) tenantId).2
      rwa [project_run (hstates tenantId), hproject] at hanswers
    cases halgorithm : (limiter.configOf tenantId).algorithm with
    | slidingWindow => exact Or.inl halgorithm
    | tokenBucket =>
        have hbounded := (halone [] List.Pairwise.nil).1
        simp only [halgorithm] at hbounded
        rcases lt_trichotomy (limiter.configOf tenantId).refillRate 0 with hrate | hrate | hrate
        · exact absurd hbounded (not_bounded_of_negative hrate)
        · exact Or.inr (Or.inl hrate)
        · refine Or.inr (Or.inr ⟨hrate, not_lt.mp fun hburst => ?_⟩)
          have hwait : 0 ≤ firstWait (limiter.configOf tenantId) := by
            rw [firstWait]
            exact_mod_cast Int.ceil_nonneg (div_nonneg (by linarith) (by linarith))
          exact not_honest_of_small halgorithm hrate hburst
            (halone [0, firstWait _] (by simpa using hwait)).2
  · intro hsound calls hsorted tenantId
    obtain ⟨z, hz⟩ := hinteger tenantId
    obtain ⟨-, hpositive, -⟩ := validateRateLimiterConfig_eq_ok.mp (hvalid tenantId)
    obtain ⟨n, rfl⟩ : ∃ n : ℕ, z = n := by
      rw [hz] at hpositive
      exact ⟨z.toNat, (Int.toNat_of_nonneg (by exact_mod_cast hpositive.le)).symm⟩
    refine ⟨?_, ?_⟩
    · rw [run_eq]
      exact (Keyed.project_run_filter _ _ _ _).trans (by rw [run_eq])
    · rw [project_run (hstates tenantId)]
      refine rateExact_of_sound (hvalid tenantId) (n := n) (by exact_mod_cast hz)
        (hsound tenantId) ?_
      exact hsorted.sublist ((List.filter_sublist (l := calls)).map Prod.snd)

end MemoryTenantRateLimiter

/-! ## Half a token -/

namespace HalfToken

/-- Ten calls a second, with a bucket of the given size. -/
def config (burstCapacity : Option ℚ) : TenantRateLimiterConfig :=
  ⟨1000, 10, .tokenBucket, burstCapacity, none⟩

def limiter (burstCapacity : Option ℚ) : MemoryTenantRateLimiter :=
  ⟨.empty, .empty, config burstCapacity⟩

theorem configured (burstCapacity : Option ℚ) (hburst : ∀ burst ∈ burstCapacity, 0 ≤ burst) :
    MemoryTenantRateLimiter.configure (config burstCapacity) [] = .ok (limiter burstCapacity) := by
  have hvalid : validateRateLimiterConfig (config burstCapacity) = .ok () :=
    validateRateLimiterConfig_eq_ok.mpr ⟨by norm_num [config], by norm_num [config], hburst⟩
  rw [MemoryTenantRateLimiter.configure, MemoryTenantRateLimiter.create, hvalid]
  rfl

theorem integer (burstCapacity : Option ℚ) (tenantId : String) :
    ∃ n : ℤ, ((limiter burstCapacity).configOf tenantId).maxRequests = n := ⟨10, rfl⟩

/-- A bucket of half a token denies for fifty milliseconds, again and again. -/
theorem denied_again : (limiter (some (1 / 2))).run [("acme", 0), ("acme", 50)] =
    [("acme", 0, ⟨false, 0, (50 : ℚ), some (1 : ℤ), "acme"⟩),
      ("acme", 50, ⟨false, 0, (100 : ℚ), some (1 : ℤ), "acme"⟩)] := by
  decide +kernel

/-- Full buckets of ten tokens keep every promise. -/
theorem full_exact : (limiter none).Exact :=
  (MemoryTenantRateLimiter.rateLimits_exact_iff (configured none (by simp)) (integer none)).mpr
    fun _ => Or.inr (Or.inr ⟨by norm_num [limiter, MemoryTenantRateLimiter.configOf, config,
      TenantRateLimiterConfig.refillRate], by norm_num [limiter, MemoryTenantRateLimiter.configOf,
      config, TenantRateLimiterConfig.burst]⟩)

theorem not_always_exact : ¬ ∀ (defaultConfig : TenantRateLimiterConfig)
    (settings : List (String × TenantRateLimiterConfig)) (limiter : MemoryTenantRateLimiter),
    MemoryTenantRateLimiter.configure defaultConfig settings = .ok limiter →
      (∀ tenantId, ∃ n : ℤ, (limiter.configOf tenantId).maxRequests = n) → limiter.Exact := by
  intro hall
  have hexact := hall _ [] _ (configured (some (1 / 2)) (by norm_num)) (integer _)
  have hhonest := (hexact [("acme", 0), ("acme", 50)] (by norm_num) "acme").2.2
  rw [denied_again] at hhonest
  simp [Keyed.project, RetryHonest] at hhonest

end HalfToken

end Coivitas.Sdk
