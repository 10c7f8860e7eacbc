import Coivitas.Foundation.Calendar
import Coivitas.Foundation.Double
import Coivitas.Types.Authorization
import Mathlib.Data.Nat.Find

/-! # Cumulative metering: registry, windows and the tracker port -/

namespace Coivitas.Policy

open Foundation Coivitas.Types

inductive JsNumber where
  | nan
  | negInf
  | finite (value : ℚ)
  | posInf
  deriving DecidableEq

/-- `a <= b` for a finite right side. -/
def JsNumber.le : JsNumber → ℚ → Prop
  | .nan, _ => False
  | .negInf, _ => True
  | .finite a, b => a ≤ b
  | .posInf, _ => False

instance : (a : JsNumber) → (b : ℚ) → Decidable (a.le b)
  | .nan, _ => instDecidableFalse
  | .negInf, _ => instDecidableTrue
  | .finite a, b => inferInstanceAs (Decidable (a ≤ b))
  | .posInf, _ => instDecidableFalse

/-- `a > b` for a finite right side. -/
def JsNumber.gt : JsNumber → ℚ → Prop
  | .nan, _ => False
  | .negInf, _ => False
  | .finite a, b => b < a
  | .posInf, _ => True

instance : (a : JsNumber) → (b : ℚ) → Decidable (a.gt b)
  | .nan, _ => instDecidableFalse
  | .negInf, _ => instDecidableFalse
  | .finite a, b => inferInstanceAs (Decidable (b < a))
  | .posInf, _ => instDecidableTrue

/-- `a + b` where the sum of two finite numbers is exact, as it is for instants. -/
def JsNumber.add : JsNumber → JsNumber → JsNumber
  | .finite a, .finite b => .finite (a + b)
  | .posInf, .finite _ | .finite _, .posInf | .posInf, .posInf => .posInf
  | .negInf, .finite _ | .finite _, .negInf | .negInf, .negInf => .negInf
  | _, _ => .nan

/-- The double nearest to a number. -/
def JsNumber.rounded (q : ℚ) : JsNumber :=
  if |Double.nearest q| < Double.limit then .finite (Double.nearest q)
  else if 0 < q then .posInf
  else .negInf

/-- `a + b`. -/
def JsNumber.plus : JsNumber → JsNumber → JsNumber
  | .finite a, .finite b => .rounded (a + b)
  | a, b => a.add b

/-- `total += value` over the values, from zero. -/
def JsNumber.sum (values : List ℚ) : JsNumber :=
  values.foldl (fun total value => total.plus (.finite value)) (.finite 0)

/-- `bound <= number`. -/
def JsNumber.AtLeast (bound : ℚ) : JsNumber → Prop
  | .finite value => bound ≤ value
  | .posInf => True
  | _ => False

instance (bound : ℚ) : DecidablePred (JsNumber.AtLeast bound)
  | .nan => instDecidableFalse
  | .negInf => instDecidableFalse
  | .finite value => inferInstanceAs (Decidable (bound ≤ value))
  | .posInf => instDecidableTrue

/-- A sum of two finite numbers is not rounded down. -/
def JsNumber.AddsUp (a b : JsNumber) : Prop :=
  match a, b with
  | .finite x, .finite y => (a.plus b).AtLeast (x + y)
  | _, _ => True

instance : (a b : JsNumber) → Decidable (a.AddsUp b)
  | .finite x, .finite y =>
      inferInstanceAs (Decidable (((JsNumber.finite x).plus (.finite y)).AtLeast (x + y)))
  | .finite _, .nan | .finite _, .negInf | .finite _, .posInf => instDecidableTrue
  | .nan, _ | .negInf, _ | .posInf, _ => instDecidableTrue

section Sums

variable {a b : JsNumber} {q bound limit : ℚ}

theorem JsNumber.rounded_plus_zero (q : ℚ) :
    (JsNumber.rounded q).plus (.finite 0) = JsNumber.rounded q := by
  unfold JsNumber.rounded
  split_ifs with hlimit hpos
  · simp [JsNumber.plus, JsNumber.rounded, Double.nearest_nearest, hlimit]
  · rfl
  · rfl

theorem JsNumber.zero_plus_zero : (JsNumber.finite 0).plus (.finite 0) = .finite 0 := by
  decide +kernel

/-- Whole numbers within `2 ^ 53` are not rounded. -/
theorem JsNumber.rounded_natCast {n : ℕ} (hn : n ≤ 2 ^ 53) :
    JsNumber.rounded (n : ℚ) = .finite n := by
  have hdouble : Double.IsDouble ((n : ℤ) : ℚ) :=
    Double.isDouble_intCast (by rw [Nat.abs_cast]; exact_mod_cast hn)
  have hnearest : Double.nearest (n : ℚ) = n := by
    exact_mod_cast Double.nearest_of_isDouble hdouble
  have hlimit : |(n : ℚ)| < Double.limit := by
    rw [Nat.abs_cast]
    calc (n : ℚ) ≤ 2 ^ 53 := by exact_mod_cast hn
      _ < Double.limit := pow_lt_pow_right₀ (by norm_num) (by norm_num)
  rw [JsNumber.rounded, hnearest, if_pos hlimit]

/-- Two whole numbers add up within `2 ^ 53`. -/
theorem JsNumber.addsUp_natCast {m n : ℕ} (hsum : m + n ≤ 2 ^ 53) :
    (JsNumber.finite m).AddsUp (.finite n) := by
  have hrounded := JsNumber.rounded_natCast hsum
  rw [Nat.cast_add] at hrounded
  simp only [JsNumber.AddsUp, JsNumber.plus, hrounded]
  exact le_rfl

/-- A sum stays the same when zero is added to it. -/
theorem JsNumber.plus_plus_zero (a b : JsNumber) : (a.plus b).plus (.finite 0) = a.plus b := by
  cases a <;> cases b
  case finite.finite x y => exact JsNumber.rounded_plus_zero (x + y)
  all_goals rfl

theorem JsNumber.sum_append (values : List ℚ) (value : ℚ) :
    JsNumber.sum (values ++ [value]) = (JsNumber.sum values).plus (.finite value) := by
  simp [JsNumber.sum]

/-- The sum of whole numbers is exact as far as `2 ^ 53`, and whole. -/
theorem JsNumber.sum_of_whole {values : List ℚ} (hwhole : ∀ value ∈ values, ∃ n : ℕ, value = n)
    (hsum : values.sum ≤ 2 ^ 53) :
    JsNumber.sum values = .finite values.sum ∧ ∃ n : ℕ, values.sum = n := by
  induction values using List.reverseRecOn with
  | nil => exact ⟨rfl, 0, by simp⟩
  | append_singleton values value ih =>
      rw [List.sum_append, List.sum_singleton] at hsum ⊢
      obtain ⟨n, rfl⟩ := hwhole value (by simp)
      have hnonneg : (0 : ℚ) ≤ n := Nat.cast_nonneg n
      obtain ⟨hvalues, m, hm⟩ := ih (fun value hvalue => hwhole value (by simp [hvalue]))
        (by linarith)
      rw [hm] at hsum hvalues ⊢
      have hrounded := JsNumber.rounded_natCast (n := m + n) (by exact_mod_cast hsum)
      rw [Nat.cast_add] at hrounded
      rw [JsNumber.sum_append, hvalues]
      exact ⟨hrounded, m + n, by rw [Nat.cast_add]⟩

theorem JsNumber.sum_plus_zero (values : List ℚ) :
    (JsNumber.sum values).plus (.finite 0) = JsNumber.sum values := by
  induction values using List.reverseRecOn with
  | nil => exact JsNumber.zero_plus_zero
  | append_singleton values value _ =>
      rw [JsNumber.sum_append]
      exact JsNumber.plus_plus_zero _ _

/-- The values that are left out of a sum count as zero in it. -/
theorem JsNumber.sum_filter {ρ : Type*} (rows : List ρ) (p : ρ → Prop) [DecidablePred p]
    (amount : ρ → ℚ) :
    JsNumber.sum ((rows.filter fun row => p row).map amount) =
      JsNumber.sum (rows.map fun row => if p row then amount row else 0) := by
  have hfold : ∀ total : JsNumber, total.plus (.finite 0) = total →
      ((rows.filter fun row => p row).map amount).foldl
          (fun total value => total.plus (.finite value)) total =
        (rows.map fun row => if p row then amount row else 0).foldl
          (fun total value => total.plus (.finite value)) total := by
    induction rows with
    | nil => exact fun _ _ => rfl
    | cons row rows ih =>
        intro total htotal
        by_cases hrow : p row
        · simpa [hrow] using ih _ (JsNumber.plus_plus_zero _ _)
        · simpa [hrow, htotal] using ih total htotal
  exact hfold _ JsNumber.zero_plus_zero

theorem JsNumber.AtLeast.mono {x : JsNumber} {lower : ℚ} (hx : x.AtLeast bound)
    (hle : lower ≤ bound) : x.AtLeast lower := by
  cases x with
  | finite value => exact hle.trans hx
  | posInf => trivial
  | nan => exact hx
  | negInf => exact hx

/-- What does not exceed a limit, from a bound on, is within the limit. -/
theorem JsNumber.AtLeast.le_of_not_gt {x : JsNumber} (hx : x.AtLeast bound)
    (hlimit : ¬ x.gt limit) : bound ≤ limit := by
  cases x with
  | finite value => exact le_trans hx (not_lt.mp hlimit)
  | posInf => exact absurd trivial hlimit
  | nan => exact absurd hx id
  | negInf => exact absurd hx id

end Sums

/-- A number in a template text. -/
def JsNumber.text (format : ℚ → String) : JsNumber → String
  | .nan => "NaN"
  | .negInf => "-Infinity"
  | .finite value => format value
  | .posInf => "Infinity"

/-! ## Meter fields -/

inductive MeterAggregation where
  | sum
  | count
  deriving DecidableEq

inductive CountFilter where
  | success
  | all
  deriving DecidableEq

structure MeterFieldEntry where
  aggregation : MeterAggregation
  /-- The `result_summary` field a `sum` reads. -/
  recordField : Option String
  /-- The request field a `sum` reads. -/
  requestField : Option String
  countFilter : CountFilter
  deriving DecidableEq

/-- The members that an object literal inherits. -/
def inheritedMembers : List String :=
  ["constructor", "__defineGetter__", "__defineSetter__", "hasOwnProperty", "__lookupGetter__",
    "__lookupSetter__", "isPrototypeOf", "propertyIsEnumerable", "toString", "valueOf",
    "__proto__", "toLocaleString"]

/-- An inherited member read as an entry: all its fields are `undefined`. What is not `COUNT` is
summed, and the rows are filtered as for `*` when the filter is not `SUCCESS`. -/
def inheritedEntry : MeterFieldEntry := ⟨.sum, none, none, .all⟩

/-- `METER_FIELD_REGISTRY[metric]`; `none` is `undefined`. -/
def meterFieldRegistry (metric : String) : Option MeterFieldEntry :=
  if metric = "transaction_amount" then some ⟨.sum, some "amount", some "amount", .success⟩
  else if metric = "api_call_count" then some ⟨.count, none, none, .all⟩
  else if metric ∈ inheritedMembers then some inheritedEntry
  else none

/-- The name under which a field is read: `undefined` is made a name, too. -/
def fieldName (field : Option String) : String := field.getD "undefined"

/-! ## Windows -/

def hourMs : Int := 3600000

def dayMs : Int := 86400000

/-- Days of one 400-year cycle of the calendar. -/
def cycleDays : Int := 146097

/-- The first day of the month of a day counted from the start of year 0. -/
def monthFirstDay (d : Int) : Int :=
  let cycle := d / cycleDays
  let day := (d % cycleDays).toNat
  let index := Nat.findGreatest (fun k => Calendar.monthStartAt k ≤ day) (12 * (day / 365) + 12)
  cycle * cycleDays + Calendar.monthStartAt index

/-- The UTC start of the calendar window of an instant in milliseconds. -/
def computeWindowStart (window : Window) (now : Int) : Int :=
  let today := now / dayMs
  match window with
  | .hour => now / hourMs * hourMs
  | .day => today * dayMs
  | .week =>
      -- Day 0 of the epoch is a Thursday.
      let dayOfWeek := (today + 4) % 7
      let daysToMonday := if dayOfWeek = 0 then 6 else dayOfWeek - 1
      (today - daysToMonday) * dayMs
  | .month => (monthFirstDay (today + Calendar.epochDay) - Calendar.epochDay) * dayMs

theorem monthFirstDay_le (d : Int) : monthFirstDay d ≤ d := by
  have hmod : 0 ≤ d % cycleDays := Int.emod_nonneg d (by decide)
  have hspec : Calendar.monthStartAt (Nat.findGreatest
      (fun k => Calendar.monthStartAt k ≤ (d % cycleDays).toNat)
      (12 * ((d % cycleDays).toNat / 365) + 12)) ≤ (d % cycleDays).toNat :=
    Nat.findGreatest_spec (P := fun k => Calendar.monthStartAt k ≤ (d % cycleDays).toNat)
      (Nat.zero_le _) (Nat.zero_le _)
  have hdiv := Int.mul_ediv_add_emod d cycleDays
  have hcomm := Int.mul_comm cycleDays (d / cycleDays)
  simp only [monthFirstDay]
  omega

/-- A window starts no later than the instant it is computed for. -/
theorem computeWindowStart_le (window : Window) (now : Int) :
    computeWindowStart window now ≤ now := by
  have hday : now / dayMs * dayMs ≤ now := Int.ediv_mul_le now (by decide)
  have hpos : (0 : Int) ≤ dayMs := by decide
  cases window with
  | hour => exact Int.ediv_mul_le now (by decide)
  | day => exact hday
  | week =>
      refine le_trans (Int.mul_le_mul_of_nonneg_right ?_ hpos) hday
      have hmod : 0 ≤ (now / dayMs + 4) % 7 := Int.emod_nonneg _ (by decide)
      split <;> omega
  | month =>
      refine le_trans (Int.mul_le_mul_of_nonneg_right ?_ hpos) hday
      have hmonth := monthFirstDay_le (now / dayMs + Calendar.epochDay)
      omega

/-! ## The tracker port -/

structure ReserveRequest where
  recordId : String
  agentDid : String
  meterField : MeterFieldRef
  windowStart : Int
  now : Int
  max : ℚ
  reserveAmount : JsNumber

structure ReserveResult where
  allowed : Bool
  currentCumulative : JsNumber
  deriving DecidableEq

/-- A tracker over a store `σ`; no result means that the call threw. -/
structure CumulativeTracker (σ : Type) where
  checkAndReserve : ReserveRequest → σ → Option ReserveResult × σ

end Coivitas.Policy
