import Coivitas.Foundation.Outcome
import Coivitas.Policy.CumulativeTracker
import Coivitas.Types.Schema

/-! # Scope evaluation

The runtime side of a scope: whether one request, at one instant, falls under
it. Cumulative scopes reserve quota through a tracker, so an evaluation carries
the tracker's store along.
-/

namespace Coivitas.Policy

open Foundation Coivitas.Types

/-! ## Request values -/

/-- A value of a request parameter, as far as `typeof` and comparisons see it. -/
inductive JsValue where
  | undefined
  | null
  | number (value : JsNumber)
  | string (value : String)
  | other
  deriving DecidableEq

abbrev Params := String → JsValue

/-- Why a scope denies a request, or that its evaluation threw. -/
inductive ScopeDenial where
  | emptyAllowlist (field : String)
  | missingString (field : String)
  | notInAllowlist (field : String)
  | notNumber (field : String)
  | exceedsMax (field : String) (max : ℚ)
  | notYetActive
  | expired
  | invalidTimeFormat
  | invalidTimezone
  | outsideWindowTime
  | outsideWindowDay
  | noTracker
  | metricSourceNotImplemented (source : MeterFieldRefSource)
  | unregisteredMeterField (metric : String)
  | cannotExtract (metric : String)
  | cumulativeExceeded (currentCumulative : JsNumber) (reserveAmount : JsNumber) (max : ℚ)
      (window : Window)
  | unexpectedWeekday (weekday : String)
  | trackerError
  deriving DecidableEq

/-- The reason a denial gives, or the message of what was thrown. -/
def ScopeDenial.text (format : ℚ → String) : ScopeDenial → String
  | .emptyAllowlist field => field ++ " allowlist is empty"
  | .missingString field => field ++ " is missing or not a string"
  | .notInAllowlist field => field ++ " is not in the allowlist"
  | .notNumber field => field ++ " is not a number"
  | .exceedsMax field max => field ++ " exceeds max " ++ format max
  | .notYetActive => "temporal_scope: not yet active (before notBefore)"
  | .expired => "temporal_scope: expired (at or after notAfter)"
  | .invalidTimeFormat => "temporal_scope: invalid time format"
  | .invalidTimezone => "temporal_scope: invalid timezone"
  | .outsideWindowTime => "temporal_scope: outside recurring window (time)"
  | .outsideWindowDay => "temporal_scope: outside recurring window (day of week)"
  | .noTracker => "cumulative_limit: no CumulativeTracker injected"
  | .metricSourceNotImplemented source =>
      "cumulative_limit: METRIC_SOURCE_NOT_IMPLEMENTED — source='" ++ source.text ++
        "' evaluator not implemented (fail-closed)"
  | .unregisteredMeterField metric => "cumulative_limit: unregistered meter field: " ++ metric
  | .cannotExtract metric =>
      "cumulative_limit: cannot extract meter value '" ++
        fieldName ((meterFieldRegistry metric).bind MeterFieldEntry.requestField) ++
        "' from params for metric '" ++ metric ++ "'"
  | .cumulativeExceeded currentCumulative reserveAmount max window =>
      "cumulative_limit exceeded: " ++ currentCumulative.text format ++ " + " ++
        reserveAmount.text format ++ " = " ++
        (currentCumulative.plus reserveAmount).text format ++ " > " ++
        format max ++ " (window: " ++ window.text ++ ")"
  | .unexpectedWeekday weekday => "unexpected weekday: " ++ weekday
  -- The tracker's own message, which no caller of the evaluator reads.
  | .trackerError => ""

/-! ## Allowlists and numeric limits -/

/-- `*suffix` entries match by suffix, all others literally. -/
def matchAllowlistValue (actualValue candidate : String) : Prop :=
  match candidate.toList with
  | '*' :: c :: rest => (c :: rest) <:+ actualValue.toList
  | _ => actualValue = candidate

instance (actualValue candidate : String) : Decidable (matchAllowlistValue actualValue candidate) := by
  unfold matchAllowlistValue
  split <;> infer_instance

def evaluateAllowlist (field : String) (values : List String) (params : Params) :
    Except ScopeDenial Unit :=
  if values.length = 0 then .error (.emptyAllowlist field)
  else
    match params field with
    | .string actualValue =>
        if ∃ candidate ∈ values, matchAllowlistValue actualValue candidate then .ok ()
        else .error (.notInAllowlist field)
    | _ => .error (.missingString field)

def evaluateNumericLimit (field : String) (max : ℚ) (params : Params) : Except ScopeDenial Unit :=
  match params field with
  | .undefined => .ok ()
  | .null => .ok ()
  | .number .nan => .error (.notNumber field)
  | .number actualValue => if actualValue.le max then .ok () else .error (.exceedsMax field max)
  | _ => .error (.notNumber field)

/-! ## Temporal scopes -/

/-- What `Intl.DateTimeFormat` gives for a time zone: its resolved name, and the
local time and weekday of an instant in milliseconds. -/
structure IntlZone where
  timeZone : String
  formatTime : Int → String
  formatDay : Int → String

/-- Time zones by name; `none` when the formatter cannot be constructed. -/
abbrev Intl := String → Option IntlZone

def weekdayNames : List String := ["Mon", "Tue", "Wed", "Thu", "Fri", "Sat", "Sun"]

/-- Monday is 1 and Sunday is 7. -/
def weekdayToISO (weekday : String) : Except ScopeDenial Nat :=
  match weekdayNames.findIdx? (· = weekday) with
  | some index => .ok (index + 1)
  | none => .error (.unexpectedWeekday weekday)

def previousDay (isoDay : Nat) : Nat := if isoDay = 1 then 7 else isoDay - 1

/-- The day a window belongs to: after midnight a crossing window still belongs
to the previous day. -/
def effectiveDay (crossesMidnight beforeEnd : Prop) [Decidable crossesMidnight]
    [Decidable beforeEnd] (isoDay : Nat) : Nat :=
  if crossesMidnight ∧ beforeEnd then previousDay isoDay else isoDay

def inWindow (localHHMM : String) (rw : RecurringWindow) : Prop :=
  if TextLt rw.endTime rw.startTime then
    TextLe rw.startTime localHHMM ∨ TextLt localHHMM rw.endTime
  else TextLe rw.startTime localHHMM ∧ TextLt localHHMM rw.endTime

instance (localHHMM : String) (rw : RecurringWindow) : Decidable (inWindow localHHMM rw) := by
  unfold inWindow
  split <;> infer_instance

/-- The window checks in a zone. -/
def evaluateInZone (zone : IntlZone) (rw : RecurringWindow) (now : Int) :
    Except ScopeDenial Unit := do
  require (zone.timeZone = rw.timezone) .invalidTimezone
  let localHHMM := zone.formatTime now
  let isoDay ← weekdayToISO (zone.formatDay now)
  require (inWindow localHHMM rw) .outsideWindowTime
  require (∀ days ∈ rw.daysOfWeek, ((effectiveDay (TextLt rw.endTime rw.startTime)
    (TextLt localHHMM rw.endTime) isoDay : Nat) : ℚ) ∈ days) .outsideWindowDay

def evaluateRecurringWindow (intl : Intl) (rw : RecurringWindow) (now : Int) :
    Except ScopeDenial Unit := do
  require (isHHMM rw.startTime = true ∧ isHHMM rw.endTime = true) .invalidTimeFormat
  match intl rw.timezone with
  | none => throw .invalidTimezone
  | some zone => evaluateInZone zone rw now

/-- A comparison with an invalid date is false, so it passes both bounds. -/
def evaluateTemporalScope (intl : Intl) (notBefore notAfter : String)
    (recurringWindow : Option RecurringWindow) (now : Int) : Except ScopeDenial Unit := do
  require (¬ ∃ t ∈ Calendar.getTime notBefore, now < t) .notYetActive
  require (¬ ∃ t ∈ Calendar.getTime notAfter, t ≤ now) .expired
  match recurringWindow with
  | none => pure ()
  | some rw => evaluateRecurringWindow intl rw now

/-! ## Cumulative limits -/

section Tracker

variable {σ : Type}

/-- The amount a request reserves for a meter field. -/
def reserveAmount? (entry : MeterFieldEntry) (params : Params) : Option JsNumber :=
  match entry.aggregation with
  | .count => some (.finite 1)
  | .sum =>
      match params (fieldName entry.requestField) with
      | .number .nan => none
      | .number raw => some raw
      | _ => none

def textOr (fallback : String) : JsValue → String
  | .string text => text
  | _ => fallback

/-- Atomic check-and-reserve against the tracker, after the checks on the meter
field. The tracker leaves its store changed when it reserves. -/
def evaluateCumulativeLimit (tracker : Option (CumulativeTracker σ)) (meterField : MeterFieldRef)
    (max : ℚ) (window : Window) (params : Params) (now : Int) (store : σ) :
    Except ScopeDenial Unit × σ :=
  match tracker with
  | none => (.error .noTracker, store)
  | some tracker =>
      if meterField.source ≠ .actionRecord then
        (.error (.metricSourceNotImplemented meterField.source), store)
      else
        match meterFieldRegistry meterField.metric with
        | none => (.error (.unregisteredMeterField meterField.metric), store)
        | some entry =>
            match reserveAmount? entry params with
            | none => (.error (.cannotExtract meterField.metric), store)
            | some reserveAmount =>
                match tracker.checkAndReserve ⟨textOr "" (params "__recordId"),
                    textOr "" (params "__agentDid"), meterField, computeWindowStart window now, now,
                    max, reserveAmount⟩ store with
                | (none, store') => (.error .trackerError, store')
                | (some result, store') =>
                    if result.allowed then (.ok (), store')
                    else (.error (.cumulativeExceeded result.currentCumulative reserveAmount max
                      window), store')

/-! ## Scope lists -/

/-- The services an evaluator is built with. -/
structure ScopeEvaluator (σ : Type) where
  intl : Intl
  tracker : Option (CumulativeTracker σ)

variable (evaluator : ScopeEvaluator σ)

def evaluate (scope : Scope) (params : Params) (now : Int) (store : σ) :
    Except ScopeDenial Unit × σ :=
  match scope with
  | .allowlist field values => (evaluateAllowlist field values params, store)
  | .numericLimit field max _ => (evaluateNumericLimit field max params, store)
  | .temporalScope notBefore notAfter recurringWindow =>
      (evaluateTemporalScope evaluator.intl notBefore notAfter recurringWindow now, store)
  | .cumulativeLimit meterField max window _ =>
      evaluateCumulativeLimit evaluator.tracker meterField max window params now store

/-- Every scope in turn, up to the first that denies. -/
def evaluateAll : List Scope → Params → Int → σ → Except ScopeDenial Unit × σ
  | [], _, _, store => (.ok (), store)
  | scope :: scopes, params, now, store =>
      match evaluate evaluator scope params now store with
      | (.error denial, store') => (.error denial, store')
      | (.ok (), store') => evaluateAll scopes params now store'

end Tracker

end Coivitas.Policy
