import Mathlib.Data.Nat.Find
import Coivitas.Foundation.Calendar

/-! # Writing instants

The ISO 8601 text of an instant. The calendar repeats after 400 years, so a day
is written from its cycle and its place in the cycle; years outside `0..9999`
are written with a sign and six digits.
-/

namespace Foundation

namespace Calendar

/-- The last decimal digits of a number, as many as the width. -/
def lastDigits : Nat → Nat → List Char
  | 0, _ => []
  | width + 1, n => lastDigits width (n / 10) ++ [Char.ofNat (48 + n % 10)]

/-- The year of a day of a cycle. -/
def yearOfCycle (day : Nat) : Nat :=
  Nat.findGreatest (fun year => daysBeforeYear year ≤ day) (day / 365)

def monthOfYear (year day : Nat) : Nat :=
  Nat.findGreatest (fun month => monthStart year month ≤ day) 12

def yearText (year : Int) : List Char :=
  if 0 ≤ year ∧ year ≤ 9999 then lastDigits 4 year.toNat
  else (if year < 0 then '-' else '+') :: lastDigits 6 year.natAbs

/-- `new Date(ms).toISOString()`; `none` outside the range of dates. -/
def toISOString (ms : Int) : Option String :=
  if ms.natAbs ≤ 8640000000000000 then
    let days := ms / 86400000 + epochDay
    let time := (ms % 86400000).toNat
    let dayOfCycle := (days % 146097).toNat
    let year := yearOfCycle dayOfCycle
    let month := monthOfYear year dayOfCycle
    some (String.ofList (yearText (days / 146097 * 400 + year) ++
      '-' :: lastDigits 2 month ++ '-' :: lastDigits 2 (dayOfCycle - monthStart year month + 1) ++
      'T' :: lastDigits 2 (time / 3600000) ++ ':' :: lastDigits 2 (time / 60000 % 60) ++
      ':' :: lastDigits 2 (time / 1000 % 60) ++ '.' :: lastDigits 3 (time % 1000) ++ ['Z']))
  else none

example : toISOString 951782400000 = some "2000-02-29T00:00:00.000Z" := by decide +kernel

example : toISOString 253402300800000 = some "+010000-01-01T00:00:00.000Z" := by decide +kernel

/-! ## Reading the fields back -/

theorem length_lastDigits (width n : Nat) : (lastDigits width n).length = width := by
  induction width generalizing n with
  | zero => rfl
  | succ width ih => rw [lastDigits, List.length_append, ih, List.length_singleton]

/-- Numbers within the width are told apart by their digits. -/
theorem lastDigits_inj {width m n : Nat} (hm : m < 10 ^ width) (hn : n < 10 ^ width)
    (h : lastDigits width m = lastDigits width n) : m = n := by
  induction width generalizing m n with
  | zero =>
      simp only [pow_zero] at hm hn
      omega
  | succ width ih =>
      have hdigit : ∀ a < 10, ∀ b < 10, Char.ofNat (48 + a) = Char.ofNat (48 + b) → a = b := by
        decide
      obtain ⟨hlead, hlast⟩ := List.append_inj h (by rw [length_lastDigits, length_lastDigits])
      rw [pow_succ] at hm hn
      have hdiv := ih (Nat.div_lt_of_lt_mul (by omega)) (Nat.div_lt_of_lt_mul (by omega)) hlead
      have hmod := hdigit _ (Nat.mod_lt m (by decide)) _ (Nat.mod_lt n (by decide))
        (List.singleton_inj.mp hlast)
      omega

theorem yearText_inj {m n : Int} (hm : m.natAbs < 1000000) (hn : n.natAbs < 1000000)
    (h : yearText m = yearText n) : m = n := by
  have hlength : ∀ year : Int,
      (yearText year).length = if 0 ≤ year ∧ year ≤ 9999 then 4 else 7 := by
    intro year
    unfold yearText
    split
    · exact length_lastDigits _ _
    · rw [List.length_cons, length_lastDigits]
  have hsame := congrArg List.length h
  rw [hlength, hlength] at hsame
  unfold yearText at h
  by_cases hmr : 0 ≤ m ∧ m ≤ 9999
  · have hnr : 0 ≤ n ∧ n ≤ 9999 := by
      by_contra hnr
      rw [if_pos hmr, if_neg hnr] at hsame
      exact absurd hsame (by decide)
    rw [if_pos hmr, if_pos hnr] at h
    have := lastDigits_inj (by omega) (by omega) h
    omega
  · have hnr : ¬ (0 ≤ n ∧ n ≤ 9999) := by
      intro hnr
      rw [if_neg hmr, if_pos hnr] at hsame
      exact absurd hsame (by decide)
    rw [if_neg hmr, if_neg hnr] at h
    obtain ⟨hsign, hdigits⟩ := List.cons.inj h
    have habs := lastDigits_inj (by omega) (by omega) hdigits
    by_cases hm0 : m < 0 <;> by_cases hn0 : n < 0 <;> simp [hm0, hn0] at hsign <;> omega

/-- The year of a day of a cycle starts no later, and the next one later. -/
theorem yearOfCycle_spec (day : Nat) :
    daysBeforeYear (yearOfCycle day) ≤ day ∧ day < daysBeforeYear (yearOfCycle day + 1) := by
  have hspec : daysBeforeYear (yearOfCycle day) ≤ day :=
    Nat.findGreatest_spec (P := fun year => daysBeforeYear year ≤ day) (Nat.zero_le _)
      (by simp [daysBeforeYear])
  refine ⟨hspec, ?_⟩
  by_cases hbound : yearOfCycle day + 1 ≤ day / 365
  · exact not_le.mp (Nat.findGreatest_is_greatest (P := fun year => daysBeforeYear year ≤ day)
      (Nat.lt_succ_self (yearOfCycle day)) hbound)
  · have hlow : 365 * (yearOfCycle day + 1) ≤ daysBeforeYear (yearOfCycle day + 1) := by
      unfold daysBeforeYear
      omega
    omega

theorem yearOfCycle_lt {day : Nat} (hday : day < 146097) : yearOfCycle day < 400 := by
  by_contra hge
  have hspec := (yearOfCycle_spec day).1
  unfold daysBeforeYear at hspec
  omega

/-- The month of a day starts no later and has fewer days than two digits hold. -/
theorem monthOfYear_spec {year day : Nat} (hstart : daysBeforeYear year ≤ day)
    (hend : day < daysBeforeYear (year + 1)) :
    monthStart year (monthOfYear year day) ≤ day ∧ monthOfYear year day ≤ 12 ∧
      day - monthStart year (monthOfYear year day) < 31 := by
  have hjanuary : monthStart year 1 ≤ day := by simpa [monthStart, daysBeforeMonth] using hstart
  have hspec : monthStart year (monthOfYear year day) ≤ day :=
    Nat.findGreatest_spec (P := fun month => monthStart year month ≤ day) (by decide) hjanuary
  have hfirst : 1 ≤ monthOfYear year day := Nat.le_findGreatest (by decide) hjanuary
  have hlast : monthOfYear year day ≤ 12 := Nat.findGreatest_le _
  have hdays : ∀ month, month ≤ 12 → daysInMonth year month ≤ 31 := by
    intro month hmonth
    have htable : ∀ month < 13,
        [0, 31, 28, 31, 30, 31, 30, 31, 31, 30, 31, 30, 31].getD month 0 ≤ 31 := by
      decide
    unfold daysInMonth
    split
    · split <;> decide
    · exact htable month (by omega)
  refine ⟨hspec, hlast, ?_⟩
  by_cases hdecember : monthOfYear year day = 12
  · have hnext := monthStart_december year
    have hyear : monthStart (year + 1) 1 = daysBeforeYear (year + 1) := by
      simp [monthStart, daysBeforeMonth]
    have := hdays 12 (le_refl 12)
    rw [hdecember]
    rw [hdecember] at hspec
    omega
  · have hlt : monthOfYear year day < 12 := by omega
    have hnext := @monthStart_succ year _ hfirst hlt
    have hgreatest : ¬ monthStart year (monthOfYear year day + 1) ≤ day :=
      Nat.findGreatest_is_greatest (P := fun month => monthStart year month ≤ day)
        (Nat.lt_succ_self (monthOfYear year day)) hlt
    have := hdays _ hlast
    omega

/-- The fields of a date text are told by it. -/
theorem isoFields_inj {year year' : Int} {month month' day day' hour hour' minute minute' second
    second' milli milli' : Nat} (hyear : year.natAbs < 1000000) (hyear' : year'.natAbs < 1000000)
    (hmonth : month < 100) (hmonth' : month' < 100) (hday : day < 100) (hday' : day' < 100)
    (hhour : hour < 100) (hhour' : hour' < 100) (hminute : minute < 100) (hminute' : minute' < 100)
    (hsecond : second < 100) (hsecond' : second' < 100) (hmilli : milli < 1000)
    (hmilli' : milli' < 1000)
    (h : yearText year ++ '-' :: lastDigits 2 month ++ '-' :: lastDigits 2 day ++
        'T' :: lastDigits 2 hour ++ ':' :: lastDigits 2 minute ++ ':' :: lastDigits 2 second ++
        '.' :: lastDigits 3 milli ++ ['Z'] =
      yearText year' ++ '-' :: lastDigits 2 month' ++ '-' :: lastDigits 2 day' ++
        'T' :: lastDigits 2 hour' ++ ':' :: lastDigits 2 minute' ++ ':' :: lastDigits 2 second' ++
        '.' :: lastDigits 3 milli' ++ ['Z']) :
    year = year' ∧ month = month' ∧ day = day' ∧ hour = hour' ∧ minute = minute' ∧
      second = second' ∧ milli = milli' := by
  have hpeel : ∀ {left left' : List Char} {c : Char} {width m n : Nat},
      left ++ c :: lastDigits width m = left' ++ c :: lastDigits width n →
        left = left' ∧ lastDigits width m = lastDigits width n := by
    intro left left' c width m n heq
    obtain ⟨hleft, hright⟩ := List.append_inj' heq (by simp [length_lastDigits])
    exact ⟨hleft, (List.cons.inj hright).2⟩
  obtain ⟨hall, -⟩ := List.append_inj' h rfl
  obtain ⟨hrest₁, heq₁⟩ := hpeel hall
  obtain ⟨hrest₂, heq₂⟩ := hpeel hrest₁
  obtain ⟨hrest₃, heq₃⟩ := hpeel hrest₂
  obtain ⟨hrest₄, heq₄⟩ := hpeel hrest₃
  obtain ⟨hrest₅, heq₅⟩ := hpeel hrest₄
  obtain ⟨hrest₆, heq₆⟩ := hpeel hrest₅
  exact ⟨yearText_inj hyear hyear' hrest₆, lastDigits_inj hmonth hmonth' heq₆,
    lastDigits_inj hday hday' heq₅, lastDigits_inj hhour hhour' heq₄,
    lastDigits_inj hminute hminute' heq₃, lastDigits_inj hsecond hsecond' heq₂,
    lastDigits_inj hmilli hmilli' heq₁⟩

/-- What the fields of a day of a cycle are bounded by. -/
theorem dayOfCycle_bounds {day : Nat} (hday : day < 146097) :
    yearOfCycle day < 400 ∧ monthOfYear (yearOfCycle day) day ≤ 12 ∧
      monthStart (yearOfCycle day) (monthOfYear (yearOfCycle day) day) ≤ day ∧
      day - monthStart (yearOfCycle day) (monthOfYear (yearOfCycle day) day) < 31 := by
  obtain ⟨hstart, hend⟩ := yearOfCycle_spec day
  obtain ⟨hmonthStart, hmonth, hlength⟩ := monthOfYear_spec hstart hend
  exact ⟨yearOfCycle_lt hday, hmonth, hmonthStart, hlength⟩

/-- An instant is told by its text. -/
theorem toISOString_injective {ms ms' : Int} {text : String} (h : toISOString ms = some text)
    (h' : toISOString ms' = some text) : ms = ms' := by
  simp only [toISOString, Option.ite_none_right_eq_some, Option.some.injEq] at h h'
  obtain ⟨hms, rfl⟩ := h
  obtain ⟨hms', htext⟩ := h'
  have htext := String.ofList_injective htext
  have hdays : 0 ≤ (ms / 86400000 + epochDay) % 146097 ∧
      (ms / 86400000 + epochDay) % 146097 < 146097 := by omega
  have hdays' : 0 ≤ (ms' / 86400000 + epochDay) % 146097 ∧
      (ms' / 86400000 + epochDay) % 146097 < 146097 := by omega
  obtain ⟨hyear, hmonth, hstart, hday⟩ :=
    @dayOfCycle_bounds ((ms / 86400000 + epochDay) % 146097).toNat (by omega)
  obtain ⟨hyear', hmonth', hstart', hday'⟩ :=
    @dayOfCycle_bounds ((ms' / 86400000 + epochDay) % 146097).toNat (by omega)
  have hepoch : (epochDay : Int) = 719528 := rfl
  obtain ⟨hy, hmo, hd, hh, hmi, hs, hf⟩ := isoFields_inj (by omega) (by omega) (by omega)
    (by omega) (by omega) (by omega) (by omega) (by omega) (by omega) (by omega) (by omega)
    (by omega) (by omega) (by omega) htext
  have hyears : yearOfCycle ((ms / 86400000 + epochDay) % 146097).toNat =
      yearOfCycle ((ms' / 86400000 + epochDay) % 146097).toNat := by omega
  rw [hmo, ← hyears] at hd hstart'
  omega

end Calendar

end Foundation
