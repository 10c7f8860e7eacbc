import Coivitas.Foundation.Text

/-! # Calendar instants in ISO 8601 text

The texts `YYYY-MM-DDTHH:mm:ss.sssZ`, the instant each denotes, and the fact
that for calendar dates the order of the texts is compatible with the order of
the instants.
-/

namespace Foundation

namespace Calendar

/-! ## Days -/

def isLeap (year : Nat) : Bool := year % 4 == 0 && (year % 100 != 0 || year % 400 == 0)

/-- Days of the years before `year`, from year 0 of the proleptic Gregorian calendar. -/
def daysBeforeYear (year : Nat) : Nat :=
  365 * year + (year + 3) / 4 + (year + 399) / 400 - (year + 99) / 100

/-- Days of the months before `month` (1 to 12) in a common year. -/
def daysBeforeMonth (month : Nat) : Nat :=
  [0, 0, 31, 59, 90, 120, 151, 181, 212, 243, 273, 304, 334].getD month 0

def daysInMonth (year month : Nat) : Nat :=
  if month = 2 then (if isLeap year then 29 else 28)
  else [0, 31, 28, 31, 30, 31, 30, 31, 31, 30, 31, 30, 31].getD month 0

/-- Days before the first of the month. -/
def monthStart (year month : Nat) : Nat :=
  daysBeforeYear year + daysBeforeMonth month + if 2 < month ∧ isLeap year = true then 1 else 0

theorem ceil_succ (year k : Nat) :
    (year + 1 + k) / (k + 1) = (year + k) / (k + 1) + if year % (k + 1) = 0 then 1 else 0 := by
  have hstep : (year + k + 1) / (k + 1) = _ := Nat.succ_div
  simp only [Nat.add_assoc year k 1, Nat.dvd_iff_mod_eq_zero, Nat.add_mod_right] at hstep
  rw [← hstep, Nat.add_assoc, Nat.add_comm 1 k]

theorem daysBeforeYear_succ (year : Nat) :
    daysBeforeYear (year + 1) = daysBeforeYear year + 365 + if isLeap year then 1 else 0 := by
  have hbound : (year + 99) / 100 ≤ 365 * year := by omega
  have h400 : year % 400 = 0 → year % 100 = 0 := by omega
  have h100 : year % 100 = 0 → year % 4 = 0 := by omega
  simp only [daysBeforeYear, isLeap, ceil_succ year 3, ceil_succ year 99, ceil_succ year 399,
    Bool.and_eq_true, Bool.or_eq_true, beq_iff_eq, bne_iff_ne, ne_eq]
  generalize (year + 99) / 100 = c, (year + 3) / 4 = d, (year + 399) / 400 = e at hbound ⊢
  by_cases ha : year % 4 = 0
  · by_cases hb : year % 100 = 0
    · by_cases hc : year % 400 = 0 <;> simp only [ha, hb, hc] <;> simp <;> omega
    · have hc : ¬ year % 400 = 0 := fun hc ↦ hb (h400 hc)
      simp only [ha, hb, hc]
      simp
      omega
  · have hb : ¬ year % 100 = 0 := fun hb ↦ ha (h100 hb)
    have hc : ¬ year % 400 = 0 := fun hc ↦ hb (h400 hc)
    simp only [ha, hb, hc]
    simp
    omega

theorem monthStart_succ {year month : Nat} (hfirst : 1 ≤ month) (hlast : month < 12) :
    monthStart year (month + 1) = monthStart year month + daysInMonth year month := by
  have hcases : month = 1 ∨ month = 2 ∨ month = 3 ∨ month = 4 ∨ month = 5 ∨ month = 6 ∨
      month = 7 ∨ month = 8 ∨ month = 9 ∨ month = 10 ∨ month = 11 := by omega
  rcases hcases with rfl | rfl | rfl | rfl | rfl | rfl | rfl | rfl | rfl | rfl | rfl <;>
    cases hleap : isLeap year <;>
      simp [monthStart, daysInMonth, daysBeforeMonth, hleap, Nat.add_assoc]

theorem monthStart_december (year : Nat) :
    monthStart (year + 1) 1 = monthStart year 12 + daysInMonth year 12 := by
  have hyear := daysBeforeYear_succ year
  cases hleap : isLeap year <;>
    simp [monthStart, daysInMonth, daysBeforeMonth, hleap] at hyear ⊢ <;> omega

/-- Months numbered from January of year 0. -/
def monthStartAt (k : Nat) : Nat := monthStart (k / 12) (k % 12 + 1)

theorem monthStartAt_succ (k : Nat) :
    monthStartAt (k + 1) = monthStartAt k + daysInMonth (k / 12) (k % 12 + 1) := by
  unfold monthStartAt
  by_cases hdecember : k % 12 = 11
  · have hyear : (k + 1) / 12 = k / 12 + 1 := by omega
    have hmonth : (k + 1) % 12 = 0 := by omega
    rw [hyear, hmonth, hdecember]
    exact monthStart_december (k / 12)
  · have hyear : (k + 1) / 12 = k / 12 := by omega
    have hmonth : (k + 1) % 12 = k % 12 + 1 := by omega
    rw [hyear, hmonth]
    exact monthStart_succ (by omega) (by omega)

theorem monthStartAt_mono {j k : Nat} (hjk : j ≤ k) : monthStartAt j ≤ monthStartAt k := by
  induction k, hjk using Nat.le_induction with
  | base => exact Nat.le_refl _
  | succ k _ ih =>
      rw [monthStartAt_succ]
      omega

/-- The whole of an earlier month lies before a later one. -/
theorem monthStartAt_add_le {j k : Nat} (hjk : j < k) :
    monthStartAt j + daysInMonth (j / 12) (j % 12 + 1) ≤ monthStartAt k := by
  rw [← monthStartAt_succ]
  exact monthStartAt_mono hjk

/-! ## Timestamps -/

/-- The format `YYYY-MM-DDTHH:mm:ss.sssZ`. -/
def isoTemplate : Template :=
  [none, none, none, none, some '-', none, none, some '-', none, none, some 'T', none, none,
    some ':', none, none, some ':', none, none, some '.', none, none, none, some 'Z']

def isIsoText (s : String) : Bool := isoTemplate.accepts s.toList

/-- The seventeen digits of a timestamp, as one number. -/
def stamp (s : String) : Nat := isoTemplate.value s.toList

def year (n : Nat) : Nat := n / 10 ^ 13
def month (n : Nat) : Nat := n / 10 ^ 11 % 100
def day (n : Nat) : Nat := n / 10 ^ 9 % 100
def hour (n : Nat) : Nat := n / 10 ^ 7 % 100
def minute (n : Nat) : Nat := n / 10 ^ 5 % 100
def second (n : Nat) : Nat := n / 10 ^ 3 % 100
def millisecond (n : Nat) : Nat := n % 10 ^ 3

/-- The fields are the digits of the stamp: splitting off two digits at a time
loses nothing. -/
theorem stamp_eq_fields (n : Nat) :
    n = year n * 10000000000000 + month n * 100000000000 + day n * 1000000000 +
      hour n * 10000000 + minute n * 100000 + second n * 1000 + millisecond n := by
  have hsplit : ∀ k : Nat, n / (k * 100) = n / k / 100 :=
    fun k ↦ (Nat.div_div_eq_div_mul n k 100).symm
  have h5 := hsplit (10 ^ 3)
  have h7 := hsplit (10 ^ 5)
  have h9 := hsplit (10 ^ 7)
  have h11 := hsplit (10 ^ 9)
  have h13 := hsplit (10 ^ 11)
  norm_num at h5 h7 h9 h11 h13
  norm_num [year, month, day, hour, minute, second, millisecond]
  omega

theorem millisecond_lt (n : Nat) : millisecond n < 1000 := Nat.mod_lt _ (by decide)

-- The fields are atoms of the arithmetic below; unfolding them again only costs time.
attribute [irreducible] year month day hour minute second millisecond

/-- The field ranges a date parser accepts. A day up to 31 is accepted in any
month and carries over; hour 24 is accepted for the end of a day. -/
def InRange (n : Nat) : Prop :=
  1 ≤ month n ∧ month n ≤ 12 ∧ 1 ≤ day n ∧ day n ≤ 31 ∧
    (hour n ≤ 23 ∧ minute n ≤ 59 ∧ second n ≤ 59 ∨
      hour n = 24 ∧ minute n = 0 ∧ second n = 0 ∧ millisecond n = 0)

instance (n : Nat) : Decidable (InRange n) := by unfold InRange; infer_instance

def timeOfDay (n : Nat) : Nat :=
  ((hour n * 60 + minute n) * 60 + second n) * 1000 + millisecond n

def dayNumber (n : Nat) : Nat := monthStart (year n) (month n) + (day n - 1)

/-- Milliseconds from the start of year 0. -/
def milliseconds (n : Nat) : Nat := dayNumber n * 86400000 + timeOfDay n

/-- Days from the start of year 0 to the epoch. -/
def epochDay : Nat := 719528

/-- Milliseconds since the epoch; `none` when the text denotes no instant. -/
def getTime (s : String) : Option Int :=
  if isIsoText s = true ∧ InRange (stamp s) then
    some ((milliseconds (stamp s) : Int) - (epochDay * 86400000 : Nat))
  else none

/-- The text denotes an instant of the calendar: no day carries over. -/
def IsInstant (s : String) : Prop :=
  isIsoText s = true ∧ InRange (stamp s) ∧
    day (stamp s) ≤ daysInMonth (year (stamp s)) (month (stamp s))

instance (s : String) : Decidable (IsInstant s) := by unfold IsInstant; infer_instance

theorem isoTemplate_ascii : isoTemplate.Ascii := by
  simp [Template.Ascii, isoTemplate]

theorem timeOfDay_le {n : Nat} (hrange : InRange n) : timeOfDay n ≤ 86400000 := by
  obtain ⟨-, -, -, -, h | h⟩ := hrange
  · have hms := millisecond_lt n
    unfold timeOfDay
    omega
  · unfold timeOfDay
    omega

theorem monthIndex_div {n : Nat} (hrange : InRange n) :
    (12 * year n + (month n - 1)) / 12 = year n ∧
      (12 * year n + (month n - 1)) % 12 + 1 = month n := by
  obtain ⟨hlow, hhigh, -⟩ := hrange
  omega

theorem dayNumber_eq {n : Nat} (hrange : InRange n) :
    dayNumber n = monthStartAt (12 * year n + (month n - 1)) + (day n - 1) := by
  obtain ⟨hdiv, hmod⟩ := monthIndex_div hrange
  rw [dayNumber, monthStartAt, hdiv, hmod]

/-- Comparison of numbers by their leading digits. -/
theorem lead_le {k a b x y : Nat} (hy : y < k) (hle : a * k + x ≤ b * k + y) :
    a < b ∨ a = b ∧ x ≤ y := by
  rcases Nat.lt_trichotomy a b with hlt | heq | hgt
  · exact .inl hlt
  · subst heq
    exact .inr ⟨rfl, by omega⟩
  · have hstep : (b + 1) * k ≤ a * k := Nat.mul_le_mul_right k hgt
    rw [Nat.succ_mul] at hstep
    omega

/-- The digits after the day. -/
def clock (n : Nat) : Nat :=
  hour n * 10000000 + (minute n * 100000 + (second n * 1000 + millisecond n))

theorem minute_second_le {n : Nat} (hrange : InRange n) :
    hour n ≤ 24 ∧ minute n ≤ 59 ∧ second n ≤ 59 := by
  obtain ⟨-, -, -, -, h | h⟩ := hrange <;> omega

theorem timeOfDay_mono {m n : Nat} (hm : InRange m) (hn : InRange n) (hle : clock m ≤ clock n) :
    timeOfDay m ≤ timeOfDay n := by
  have hmsm := millisecond_lt m
  have hmsn := millisecond_lt n
  obtain ⟨-, hminm, hsecm⟩ := minute_second_le hm
  obtain ⟨-, hminn, hsecn⟩ := minute_second_le hn
  unfold timeOfDay
  rcases lead_le (by linarith) hle with hhour | ⟨hhour, hle⟩
  · linarith
  rcases lead_le (by linarith) hle with hminute | ⟨hminute, hle⟩
  · linarith
  rcases lead_le (by linarith) hle with hsecond | ⟨hsecond, hle⟩
  · linarith
  · linarith

theorem clock_lt {n : Nat} (hrange : InRange n) : clock n < 1000000000 := by
  have hms := millisecond_lt n
  obtain ⟨hhour, hminute, hsecond⟩ := minute_second_le hrange
  unfold clock
  linarith

/-- A stamp no larger has an earlier month, an earlier day of one month, or an
earlier time of one day. -/
theorem fields_le {m n : Nat} (hn : InRange n) (hle : m ≤ n) :
    year m < year n ∨ year m = year n ∧ (month m < month n ∨ month m = month n ∧
      (day m < day n ∨ day m = day n ∧ clock m ≤ clock n)) := by
  have hclock := clock_lt hn
  obtain ⟨-, hmonth, -, hday, -⟩ := hn
  have hfields : ∀ n, n = year n * 10000000000000 + (month n * 100000000000 +
      (day n * 1000000000 + clock n)) := by
    intro n
    have h := stamp_eq_fields n
    unfold clock
    linarith
  rw [hfields m, hfields n] at hle
  rcases lead_le (by linarith) hle with hyear | ⟨hyear, hle⟩
  · exact .inl hyear
  rcases lead_le (by linarith) hle with hmonth | ⟨hmonth, hle⟩
  · exact .inr ⟨hyear, .inl hmonth⟩
  exact .inr ⟨hyear, .inr ⟨hmonth, lead_le hclock hle⟩⟩

/-- A smaller stamp of a calendar date denotes no later instant. -/
theorem milliseconds_mono {m n : Nat} (hm : InRange m) (hn : InRange n)
    (hday : day m ≤ daysInMonth (year m) (month m)) (hle : m ≤ n) :
    milliseconds m ≤ milliseconds n := by
  have htm := timeOfDay_le hm
  have hdm := dayNumber_eq hm
  have hdn := dayNumber_eq hn
  obtain ⟨hdiv, hmod⟩ := monthIndex_div hm
  obtain ⟨hm1, hm12, hm1d, -⟩ := id hm
  obtain ⟨hn1, hn12, hn1d, -⟩ := id hn
  have hfields := fields_le hn hle
  unfold milliseconds
  by_cases hmonth : 12 * year m + (month m - 1) < 12 * year n + (month n - 1)
  · have hstart := monthStartAt_add_le hmonth
    rw [hdiv, hmod] at hstart
    have hlt : dayNumber m + 1 ≤ dayNumber n := by omega
    omega
  · have hsame : 12 * year m + (month m - 1) = 12 * year n + (month n - 1) := by omega
    rw [hsame] at hdm
    have hdays : day m < day n ∨ day m = day n ∧ clock m ≤ clock n := by omega
    rcases hdays with hlt | ⟨heq, hclock⟩
    · have hnext : dayNumber m + 1 ≤ dayNumber n := by omega
      omega
    · have htime := timeOfDay_mono hm hn hclock
      omega

theorem getTime_of_isInstant {s : String} (hs : IsInstant s) :
    getTime s = some ((milliseconds (stamp s) : Int) - (epochDay * 86400000 : Nat)) :=
  if_pos ⟨hs.1, hs.2.1⟩

/-- On calendar instants the string order implies the order in time. -/
theorem getTime_le_of_textLe {a b : String} (ha : IsInstant a) (hb : IsInstant b)
    (hle : TextLe a b) : ∃ s t : Int, getTime a = some s ∧ getTime b = some t ∧ s ≤ t := by
  refine ⟨_, _, getTime_of_isInstant ha, getTime_of_isInstant hb, ?_⟩
  have hstamp := (textLe_iff_value_le isoTemplate isoTemplate_ascii a b ha.1 hb.1).mp hle
  have hmono := milliseconds_mono ha.2.1 hb.2.1 ha.2.2 hstamp
  omega

end Calendar

end Foundation
