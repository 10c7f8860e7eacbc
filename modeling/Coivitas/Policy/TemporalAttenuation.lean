import Coivitas.Identity.AttenuationOrder
import Coivitas.Policy.ScopeEvaluator
import Mathlib.Tactic.IntervalCases
import Mathlib.Tactic.Ring

/-! # Temporal attenuation against the evaluator

The issuer compares the minutes and the weekdays of two windows separately. The
evaluator gives the minutes after midnight of a crossing window to the previous
day. The two agree on every pair of windows but one: a child that lies wholly
after midnight in a crossing parent keeps its own day, so it can open on a day
whose eve the parent leaves closed.
-/

namespace Coivitas.Policy

open Foundation Coivitas.Types Identity

/-! ## Times of day -/

def hhmmTemplate : Template := [none, none, some ':', none, none]

theorem hhmmTemplate_ascii : hhmmTemplate.Ascii := by
  simp [Template.Ascii, hhmmTemplate]

/-- The minute of the day of an `HH:MM` text. -/
def minuteOfDay (t : String) : Nat :=
  hhmmTemplate.value t.toList / 100 * 60 + hhmmTemplate.value t.toList % 100

/-- What the `HH:MM` pattern says of the digits. -/
structure HHMM (t : String) : Prop where
  accepts : hhmmTemplate.accepts t.toList = true
  hours_le : hhmmTemplate.value t.toList / 100 ≤ 23
  minutes_le : hhmmTemplate.value t.toList % 100 ≤ 59
  parse : parseHHMM t = some (minuteOfDay t)

theorem digit_ne_colon {c : Char} (h : c.isDigit = true) : (c == ':') = false := by
  rw [beq_eq_false_iff_ne]
  rintro rfl
  revert h
  decide

theorem splitOn_hhmm {a b m m' : Char} (ha : a.isDigit = true) (hb : b.isDigit = true)
    (hm : m.isDigit = true) (hm' : m'.isDigit = true) :
    [a, b, ':', m, m'].splitOn ':' = [[a, b], [m, m']] := by
  simp [List.splitOn, List.splitOnP_cons_eq_if_splitOnPPrepend, List.splitOnPPrepend_cons_eq_if,
    digit_ne_colon ha, digit_ne_colon hb, digit_ne_colon hm, digit_ne_colon hm']

theorem toNumber_pair {a b : Char} (ha : a.isDigit = true) (hb : b.isDigit = true) :
    toNumber [a, b] = some ((a.toNat - 48) * 10 + (b.toNat - 48)) := by
  simp [toNumber, ha, hb]

/-- The hour part of the pattern. -/
theorem hour_bounds {a b : Char} (h : (a = '0' ∨ a = '1') ∧ b.isDigit = true ∨
    a = '2' ∧ (((b = '0' ∨ b = '1') ∨ b = '2') ∨ b = '3')) :
    a.isDigit = true ∧ b.isDigit = true ∧ (a.toNat - 48) * 10 + (b.toNat - 48) ≤ 23 := by
  rcases h with ⟨rfl | rfl, hb⟩ | ⟨rfl, ((rfl | rfl) | rfl) | rfl⟩
  · have hb9 := Template.isDigit_bounds hb
    have h0 : ('0' : Char).toNat = 48 := rfl
    exact ⟨rfl, hb, by omega⟩
  · have hb9 := Template.isDigit_bounds hb
    have h1 : ('1' : Char).toNat = 49 := rfl
    exact ⟨rfl, hb, by omega⟩
  all_goals decide

theorem hhmm_of_isHHMM {t : String} (h : isHHMM t = true) : HHMM t := by
  unfold isHHMM at h
  split at h
  next a b colon m m' htext =>
    simp only [Bool.and_eq_true, Bool.or_eq_true, beq_iff_eq, decide_eq_true_eq] at h
    obtain ⟨⟨⟨hhour, rfl⟩, hm, hm53⟩, hm'⟩ := h
    obtain ⟨ha, hb, hle⟩ := hour_bounds hhour
    have hmb := Template.isDigit_bounds hm
    have hm'b := Template.isDigit_bounds hm'
    have hvalue : hhmmTemplate.value t.toList = ((a.toNat - 48) * 10 + (b.toNat - 48)) * 100 +
        ((m.toNat - 48) * 10 + (m'.toNat - 48)) := by
      rw [htext]
      change (a.toNat - 48) * 1000 + ((b.toNat - 48) * 100 + ((m.toNat - 48) * 10 +
        ((m'.toNat - 48) * 1 + 0))) = _
      ring
    have hdiv : hhmmTemplate.value t.toList / 100 = (a.toNat - 48) * 10 + (b.toNat - 48) := by
      omega
    have hmod : hhmmTemplate.value t.toList % 100 = (m.toNat - 48) * 10 + (m'.toNat - 48) := by
      omega
    refine ⟨?_, by omega, by omega, ?_⟩
    · simp [htext, hhmmTemplate, Template.accepts, ha, hb, hm, hm']
    · simp only [parseHHMM, minuteOfDay, htext ▸ hdiv, htext ▸ hmod, htext,
        splitOn_hhmm ha hb hm hm', toNumber_pair ha hb, toNumber_pair hm hm']
      rfl
  next => cases h

theorem HHMM.minuteOfDay_lt {t : String} (h : HHMM t) : minuteOfDay t < 1440 := by
  have hhours := h.hours_le
  have hminutes := h.minutes_le
  unfold minuteOfDay
  omega

/-- Texts of the format are ordered as their minutes are. -/
theorem HHMM.textLe_iff {s t : String} (hs : HHMM s) (ht : HHMM t) :
    TextLe s t ↔ minuteOfDay s ≤ minuteOfDay t := by
  have hsm := hs.minutes_le
  have htm := ht.minutes_le
  rw [textLe_iff_value_le hhmmTemplate hhmmTemplate_ascii s t hs.accepts ht.accepts]
  unfold minuteOfDay
  omega

theorem HHMM.textLt_iff {s t : String} (hs : HHMM s) (ht : HHMM t) :
    TextLt s t ↔ minuteOfDay s < minuteOfDay t := by
  rw [textLt_iff_not_le, ht.textLe_iff hs, not_le]

/-! ## Windows as sets of minutes -/

/-- The minutes of a window; past midnight when the start is later. -/
def MinuteIn (start stop m : Nat) : Prop :=
  if start ≤ stop then start ≤ m ∧ m < stop else start ≤ m ∨ m < stop

theorem mem_expandToMinuteSet {start stop m : Nat} (hm : m < 1440) :
    m ∈ expandToMinuteSet (some start) (some stop) ↔ MinuteIn start stop m := by
  simp only [expandToMinuteSet, MinuteIn]
  split
  next =>
    rw [List.mem_range'_1]
    omega
  next =>
    rw [List.mem_append, List.mem_range'_1, List.mem_range]
    omega

theorem inWindow_iff {t : String} {rw : RecurringWindow} (ht : HHMM t) (hstart : HHMM rw.startTime)
    (hstop : HHMM rw.endTime) :
    inWindow t rw ↔
      MinuteIn (minuteOfDay rw.startTime) (minuteOfDay rw.endTime) (minuteOfDay t) := by
  unfold inWindow MinuteIn
  simp only [hstop.textLt_iff hstart, hstart.textLe_iff ht, ht.textLt_iff hstop]
  split <;> split <;> omega

theorem minuteIn_of_crossing {start stop m : Nat} (h : stop < start) :
    MinuteIn start stop m ↔ start ≤ m ∨ m < stop := by
  rw [MinuteIn, if_neg (by omega)]

theorem minuteIn_of_le {start stop m : Nat} (h : start ≤ stop) :
    MinuteIn start stop m ↔ start ≤ m ∧ m < stop := by
  rw [MinuteIn, if_pos h]

/-- A window does not hold the minute it ends at. -/
theorem not_minuteIn_stop (start stop : Nat) : ¬ MinuteIn start stop stop := by
  rcases le_or_gt start stop with hle | hlt
  · rw [minuteIn_of_le hle]
    omega
  · rw [minuteIn_of_crossing hlt]
    omega

section Midnight

variable {cs ce ps pe m : Nat} (hpe : pe < 1440)
  (hsubset : ∀ m < 1440, MinuteIn cs ce m → MinuteIn ps pe m)

include hpe hsubset

/-- The child does not hold the minute the parent ends at. -/
theorem not_minuteIn_parentEnd : ¬ MinuteIn cs ce pe := fun h =>
  not_minuteIn_stop ps pe (hsubset pe hpe h)

/-- After midnight in the child is after midnight in the parent: the child holds
the last minute of the day, so the parent crosses too, and ends no earlier. -/
theorem afterMidnight_of_child (hcs : cs < 1440) (hcross : ce < cs) (hbefore : m < ce) :
    pe < ps ∧ m < pe := by
  have hlast : MinuteIn ps pe 1439 :=
    hsubset 1439 (by omega) ((minuteIn_of_crossing hcross).mpr (by omega))
  have hend := not_minuteIn_parentEnd hpe hsubset
  rw [minuteIn_of_crossing hcross] at hend
  rcases le_or_gt ps pe with hle | hlt
  · rw [minuteIn_of_le hle] at hlast
    omega
  · omega

/-- After midnight in the parent is after midnight in the child, unless the
child is a plain window inside the parent's morning. -/
theorem afterMidnight_of_parent (hin : MinuteIn cs ce m) (hbefore : m < pe) :
    (ce < cs ∧ m < ce) ∨ (cs < ce ∧ ce ≤ pe) := by
  have hend := not_minuteIn_parentEnd hpe hsubset
  rcases le_or_gt cs ce with hle | hlt
  · rw [minuteIn_of_le hle] at hin hend
    omega
  · rw [minuteIn_of_crossing hlt] at hin hend
    omega

end Midnight

/-! ## What the evaluator allows -/

/-- Local times are `HH:MM` texts of a day, weekdays their short English names. -/
def Intl.WellFormed (intl : Intl) : Prop :=
  ∀ name zone, intl name = some zone →
    ∀ now, isHHMM (zone.formatTime now) = true ∧ zone.formatDay now ∈ weekdayNames

theorem evaluateTemporalScope_eq_ok {intl : Intl} {notBefore notAfter : String}
    {recurringWindow : Option RecurringWindow} {now : Int} :
    evaluateTemporalScope intl notBefore notAfter recurringWindow now = .ok () ↔
      (∀ t ∈ Calendar.getTime notBefore, t ≤ now) ∧ (∀ t ∈ Calendar.getTime notAfter, now < t) ∧
        ∀ rw ∈ recurringWindow, evaluateRecurringWindow intl rw now = .ok () := by
  simp only [evaluateTemporalScope, bind_eq_ok, exists_unit, require_eq_ok, not_exists, not_and,
    not_lt, not_le]
  refine and_congr Iff.rfl (and_congr Iff.rfl ?_)
  cases recurringWindow <;> simp

/-- The checks on a window, for a zone with a local time and a weekday. -/
theorem evaluateRecurringWindow_eq_ok {intl : Intl} {rw : RecurringWindow} {now : Int} :
    evaluateRecurringWindow intl rw now = .ok () ↔
      isHHMM rw.startTime = true ∧ isHHMM rw.endTime = true ∧
        ∃ zone, intl rw.timezone = some zone ∧ zone.timeZone = rw.timezone ∧
          ∃ isoDay, weekdayToISO (zone.formatDay now) = .ok isoDay ∧
            inWindow (zone.formatTime now) rw ∧
            ∀ days ∈ rw.daysOfWeek, ((effectiveDay (TextLt rw.endTime rw.startTime)
              (TextLt (zone.formatTime now) rw.endTime) isoDay : Nat) : ℚ) ∈ days := by
  simp only [evaluateRecurringWindow, bind_eq_ok, exists_unit, require_eq_ok, and_assoc]
  refine and_congr Iff.rfl (and_congr Iff.rfl ?_)
  cases intl rw.timezone with
  | none => simp
  | some zone =>
      simp only [evaluateInZone, bind_eq_ok, exists_unit, require_eq_ok, Option.some.injEq,
        exists_eq_left']

theorem weekdayToISO_eq_ok {weekday : String} {isoDay : Nat} :
    weekdayToISO weekday = .ok isoDay ↔
      1 ≤ isoDay ∧ isoDay ≤ 7 ∧ weekdayNames[isoDay - 1]? = some weekday := by
  unfold weekdayToISO
  constructor
  · intro h
    split at h
    next index hindex =>
      obtain rfl := Except.ok.inj h
      obtain ⟨hlt, heq, -⟩ := List.findIdx?_eq_some_iff_getElem.mp hindex
      have hlength : index < 7 := hlt
      refine ⟨by omega, by omega, ?_⟩
      rw [Nat.add_sub_cancel, List.getElem?_eq_getElem hlt]
      simpa using heq
    next => cases h
  · rintro ⟨hlow, hhigh, hname⟩
    interval_cases isoDay <;> (obtain rfl := Option.some.inj hname; decide)

/-! ## Soundness -/

/-- The child is a plain window inside the morning of a crossing parent, and open
on a day whose eve the parent leaves closed. -/
def OpensAfterClosedEve (child parent : RecurringWindow) : Prop :=
  TextLt parent.endTime parent.startTime ∧ TextLt child.startTime child.endTime ∧
    TextLe child.endTime parent.endTime ∧
    ∃ childDays ∈ child.daysOfWeek, ∃ parentDays ∈ parent.daysOfWeek,
      ∃ day : Nat, 1 ≤ day ∧ day ≤ 7 ∧ (day : ℚ) ∈ childDays ∧
        ((previousDay day : Nat) : ℚ) ∉ parentDays

/-- Both bounds of a window are `HH:MM` texts. -/
def RecurringWindow.WellFormed (w : RecurringWindow) : Prop :=
  isHHMM w.startTime = true ∧ isHHMM w.endTime = true

theorem minuteIn_subset {child parent : RecurringWindow} (hchild : RecurringWindow.WellFormed child)
    (hparent : RecurringWindow.WellFormed parent) (hsubset : isWindowSubset child parent = .ok ()) :
    ∀ m < 1440, MinuteIn (minuteOfDay child.startTime) (minuteOfDay child.endTime) m →
      MinuteIn (minuteOfDay parent.startTime) (minuteOfDay parent.endTime) m := by
  obtain ⟨-, -, hrange⟩ := isWindowSubset_eq_ok.mp hsubset
  rw [(hhmm_of_isHHMM hchild.1).parse, (hhmm_of_isHHMM hchild.2).parse,
    (hhmm_of_isHHMM hparent.1).parse, (hhmm_of_isHHMM hparent.2).parse] at hrange
  intro m hm hin
  rw [← mem_expandToMinuteSet hm] at hin ⊢
  exact hrange m hin

/-- The day parent and child give to a minute of the child is the same, or the
child is in the parent's morning and the parent gives the previous day. -/
theorem evaluateRecurringWindow_sound {child parent : RecurringWindow}
    (hchild : RecurringWindow.WellFormed child) (hparent : RecurringWindow.WellFormed parent)
    (hsubset : isWindowSubset child parent = .ok ()) (heve : ¬ OpensAfterClosedEve child parent)
    {intl : Intl} (hintl : intl.WellFormed) {now : Int}
    (hallowed : evaluateRecurringWindow intl child now = .ok ()) :
    evaluateRecurringWindow intl parent now = .ok () := by
  obtain ⟨-, -, zone, hzone, hname, isoDay, hiso, hwindow, hdays⟩ :=
    evaluateRecurringWindow_eq_ok.mp hallowed
  obtain ⟨htz, hdaysSubset, -⟩ := isWindowSubset_eq_ok.mp hsubset
  have hlocal := hhmm_of_isHHMM (hintl _ _ hzone now).1
  have hcs := hhmm_of_isHHMM hchild.1
  have hce := hhmm_of_isHHMM hchild.2
  have hps := hhmm_of_isHHMM hparent.1
  have hpe := hhmm_of_isHHMM hparent.2
  have hminutes := minuteIn_subset hchild hparent hsubset
  rw [inWindow_iff hlocal hcs hce] at hwindow
  refine evaluateRecurringWindow_eq_ok.mpr ⟨hparent.1, hparent.2, zone, htz ▸ hzone,
    hname.trans htz, isoDay, hiso, ?_, ?_⟩
  · rw [inWindow_iff hlocal hps hpe]
    exact hminutes _ hlocal.minuteOfDay_lt hwindow
  · intro parentDays hparentDays
    cases hchildDays : child.daysOfWeek with
    | none =>
        rw [hchildDays, Option.mem_def.mp hparentDays] at hdaysSubset
        exact hdaysSubset.elim
    | some childDays =>
        have hday := hdays childDays hchildDays
        rw [hchildDays, Option.mem_def.mp hparentDays] at hdaysSubset
        -- The two effective days agree unless the child is in the parent's morning.
        by_cases hmorning : TextLt parent.endTime parent.startTime ∧
            TextLt (zone.formatTime now) parent.endTime
        · by_cases hcrossing : TextLt child.endTime child.startTime ∧
              TextLt (zone.formatTime now) child.endTime
          · rw [effectiveDay, if_pos hcrossing] at hday
            rw [effectiveDay, if_pos hmorning]
            exact hdaysSubset _ hday
          · rw [effectiveDay, if_neg hcrossing] at hday
            rw [effectiveDay, if_pos hmorning]
            rw [hce.textLt_iff hcs, hlocal.textLt_iff hce] at hcrossing
            have hinside := (afterMidnight_of_parent hpe.minuteOfDay_lt hminutes hwindow
              ((hlocal.textLt_iff hpe).mp hmorning.2)).resolve_left hcrossing
            obtain ⟨hlow, hhigh, -⟩ := weekdayToISO_eq_ok.mp hiso
            by_contra hmissing
            exact heve ⟨hmorning.1, (hcs.textLt_iff hce).mpr hinside.1,
              (hce.textLe_iff hpe).mpr hinside.2, childDays, hchildDays, parentDays, hparentDays,
              isoDay, hlow, hhigh, hday, hmissing⟩
        · by_cases hcrossing : TextLt child.endTime child.startTime ∧
              TextLt (zone.formatTime now) child.endTime
          · have hafter := afterMidnight_of_child hpe.minuteOfDay_lt hminutes hcs.minuteOfDay_lt
              ((hce.textLt_iff hcs).mp hcrossing.1) ((hlocal.textLt_iff hce).mp hcrossing.2)
            rw [← hpe.textLt_iff hps, ← hlocal.textLt_iff hpe] at hafter
            exact absurd hafter hmorning
          · rw [effectiveDay, if_neg hcrossing] at hday
            rw [effectiveDay, if_neg hmorning]
            exact hdaysSubset _ hday

/-- A zone whose clock stands at one time of one weekday. -/
def stoppedClock (time weekday : String) : Intl := fun name =>
  some ⟨name, fun _ => time, fun _ => weekday⟩

theorem stoppedClock_wellFormed {time weekday : String} (htime : isHHMM time = true)
    (hweekday : weekday ∈ weekdayNames) : (stoppedClock time weekday).WellFormed := by
  intro name zone hzone now
  obtain rfl := Option.some.inj hzone
  exact ⟨htime, hweekday⟩

/-- In the excepted case the evaluator does separate the two windows: at the
child's start, on the day whose eve is closed. -/
theorem evaluateRecurringWindow_separates {child parent : RecurringWindow}
    (hchild : RecurringWindow.WellFormed child) (hparent : RecurringWindow.WellFormed parent)
    (heve : OpensAfterClosedEve child parent) :
    ∃ intl : Intl, intl.WellFormed ∧ ∀ now, evaluateRecurringWindow intl child now = .ok () ∧
      evaluateRecurringWindow intl parent now ≠ .ok () := by
  obtain ⟨hcross, hplain, hinside, childDays, hchildDays, parentDays, hparentDays, day, hlow, hhigh,
    hopen, hclosed⟩ := heve
  have hcs := hhmm_of_isHHMM hchild.1
  have hce := hhmm_of_isHHMM hchild.2
  have hpe := hhmm_of_isHHMM hparent.2
  have hlength : day - 1 < weekdayNames.length := by
    have : weekdayNames.length = 7 := rfl
    omega
  have hiso : weekdayToISO weekdayNames[day - 1] = .ok day :=
    weekdayToISO_eq_ok.mpr ⟨hlow, hhigh, List.getElem?_eq_getElem hlength⟩
  have hplain' : ¬ TextLt child.endTime child.startTime := by
    rw [hce.textLt_iff hcs]
    have := (hcs.textLt_iff hce).mp hplain
    omega
  have hmorning : TextLt child.startTime parent.endTime := by
    rw [hcs.textLt_iff hpe]
    have := (hcs.textLt_iff hce).mp hplain
    have := (hce.textLe_iff hpe).mp hinside
    omega
  refine ⟨stoppedClock child.startTime weekdayNames[day - 1],
    stoppedClock_wellFormed hchild.1 (List.getElem_mem hlength), fun now => ⟨?_, ?_⟩⟩
  · refine evaluateRecurringWindow_eq_ok.mpr ⟨hchild.1, hchild.2, _, rfl, rfl, day, hiso, ?_, ?_⟩
    · rw [inWindow, if_neg hplain']
      exact ⟨TextLe.refl _, hplain⟩
    · intro days hdays
      obtain rfl : childDays = days := Option.some.inj (hchildDays.symm.trans hdays)
      rw [effectiveDay, if_neg (fun h => hplain' h.1)]
      exact hopen
  · intro hallowed
    obtain ⟨-, -, zone, hzone, -, isoDay, hiso', -, hdays⟩ :=
      evaluateRecurringWindow_eq_ok.mp hallowed
    obtain rfl := Option.some.inj hzone
    obtain rfl : day = isoDay := Except.ok.inj (hiso.symm.trans hiso')
    have hday := hdays parentDays hparentDays
    rw [effectiveDay, if_pos ⟨hcross, hmorning⟩] at hday
    exact hclosed hday

/-- A temporal scope the issuer accepts as narrower is narrower for the evaluator
exactly when the child is not open on the morning after a closed eve of the
parent while the child is valid at all. -/
theorem isScopeSubset_temporal_sound_iff (F : NumberFormat)
    {notBefore notAfter parentNotBefore parentNotAfter : String}
    {window parentWindow : Option RecurringWindow}
    (hinstants : ∀ t ∈ [notBefore, notAfter, parentNotBefore, parentNotAfter],
      Calendar.IsInstant t)
    (hwindow : ∀ w ∈ window, RecurringWindow.WellFormed w)
    (hparentWindow : ∀ w ∈ parentWindow, RecurringWindow.WellFormed w)
    (hsubset : isScopeSubset F (.temporalScope notBefore notAfter window)
      (.temporalScope parentNotBefore parentNotAfter parentWindow) = .ok ()) :
    (∀ intl : Intl, intl.WellFormed → ∀ now : Int,
      evaluateTemporalScope intl notBefore notAfter window now = .ok () →
        evaluateTemporalScope intl parentNotBefore parentNotAfter parentWindow now = .ok ()) ↔
      ¬ ((∃ start ∈ Calendar.getTime notBefore, ∃ stop ∈ Calendar.getTime notAfter, start < stop) ∧
        ∃ w ∈ window, ∃ p ∈ parentWindow, OpensAfterClosedEve w p) := by
  simp only [List.forall_mem_cons, List.not_mem_nil, false_implies, implies_true, and_true]
    at hinstants
  obtain ⟨hnb, hna, hpnb, hpna⟩ := hinstants
  cases isScopeSubset_eq_ok F |>.mp hsubset with
  | temporalScope hbefore hafter hrecurring =>
      obtain ⟨parentStart, start, hparentStart, hstart, hstartLe⟩ :=
        Calendar.getTime_le_of_textLe hpnb hnb hbefore
      obtain ⟨stop, parentStop, hstop, hparentStop, hstopLe⟩ :=
        Calendar.getTime_le_of_textLe hna hpna hafter
      simp only [evaluateTemporalScope_eq_ok, hstart, hstop, hparentStart, hparentStop,
        Option.mem_def, Option.some.injEq, forall_eq', exists_eq_left']
      constructor
      · rintro hsound ⟨hlt, w, hw, p, hp, heve⟩
        obtain ⟨intl, hintl, hseparates⟩ :=
          evaluateRecurringWindow_separates (hwindow w hw) (hparentWindow p hp) heve
        obtain ⟨hchild, hnot⟩ := hseparates start
        refine hnot ((hsound intl hintl start ⟨le_refl _, hlt, ?_⟩).2.2 p hp)
        intro w' hw'
        obtain rfl := Option.some.inj (hw.symm.trans hw')
        exact hchild
      · rintro hnone intl hintl now ⟨hfrom, huntil, hallowed⟩
        refine ⟨by omega, by omega, ?_⟩
        intro p hp
        cases window with
        | none =>
            rw [hp] at hrecurring
            cases hrecurring
        | some w =>
            rw [hp] at hrecurring
            refine evaluateRecurringWindow_sound (hwindow w rfl) (hparentWindow p hp) hrecurring
              ?_ hintl (hallowed w rfl)
            intro heve
            exact hnone ⟨by omega, w, rfl, p, hp, heve⟩

/-! ## A night shift

The parent works Monday nights from 23:50 to 00:10. A child limited to Mondays
from 00:00 passes the issuer's check and is open on Monday 00:05, which belongs
to the Sunday night of the parent. -/

namespace NightShift

def digitPair (n : Nat) : List Char := [Char.ofNat (48 + n / 10), Char.ofNat (48 + n % 10)]

def utcZone : IntlZone where
  timeZone := "UTC"
  formatTime now :=
    let minute := (now % dayMs / 60000).toNat
    String.ofList (digitPair (minute / 60) ++ ':' :: digitPair (minute % 60))
  formatDay now := weekdayNames.getD ((now / dayMs + 3) % 7).toNat ""

def utc : Intl := fun name => if name = "UTC" then some utcZone else none

def window (startTime : String) (days : List ℚ) : RecurringWindow :=
  ⟨startTime, "00:10", some days, "UTC"⟩

def scope (startTime : String) (days : List ℚ) : Scope :=
  .temporalScope "2026-01-01T00:00:00.000Z" "2027-01-01T00:00:00.000Z"
    (some (window startTime days))

/-- 2026-01-05, a Monday, 00:05 UTC. -/
def mondayMorning : Int := 1767571500000

def evaluateAt (startTime : String) (days : List ℚ) : Except ScopeDenial Unit :=
  evaluateTemporalScope utc "2026-01-01T00:00:00.000Z" "2027-01-01T00:00:00.000Z"
    (some (window startTime days)) mondayMorning

/-- The subset check accepts the child, and the evaluator allows it where it
denies the parent. -/
theorem morning_widened :
    isScopeSubset NumberFormat.decimal (scope "00:00" [1]) (scope "23:50" [1]) = .ok () ∧
      utcZone.formatTime mondayMorning = "00:05" ∧ utcZone.formatDay mondayMorning = "Mon" ∧
      evaluateAt "00:00" [1] = .ok () ∧ evaluateAt "23:50" [1] = .error .outsideWindowDay := by
  refine ⟨?_, ?_, ?_, ?_, ?_⟩ <;> decide +kernel

theorem window_wellFormed (startTime : String) (days : List ℚ) (h : isHHMM startTime = true) :
    ∀ w ∈ some (window startTime days), RecurringWindow.WellFormed w := by
  rintro w hw
  obtain rfl := Option.some.inj hw
  exact ⟨h, (by decide +kernel : isHHMM "00:10" = true)⟩

/-- With the Sunday night open too, the same child is narrower on Monday 00:05. -/
theorem morning_sound_of_open_eve :
    evaluateTemporalScope (stoppedClock "00:05" "Mon") "2026-01-01T00:00:00.000Z"
        "2027-01-01T00:00:00.000Z" (some (window "00:00" [1])) mondayMorning = .ok () ∧
      evaluateTemporalScope (stoppedClock "00:05" "Mon") "2026-01-01T00:00:00.000Z"
        "2027-01-01T00:00:00.000Z" (some (window "23:50" [7, 1])) mondayMorning = .ok () := by
  have hchild : evaluateTemporalScope (stoppedClock "00:05" "Mon") "2026-01-01T00:00:00.000Z"
      "2027-01-01T00:00:00.000Z" (some (window "00:00" [1])) mondayMorning = .ok () := by
    decide +kernel
  have hclock : (stoppedClock "00:05" "Mon").WellFormed :=
    stoppedClock_wellFormed (by decide +kernel) (by decide +kernel)
  refine ⟨hchild, (isScopeSubset_temporal_sound_iff NumberFormat.decimal (by decide +kernel)
    (window_wellFormed _ _ (by decide +kernel)) (window_wellFormed _ _ (by decide +kernel))
    (by decide +kernel)).mpr ?_ _ hclock _ hchild⟩
  rintro ⟨-, w, hw, p, hp, -, -, -, childDays, hchildDays, parentDays, hparentDays, day, -, -, hopen,
    hclosed⟩
  obtain rfl := Option.some.inj hw
  obtain rfl := Option.some.inj hp
  obtain rfl := Option.some.inj hchildDays
  obtain rfl := Option.some.inj hparentDays
  obtain rfl : day = 1 := by simpa using hopen
  exact hclosed (by decide +kernel)

end NightShift

end Coivitas.Policy
