import Rollup.Proofs.Calendar.Reading
import Rollup.Proofs.Double.Integers
import Rollup.Value.Operator

/-! # Dates moved by whole days

The milliseconds of the calendar are whole numbers that doubles hold exactly, so that moving a date
by whole days and back again returns to it, down to the time of day, and the difference of two
midnights is the number of days between them.
-/

namespace Rollup

open Number

namespace Moment

variable {m later : Moment} {k : ℤ} {x : Float}

theorem eq_of_millis_eq (h : later.millis = m.millis) : later = m := by
  cases later
  cases m
  congr

/-! ## Seconds and days as doubles -/

theorem millis_bounds (m : Moment) : -8334601228800000 ≤ m.millis ∧ m.millis ≤ 8210266876799999 := by
  have hcalendar := m.inCalendar
  rwa [earliest_eq, latest_eq] at hcalendar

theorem isInteger_secondsPerDay : IsInteger 86400 secondsPerDay := isInteger_literal 86400 (by decide)

theorem isInteger_thousand : IsInteger 1000 1000 := isInteger_literal 1000 (by decide)

/-- Whole seconds are moved by without rounding. -/
theorem shiftSeconds?_eq (h : IsInteger k x) (hk : (k * 1000).natAbs < 2 ^ 53)
    (hlater : later.millis = m.millis + k * 1000) : m.shiftSeconds? x = some later := by
  have hmillis := h.mul isInteger_thousand hk
  rw [shiftSeconds?, hmillis.round, if_pos hmillis.isFinite, hmillis.toInt, shift?]
  exact ofMillis?_eq_some_iff.mpr hlater

/-- The days to a midnight are whole. -/
theorem isInteger_toDays (h : m.millis = k * millisPerDay) : IsInteger k m.toDays := by
  have hbounds := m.millis_bounds
  have hfactors : m.millis = k * 86400 * 1000 := by
    rw [h, mul_assoc]
    rfl
  have hmillis := isInteger_ofInt (k := m.millis) (by omega)
  rw [toDays, hfactors]
  rw [hfactors] at hmillis hbounds
  have hseconds := hmillis.div isInteger_thousand (by decide) (by omega)
  exact hseconds.div isInteger_secondsPerDay (by decide) (by omega)

theorem isMidnight_add (h : later.millis = m.millis + k * millisPerDay) :
    later.isMidnight = m.isMidnight := by
  rw [Bool.eq_iff_iff, isMidnight_iff, isMidnight_iff, h]
  exact dvd_add_left (Dvd.intro_left k rfl)

/-- The days between midnights are counted exactly. -/
theorem toDays_sub_toDays (hzero : m.isMidnight) (h : later.millis = m.millis + k * millisPerDay) :
    later.toDays - m.toDays = Float.ofInt k := by
  obtain ⟨days, hdays⟩ := isMidnight_iff.mp hzero
  have hm := isInteger_toDays (m := m) (k := days) (by rw [hdays, mul_comm])
  have hlater := isInteger_toDays (m := later) (k := days + k) (by rw [h, hdays]; ring)
  have hbounds := m.millis_bounds
  have hbounds' := later.millis_bounds
  rw [h, hdays, millisPerDay] at hbounds'
  rw [hdays, millisPerDay] at hbounds
  by_cases hk : k = 0
  · subst hk
    obtain rfl : later = m := eq_of_millis_eq (by rw [h, zero_mul, add_zero])
    exact sub_self_eq_zero hm.isFinite
  · have hsub := hlater.sub hm (by omega)
    rw [add_sub_cancel_left] at hsub
    exact hsub.eq_ofInt (by omega) hk

end Moment

namespace Value

variable {stamp later : Timestamp} {n : ℤ}

theorem shiftDate_eq {m : Moment} {k : ℤ} {x : Float} (failing : Value) (withTime : Bool)
    (h : IsInteger k x) (hk : (k * 1000).natAbs < 2 ^ 53)
    (hm : m.millis = stamp.moment.millis + k * 1000) :
    shiftDate failing stamp x withTime = date ⟨m, withTime || !m.isMidnight⟩ := by
  rw [shiftDate, Moment.shiftSeconds?_eq h hk hm]

/-- A date that has no time is at midnight, so that only the flag of a moved date tells whether it
has one. -/
theorem withTime_or_not_isMidnight (h : stamp.Readable) :
    (stamp.withTime || !stamp.moment.isMidnight) = stamp.withTime := by
  cases hflag : stamp.withTime with
  | true => rfl
  | false => rw [h.midnight hflag]; rfl

/-- Moves that stay in the calendar are short enough for doubles. -/
theorem natAbs_millis_lt (h : stamp.Readable)
    (hlow : Moment.earliest ≤ stamp.moment.millis + n * Moment.millisPerDay)
    (hhigh : stamp.moment.millis + n * Moment.millisPerDay ≤ Moment.latest) :
    (n * 86400 * 1000).natAbs < 2 ^ 53 := by
  obtain ⟨date, hvalid, hyear, hyear', seconds, hseconds, hmillis⟩ := h.day
  have hdays := date.toDays_bounds hvalid hyear hyear'
  rw [Moment.earliest_eq] at hlow
  rw [Moment.latest_eq] at hhigh
  rw [hmillis, Moment.millisPerDay] at hlow hhigh
  omega

/-- A date read from text that is moved by whole days within the calendar comes back to itself, and
a midnight and the moved one are as many days apart. -/
theorem shiftDate_and_back {t : Text} (hread : Timestamp.read? t = some stamp)
    (hlow : Moment.earliest ≤ stamp.moment.millis + n * Moment.millisPerDay)
    (hhigh : stamp.moment.millis + n * Moment.millisPerDay ≤ Moment.latest) :
    ∃ later : Timestamp, combine .add (date stamp) (number (Float.ofInt n)) = date later ∧
      later.moment.millis = stamp.moment.millis + n * Moment.millisPerDay ∧
      later.withTime = stamp.withTime ∧
      combine .sub (date later) (number (Float.ofInt n)) = date stamp ∧
      (stamp.moment.isMidnight →
        combine .sub (date later) (date stamp) = number (Float.ofInt n)) := by
  have hstamp := Timestamp.readable_of_read? hread
  have hsmall := natAbs_millis_lt hstamp hlow hhigh
  obtain ⟨m, hm⟩ : ∃ m : Moment, m.millis = stamp.moment.millis + n * Moment.millisPerDay :=
    ⟨⟨_, hlow, hhigh⟩, rfl⟩
  have hmillis : n * Moment.millisPerDay = n * 86400 * 1000 := by
    rw [mul_assoc]
    rfl
  have hdays := isInteger_ofInt (k := n) (by omega)
  have hmidnight : m.isMidnight = stamp.moment.isMidnight := Moment.isMidnight_add hm
  have hflag := withTime_or_not_isMidnight hstamp
  refine ⟨⟨m, stamp.withTime⟩, ?add, hm, rfl, ?back, ?difference⟩
  case add =>
    have hseconds := hdays.mul Moment.isInteger_secondsPerDay (by omega)
    rw [combine, shiftDate_eq _ _ hseconds hsmall (hm.trans (by rw [hmillis])), hmidnight, hflag]
  case back =>
    have hseconds := hdays.neg.mul Moment.isInteger_secondsPerDay (by omega)
    have hback : stamp.moment.millis = m.millis + -n * 86400 * 1000 := by omega
    rw [combine, shiftDate_eq _ _ hseconds (by omega) hback, hflag]
  case difference =>
    intro hzero
    rw [combine, Moment.toDays_sub_toDays hzero hm]

/-- From a leap day to the last day of the February before it, and back. -/
theorem shiftDate_and_back_leap_day :
    let stamp : Timestamp := ⟨⟨951782400000, by decide⟩, false⟩
    (Timestamp.read? "2000-02-29".toList = some stamp ∧
      Moment.earliest ≤ stamp.moment.millis + -366 * Moment.millisPerDay ∧
      stamp.moment.millis + -366 * Moment.millisPerDay ≤ Moment.latest ∧
      stamp.moment.isMidnight) ∧
      ∃ later : Timestamp, combine .add (date stamp) (number (Float.ofInt (-366))) = date later ∧
        combine .sub (date later) (number (Float.ofInt (-366))) = date stamp ∧
        combine .sub (date later) (date stamp) = number (Float.ofInt (-366)) := by
  intro stamp
  have hread : Timestamp.read? "2000-02-29".toList = some stamp := by decide +kernel
  have hmidnight : stamp.moment.isMidnight := by decide
  obtain ⟨later, hadd, -, -, hback, hdifference⟩ :=
    shiftDate_and_back (n := -366) hread (by decide) (by decide)
  exact ⟨⟨hread, by decide, by decide, hmidnight⟩, later, hadd, hback, hdifference hmidnight⟩

end Value

end Rollup
