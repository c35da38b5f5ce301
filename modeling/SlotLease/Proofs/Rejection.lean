import SlotLease.Proofs.Settings

namespace SlotLease.Settings

open Schedule (Field longestLimit)

variable {s : Settings} {schedule : Schedule} {now : Instant} {fault : ConfigFault}

theorem check_eq_pause (pause : IsPause fault) : s.check now = .error (.invalidConfig fault) ↔
    ∃ schedule, s.Orderly schedule ∧
      ∃ p, schedule.findPause now s.leaseTtl s.lookahead = some p ∧ fault = s.pauseFault p := by
  constructor
  · intro h
    rcases s.orderly_or with ⟨schedule, orderly⟩ | ⟨other, error, plain⟩
    · rw [orderly.check_eq, scheduleFault?_eq] at h
      cases found : schedule.findPause now s.leaseTtl s.lookahead with
      | some p =>
        rw [found] at h
        cases h
        exact ⟨schedule, orderly, p, found, rfl⟩
      | none =>
        rw [found] at h
        cases h
    · rw [error] at h
      cases h
      exact absurd pause plain
  · rintro ⟨schedule, orderly, p, found, rfl⟩
    rw [orderly.check_eq, scheduleFault?_eq, found]
    rfl

theorem Orderly.leaseTtl_le (h : s.Orderly schedule) : s.leaseTtl.nanos ≤ longestLimit.nanos := by
  have short := h.short
  rw [show maxLeaseHours = 8784 from rfl] at short
  rw [nanos_longestLimit]
  show min (s.leaseHours.toNat * 3600) (UInt64.size - 1) * 1000000000 ≤ _
  omega

/-- What is found from 1970 on is a first pause within the horizon, as long as the limit unless the
search has a fire time in a blind spot; and settings are rejected for no other pause than the one
found. -/
theorem pauses_reported (since : 0 ≤ now.nanos) :
    (∀ expression schedule limit horizon p, Schedule.ofString? expression = some schedule →
      limit.nanos ≤ longestLimit.nanos → schedule.findPause now limit horizon = some p →
        schedule.Reported now limit horizon p) ∧
    ∀ (s : Settings) fault, IsPause fault → s.check now = .error (.invalidConfig fault) →
      ∃ schedule p, Schedule.ofString? s.renewalSchedule = some schedule ∧
        schedule.Reported now s.leaseTtl s.lookahead p ∧ fault = s.pauseFault p := by
  constructor
  · intro expression schedule limit horizon p read short found
    exact (Schedule.wellFormed_of_ofString? read).findPause_reported since short found
  · intro s fault pause rejected
    obtain ⟨schedule, orderly, p, found, rfl⟩ := (check_eq_pause pause).1 rejected
    have h := Schedule.wellFormed_of_ofString? orderly.read
    exact ⟨schedule, p, orderly.read, h.findPause_reported since orderly.leaseTtl_le found, rfl⟩

def hourly : Settings := { longest with leaseHours := 1 }

theorem hourly_found : daily.findPause (.ofMillis 1750000000000) hourly.leaseTtl hourly.lookahead =
    some ⟨.ofMillis 1750000000000, some (.ofSeconds 1750032000)⟩ := by
  have before : (Schedule.laterBy? (.ofMillis 1750000000000) hourly.leaseTtl).bind
      daily.lastBefore = some (.ofSeconds 1749945600) := by decide +kernel
  have after : daily.nextAfter (.ofMillis 1750000000000) = some (.ofSeconds 1750032000) := by
    decide +kernel
  rw [Schedule.findPause_eq (by decide), Schedule.pauseFrom_pause (by decide +kernel), after]
  rintro fire found
  cases before.symm.trans found
  decide

theorem pauses_reported_hourly :
    hourly.check (.ofMillis 1750000000000) =
        .error (.invalidConfig (.pause (.ofMillis 1750000000000) (.ofSeconds 32000) 1)) ∧
      daily.Reported (.ofMillis 1750000000000) hourly.leaseTtl hourly.lookahead
        ⟨.ofMillis 1750000000000, some (.ofSeconds 1750032000)⟩ ∧
      daily.Lasts hourly.leaseTtl ⟨.ofMillis 1750000000000, some (.ofSeconds 1750032000)⟩ := by
  have read : Schedule.ofString? hourly.renewalSchedule = some daily := longest_accepts.read
  have orderly : hourly.Orderly daily :=
    ⟨by decide, by decide, by decide, longest_accepts.pieces, read⟩
  have rejected := (check_eq_pause .pause).2 ⟨daily, orderly, _, hourly_found, rfl⟩
  have since : 0 ≤ (Instant.ofMillis 1750000000000).nanos := by decide
  have reported :=
    (pauses_reported since).1 "@daily" daily _ _ _ read orderly.leaseTtl_le hourly_found
  refine ⟨rejected, reported, reported.lasts.2 ?_⟩
  rintro n _ ⟨_, _, missed⟩
  exact (missed (by decide)).unscheduled 2025 (by decide) (by decide +kernel)

/-! ### A year left out -/

def alternate : Settings :=
  { Settings.default with leaseHours := 8784, renewalSchedule := "* * * * * * 2028,2030" }

def twoYears : Schedule where
  expression := "* * * * * * 2028,2030"
  seconds := Field.second.range
  minutes := Field.minute.range
  hours := Field.hour.range
  days := Field.day.range
  months := Field.month.range
  weekdays := Field.weekday.range
  years := [2028, 2030]

theorem twoYears_fires {n : Int} (year : Nat) (mem : year ∈ twoYears.years)
    (same : (Date.ofDays (n / 86400)).year = year) : twoYears.fires n = true := by
  obtain ⟨month, day, day'⟩ := Date.ofDays_valid (n / 86400)
  have long : (Date.ofDays (n / 86400)).day ≤ 31 := by
    refine Nat.le_trans day' ?_
    rw [Date.daysInMonth]
    split <;> split <;> decide
  rw [Schedule.fires_iff, Schedule.atTime_iff]
  refine ⟨?_, Field.mem_range.2 ?_, Field.mem_range.2 ?_, Field.mem_range.2 ?_⟩
  · have weekday : 1 ≤ Date.weekday (n / 86400) ∧ Date.weekday (n / 86400) ≤ 7 := by
      rw [Date.weekday]
      omega
    simp only [Schedule.onDay, Bool.and_eq_true, List.any_eq_true, decide_eq_true_eq,
      List.contains_iff_mem]
    exact ⟨⟨⟨⟨year, mem, same.symm⟩, Field.mem_range.2 month⟩, Field.mem_range.2 ⟨day, long⟩⟩,
      Field.mem_range.2 weekday⟩
  all_goals simp only [Field.least, Field.greatest]; omega

theorem twoYears_firesBetween {t : Instant} (since : (1830297600 * 1000000000 : Int) ≤ t.nanos)
    (before : t.nanos < 1924991999 * 1000000000) :
    twoYears.FiresBetween (.ofSeconds (8784 * 3600)) t := by
  have fires : ∀ n, 1830297600 ≤ n → n < 1924992000 → ¬ (1861920000 ≤ n ∧ n < 1893456000) →
      twoYears.fires n = true := by
    intro n since before other
    rcases Int.lt_or_le n 1861920000 with early | late
    · refine twoYears_fires 2028 (by decide) (Date.year_eq ?_ ?_)
      · rw [show Date.newYear ((2028 : Nat) : Int) = 21184 from rfl]
        omega
      · rw [show Date.newYear ((2028 : Nat) + 1 : Int) = 21550 from rfl]
        omega
    · refine twoYears_fires 2030 (by decide) (Date.year_eq ?_ ?_)
      · rw [show Date.newYear ((2030 : Nat) : Int) = 21915 from rfl]
        omega
      · rw [show Date.newYear ((2030 : Nat) + 1 : Int) = 22280 from rfl]
        omega
  have limit : (Duration.ofSeconds (8784 * 3600)).nanos = 8784 * 3600 * 1000000000 := rfl
  by_cases out : 1861920000 ≤ t.nanos / 1000000000 + 1 ∧ t.nanos / 1000000000 + 1 < 1893456000
  · refine ⟨.ofSeconds 1893456000, ⟨_, rfl, fires _ (by decide) (by decide) (by decide)⟩, ?_⟩
    simp only [Instant.ofSeconds]
    omega
  · refine ⟨.ofSeconds (t.nanos / 1000000000 + 1), ⟨_, rfl, fires _ ?_ ?_ out⟩, ?_⟩
    · omega
    · omega
    · simp only [Instant.ofSeconds]
      omega

/-- A schedule is rejected for a pause of a second, at the beginning of a look ahead in which it
never pauses as long as a lease. -/
theorem second_reported_as_pause :
    Schedule.ofString? alternate.renewalSchedule = some twoYears ∧
      twoYears.findPause (.ofSeconds 1831075200) alternate.leaseTtl alternate.lookahead =
        some ⟨.ofSeconds 1831075200, some (.ofSeconds 1831075201)⟩ ∧
      alternate.check (.ofSeconds 1831075200) =
        .error (.invalidConfig (.pause (.ofSeconds 1831075200) (.ofSeconds 1) 8784)) ∧
      ∀ t : Instant, (Instant.ofSeconds 1831075200).nanos ≤ t.nanos →
        t.nanos < ((Instant.ofSeconds 1831075200).add alternate.lookahead).nanos →
          twoYears.FiresBetween alternate.leaseTtl t := by
  have read : Schedule.ofString? alternate.renewalSchedule = some twoYears := by decide +kernel
  have orderly : alternate.Orderly twoYears :=
    ⟨by decide, by decide, by decide, by decide, read⟩
  have before : (Schedule.laterBy? (.ofSeconds 1831075200) alternate.leaseTtl).bind
      twoYears.lastBefore = some (.ofSeconds 1831075199) := by decide +kernel
  have after : twoYears.nextAfter (.ofSeconds 1831075200) = some (.ofSeconds 1831075201) := by
    decide +kernel
  have found : twoYears.findPause (.ofSeconds 1831075200) alternate.leaseTtl alternate.lookahead =
      some ⟨.ofSeconds 1831075200, some (.ofSeconds 1831075201)⟩ := by
    rw [Schedule.findPause_eq orderly.leaseTtl_le, Schedule.pauseFrom_pause (by decide +kernel) ?_,
      after]
    rintro fire found
    cases before.symm.trans found
    decide
  have rejected := (check_eq_pause .pause).2 ⟨_, orderly, _, found, rfl⟩
  refine ⟨read, found, rejected, fun t since soon => ?_⟩
  have ahead : alternate.lookahead = .ofSeconds (732 * 86400) := by decide +kernel
  rw [ahead] at soon
  rw [show alternate.leaseTtl = .ofSeconds (8784 * 3600) by decide +kernel]
  exact twoYears_firesBetween (Int.le_trans (by decide) since) (Int.lt_trans soon (by decide))

end SlotLease.Settings
