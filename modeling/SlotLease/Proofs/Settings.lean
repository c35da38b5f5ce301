import SlotLease.Proofs.Schedule.Pause
import SlotLease.Settings

namespace SlotLease

namespace Duration

theorem eq_of_nanos {a b : Duration} (same : a.nanos = b.nanos) : a = b := by
  cases a
  cases b
  exact congrArg Duration.mk same

theorem nanos_max (a b : Duration) : (a.max b).nanos = Max.max a.nanos b.nanos := by
  rw [Duration.max]
  split <;> omega

theorem nanos_double (a : Duration) : a.double.nanos = 2 * a.nanos := Nat.mul_comm ..

end Duration

namespace Settings

open Schedule (FiresWithin)

variable {s : Settings} {schedule : Schedule} {now : Instant}

def lookahead (s : Settings) : Duration :=
  ⟨Max.max (400 * 24 * 3600 * 1000000000) (2 * s.leaseTtl.nanos)⟩

theorem epochWord_epoch (s : Settings) : Generator.epochWord s.epoch = s.epochMillis := by
  rw [Generator.epochWord, epoch, Duration.millis, Duration.ofMillis,
    Nat.mul_div_cancel _ (by decide)]
  exact UInt64.ofNat_toNat

theorem nanos_horizon : horizon.nanos = 400 * 24 * 3600 * 1000000000 := rfl

theorem nanos_lookahead (s : Settings) : s.lookahead.nanos =
    Max.max (400 * 24 * 3600 * 1000000000) (2 * s.leaseTtl.nanos) := rfl

theorem nanos_longestLimit : Schedule.longestLimit.nanos = 9223372036854775807 * 1000000 := rfl

theorem horizon_max (s : Settings) : horizon.max s.leaseTtl.double = s.lookahead := by
  apply Duration.eq_of_nanos
  rw [Duration.nanos_max, nanos_horizon, Duration.nanos_double, nanos_lookahead]

structure Accepts (s : Settings) (now : Instant) (schedule : Schedule) : Prop where
  positive : 0 < s.leaseHours.toNat
  short : s.leaseHours.toNat ≤ maxLeaseHours
  attempts : s.retry.maxAttempts ≠ 0
  pieces : isPiece s.keyHead = true ∧ isPiece s.keySubject = true
  read : Schedule.ofString? s.renewalSchedule = some schedule
  steady : schedule.findPause now s.leaseTtl s.lookahead = none

structure Orderly (s : Settings) (schedule : Schedule) : Prop where
  positive : 0 < s.leaseHours.toNat
  short : s.leaseHours.toNat ≤ maxLeaseHours
  attempts : s.retry.maxAttempts ≠ 0
  pieces : isPiece s.keyHead = true ∧ isPiece s.keySubject = true
  read : Schedule.ofString? s.renewalSchedule = some schedule

inductive IsPause : ConfigFault → Prop
  | pause : IsPause (.pause start length hours)
  | ends : IsPause .ends

theorem Orderly.check_eq (h : s.Orderly schedule) :
    s.check now = faultless schedule (s.scheduleFault? schedule now) := by
  have positive : s.leaseHours ≠ 0 := fun zero => absurd h.positive (by rw [zero]; decide)
  rw [check, if_neg positive, if_neg (Nat.not_lt.2 h.short), if_neg h.attempts, h.pieces.1,
    h.pieces.2, h.read]
  rfl

theorem orderly_or (s : Settings) : (∃ schedule, s.Orderly schedule) ∨
    ∃ fault, (∀ now, s.check now = .error (.invalidConfig fault)) ∧ ¬ IsPause fault := by
  simp only [check]
  split
  · exact .inr ⟨_, fun _ => rfl, nofun⟩
  rename_i positive
  split
  · exact .inr ⟨_, fun _ => rfl, nofun⟩
  rename_i short
  split
  · exact .inr ⟨_, fun _ => rfl, nofun⟩
  rename_i attempts
  split
  · exact .inr ⟨_, fun _ => rfl, nofun⟩
  rename_i head
  split
  · exact .inr ⟨_, fun _ => rfl, nofun⟩
  rename_i subject
  split
  · exact .inr ⟨_, fun _ => rfl, nofun⟩
  rename_i schedule read
  simp only [Bool.not_eq_true', Bool.not_eq_false] at head subject
  refine .inl ⟨schedule, Nat.pos_of_ne_zero fun zero => positive ?_, Nat.not_lt.1 short, attempts,
    ⟨head, subject⟩, read⟩
  rw [← UInt64.toNat_inj, zero]
  rfl

def pauseFault (s : Settings) (p : Pause) : ConfigFault :=
  match p.length with
  | some length => .pause p.start length s.leaseHours.toNat
  | none => .ends

theorem scheduleFault?_eq (s : Settings) (schedule : Schedule) (now : Instant) :
    s.scheduleFault? schedule now =
      (schedule.findPause now s.leaseTtl s.lookahead).map s.pauseFault := by
  rw [scheduleFault?, horizon_max]
  rfl

theorem check_eq_ok : s.check now = .ok schedule ↔ s.Accepts now schedule := by
  constructor
  · intro h
    rcases s.orderly_or with ⟨schedule', orderly⟩ | ⟨fault, error, _⟩
    · rw [orderly.check_eq, scheduleFault?_eq] at h
      cases found : schedule'.findPause now s.leaseTtl s.lookahead with
      | some p =>
        rw [found] at h
        cases h
      | none =>
        rw [found] at h
        cases h
        exact ⟨orderly.positive, orderly.short, orderly.attempts, orderly.pieces, orderly.read,
          found⟩
    · rw [error] at h
      cases h
  · intro h
    have orderly : s.Orderly schedule := ⟨h.positive, h.short, h.attempts, h.pieces, h.read⟩
    rw [orderly.check_eq, scheduleFault?_eq, h.steady]
    rfl

namespace Accepts

variable (h : s.Accepts now schedule)
include h

theorem wellFormed : schedule.WellFormed := Schedule.wellFormed_of_ofString? h.read

theorem leaseTtl_eq : s.leaseTtl = .ofSeconds (s.leaseHours.toNat * 3600) := by
  have short := h.short
  rw [leaseTtl, Nat.min_eq_left]
  rw [show UInt64.size = 2 ^ 64 from rfl]
  rw [show maxLeaseHours = 8784 from rfl] at short
  omega

theorem leaseTtl_pos : 0 < s.leaseTtl.nanos := by
  have positive := h.positive
  rw [h.leaseTtl_eq]
  show 0 < s.leaseHours.toNat * 3600 * 1000000000
  omega

theorem leaseTtl_le : s.leaseTtl.nanos ≤ 8784 * 3600 * 1000000000 := by
  have short := h.short
  rw [show maxLeaseHours = 8784 from rfl] at short
  rw [h.leaseTtl_eq]
  show s.leaseHours.toNat * 3600 * 1000000000 ≤ _
  omega

theorem lookahead_bounds : s.leaseTtl.nanos < s.lookahead.nanos ∧
    s.lookahead.nanos ≤ 2 * (8784 * 3600 * 1000000000) := by
  have positive := h.leaseTtl_pos
  have short := h.leaseTtl_le
  rw [nanos_lookahead]
  omega

theorem walked : schedule.pauseFrom s.leaseTtl
    ((Schedule.laterBy? now s.lookahead).getD Instant.last) now = none := by
  have steady := h.steady
  have bound := h.lookahead_bounds
  rw [Schedule.findPause, if_neg (by rw [nanos_longestLimit]; omega)] at steady
  rwa [if_neg (by rw [nanos_longestLimit]; omega)] at steady

/-- All of the time that is checked can be represented: otherwise the schedule would have to fire
shortly before the last instant, which is after the last day of every schedule. -/
theorem lookahead_le (since : 0 ≤ now.nanos) (representable : now.nanos < Instant.last.nanos) :
    (now.add s.lookahead).nanos ≤ Instant.last.nanos := by
  refine Int.not_lt.1 fun beyond => ?_
  have walked := h.walked
  rw [Schedule.laterBy?, if_neg (Int.not_le.2 beyond)] at walked
  obtain ⟨n, _, fires, later, _⟩ :=
    h.wellFormed.no_pause since walked (Int.le_refl _) representable
  have day := h.wellFormed.onDay_le (Schedule.fires_iff.1 fires).1
  have bound := h.lookahead_bounds.2
  rw [show Schedule.lastDay = 47846 from rfl] at day
  rw [show Instant.last.nanos = 8210266876799999999999 from rfl] at beyond
  simp only [Instant.add] at beyond
  omega

theorem firesWithin (since : 0 ≤ now.nanos) (representable : now.nanos < Instant.last.nanos)
    {t : Instant} (from' : now.nanos ≤ t.nanos) (before : t.nanos < (now.add s.lookahead).nanos) :
    schedule.FiresWithin s.leaseTtl t := by
  have walked := h.walked
  rw [Schedule.laterBy?, if_pos (h.lookahead_le since representable)] at walked
  exact h.wellFormed.no_pause since walked from' before

end Accepts

def longest : Settings :=
  { Settings.default with leaseHours := 8784, renewalSchedule := "@daily" }

def daily : Schedule where
  expression := "@daily"
  seconds := [0]
  minutes := [0]
  hours := [0]
  days := Schedule.Field.day.range
  months := Schedule.Field.month.range
  weekdays := Schedule.Field.weekday.range
  years := Schedule.Field.year.range

theorem longest_accepts : longest.Accepts (.ofMillis 1750000000000) daily where
  positive := by decide
  short := by decide
  attempts := by decide
  pieces := by decide
  read := by decide +kernel
  steady := by
    have limit : longest.leaseTtl = .ofSeconds (8784 * 3600) := by decide +kernel
    have ahead : longest.lookahead = .ofSeconds (2 * 8784 * 3600) := by
      decide +kernel
    have stop : Schedule.laterBy? (.ofMillis 1750000000000) (.ofSeconds (2 * 8784 * 3600)) =
      some (.ofSeconds 1813244800) := by decide +kernel
    rw [Schedule.findPause, limit, ahead, stop, if_neg (by decide), if_neg (by decide)]
    simp only [Option.getD_some]
    have first : (Schedule.laterBy? (.ofMillis 1750000000000) (.ofSeconds (8784 * 3600))).bind
      daily.lastBefore = some (.ofSeconds 1781568000) := by decide +kernel
    have second : (Schedule.laterBy? (.ofSeconds 1781568000) (.ofSeconds (8784 * 3600))).bind
      daily.lastBefore = some (.ofSeconds 1813104000) := by decide +kernel
    have third : (Schedule.laterBy? (.ofSeconds 1813104000) (.ofSeconds (8784 * 3600))).bind
      daily.lastBefore = some (.ofSeconds 1844640000) := by decide +kernel
    rw [Schedule.pauseFrom_jump (by decide) first (by decide),
      Schedule.pauseFrom_jump (by decide) second (by decide),
      Schedule.pauseFrom_jump (by decide) third (by decide)]
    exact Schedule.pauseFrom_end (by decide)

end Settings

end SlotLease
