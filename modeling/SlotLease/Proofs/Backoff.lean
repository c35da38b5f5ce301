import Mathlib.Algebra.Group.Nat.Defs
import SlotLease.Proofs.Retry
import SlotLease.Proofs.Settings

namespace SlotLease.Retry

open Lease

variable {r : Retry} {call : Store.Call} {outcomes : Outcomes}

def capped (r : Retry) (k : Nat) : Duration :=
  .ofMillis (min (r.initialBackoffMillis.toNat * 2 ^ k) r.maxBackoffMillis.toNat)

def sleeps (r : Retry) (call : Store.Call) (outcomes : Outcomes) : List Duration :=
  (((r.run call).run (script outcomes)).run []).2.filterMap Event.slept?

theorem nanos_nextBackoff (r : Retry) (backoff : Duration) :
    (r.nextBackoff backoff).nanos = min (2 * backoff.nanos) r.maxBackoff.nanos := by
  rw [nextBackoff, Duration.nanos_min, Duration.nanos_double]

theorem nanos_capped (r : Retry) (k : Nat) :
    (r.capped k).nanos = min (2 ^ k * r.initialBackoff.nanos) r.maxBackoff.nanos := by
  show min (r.initialBackoffMillis.toNat * 2 ^ k) r.maxBackoffMillis.toNat * 1000000 =
    min (2 ^ k * (r.initialBackoffMillis.toNat * 1000000)) (r.maxBackoffMillis.toNat * 1000000)
  rw [← Nat.mul_assoc, Nat.mul_comm (2 ^ k), Nat.mul_min_mul_right]

theorem backoff_succ (r : Retry) (k : Nat) : r.backoff (k + 1) = r.capped (k + 1) := by
  apply Duration.eq_of_nanos
  induction k with
  | zero =>
    rw [backoff, backoff, nanos_nextBackoff, nanos_capped, Nat.pow_succ', Nat.pow_zero, Nat.mul_one]
  | succ k ih =>
    rw [backoff, nanos_nextBackoff, ih, nanos_capped, nanos_capped, Nat.pow_succ' (n := k + 1),
      Nat.mul_assoc 2]
    omega

theorem filterMap_rounds (n : Nat) :
    (r.rounds call outcomes n).filterMap Event.slept? = (List.range n).map r.backoff := by
  induction n with
  | zero => rfl
  | succ n ih =>
    rw [rounds_succ, List.filterMap_append, ih, List.range_succ, List.map_append]
    rfl

theorem exists_sleeps_eq (r : Retry) (call : Store.Call) (outcomes : Outcomes) :
    ∃ first n, First (fun n => ∃ value, outcomes n call = .ok value) first ∧
      n + 1 = r.calls first ∧ r.sleeps call outcomes = (List.range n).map r.backoff := by
  obtain ⟨first, isFirst⟩ := exists_first fun n => ∃ value, outcomes n call = .ok value
  obtain ⟨n, stops, same⟩ := r.run_script call outcomes
  refine ⟨first, n, isFirst, stops.calls_eq isFirst, ?_⟩
  rw [sleeps, same, trace, List.filterMap_append, filterMap_rounds]
  exact List.append_nil _

theorem initialBackoff_le_iff (r : Retry) :
    r.initialBackoff.nanos ≤ r.maxBackoff.nanos ↔ r.initialBackoffMillis ≤ r.maxBackoffMillis := by
  rw [UInt64.le_iff_toNat_le]
  exact Nat.mul_le_mul_right_iff (by decide)

theorem nanos_capped_le (r : Retry) (k : Nat) : (r.capped k).nanos ≤ r.maxBackoff.nanos := by
  rw [nanos_capped]
  exact Nat.min_le_right ..

theorem backoff_zero_eq (ordered : r.initialBackoffMillis ≤ r.maxBackoffMillis) :
    r.backoff 0 = r.capped 0 := by
  have le := r.initialBackoff_le_iff.2 ordered
  apply Duration.eq_of_nanos
  rw [nanos_capped, backoff]
  omega

theorem backoff_eq (ordered : r.initialBackoffMillis ≤ r.maxBackoffMillis) :
    ∀ k, r.backoff k = r.capped k
  | 0 => backoff_zero_eq ordered
  | k + 1 => r.backoff_succ k

theorem forall_backoff_eq_iff (n : Nat) : (∀ k < n, r.backoff k = r.capped k) ↔
    n = 0 ∨ r.initialBackoffMillis ≤ r.maxBackoffMillis := by
  constructor
  · intro all
    cases n with
    | zero => exact .inl rfl
    | succ n =>
      have first : r.initialBackoff = r.capped 0 := all 0 n.succ_pos
      exact .inr (r.initialBackoff_le_iff.1 (first ▸ r.nanos_capped_le 0))
  · rintro (rfl | ordered) k before
    · exact absurd before (Nat.not_lt_zero k)
    · exact backoff_eq ordered k

theorem forall_backoff_le_iff (n : Nat) : (∀ k < n, (r.backoff k).nanos ≤ r.maxBackoff.nanos) ↔
    n = 0 ∨ r.initialBackoffMillis ≤ r.maxBackoffMillis := by
  constructor
  · intro all
    cases n with
    | zero => exact .inl rfl
    | succ n => exact .inr (r.initialBackoff_le_iff.1 (all 0 n.succ_pos))
  · intro capped k before
    rw [(forall_backoff_eq_iff n).2 capped k before]
    exact r.nanos_capped_le k

/-- In every run each sleep but the first is the doubled first one, cut to the maximum. That the
first one is so too, or no longer than the maximum, holds exactly if the initial length is no longer
than that, unless a single call is made and nothing slept. -/
theorem sleeps_capped_iff (r : Retry) (call : Store.Call) (outcomes : Outcomes) :
    ∃ first, First (fun n => ∃ value, outcomes n call = .ok value) first ∧
      r.sleeps call outcomes = (List.range (r.calls first - 1)).map
        (fun k => if k = 0 then r.initialBackoff else r.capped k) ∧
      ((∀ k time, (r.sleeps call outcomes)[k]? = some time → time = r.capped k) ↔
        r.calls first = 1 ∨ r.initialBackoffMillis ≤ r.maxBackoffMillis) ∧
      ((∀ time ∈ r.sleeps call outcomes, time.nanos ≤ r.maxBackoff.nanos) ↔
        r.calls first = 1 ∨ r.initialBackoffMillis ≤ r.maxBackoffMillis) := by
  obtain ⟨first, n, isFirst, count, same⟩ := r.exists_sleeps_eq call outcomes
  have single : r.calls first = 1 ↔ n = 0 := by omega
  have length : r.calls first - 1 = n := by omega
  refine ⟨first, isFirst, ?_, ?_, ?_⟩
  · rw [same, length]
    refine List.map_congr_left fun k _ => ?_
    cases k with
    | zero => rfl
    | succ k => exact r.backoff_succ k
  · rw [same, single, ← forall_backoff_eq_iff]
    constructor
    · intro all k before
      exact all k (r.backoff k) (by simp [before])
    · intro all k time found
      rw [List.getElem?_map] at found
      obtain ⟨_, here, rfl⟩ := Option.map_eq_some_iff.1 found
      obtain ⟨before, rfl⟩ := List.getElem?_eq_some_iff.1 here
      rw [List.getElem_range]
      exact all k (by simpa using before)
  · rw [same, single, ← forall_backoff_le_iff]
    simp

theorem slept_beyond_maximum :
    let s : Settings := { Settings.longest with retry := ⟨3, 5000, 1000⟩ }
    s.check (.ofMillis 1750000000000) = .ok Settings.daily ∧
      s.retry.sleeps (.list "SNOWFLAKE:NODE:") (fun _ _ => .error (.unavailable "down")) =
        [.ofMillis 5000, .ofMillis 1000] ∧
      s.retry.maxBackoff = .ofMillis 1000 ∧ s.retry.capped 0 = .ofMillis 1000 := by
  have accepts := Settings.longest_accepts
  refine ⟨Settings.check_eq_ok.2 ?_, by decide +kernel, rfl, by decide⟩
  exact ⟨accepts.positive, accepts.short, by decide, accepts.pieces, accepts.read, accepts.steady⟩

end SlotLease.Retry
