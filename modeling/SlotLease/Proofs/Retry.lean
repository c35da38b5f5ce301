import Mathlib.Data.Nat.Find
import SlotLease.Proofs.Interaction
import SlotLease.Proofs.Schedule.Next
import SlotLease.Retry

namespace SlotLease

open Interaction

theorem exists_first (p : Nat → Prop) : ∃ first, First p first := by
  classical
  by_cases some : ∃ n, p n
  · exact ⟨.some (Nat.find some), Nat.find_spec some, fun _ holds => Nat.find_min' some holds⟩
  · exact ⟨none, fun n holds => some ⟨n, holds⟩⟩

namespace Duration

def limit : Nat := UInt64.size * 1000000000

theorem nanos_min (a b : Duration) : (a.min b).nanos = Min.min a.nanos b.nanos := by
  rw [Duration.min]
  split <;> omega

end Duration

namespace Lease

structure Event where
  request : Request
  reply : Reply request

namespace Event

def call (call : Store.Call) (reply : call.Reply) : Event := ⟨.store call, reply⟩

def sleep (time : Duration) : Event := ⟨.sleep time, ()⟩

def isCall : Event → Bool
  | ⟨.store _, _⟩ => true
  | ⟨.sleep _, _⟩ => false

def slept? : Event → Option Duration
  | ⟨.store _, _⟩ => none
  | ⟨.sleep time, _⟩ => some time

end Event

abbrev Outcomes : Type := Nat → (call : Store.Call) → call.Reply

def script (outcomes : Outcomes) : (r : Request) → StateM (List Event) (Reply r)
  | .store call => modifyGet fun events =>
    let reply := outcomes (events.countP Event.isCall) call
    (reply, events ++ [.call call reply])
  | .sleep time => modify (· ++ [.sleep time])

end Lease

open Lease

namespace Retry

def backoff (r : Retry) : Nat → Duration
  | 0 => r.initialBackoff
  | k + 1 => r.nextBackoff (r.backoff k)

def calls (r : Retry) : Option Nat → Nat
  | some n => min (n + 1) r.attempts
  | none => r.attempts

section Script

variable (r : Retry) (call : Store.Call) (outcomes : Outcomes)

def round (k : Nat) : List Event := [.call call (outcomes k call), .sleep (r.backoff k)]

def rounds (n : Nat) : List Event := (List.range n).flatMap (r.round call outcomes)

def trace (n : Nat) : List Event := r.rounds call outcomes n ++ [.call call (outcomes n call)]

inductive Verdict : Option Nat → Except Error call.Value → Prop
  | succeeded : n < r.attempts → outcomes n call = .ok value → Verdict (some n) (.ok value)
  | spent : (∀ n, first = some n → r.attempts ≤ n) →
      outcomes (r.attempts - 1) call = .error cause →
      Verdict first (.error (.storeUnavailable call.operation r.attempts cause))

end Script

variable {r : Retry} {call : Store.Call} {outcomes : Outcomes} {n : Nat} {first : Option Nat}

structure Stops (r : Retry) (call : Store.Call) (outcomes : Outcomes) (n : Nat) : Prop where
  within : n < r.attempts
  failed : ∀ k < n, ∃ cause, outcomes k call = .error cause
  ends : (∃ value, outcomes n call = .ok value) ∨ n + 1 = r.attempts

theorem attempts_pos (r : Retry) : 0 < r.attempts := Nat.le_max_left ..

theorem rounds_succ (n : Nat) :
    r.rounds call outcomes (n + 1) = r.rounds call outcomes n ++ r.round call outcomes n := by
  rw [rounds, rounds, List.range_succ, List.flatMap_append, List.flatMap_singleton]

@[simp] theorem countP_rounds (n : Nat) :
    (r.rounds call outcomes n).countP Event.isCall = n := by
  induction n with
  | zero => rfl
  | succ n ih =>
    rw [rounds_succ, List.countP_append, ih]
    rfl

theorem countP_trace (n : Nat) : (r.trace call outcomes n).countP Event.isCall = n + 1 := by
  rw [trace, List.countP_append, countP_rounds]
  rfl

theorem call_script (k : Nat) :
    ((Lease.call call).run (script outcomes)).run (r.rounds call outcomes k) =
      (outcomes k call, r.trace call outcomes k) := by
  show (outcomes ((r.rounds call outcomes k).countP Event.isCall) call, _) = _
  rw [trace, countP_rounds]

theorem sleep_script (k : Nat) :
    ((Lease.sleep (r.backoff k)).run (script outcomes)).run (r.trace call outcomes k) =
      ((), r.rounds call outcomes (k + 1)) := by
  rw [rounds_succ]
  exact congrArg (Prod.mk ()) (List.append_assoc ..)

theorem attempt_script (left k : Nat) (count : k + left + 1 = r.attempts)
    (failed : ∀ m < k, ∃ cause, outcomes m call = .error cause) :
    ∃ n, r.Stops call outcomes n ∧
      ((r.attempt call left (r.backoff k)).run (script outcomes)).run (r.rounds call outcomes k) =
        ((outcomes n call).mapError (.storeUnavailable call.operation r.attempts),
          r.trace call outcomes n) := by
  induction left generalizing k with
  | zero =>
    refine ⟨k, ⟨by omega, failed, .inr (by omega)⟩, ?_⟩
    rw [attempt, run_bind, call_script]
    cases outcomes k call <;> rfl
  | succ left ih =>
    rw [attempt, run_bind, call_script]
    cases outcome : outcomes k call with
    | ok value =>
      refine ⟨k, ⟨by omega, failed, .inl ⟨value, outcome⟩⟩, ?_⟩
      rw [outcome]
      rfl
    | error cause =>
      obtain ⟨n, stops, same⟩ := ih (k + 1) (by omega) fun m earlier => by
        rcases Nat.lt_succ_iff_lt_or_eq.1 earlier with earlier | rfl
        · exact failed m earlier
        · exact ⟨cause, outcome⟩
      refine ⟨n, stops, ?_⟩
      rw [run_bind, sleep_script]
      exact same

theorem run_script (r : Retry) (call : Store.Call) (outcomes : Outcomes) :
    ∃ n, r.Stops call outcomes n ∧ ((r.run call).run (script outcomes)).run [] =
      ((outcomes n call).mapError (.storeUnavailable call.operation r.attempts),
        r.trace call outcomes n) := by
  have := r.attempts_pos
  exact attempt_script (r.attempts - 1) 0 (by omega) nofun

theorem Stops.calls_eq (stops : r.Stops call outcomes n)
    (isFirst : First (fun n => ∃ value, outcomes n call = .ok value) first) :
    n + 1 = r.calls first := by
  have within := stops.within
  cases first with
  | none =>
    rcases stops.ends with success | last
    · exact absurd success (isFirst n)
    · exact last
  | some m =>
    obtain ⟨⟨value, success⟩, least⟩ := isFirst
    have notBefore : n ≤ m := by
      refine Nat.not_lt.1 fun earlier => ?_
      obtain ⟨cause, failure⟩ := stops.failed m earlier
      rw [success] at failure
      cases failure
    rw [calls]
    rcases stops.ends with success | last
    · have := least n success
      omega
    · omega

theorem Stops.verdict (stops : r.Stops call outcomes n)
    (isFirst : First (fun n => ∃ value, outcomes n call = .ok value) first) :
    r.Verdict call outcomes first
      ((outcomes n call).mapError (.storeUnavailable call.operation r.attempts)) := by
  have count := stops.calls_eq isFirst
  have within := stops.within
  cases outcome : outcomes n call with
  | ok value =>
    cases first with
    | none => exact absurd ⟨value, outcome⟩ (isFirst n)
    | some m =>
      have notLater := isFirst.2 n ⟨value, outcome⟩
      obtain rfl : n = m := by
        rw [calls] at count
        omega
      exact .succeeded within outcome
  | error cause =>
    have last : n = r.attempts - 1 := by
      rcases stops.ends with ⟨value, success⟩ | last
      · rw [outcome] at success
        cases success
      · omega
    refine .spent ?_ (last ▸ outcome)
    rintro m rfl
    rw [calls] at count
    have other : m ≠ n := by
      rintro rfl
      obtain ⟨value, success⟩ := isFirst.1
      rw [outcome] at success
      cases success
    omega

def lastAttempt (r : Retry) : UInt32 := max 1 r.maxAttempts

theorem toNat_lastAttempt (r : Retry) : r.lastAttempt.toNat = r.attempts := by
  show (if 1 ≤ r.maxAttempts then r.maxAttempts else 1).toNat = max 1 r.maxAttempts.toNat
  split
  · rename_i le
    exact (Nat.max_eq_right (UInt32.le_iff_toNat_le.1 le)).symm
  · rename_i less
    exact (Nat.max_eq_left (Nat.le_of_lt (UInt32.lt_iff_toNat_lt.1 (UInt32.not_le.1 less)))).symm

theorem toNat_succ {attempt : UInt32} (fits : attempt.toNat + 1 < UInt32.size) :
    (attempt + 1).toNat = attempt.toNat + 1 := by
  rw [UInt32.toNat_add]
  exact Nat.mod_eq_of_lt fits

/-- The retries with what they count in words: the attempts in one of 32 bits, and a span as such.
There is no result if an addition or a doubling overflows. -/
def counted (r : Retry) (call : Store.Call) (attempt : UInt32) (backoff : Duration) :
    Lease.Program (Option (Except Error call.Value)) := do
  match ← Lease.call call with
  | .ok value => return some (.ok value)
  | .error cause =>
    if last : r.lastAttempt ≤ attempt then
      return some (.error (.storeUnavailable call.operation r.lastAttempt.toNat cause))
    else
      Lease.sleep backoff
      if fits : attempt.toNat + 1 < UInt32.size ∧ backoff.double.nanos < Duration.limit then
        r.counted call (attempt + 1) (r.nextBackoff backoff)
      else
        return none
termination_by r.lastAttempt.toNat - attempt.toNat
decreasing_by
  have less : attempt.toNat < r.lastAttempt.toNat := UInt32.lt_iff_toNat_lt.1 (UInt32.not_le.1 last)
  have next := toNat_succ fits.1
  omega

def Short (backoff : Duration) : Prop := backoff.nanos < UInt64.size * 1000000

theorem short_ofMillis (millis : UInt64) : Short (.ofMillis millis.toNat) :=
  Nat.mul_lt_mul_of_pos_right millis.toNat_lt_size (by decide)

theorem short_nextBackoff (r : Retry) (backoff : Duration) : Short (r.nextBackoff backoff) := by
  have bound : r.maxBackoff.nanos < UInt64.size * 1000000 := short_ofMillis r.maxBackoffMillis
  rw [Short, nextBackoff, Duration.nanos_min]
  exact Nat.lt_of_le_of_lt (Nat.min_le_right ..) bound

theorem Short.double {backoff : Duration} (short : Short backoff) :
    backoff.double.nanos < Duration.limit := by
  rw [Short] at short
  show backoff.nanos * 2 < UInt64.size * 1000000000
  omega

theorem counted_eq (left : Nat) (attempt : UInt32) (backoff : Duration)
    (count : attempt.toNat + left = r.attempts) (short : Short backoff) :
    r.counted call attempt backoff = some <$> r.attempt call left backoff := by
  -- no attempt is counted past the last one, which is a word
  have word : r.attempts < UInt32.size := r.toNat_lastAttempt ▸ r.lastAttempt.toNat_lt_size
  induction left generalizing attempt backoff with
  | zero =>
    have last : r.lastAttempt ≤ attempt := by
      rw [UInt32.le_iff_toNat_le, toNat_lastAttempt]
      omega
    rw [counted, Retry.attempt, map_bind]
    congr 1
    funext reply
    cases reply with
    | ok value => rfl
    | error cause =>
      simp only [dif_pos last, toNat_lastAttempt]
      rfl
  | succ left ih =>
    have notLast : ¬ r.lastAttempt ≤ attempt := by
      rw [UInt32.le_iff_toNat_le, toNat_lastAttempt]
      omega
    have fits : attempt.toNat + 1 < UInt32.size := by omega
    rw [counted, Retry.attempt, map_bind]
    congr 1
    funext reply
    cases reply with
    | ok value => rfl
    | error cause =>
      simp only [dif_neg notLast, dif_pos (And.intro fits short.double), map_bind]
      congr 1
      funext _
      refine ih _ _ ?_ (r.short_nextBackoff backoff)
      rw [toNat_succ fits]
      omega

/-- For every sequence of outcomes a retried call is made up to its first success and so often as
there are attempts at most, with one sleep between any two calls; it ends with that success or with
the error of the last call, and no counter overflows. -/
theorem run_bounded (r : Retry) (call : Store.Call) (outcomes : Outcomes) :
    ∃ first result events, First (fun n => ∃ value, outcomes n call = .ok value) first ∧
      ((r.run call).run (script outcomes)).run [] = (result, events) ∧
      events.countP Event.isCall = r.calls first ∧
      events = r.trace call outcomes (r.calls first - 1) ∧
      r.Verdict call outcomes first result ∧
      r.counted call 1 r.initialBackoff = some <$> r.run call := by
  obtain ⟨first, isFirst⟩ := exists_first fun n => ∃ value, outcomes n call = .ok value
  obtain ⟨n, stops, same⟩ := r.run_script call outcomes
  have count := stops.calls_eq isFirst
  refine ⟨first, _, _, isFirst, same, ?_, ?_, stops.verdict isFirst, ?_⟩
  · rw [countP_trace, count]
  · rw [← count, Nat.add_sub_cancel]
  · have positive := r.attempts_pos
    refine counted_eq _ _ _ ?_ (short_ofMillis _)
    show 1 + (r.attempts - 1) = r.attempts
    omega

section Ensures

variable {W : Type} {answers : (r : Request) → W → Reply r → W → Prop} {I : W → Prop}
  {Q : Except Error call.Value → W → Prop} {w : W}

theorem run_upholds (r : Retry)
    (made : ∀ w, I w → Ensures answers (Lease.call call) (fun reply w' => match reply with
      | .ok value => Q (.ok value) w'
      | .error cause => I w' ∧ Q (.error (.storeUnavailable call.operation r.attempts cause)) w') w)
    (slept : ∀ time w, I w → Ensures answers (Lease.sleep time) (fun _ w' => I w') w)
    (start : I w) : Ensures answers (r.run call) Q w := by
  have attempt : ∀ left backoff w, I w → Ensures answers (r.attempt call left backoff) Q w := by
    intro left
    induction left with
    | zero =>
      intro backoff w before
      rw [Retry.attempt, ensures_bind]
      refine (made w before).mono fun reply w' h => ?_
      cases reply with
      | error cause => exact h.2
      | ok value => exact h
    | succ left ih =>
      intro backoff w before
      rw [Retry.attempt, ensures_bind]
      refine (made w before).mono fun reply w' h => ?_
      cases reply with
      | ok value => exact h
      | error cause =>
        rw [ensures_bind]
        exact (slept backoff w' h.1).mono fun _ w'' kept => ih _ w'' kept
  exact attempt _ _ w start

end Ensures

end Retry

end SlotLease
