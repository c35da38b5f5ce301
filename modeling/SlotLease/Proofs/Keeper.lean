import SlotLease.Keeper
import SlotLease.Proofs.Coordinator.Lifecycle
import SlotLease.Proofs.Settings

/-!
The keeper at work. A wait ends at its deadline, or before that if the keeper is stopped; nothing
else takes time. The store answers as it likes, and others may use the coordinator at any moment.
The keeper renews at the fire times after its start, at each of them once, and nothing but a stop,
the end of the schedule or the end of the lease makes it leave off.
-/

namespace SlotLease

open Interaction (Ends Ensures Runs)

namespace Instant

theorem add_spanTo {t later : Instant} (le : t.nanos ≤ later.nanos) :
    t.add (t.spanTo later) = later := by
  have nanos : (t.add (t.spanTo later)).nanos = later.nanos := by
    simp only [add, spanTo]
    omega
  exact congrArg Instant.mk nanos

end Instant

theorem Schedule.delay_eq (s : Schedule) (t : Instant) :
    s.delay t = (s.firstFrom (t.seconds + 1)).map fun n => t.spanTo (.ofSeconds n) := by
  rw [delay, nextAfter, Option.map_map]
  rfl

structure Schedule.FireTimes (s : Schedule) (start stop : Instant) (times : List Instant) :
    Prop where
  ascending : times.Pairwise (·.nanos < ·.nanos)
  mem_iff : ∀ t, t ∈ times ↔
    start.nanos < t.nanos ∧ t.nanos ≤ stop.nanos ∧ ∃ n, t = .ofSeconds n ∧ s.fires n = true

theorem Schedule.FireTimes.concat {s : Schedule} {start now : Instant} {times : List Instant}
    {n : Int} (h : s.FireTimes start now times) (since : start.nanos ≤ now.nanos)
    (next : First (fun n => now.nanos < n * 1000000000 ∧ s.fires n = true) (some n)) :
    s.FireTimes start (.ofSeconds n) (times ++ [.ofSeconds n]) := by
  obtain ⟨⟨later, fires⟩, least⟩ := next
  constructor
  · refine List.pairwise_append.2 ⟨h.ascending, List.pairwise_singleton .., fun t mem t' mem' => ?_⟩
    rw [List.mem_singleton] at mem'
    subst mem'
    have le := ((h.mem_iff t).1 mem).2.1
    exact Int.lt_of_le_of_lt le later
  · intro t
    rw [List.mem_append, List.mem_singleton, h.mem_iff]
    constructor
    · rintro (⟨after, before, fires⟩ | rfl)
      · exact ⟨after, Int.le_of_lt (Int.lt_of_le_of_lt before later), fires⟩
      · exact ⟨Int.lt_of_le_of_lt since later, Int.le_refl _, n, rfl, fires⟩
    · rintro ⟨after, before, m, rfl, fires⟩
      rcases Int.lt_or_le now.nanos (m * 1000000000) with new | old
      · have le := least m ⟨new, fires⟩
        simp only [Instant.ofSeconds] at before
        obtain rfl : m = n := by omega
        exact .inr rfl
      · exact .inl ⟨after, old, m, rfl, fires⟩

namespace Keeper

structure Renewal where
  time : Instant
  result : Except Error Bool
  state : LeaseState

def Renewal.IsLast (r : Renewal) : Prop := r.result = .ok false ∧ r.state.isTerminal = true

structure Watch where
  wall : Instant
  coordinator : Coordinator
  renewals : List Renewal
  stopped : Bool

namespace Watch

def times (w : Watch) : List Instant := w.renewals.map (·.time)

def latest (w : Watch) (start : Instant) : Instant := w.times.getLast?.getD start

end Watch

def Others (c c' : Coordinator) : Prop := ∃ events, Coordinator.Run c events c'

/-- A keeper is answered. Others come before and after a renewal, and at any time of a wait. -/
inductive Answers : (r : Request) → Watch → Reply r → Watch → Prop
  | now : Others w.coordinator c → Answers .now w w.wall { w with coordinator := c }
  | elapsed : Others w.coordinator c →
      Answers (.wait span) w false { w with wall := w.wall.add span, coordinator := c }
  | stopped : time.nanos ≤ span.nanos → Others w.coordinator c → Answers (.wait span) w true
      { w with wall := w.wall.add time, coordinator := c, stopped := true }
  | renewed : Others w.coordinator c → Ends c.renew (result, c') → Others c' c'' →
      Answers .renew w (result, c''.state) { w with
        coordinator := c''
        renewals := w.renewals ++ [⟨w.wall, result, c''.state⟩] }

inductive Ended (schedule : Schedule) (start : Instant) (w : Watch) : Prop
  | stopped : w.stopped = true → (w.latest start).nanos ≤ w.wall.nanos →
      (∀ n, schedule.fires n = true → (w.latest start).nanos < n * 1000000000 →
        w.wall.nanos ≤ n * 1000000000) →
      (∀ r ∈ w.renewals, ¬ r.IsLast) → Ended schedule start w
  | over : w.stopped = false →
      (∀ n, schedule.fires n = true → n * 1000000000 ≤ (w.latest start).nanos) →
      (∀ r ∈ w.renewals, ¬ r.IsLast) → Ended schedule start w
  | lost : w.stopped = false → w.renewals = earlier ++ [r] → r.IsLast →
      (∀ r' ∈ earlier, ¬ r'.IsLast) → Ended schedule start w

structure Punctual (schedule : Schedule) (start : Instant) (rounds : Nat) (w : Watch) : Prop where
  times : schedule.FireTimes start w.wall w.times
  latest : w.latest start = w.wall
  since : start.nanos ≤ w.wall.nanos
  count : w.renewals.length = rounds
  lasting : ∀ r ∈ w.renewals, ¬ r.IsLast
  running : w.stopped = false

def Fares (schedule : Schedule) (start : Instant) (rounds : Nat) (goesOn : Bool) (w : Watch) :
    Prop :=
  if goesOn then Punctual schedule start rounds w
  else schedule.FireTimes start (w.latest start) w.times ∧ Ended schedule start w

variable {schedule : Schedule} {start : Instant} {rounds : Nat} {w : Watch}

theorem isLast_iff {result : Except Error Bool} {state : LeaseState} {time : Instant} :
    isLast (result, state) = true ↔ (Renewal.mk time result state).IsLast := by
  rcases result with e | _ | _ <;> simp [isLast, Renewal.IsLast]

@[simp] theorem times_concat {renewals : List Renewal} {r : Renewal} {stopped : Bool} :
    Watch.times ⟨wall, c, renewals ++ [r], stopped⟩ = renewals.map (·.time) ++ [r.time] := by
  rw [Watch.times, List.map_append, List.map_singleton]

@[simp] theorem latest_concat {renewals : List Renewal} {r : Renewal} {stopped : Bool} :
    Watch.latest ⟨wall, c, renewals ++ [r], stopped⟩ start = r.time := by
  rw [Watch.latest, times_concat, List.getLast?_concat, Option.getD_some]

theorem punctual_start (schedule : Schedule) (start : Instant) (c : Coordinator) :
    Punctual schedule start 0 ⟨start, c, [], false⟩ where
  times := ⟨.nil, fun t => by simp [Watch.times]; omega⟩
  latest := rfl
  since := Int.le_refl _
  count := rfl
  lasting _ mem := absurd mem List.not_mem_nil
  running := rfl

theorem Punctual.over (h : Punctual schedule start rounds w)
    (none : ∀ n, ¬ (w.wall.nanos < n * 1000000000 ∧ schedule.fires n = true)) :
    Ended schedule start w := by
  refine .over h.running (fun n fires => ?_) h.lasting
  rw [h.latest]
  exact Int.not_lt.1 fun later => none n ⟨later, fires⟩

theorem Punctual.stopped (h : Punctual schedule start rounds w) {n : Int} {elapsed : Duration}
    (next : First (fun n => w.wall.nanos < n * 1000000000 ∧ schedule.fires n = true) (some n))
    (le : (w.wall.add elapsed).nanos ≤ n * 1000000000) (c : Coordinator) :
    Ended schedule start
      { w with wall := w.wall.add elapsed, coordinator := c, stopped := true } := by
  have latest : Watch.latest
      { w with wall := w.wall.add elapsed, coordinator := c, stopped := true } start = w.wall :=
    h.latest
  refine .stopped rfl ?_ (fun m fires later => ?_) h.lasting
  · rw [latest]
    simp only [Instant.add]
    omega
  · rw [latest] at later
    exact Int.le_trans le (Int.mul_le_mul_of_nonneg_right (next.2 m ⟨later, fires⟩) (by decide))

theorem Punctual.renewed (h : Punctual schedule start rounds w) {n : Int}
    (next : First (fun n => w.wall.nanos < n * 1000000000 ∧ schedule.fires n = true) (some n))
    (result : Except Error Bool) (c : Coordinator) :
    Fares schedule start (rounds + 1) (!isLast (result, c.state)) { w with
      wall := .ofSeconds n
      coordinator := c
      renewals := w.renewals ++ [⟨.ofSeconds n, result, c.state⟩] } := by
  have times := h.times.concat h.since next
  cases last : isLast (result, c.state) with
  | true =>
    refine ⟨?_, .lost h.running rfl (isLast_iff.1 last) h.lasting⟩
    rw [latest_concat, times_concat]
    exact times
  | false =>
    refine ⟨?_, latest_concat, Int.le_trans h.since (Int.le_of_lt next.1.1), ?_, ?_, h.running⟩
    · rw [times_concat]
      exact times
    · rw [List.length_append, h.count]
      rfl
    · intro r mem
      rcases List.mem_append.1 mem with old | new
      · exact h.lasting r old
      · obtain rfl := List.mem_singleton.1 new
        rw [← isLast_iff, last]
        nofun

theorem Punctual.round (h : Punctual schedule start rounds w) (wellFormed : schedule.WellFormed)
    (from' : 0 ≤ start.nanos) :
    Ensures Answers (round schedule) (Fares schedule start (rounds + 1)) w := by
  have next := wellFormed.nextAfter (Int.le_trans from' h.since)
  rw [Keeper.round, Interaction.ensures_bind]
  intro now w₁ answered
  cases answered
  rename_i c _
  have h : Punctual schedule start rounds { w with coordinator := c } := { h with }
  have times : schedule.FireTimes start (Watch.latest { w with coordinator := c } start) w.times :=
    h.latest ▸ h.times
  rw [Interaction.ensures_done, Schedule.delay_eq]
  cases found : schedule.firstFrom (w.wall.seconds + 1) with
  | none =>
    rw [found] at next
    exact ⟨times, h.over next⟩
  | some n =>
    rw [found] at next
    have deadline : w.wall.add (w.wall.spanTo (.ofSeconds n)) = .ofSeconds n :=
      Instant.add_spanTo (Int.le_of_lt next.1.1)
    simp only [Option.map_some, Interaction.ensures_bind]
    intro stopped w₂ answered
    cases answered with
    | stopped le others =>
      rename_i elapsed
      have deadline : w.wall.nanos + (w.wall.spanTo (.ofSeconds n)).nanos = n * 1000000000 :=
        congrArg Instant.nanos deadline
      have le' : (w.wall.add elapsed).nanos ≤ n * 1000000000 := by
        show w.wall.nanos + elapsed.nanos ≤ _
        omega
      exact ⟨times, h.stopped next le' _⟩
    | elapsed others =>
      intro reply w₃ answered
      cases answered with
      | renewed others ended others' =>
        rw [deadline]
        exact h.renewed next _ _

theorem Punctual.run (h : Punctual schedule start done w) (wellFormed : schedule.WellFormed)
    (from' : 0 ≤ start.nanos) (rounds : Nat) :
    Ensures Answers (run schedule rounds) (Fares schedule start (done + rounds)) w := by
  induction rounds generalizing done w with
  | zero => exact h
  | succ rounds ih =>
    rw [Keeper.run, Interaction.ensures_bind]
    refine (h.round wellFormed from').mono fun goesOn w' stands => ?_
    cases goesOn with
    | true =>
      rw [← Nat.succ_add_eq_add_succ]
      exact ih stands
    | false => exact stands

theorem run_add (schedule : Schedule) (rounds more : Nat) :
    run schedule (rounds + more) =
      run schedule rounds >>= fun goesOn => if goesOn then run schedule more else pure false := by
  induction rounds with
  | zero =>
    rw [Nat.zero_add]
    rfl
  | succ rounds ih =>
    rw [Nat.succ_add, run, run, bind_assoc, ih]
    refine congrArg (round schedule >>= ·) (funext fun goesOn => ?_)
    cases goesOn <;> rfl

theorem Others.refl (c : Coordinator) : Others c c := ⟨[], .start⟩

instance (r : Lease.Request) : Nonempty (Lease.Reply r) := by
  rcases r with call | time
  · exact ⟨.error (.unavailable "")⟩
  · exact ⟨()⟩

theorem exists_answers (r : Request) (w : Watch) : ∃ reply w', Answers r w reply w' := by
  cases r with
  | now => exact ⟨_, _, .now (.refl _)⟩
  | wait span => exact ⟨_, _, .elapsed (.refl _)⟩
  | renew =>
    obtain ⟨⟨result, c⟩, ends⟩ := Interaction.exists_ends w.coordinator.renew
    exact ⟨_, _, .renewed (.refl _) ends (.refl _)⟩

theorem runs_round {span : Duration} (delay : schedule.delay w.wall = some span)
    (ends : Ends w.coordinator.renew (result, c)) :
    Runs Answers (round schedule) w (!isLast (result, c.state)) { w with
      wall := w.wall.add span
      coordinator := c
      renewals := w.renewals ++ [⟨w.wall.add span, result, c.state⟩] } := by
  rw [round]
  refine .ask (.now (.refl _)) ?_
  simp only [Interaction.bind_done, delay]
  exact .ask (.elapsed (.refl _)) (.ask (.renewed (.refl _) ends (.refl _)) .done)

/-- The renewals of a keeper are at the fire times after its start, one at each, up to the last of
them. It has one for every round, unless it was stopped, the schedule is over, or the last renewal
found that the lease has ended; and then it asks for nothing any more. -/
theorem renews_at_fire_times {expression : String}
    (read : Schedule.ofString? expression = some schedule) (since : 0 ≤ start.nanos)
    (c : Coordinator) (rounds : Nat) :
    (∃ goesOn w, Runs Answers (run schedule rounds) ⟨start, c, [], false⟩ goesOn w) ∧
      (∀ goesOn w, Runs Answers (run schedule rounds) ⟨start, c, [], false⟩ goesOn w →
        schedule.FireTimes start (w.latest start) w.times ∧
        (goesOn = true → w.renewals.length = rounds ∧ w.stopped = false ∧
          ∀ r ∈ w.renewals, ¬ r.IsLast) ∧
        (goesOn = false → Ended schedule start w)) ∧
      ∀ more, run schedule (rounds + more) =
        run schedule rounds >>= fun goesOn =>
          if goesOn then run schedule more else pure false := by
  refine ⟨?_, fun goesOn w run => ?_, run_add schedule rounds⟩
  · obtain ⟨goesOn, w, run, _⟩ := Interaction.exists_runs (I := fun _ => True)
      (fun r w _ => (exists_answers r w).imp fun _ => .imp fun _ answered => ⟨answered, trivial⟩)
      (Keeper.run schedule rounds) trivial
    exact ⟨goesOn, w, run⟩
  · have stands := run.ensured
      ((punctual_start schedule start c).run (Schedule.wellFormed_of_ofString? read) since rounds)
    cases goesOn with
    | true =>
      have punctual : Punctual schedule start (0 + rounds) w := stands
      rw [Nat.zero_add] at punctual
      exact ⟨punctual.latest ▸ punctual.times,
        fun _ => ⟨punctual.count, punctual.running, punctual.lasting⟩, nofun⟩
    | false => exact ⟨stands.1, nofun, fun _ => stands.2⟩

theorem renews_at_fire_times_daily :
    let start := Instant.ofMillis 500
    let c := Coordinator.standard.holding ⟨0, 0⟩
    ∃ w, Schedule.ofString? "@daily" = some Settings.daily ∧ 0 ≤ start.nanos ∧
      Runs Answers (run Settings.daily 5) ⟨start, c, [], false⟩ false w ∧
      w.renewals = [⟨.ofSeconds 86400, .error (.store (.unavailable "")), .bound ⟨0, 0⟩⟩,
        ⟨.ofSeconds 172800, .ok false, .expired ⟨0, 0⟩⟩] ∧
      Settings.daily.FireTimes start (.ofSeconds 172800) w.times ∧
      Ended Settings.daily start w := by
  intro start c
  have read : Schedule.ofString? "@daily" = some Settings.daily := Settings.longest_accepts.read
  have since : 0 ≤ start.nanos := by decide
  have failing : Ends c.renew (.error (.store (.unavailable "")), c) :=
    .ask (.error (.unavailable "")) .done
  have losing : Ends c.renew (.ok false, c.losing ⟨0, 0⟩) := .ask (.ok false) .done
  have midnight : Settings.daily.delay start = some ⟨86399500000000⟩ := by decide +kernel
  have another : Settings.daily.delay (.ofSeconds 86400) = some (.ofSeconds 86400) := by
    decide +kernel
  have first := runs_round (w := ⟨start, c, [], false⟩) midnight failing
  have second := runs_round
    (w := ⟨.ofSeconds 86400, c, [⟨.ofSeconds 86400, .error (.store (.unavailable "")), c.state⟩],
      false⟩) another losing
  have run : Runs Answers (Keeper.run Settings.daily 5) ⟨start, c, [], false⟩ false _ :=
    Interaction.runs_bind first (Interaction.runs_bind second .done)
  obtain ⟨times, _, ended⟩ := (renews_at_fire_times read since c 5).2.1 false _ run
  exact ⟨_, read, since, run, rfl, times, ended rfl⟩

end Keeper

end SlotLease
