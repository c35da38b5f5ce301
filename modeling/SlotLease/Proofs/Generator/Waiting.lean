import SlotLease.Proofs.Generator.Agreement
import SlotLease.Proofs.Generator.Contest

namespace SlotLease

open Interaction

inductive Outcome.Fails : Outcome Poll → Prop
  | pending : Fails (.value (.pending wait))
  | behind : Fails (.error (.clockRegression last now))
  | early : Fails (.error (.clockBeforeEpoch now epoch))
  | beyond : Fails (.error (.timestampOverflow offset))

theorem Outcome.Fails.not_ready {outcome : Outcome Poll} (h : outcome.Fails) :
    outcome.ready? = none := by
  cases h <;> rfl

def Outcome.answer? : Outcome Poll → Option (Outcome Id)
  | .value (.ready id) => some (.value id)
  | .value (.pending _) => none
  | .error e => some (.error e)
  | .aborted => some .aborted

inductive Thins : List UInt64 → List Attempt → List UInt64 → List Attempt → Prop
  | nil : Thins [] [] [] []
  | keep : Thins readings history readings' history' →
      Thins (now :: readings) (a :: history) (now :: readings') (a :: history')
  | drop : a.outcome.Fails → Thins readings history readings' history' →
      Thins (now :: readings) (a :: history) readings' history'

def Clock.endless (readings : Nat → UInt64) : (r : Request) → StateM Nat (Reply r)
  | .read => fun taken => (some (readings taken), taken + 1)

namespace Locked

def pollAt (g : Locked) (now : UInt64) : Outcome Poll × Locked :=
  (g.poll.run Clock.scripted [some now]).1

def call (g : Locked) (readings : Nat → UInt64) (spins : Nat) :
    (Option (Outcome Id) × Locked) × Nat :=
  (g.next spins).run (Clock.endless readings) 0

end Locked

namespace Shared

def endless (readings : Nat → UInt64) : (r : Request) → StateT Id (StateM Nat) (Reply r)
  | .load => fun word => return (word, word)
  | .clock => fun word => return (← Clock.endless readings .read, word)
  | .exchange seen new => fun word => return if word = seen then (true, new) else (false, word)

def pollAt (g : Shared) (word : Id) (now : UInt64) : Outcome Poll × Id :=
  ((g.poll.run scripted).run word [some now]).1

def call (g : Shared) (word : Id) (readings : Nat → UInt64) (spins : Nat) :
    (Option (Outcome Id) × Id) × Nat :=
  ((g.next spins).run (endless readings)).run word 0

end Shared

namespace Generator

variable {σ : Type} {epoch now : UInt64} {last id : Id} {slot : Slot} {readings : Nat → UInt64}
  {keeps : Id → σ} {poll : UInt64 → Outcome Poll × σ}
  {call : (Nat → UInt64) → Nat → (Option (Outcome Id) × σ) × Nat}

def Within (epoch : UInt64) (last : Id) (now : UInt64) : Prop :=
  epoch ≤ now ∧ now - epoch = last.timestamp

instance : Decidable (Within epoch last now) := inferInstanceAs (Decidable (_ ∧ _))

theorem trail_of_thins {readings readings' : List UInt64} {history : List Attempt}
    (thins : Thins readings (trail epoch last readings) readings' history) :
    trail epoch last readings' = history := by
  induction readings generalizing last readings' history with
  | nil =>
    cases thins
    rfl
  | cons now rest ih =>
    cases thins with
    | keep thins => exact congrArg (_ :: ·) (ih thins)
    | drop fails thins =>
      rw [follow_of_not_ready fails.not_ready] at thins
      exact ih thins

/-- Polls that failed leave no trace in the others, for either kind of generator. -/
theorem failures_traceless (inRange : slot.InRange) (epoch : Duration) (readings : List UInt64) :
    (∃ g, Locked.create slot epoch = .ok g ∧
      (g.history readings).map (·.consumed) = readings.map ([some ·]) ∧
        ∀ readings' kept, Thins readings (g.history readings) readings' kept →
          g.history readings' = kept) ∧
      ∃ g, Shared.create slot epoch = .ok g ∧
        (g.history readings).map (·.consumed) = readings.map ([some ·]) ∧
          ∀ readings' kept, Thins readings (g.history readings) readings' kept →
            g.history readings' = kept := by
  constructor
  · refine ⟨_, Locked.create_of_inRange inRange epoch, ?_⟩
    simp only [Locked.history_eq_trail]
    exact ⟨trail_consumed .., fun _ _ => trail_of_thins⟩
  · refine ⟨_, Shared.create_of_inRange inRange epoch, ?_⟩
    simp only [Shared.history_eq_trail]
    exact ⟨trail_consumed .., fun _ _ => trail_of_thins⟩

theorem failures_traceless_thinned : ∃ g kept, Shared.create ⟨0, 31⟩ Epoch.standard = .ok g ∧
    Thins [1288834974657, 0, 1288834974666, 1288834974661, 1288834974666]
      (g.history [1288834974657, 0, 1288834974666, 1288834974661, 1288834974666])
      [1288834974657, 1288834974666, 1288834974661, 1288834974666] kept ∧
    g.history [1288834974657, 1288834974666, 1288834974661, 1288834974666] = kept ∧
    kept.map (·.outcome) = [.value (.ready ⟨126977⟩), .value (.ready ⟨37875712⟩),
      .error (.clockRegression 1288834974666 1288834974661), .value (.ready ⟨37875713⟩)] := by
  have inRange : Slot.InRange ⟨0, 31⟩ := by decide
  obtain ⟨g, created, _, traceless⟩ := (failures_traceless inRange Epoch.standard
    [1288834974657, 0, 1288834974666, 1288834974661, 1288834974666]).2
  have history : g.history [1288834974657, 0, 1288834974666, 1288834974661, 1288834974666] =
      [⟨[some 1288834974657], .value (.ready ⟨126977⟩)⟩,
        ⟨[some 0], .error (.clockBeforeEpoch 0 1288834974657)⟩,
        ⟨[some 1288834974666], .value (.ready ⟨37875712⟩)⟩,
        ⟨[some 1288834974661], .error (.clockRegression 1288834974666 1288834974661)⟩,
        ⟨[some 1288834974666], .value (.ready ⟨37875713⟩)⟩] := by
    rw [Shared.create_of_inRange inRange] at created
    cases created
    rw [Shared.history_eq_trail]
    decide
  suffices thinned : ∃ kept, Thins _ (g.history _) _ kept ∧ kept.map (·.outcome) = _ by
    obtain ⟨kept, thins, outcomes⟩ := thinned
    exact ⟨g, kept, created, thins, traceless _ _ thins, outcomes⟩
  rw [history]
  exact ⟨_, .keep (.drop .early (.keep (.keep (.keep .nil)))), rfl⟩

inductive Leaves (slot : Slot) (epoch : UInt64) (last : Id) (now : UInt64) :
    Outcome Id → Id → Prop
  | later {next : Id} : epoch ≤ now → now - epoch ≤ Id.maxTimestamp →
      last.timestamp < now - epoch → next = .pack (now - epoch) slot.datacenter slot.worker 0 →
      Leaves slot epoch last now (.value next) next
  | behind : epoch ≤ now → now - epoch < last.timestamp →
      Leaves slot epoch last now (.error (.clockRegression (last.timestamp + epoch) now)) last
  | early : now < epoch → Leaves slot epoch last now (.error (.clockBeforeEpoch now epoch)) last
  | beyond : epoch ≤ now → Id.maxTimestamp < now - epoch →
      Leaves slot epoch last now (.error (.timestampOverflow (now - epoch))) last

/-- A call waits for the first reading at which a poll is not pending, and ends with that poll. A
generator that has used up its millisecond waits for the first reading of another one; any other
takes a single reading. -/
structure Waits (slot : Slot) (epoch : UInt64) (last : Id) (keeps : Id → σ)
    (poll : UInt64 → Outcome Poll × σ)
    (call : (Nat → UInt64) → Nat → (Option (Outcome Id) × σ) × Nat) : Prop where
  ends : ∀ readings, (∃ spins, (call readings spins).1.1.isSome) ↔
    ∃ n, (poll (readings n)).1.answer?.isSome
  waiting : ∀ readings n, (∀ k < n, (poll (readings k)).1.answer? = none) →
    call readings n = ((none, keeps last), n)
  first : ∀ readings n answer, (∀ k < n, (poll (readings k)).1.answer? = none) →
    (poll (readings n)).1.answer? = some answer → ∀ spins, n < spins →
      call readings spins = ((some answer, (poll (readings n)).2), n + 1)
  usedUp : last.sequence = Id.maxSequence → ∀ readings n,
    (∀ k < n, Within epoch last (readings k)) → ¬ Within epoch last (readings n) →
      ∃ answer id, Leaves slot epoch last (readings n) answer id ∧ ∀ spins, n < spins →
        call readings spins = ((some answer, keeps id), n + 1)
  ready : last.sequence ≠ Id.maxSequence → ∀ readings, ∃ answer s, ∀ spins, 0 < spins →
    call readings spins = ((some answer, s), 1)

def spin (epoch : UInt64) (keeps : Id → σ) (last : Id) (readings : Nat → UInt64) :
    (spins taken : Nat) → (Option (Outcome Id) × σ) × Nat
  | 0, taken => ((none, keeps last), taken)
  | spins + 1, taken =>
    match (follow epoch last (readings taken)).1.answer? with
    | some answer => ((some answer, keeps (follow epoch last (readings taken)).2), taken + 1)
    | none => spin epoch keeps last readings spins (taken + 1)

theorem follow_answer?_eq_none :
    (follow epoch last now).1.answer? = none ↔ advance epoch last now = .ok none := by
  rw [follow]
  cases advance epoch last now with
  | error e => simp [Outcome.answer?]
  | ok id => cases id <;> simp [Outcome.answer?]

theorem last_of_pending {last' : Id} {wait : Nat}
    (followed : follow epoch last now = (.value (.pending wait), last')) : last' = last := by
  have same : (follow epoch last now).2 = last := follow_of_not_ready (by rw [followed]; rfl)
  rwa [followed] at same

theorem spin_waiting {n spins taken : Nat}
    (pending : ∀ k < n, (follow epoch last (readings (taken + k))).1.answer? = none) :
    spin epoch keeps last readings (n + spins) taken =
      spin epoch keeps last readings spins (taken + n) := by
  induction n generalizing taken with
  | zero => rw [Nat.zero_add, Nat.add_zero]
  | succ n ih =>
    have here := pending 0 (Nat.succ_pos n)
    rw [Nat.add_zero] at here
    rw [Nat.succ_add, spin, here]
    simp only
    rw [ih fun k less => ?_, Nat.add_assoc, Nat.add_comm 1]
    rw [Nat.add_assoc, Nat.add_comm 1]
    exact pending (k + 1) (Nat.succ_lt_succ less)

theorem spin_first {n spins : Nat} {answer : Outcome Id}
    (pending : ∀ k < n, (follow epoch last (readings k)).1.answer? = none)
    (answered : (follow epoch last (readings n)).1.answer? = some answer) (less : n < spins) :
    spin epoch keeps last readings spins 0 =
      ((some answer, keeps (follow epoch last (readings n)).2), n + 1) := by
  obtain ⟨rest, rfl⟩ : ∃ rest, spins = n + (rest + 1) := ⟨spins - n - 1, by omega⟩
  rw [spin_waiting (by simpa using pending), Nat.zero_add, spin, answered]

theorem spin_ends_iff : (∃ spins, (spin epoch keeps last readings spins 0).1.1.isSome) ↔
    ∃ n, (follow epoch last (readings n)).1.answer?.isSome := by
  constructor
  · rintro ⟨spins, ends⟩
    -- a call may begin at any reading
    generalize 0 = taken at ends
    induction spins generalizing taken with
    | zero => cases ends
    | succ spins ih =>
      rw [spin] at ends
      cases answered : (follow epoch last (readings taken)).1.answer? with
      | some answer => exact ⟨taken, by rw [answered]; rfl⟩
      | none =>
        rw [answered] at ends
        exact ih _ ends
  · rintro ⟨n, answered⟩
    refine ⟨n + 1, ?_⟩
    rw [← Nat.zero_add n] at answered
    generalize 0 = taken at answered ⊢
    induction n generalizing taken with
    | zero =>
      obtain ⟨answer, answered⟩ := Option.isSome_iff_exists.1 answered
      rw [Nat.add_zero] at answered
      rw [spin, answered]
      rfl
    | succ n ih =>
      rw [spin]
      cases (follow epoch last (readings taken)).1.answer? with
      | some answer => rfl
      | none => exact ih (taken + 1) (by rwa [Nat.add_right_comm])

theorem leaves_of_not_within (own : Slot.ofId last = slot) (full : last.sequence = Id.maxSequence)
    (other : ¬ Within epoch last now) : ∃ answer id, Leaves slot epoch last now answer id ∧
      (follow epoch last now).1.answer? = some answer ∧ (follow epoch last now).2 = id := by
  have room : last.hasRoom = false := by
    rw [Id.hasRoom, full]
    rfl
  have way := advances epoch last now
  rw [follow]
  generalize advance epoch last now = advanced at way ⊢
  cases way with
  | early early => exact ⟨_, _, .early early, rfl, rfl⟩
  | beyond since beyond => exact ⟨_, _, .beyond since beyond, rfl, rfl⟩
  | behind since back => exact ⟨_, _, .behind since back, rfl, rfl⟩
  | spent since same => exact absurd ⟨since, same⟩ other
  | again since same => exact absurd ⟨since, same⟩ other
  | later since fits later =>
    subst own
    exact ⟨_, _, .later since fits later rfl, rfl, rfl⟩

theorem waits_of_spin (own : Slot.ofId last = slot)
    (polls : ∀ now, poll now = ((follow epoch last now).1, keeps (follow epoch last now).2))
    (calls : ∀ readings spins, call readings spins = spin epoch keeps last readings spins 0) :
    Waits slot epoch last keeps poll call where
  ends readings := by
    simp only [polls, calls]
    exact spin_ends_iff
  waiting readings n pending := by
    simp only [polls] at pending
    rw [calls, ← Nat.add_zero n, spin_waiting (by simpa using pending), spin, Nat.zero_add]
    rfl
  first readings n answer pending answered spins less := by
    simp only [polls] at pending answered ⊢
    rw [calls, spin_first pending answered less]
  usedUp full readings n within other := by
    obtain ⟨answer, id, leaves, answered, rfl⟩ := leaves_of_not_within own full other
    refine ⟨answer, _, leaves, fun spins less => ?_⟩
    rw [calls, spin_first (fun k less => ?_) answered less]
    obtain ⟨since, same⟩ := within k less
    exact follow_answer?_eq_none.2 (advance_eq_none_iff.2 ⟨since, same, full⟩)
  ready room readings := by
    have answered : (follow epoch last (readings 0)).1.answer? ≠ none := fun pending =>
      room (advance_eq_none_iff.1 (follow_answer?_eq_none.1 pending)).2.2
    obtain ⟨answer, answered⟩ := Option.ne_none_iff_exists'.1 answered
    exact ⟨answer, _, fun spins less => by rw [calls, spin_first (by simp) answered less]⟩

end Generator

open Generator (follow spin Waits)

namespace Locked

variable {g : Locked} {readings : Nat → UInt64}

theorem poll_endless (healthy : g.poisoned = false) (taken : Nat) :
    g.poll.run (Clock.endless readings) taken =
      (((follow g.epoch g.last (readings taken)).1, g.shown (some (readings taken))),
        taken + 1) := by
  rw [poll_eq healthy]
  rfl

theorem shown_reading (healthy : g.poisoned = false) (now : UInt64) :
    g.shown (some now) = { g with last := (follow g.epoch g.last now).2 } := by
  obtain ⟨slot, epoch, last, _⟩ := g
  cases healthy
  rfl

theorem next_endless (healthy : g.poisoned = false) (spins taken : Nat) :
    (g.next spins).run (Clock.endless readings) taken =
      spin g.epoch (fun last => { g with last }) g.last readings spins taken := by
  induction spins generalizing taken with
  | zero => rfl
  | succ spins ih =>
    rw [next, spin]
    refine (run_bind g.poll _ taken).trans ?_
    simp only [StateT.run, poll_endless healthy, shown_reading healthy]
    rcases followed : follow g.epoch g.last (readings taken) with ⟨(made | wait) | e | _, last⟩
    · rfl
    · obtain rfl := Generator.last_of_pending followed
      exact ih (taken + 1)
    · rfl
    · rfl

end Locked

namespace Shared

variable {readings : Nat → UInt64}

theorem run_bind_endless {α β : Type} (p : Program α) (f : α → Program β) (word : Id)
    (taken : Nat) : ((p >>= f).run (endless readings)).run word taken =
      ((f ((p.run (endless readings)).run word taken).1.1).run (endless readings)).run
        ((p.run (endless readings)).run word taken).1.2
          ((p.run (endless readings)).run word taken).2 := by
  rw [run_bind_eq]
  rfl

theorem poll_endless (g : Shared) (word : Id) (taken : Nat) :
    (g.poll.run (endless readings)).run word taken =
      (follow g.epoch word (readings taken), taken + 1) := by
  rw [poll_eq]
  show ((g.judging word (some (readings taken))).run (endless readings)).run word (taken + 1) = _
  rw [judging, follow]
  cases Generator.advance g.epoch word (readings taken) with
  | error e => rfl
  | ok id =>
    cases id with
    | none => rfl
    | some id =>
      show (endless readings (.exchange word id) word >>= fun p =>
        (((.done (.value (if p.1 then .ready id else .pending 0)) :
          Program (Outcome Poll)).run (endless readings)).run p.2)) (taken + 1) = _
      have swapped : endless readings (.exchange word id) word = pure (true, id) := by
        simp [endless]
      rw [swapped]
      rfl

theorem next_endless (g : Shared) (word : Id) (spins taken : Nat) :
    ((g.next spins).run (endless readings)).run word taken =
      spin g.epoch (fun word => word) word readings spins taken := by
  induction spins generalizing taken with
  | zero => rfl
  | succ spins ih =>
    rw [next, spin]
    refine (run_bind_endless g.poll _ word taken).trans ?_
    rw [poll_endless]
    rcases followed : follow g.epoch word (readings taken) with ⟨(made | wait) | e | _, last⟩
    · rfl
    · obtain rfl := Generator.last_of_pending followed
      exact ih (taken + 1)
    · rfl
    · rfl

end Shared

namespace Generator

variable {epoch now : UInt64} {last : Id} {slot : Slot}

theorem slot_of_follow : Slot.ofId (follow epoch last now).2 = Slot.ofId last := by
  cases ready : (follow epoch last now).1.ready? with
  | none => rw [follow_of_not_ready ready]
  | some id =>
    obtain ⟨advanced, followed⟩ := follow_of_ready ready
    rw [followed]
    exact slot_of_advance advanced

end Generator

namespace Locked

variable {g : Locked}

theorem shown_own (reading : Option UInt64) :
    Slot.ofId (g.shown reading).last = Slot.ofId g.last := by
  cases reading with
  | none => rfl
  | some now => exact Generator.slot_of_follow

theorem after_own (g : Locked) (calls : Nat) (script : Clock.Script) :
    (g.after calls script).1.epoch = g.epoch ∧
      Slot.ofId (g.after calls script).1.last = Slot.ofId g.last := by
  induction calls generalizing g script with
  | zero => exact ⟨rfl, rfl⟩
  | succ calls ih =>
    cases healthy : g.poisoned with
    | true =>
      have same := (polls_poisoned healthy (calls + 1) script).2
      rw [same]
      exact ⟨rfl, rfl⟩
    | false =>
      have step : g.after (calls + 1) script =
          (g.shown script.head?.join).after calls script.tail := by
        simp only [after, keptAfter, poll_healthy healthy]
      rw [step]
      obtain ⟨epoch, own⟩ := ih (g.shown script.head?.join) script.tail
      exact ⟨epoch, own.trans (shown_own _)⟩

theorem waits {slot : Slot} (healthy : g.poisoned = false) (own : Slot.ofId g.last = slot) :
    Waits slot g.epoch g.last (fun last => { g with last }) g.pollAt g.call := by
  refine Generator.waits_of_spin own (fun now => ?_) fun readings spins => ?_
  · rw [pollAt, poll_healthy healthy]
    exact congrArg (Prod.mk _) (shown_reading healthy now)
  · exact next_endless healthy spins 0

theorem call_poisoned (poisoned : g.poisoned = true) (readings : Nat → UInt64) {spins : Nat}
    (some' : 0 < spins) : g.call readings spins = ((some (.error .lockPoisoned), g), 0) := by
  obtain ⟨spins, rfl⟩ := Nat.exists_eq_succ_of_ne_zero (Nat.ne_of_gt some')
  rw [call, next, poll_poisoned poisoned]
  rfl

end Locked

namespace Shared

variable {ι : Type} {g : Shared}

theorem waits {slot : Slot} (word : Id) (own : Slot.ofId word = slot) :
    Waits slot g.epoch word (fun word => word) (g.pollAt word) (g.call word) := by
  refine Generator.waits_of_spin own (fun now => ?_) fun readings spins => ?_
  · rw [pollAt, poll_run]
    rfl
  · exact next_endless g word spins 0

inductive Own (g : Shared) : Program (Outcome Poll) → Prop
  | begun : Own g (.ask .load fun seen => .ask .clock (g.judging seen))
  | loaded : Slot.ofId seen = g.slot → Own g (.ask .clock (g.judging seen))
  | judged {next : Id} : Slot.ofId next = g.slot → Own g (committing seen next)

theorem own_of_judging {seen : Id} {reading : Option UInt64} {p : Program (Outcome Poll)}
    (own : Slot.ofId seen = g.slot) (left : (g.judging seen reading).rest? = some p) : Own g p := by
  cases reading with
  | none => cases left
  | some now =>
    rw [judging] at left
    cases advanced : Generator.advance g.epoch seen now with
    | error e =>
      rw [advanced] at left
      cases left
    | ok made =>
      rw [advanced] at left
      cases made with
      | none => cases left
      | some id =>
        cases left
        exact .judged ((Generator.slot_of_advance advanced).trans own)

theorem Contest.Run.own [DecidableEq ι] {events : List (Event ι)} {c : Contest ι}
    (inRange : g.slot.InRange) (run : Contest.Run g events c) :
    Slot.ofId c.word = g.slot ∧ ∀ i p, c.pending i = some p → Own g p := by
  induction run with
  | start => exact ⟨Id.slot_pack inRange.1 inRange.2, nofun⟩
  | @step _ c _ _ _ step ih =>
    obtain ⟨own, pending⟩ := ih
    have others : ∀ {i rest}, (∀ p, rest = some p → Own g p) → ∀ j p,
        Function.update c.pending i rest j = some p → Own g p := by
      intro i rest mine j p found
      by_cases same : j = i
      · subst same
        rw [Function.update_self] at found
        exact mine p found
      · rw [Function.update_of_ne same] at found
        exact pending j p found
    cases step with
    | began free =>
      refine ⟨own, others ?_⟩
      rintro _ ⟨⟩
      rw [poll_eq]
      exact .begun
    | asked found answered =>
      cases pending _ _ found with
      | begun =>
        cases answered
        refine ⟨own, others ?_⟩
        rintro _ ⟨⟩
        exact .loaded own
      | loaded seen =>
        cases answered
        exact ⟨own, others fun p left => own_of_judging seen left⟩
      | judged id =>
        cases answered with
        | swapped => exact ⟨id, others nofun⟩
        | kept => exact ⟨own, others nofun⟩

end Shared

namespace Generator

/-- A call for an id waits exactly as long as it must, whatever was asked of the generator before:
of the lock by polls under which the clock may have given way, of the shared word by polls that came
between one another in any way. -/
theorem next_waits {slot : Slot} (inRange : slot.InRange) (epoch : Duration) :
    (∃ g₀, Locked.create slot epoch = .ok g₀ ∧ g₀.epoch = epochWord epoch ∧
      ∀ calls script, let g := (g₀.after calls script).1
        (g.poisoned = false →
          Waits slot g₀.epoch g.last (fun last => { g with last }) g.pollAt g.call) ∧
        (g.poisoned = true → ∀ readings spins, 0 < spins →
          g.call readings spins = ((some (.error .lockPoisoned), g), 0))) ∧
      ∃ g, Shared.create slot epoch = .ok g ∧ g.epoch = epochWord epoch ∧
        ∀ {ι : Type} [DecidableEq ι] (events : List (Shared.Event ι)) (c : Shared.Contest ι),
          Shared.Contest.Run g events c →
            Waits slot g.epoch c.word (fun word => word) (g.pollAt c.word) (g.call c.word) := by
  constructor
  · refine ⟨_, Locked.create_of_inRange inRange epoch, rfl, fun calls script => ?_⟩
    obtain ⟨same, own⟩ :=
      Locked.after_own ⟨slot, epochWord epoch, first slot, false⟩ calls script
    refine ⟨fun healthy => ?_, fun poisoned readings spins some' => ?_⟩
    · rw [← same]
      exact Locked.waits healthy (own.trans (Id.slot_pack inRange.1 inRange.2))
    · exact Locked.call_poisoned poisoned readings some'
  · exact ⟨_, Shared.create_of_inRange inRange epoch, rfl, fun events c run =>
      Shared.waits c.word (run.own inRange).1⟩

theorem after_standing {slot : Slot} (inRange : slot.InRange) {epoch now offset : UInt64}
    (since : epoch ≤ now) (within : now - epoch = offset) (fits : offset ≤ Id.maxTimestamp)
    (sequence : UInt64) {n : Nat} (room : sequence.toNat + n < 4096) :
    ((Locked.mk slot epoch (.pack offset slot.datacenter slot.worker sequence) false).after
      n (List.replicate n (some now))).1 = ⟨slot, epoch,
        .pack offset slot.datacenter slot.worker (sequence + UInt64.ofNat n), false⟩ := by
  induction n generalizing sequence with
  | zero => simp [Locked.after, keptAfter]
  | succ n ih =>
    have next : (sequence + 1).toNat = sequence.toNat + 1 := by
      rw [UInt64.toNat_add]
      show (sequence.toNat + 1) % 2 ^ 64 = _
      omega
    have small : sequence ≤ Id.maxSequence := by
      rw [UInt64.le_iff_toNat_le]
      show _ ≤ 4095
      omega
    have timestamp : Id.timestamp (.pack offset slot.datacenter slot.worker sequence) = offset :=
      Id.timestamp_pack fits
    have hasRoom : Id.hasRoom (.pack offset slot.datacenter slot.worker sequence) = true := by
      rw [Id.hasRoom, Id.sequence_pack small, decide_eq_true_eq, UInt64.lt_iff_toNat_lt]
      show _ < 4095
      omega
    have advanced : advance epoch (.pack offset slot.datacenter slot.worker sequence) now =
        .ok (some (.pack offset slot.datacenter slot.worker (sequence + 1))) := by
      rw [advance_within since (within.trans timestamp.symm), if_pos hasRoom, Id.increment,
        timestamp, Id.datacenter_pack inRange.1, Id.worker_pack inRange.2, Id.sequence_pack small]
    have rest := ih (sequence + 1) (by omega)
    rw [UInt64.add_assoc, UInt64.add_comm 1,
      ← show UInt64.ofNat (n + 1) = UInt64.ofNat n + 1 from UInt64.ofNat_add n 1] at rest
    rw [← rest, List.replicate_succ]
    simp only [Locked.after, keptAfter, Locked.poll_healthy, Locked.shown, glance, follow,
      List.head?_cons, Option.join_some, advanced, List.tail_cons, Option.isNone_some]

theorem next_waits_usedUp : ∃ g₀ script, Locked.create ⟨31, 31⟩ Epoch.standard = .ok g₀ ∧
    let g := (g₀.after 4095 script).1
    g.last = .pack 0 31 31 4095 ∧ ∀ spins, 3 < spins →
      g.call (fun n => if n < 3 then 1288834974657 else 1288834974664) spins =
        ((some (.value (.pack 7 31 31 0)), { g with last := .pack 7 31 31 0 }), 4) := by
  have inRange : Slot.InRange ⟨31, 31⟩ := by decide
  obtain ⟨g₀, created, _, waits⟩ := (next_waits inRange Epoch.standard).1
  refine ⟨g₀, List.replicate 4095 (some 1288834974657), created, ?_⟩
  obtain ⟨waits, _⟩ := waits 4095 (List.replicate 4095 (some 1288834974657))
  rw [Locked.create_of_inRange inRange] at created
  cases created
  have reached :
      ((Locked.mk ⟨31, 31⟩ (epochWord Epoch.standard) (first ⟨31, 31⟩) false).after 4095
        (List.replicate 4095 (some 1288834974657))).1 =
          ⟨⟨31, 31⟩, epochWord Epoch.standard, .pack 0 31 31 (0 + UInt64.ofNat 4095), false⟩ :=
    after_standing inRange (by decide) (by decide) (by decide) 0 (by decide)
  simp only [reached] at waits ⊢
  refine ⟨by decide, ?_⟩
  obtain ⟨answer, id, leaves, called⟩ := (waits trivial).usedUp (by decide)
    (fun n => if n < 3 then 1288834974657 else 1288834974664) 3
    (fun k less => by rw [if_pos less]; decide) (by decide)
  cases leaves with
  | later _ _ _ made =>
    cases made
    exact called
  | behind _ back => exact absurd back (by decide)
  | early early => exact absurd early (by decide)
  | beyond _ beyond => exact absurd beyond (by decide)

end Generator

end SlotLease
