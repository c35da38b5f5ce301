import Mathlib.Data.List.Pairwise
import SlotLease.Generator.Shared
import SlotLease.Proofs.Generator.Locked

namespace SlotLease

/-- What a clock is going to show, one reading each time it is read. It gives way where there is
none, and at the end. -/
abbrev Clock.Script : Type := List (Option UInt64)

def Clock.scripted : (r : Request) → StateM Script (Reply r)
  | .read => fun
    | [] => (none, [])
    | shown :: rest => (shown, rest)

open Clock (Script)

structure Attempt where
  consumed : Script
  outcome : Outcome Poll
deriving DecidableEq

def attempts {σ : Type} (poll : σ → StateM Script (Outcome Poll × σ)) :
    (calls : Nat) → σ → Script → List Attempt
  | 0, _, _ => []
  | calls + 1, s, script =>
    let ((outcome, s), rest) := poll s script
    ⟨script.take (script.length - rest.length), outcome⟩ :: attempts poll calls s rest

def Locked.history (g : Locked) (readings : List UInt64) : List Attempt :=
  attempts (fun g => g.poll.run Clock.scripted) readings.length g (readings.map some)

def Shared.scripted : (r : Request) → StateT Id (StateM Script) (Reply r)
  | .load => fun word => return (word, word)
  | .clock => fun word => return (← Clock.scripted .read, word)
  | .exchange seen new => fun word => return if word = seen then (true, new) else (false, word)

def Shared.history (g : Shared) (readings : List UInt64) : List Attempt :=
  attempts (fun word => (g.poll.run scripted).run word) readings.length g.initial
    (readings.map some)

namespace Generator

variable {epoch now : UInt64} {last id : Id} {slot : Slot} {readings : List UInt64}

def follow (epoch : UInt64) (last : Id) (now : UInt64) : Outcome Poll × Id :=
  match advance epoch last now with
  | .error e => (.error e, last)
  | .ok none => (.value (.pending 1), last)
  | .ok (some id) => (.value (.ready id), id)

theorem follow_pending_iff {wait : Nat} :
    (follow epoch last now).1 = .value (.pending wait) ↔
      wait = 1 ∧ advance epoch last now = .ok none := by
  rw [follow]
  cases advance epoch last now with
  | error e => simp
  | ok id => cases id <;> simp [eq_comm]

def trail (epoch : UInt64) : (last : Id) → (readings : List UInt64) → List Attempt
  | _, [] => []
  | last, now :: rest =>
    ⟨[some now], (follow epoch last now).1⟩ :: trail epoch (follow epoch last now).2 rest

theorem attempts_eq_trail {σ : Type} {poll : σ → StateM Script (Outcome Poll × σ)}
    (keeps : Id → σ) (follows : ∀ last now rest, poll (keeps last) (some now :: rest) =
      (((follow epoch last now).1, keeps (follow epoch last now).2), rest)) :
    attempts poll readings.length (keeps last) (readings.map some) = trail epoch last readings := by
  induction readings generalizing last with
  | nil => rfl
  | cons now rest ih =>
    simp only [attempts, trail, List.length_cons, List.map_cons, follows, ih]
    simp

end Generator

theorem Clock.run_read {α : Type} (f : Option UInt64 → Program α) (shown : Option UInt64)
    (rest : Script) : (read >>= f).run scripted (shown :: rest) = (f shown).run scripted rest := rfl

theorem Shared.create_of_inRange {slot : Slot} (inRange : slot.InRange) (epoch : Duration) :
    create slot epoch = .ok ⟨slot, Generator.epochWord epoch⟩ := by
  rw [create, Slot.check_of_inRange inRange]
  rfl

theorem Locked.history_eq_trail (g : Locked) (healthy : g.poisoned = false)
    (readings : List UInt64) :
    g.history readings = Generator.trail g.epoch g.last readings := by
  obtain ⟨slot, epoch, last, _⟩ := g
  cases healthy
  refine Generator.attempts_eq_trail (fun last => Locked.mk slot epoch last false)
    fun last now rest => ?_
  simp only [poll_eq_advance, Bool.false_eq_true, if_false, Clock.run_read, Generator.follow]
  cases Generator.advance epoch last now with
  | error e => rfl
  | ok id => cases id <;> rfl

namespace Shared

variable {α : Type} {word : Id}

theorem run_load (f : Id → Program α) (script : Script) :
    ((load >>= f).run scripted).run word script = ((f word).run scripted).run word script := rfl

theorem run_readClock (f : Option UInt64 → Program α) (shown : Option UInt64) (rest : Script) :
    ((readClock >>= f).run scripted).run word (shown :: rest) =
      ((f shown).run scripted).run word rest := rfl

theorem run_exchange (f : Bool → Program α) (new : Id) (script : Script) :
    ((exchange word new >>= f).run scripted).run word script =
      ((f true).run scripted).run new script := by
  have swapped : scripted (.exchange word new) word = pure (true, new) := by
    simp [scripted]
  show (scripted (.exchange word new) word >>= fun p => ((f p.1).run scripted).run p.2) script = _
  rw [swapped]
  rfl

theorem run_claim (new : Id) (script : Script) :
    ((claim word new).run scripted).run word script = ((.value (.ready new), new), script) := by
  rw [claim, run_exchange]
  rfl

theorem poll_eq_advance (g : Shared) : g.poll = (do
    let seen ← load
    match ← readClock with
    | none => return .aborted
    | some now =>
      match Generator.advance g.epoch seen now with
      | .error e => return .error e
      | .ok none => return .value (.pending 1)
      | .ok (some id) => claim seen id) := by
  refine congrArg (load >>= ·) (funext fun seen => ?_)
  refine congrArg (readClock >>= ·) (funext fun reading => ?_)
  cases reading with
  | none => rfl
  | some now =>
    exact Generator.compare_eq_advance (fun e => pure (.error e)) (pure (.value (.pending 1)))
      (claim seen)

theorem history_eq_trail (g : Shared) (readings : List UInt64) :
    g.history readings = Generator.trail g.epoch g.initial readings := by
  refine Generator.attempts_eq_trail id fun last now rest => ?_
  simp only [poll_eq_advance, run_load, run_readClock, Generator.follow, id]
  cases Generator.advance g.epoch last now with
  | error e => rfl
  | ok id =>
    cases id with
    | none => rfl
    | some id => exact run_claim ..

end Shared

def Outcome.ready? : Outcome Poll → Option Id
  | .value (.ready id) => some id
  | _ => none

theorem Outcome.ready?_eq_some {outcome : Outcome Poll} {id : Id} :
    outcome.ready? = some id ↔ outcome = .value (.ready id) := by
  rcases outcome with (_ | _) | _ | _ <;> simp [ready?]

namespace Generator

variable {epoch now : UInt64} {last id : Id} {slot : Slot} {history : List Attempt}

theorem follow_of_ready (ready : (follow epoch last now).1.ready? = some id) :
    advance epoch last now = .ok (some id) ∧ follow epoch last now = (.value (.ready id), id) := by
  rw [follow] at ready ⊢
  cases advanced : advance epoch last now with
  | error e =>
    rw [advanced] at ready
    cases ready
  | ok made =>
    rw [advanced] at ready
    cases made <;> cases ready
    exact ⟨rfl, rfl⟩

theorem follow_of_not_ready (none : (follow epoch last now).1.ready? = none) :
    (follow epoch last now).2 = last := by
  rw [follow] at none ⊢
  cases advanced : advance epoch last now with
  | error e => rfl
  | ok made =>
    rw [advanced] at none
    cases made with
    | none => rfl
    | some id => cases none

def ids (history : List Attempt) : List Id := history.filterMap (·.outcome.ready?)

/-- What a generator promises of its polls. Times are whole words: no sum of an epoch and a
timestamp is cut. -/
structure Honest (slot : Slot) (epoch : UInt64) (history : List Attempt) : Prop where
  ascending : (ids history).Pairwise fun id id' => id.raw < id'.raw ∧ id.toInt64 < id'.toInt64
  positive : ∀ id ∈ ids history, 0 < id.raw ∧ 0 < id.toInt64 ∧ id.raw.toNat < 2 ^ 63
  own : ∀ id ∈ ids history, Slot.ofId id = slot
  timed : ∀ a ∈ history, ∀ id, a.outcome = .value (.ready id) → ∃ now : UInt64,
    a.consumed = [some now] ∧ id.generationTime epoch = now ∧
      id.timestamp.toNat + epoch.toNat = now.toNat
  regression : ∀ before a after last now, history = before ++ a :: after →
    a.outcome = .error (.clockRegression last now) →
      a.consumed = [some now] ∧ now < last ∧ (now - epoch).toNat + epoch.toNat = now.toNat ∧
        ∃ earlier id later, before = earlier ++ ⟨[some last], .value (.ready id)⟩ :: later ∧
          ids later = []

structure Keeps (slot : Slot) (epoch : UInt64) (history : List Attempt) (last : Id) : Prop where
  honest : Honest slot epoch history
  valid : last.isValid = true
  own : Slot.ofId last = slot
  greatest : ∀ id ∈ ids history, id.isValid = true ∧ id.raw ≤ last.raw
  origin : last = first slot ∧ ids history = [] ∨
    ∃ earlier now later, history = earlier ++ ⟨[some now], .value (.ready last)⟩ :: later ∧
      ids later = []

@[simp] theorem ids_nil : ids [] = [] := rfl

@[simp] theorem ids_concat (history : List Attempt) (a : Attempt) :
    ids (history ++ [a]) = ids history ++ a.outcome.ready?.toList := by
  cases ready : a.outcome.ready? <;> simp [ids, ready]

theorem mem_ids_concat {a : Attempt} :
    id ∈ ids (history ++ [a]) ↔ id ∈ ids history ∨ a.outcome = .value (.ready id) := by
  simp [Outcome.ready?_eq_some]

theorem keeps_first (inRange : slot.InRange) : Keeps slot epoch [] (first slot) where
  honest := by constructor <;> simp
  valid := Id.isValid_pack ..
  own := Id.slot_pack inRange.1 inRange.2
  greatest := by simp
  origin := .inl ⟨rfl, rfl⟩

theorem split_concat {α : Type} {history before after : List α} {a b : α}
    (same : history ++ [b] = before ++ a :: after) :
    history = before ∧ b = a ∨ ∃ rest, history = before ++ a :: rest := by
  rcases List.eq_nil_or_concat after with rfl | ⟨rest, c, rfl⟩
  · obtain ⟨rfl, last⟩ := List.append_inj' same rfl
    exact .inl ⟨rfl, List.head_eq_of_cons_eq last⟩
  · rw [List.concat_eq_append, ← List.cons_append, ← List.append_assoc] at same
    exact .inr ⟨rest, (List.append_inj' same rfl).1⟩

theorem toNat_timestamp_add (h : advance epoch last now = .ok (some id)) :
    id.timestamp.toNat + epoch.toNat = now.toNat := by
  obtain ⟨after, _, _⟩ := advance_cases h
  have le := UInt64.le_iff_toNat_le.1 after
  rw [timestamp_of_advance h, UInt64.toNat_sub_of_le _ _ after]
  omega

theorem Honest.concat (h : Honest slot epoch history) {a : Attempt}
    (ready : ∀ id, a.outcome = .value (.ready id) →
      (∀ id' ∈ ids history, id'.raw < id.raw ∧ id'.toInt64 < id.toInt64) ∧
        (0 < id.raw ∧ 0 < id.toInt64 ∧ id.raw.toNat < 2 ^ 63) ∧ Slot.ofId id = slot ∧
          ∃ now : UInt64, a.consumed = [some now] ∧ id.generationTime epoch = now ∧
            id.timestamp.toNat + epoch.toNat = now.toNat)
    (regression : ∀ last now, a.outcome = .error (.clockRegression last now) →
      a.consumed = [some now] ∧ now < last ∧ (now - epoch).toNat + epoch.toNat = now.toNat ∧
        ∃ earlier id later, history = earlier ++ ⟨[some last], .value (.ready id)⟩ :: later ∧
          ids later = []) : Honest slot epoch (history ++ [a]) where
  ascending := by
    rw [ids_concat, List.pairwise_append]
    refine ⟨h.ascending, ?_, fun id' mem id new => ?_⟩
    · cases a.outcome.ready? <;> simp
    · exact (ready id (Outcome.ready?_eq_some.1 (Option.mem_toList.1 new))).1 id' mem
  positive id mem := (mem_ids_concat.1 mem).elim (h.positive id) fun new => (ready id new).2.1
  own id mem := (mem_ids_concat.1 mem).elim (h.own id) fun new => (ready id new).2.2.1
  timed b mem id made := by
    rw [List.mem_append, List.mem_singleton] at mem
    rcases mem with old | rfl
    · exact h.timed b old id made
    · exact (ready id made).2.2.2
  regression before b after last now same failed := by
    rcases split_concat same with ⟨rfl, rfl⟩ | ⟨rest, same⟩
    · exact regression last now failed
    · exact h.regression before b rest last now same failed

theorem Keeps.ready (h : Keeps slot epoch history last)
    (advanced : advance epoch last now = .ok (some id)) :
    Keeps slot epoch (history ++ [⟨[some now], .value (.ready id)⟩]) id := by
  have valid := isValid_of_advance advanced
  have later := raw_lt_of_advance h.valid advanced
  have own := (slot_of_advance advanced).trans h.own
  have above : ∀ id' ∈ ids history, id'.raw < id.raw :=
    fun id' mem => UInt64.lt_of_le_of_lt (h.greatest id' mem).2 later
  refine ⟨h.honest.concat ?_ nofun, valid, own, ?_, .inr ⟨history, now, [], rfl, rfl⟩⟩
  · rintro _ ⟨⟩
    have timed := toNat_timestamp_add advanced
    have word : 0 < id.raw := UInt64.lt_of_le_of_lt UInt64.zero_le later
    refine ⟨fun id' mem => ⟨above id' mem, ?_⟩, ⟨word, ?_, Id.isValid_iff.1 valid⟩, own, now, rfl,
      ?_, timed⟩
    · exact (Id.toInt64_lt_iff (h.greatest id' mem).1 valid).2 (above id' mem)
    · rw [Int64.lt_iff_toInt_lt, Id.toInt_toInt64 valid]
      exact Int.ofNat_lt.2 (UInt64.lt_iff_toNat_lt.1 word)
    · apply UInt64.toNat_inj.1
      rw [Id.generationTime, UInt64.toNat_add, timed]
      exact Nat.mod_eq_of_lt now.toNat_lt
  · intro id' mem
    rcases mem_ids_concat.1 mem with old | new
    · exact ⟨(h.greatest id' old).1, UInt64.le_of_lt (above id' old)⟩
    · cases new
      exact ⟨valid, UInt64.le_refl _⟩

theorem Keeps.regression (h : Keeps slot epoch history last) {before after : UInt64}
    (failed : advance epoch last now = .error (.clockRegression before after)) :
    after = now ∧ now < before ∧ (now - epoch).toNat + epoch.toNat = now.toNat ∧
      ∃ earlier id later, history = earlier ++ ⟨[some before], .value (.ready id)⟩ :: later ∧
        ids later = [] := by
  obtain ⟨le, back, rfl, rfl⟩ := advance_regression failed
  have elapsed := UInt64.toNat_sub_of_le _ _ le
  have le := UInt64.le_iff_toNat_le.1 le
  rcases h.origin with ⟨rfl, _⟩ | ⟨earlier, made, later, rfl, quiet⟩
  · -- nothing is behind the epoch
    rw [show (first slot).timestamp = 0 from Id.timestamp_pack UInt64.zero_le] at back
    exact absurd back UInt64.not_lt_zero
  · obtain ⟨_, ⟨⟩, timed, exact⟩ :=
      h.honest.timed _ (List.mem_append_right _ List.mem_cons_self) last rfl
    rw [Id.generationTime] at timed
    have back := UInt64.lt_iff_toNat_lt.1 back
    rw [timed]
    exact ⟨rfl, UInt64.lt_iff_toNat_lt.2 (by omega), by omega, earlier, last, later, rfl, quiet⟩

theorem Keeps.other (h : Keeps slot epoch history last) {outcome : Outcome Poll}
    (none : outcome.ready? = none)
    (regression : ∀ before after, outcome = .error (.clockRegression before after) →
      advance epoch last now = .error (.clockRegression before after)) :
    Keeps slot epoch (history ++ [⟨[some now], outcome⟩]) last := by
  have same : ids (history ++ [⟨[some now], outcome⟩]) = ids history := by simp [none]
  refine ⟨h.honest.concat ?_ ?_, h.valid, h.own, ?_, ?_⟩
  · rintro id made
    rw [← Outcome.ready?_eq_some, none] at made
    cases made
  · intro before after failed
    obtain ⟨rfl, back⟩ := h.regression (regression before after failed)
    exact ⟨rfl, back⟩
  · rw [same]
    exact h.greatest
  · rw [same]
    rcases h.origin with first | ⟨earlier, made, later, rfl, quiet⟩
    · exact .inl first
    · refine .inr ⟨earlier, made, later ++ [⟨[some now], outcome⟩], by simp, by simp [none, quiet]⟩

theorem Keeps.follow (h : Keeps slot epoch history last) (now : UInt64) :
    Keeps slot epoch (history ++ [⟨[some now], (follow epoch last now).1⟩])
      (follow epoch last now).2 := by
  rw [Generator.follow]
  cases advanced : advance epoch last now with
  | error e => exact h.other rfl (by rintro before after ⟨⟩; exact advanced)
  | ok id =>
    cases id with
    | none => exact h.other rfl nofun
    | some id => exact h.ready advanced

theorem trail_consumed (epoch : UInt64) (last : Id) (readings : List UInt64) :
    (trail epoch last readings).map (·.consumed) = readings.map ([some ·]) := by
  induction readings generalizing last with
  | nil => rfl
  | cons now rest ih => simp [trail, ih]

theorem Keeps.trail (h : Keeps slot epoch history last) (readings : List UInt64) :
    Honest slot epoch (history ++ trail epoch last readings) := by
  induction readings generalizing history last with
  | nil => simpa [Generator.trail] using h.honest
  | cons now rest ih => simpa [Generator.trail] using ih (h.follow now)

/-- Either kind of generator answers every poll after a single look at the clock, and is honest
about its ids and its clock. -/
theorem polls_honest (inRange : slot.InRange) (epoch : Duration) (readings : List UInt64) :
    (∃ g, Locked.create slot epoch = .ok g ∧ g.slot = slot ∧ g.epoch = epochWord epoch ∧
      (g.history readings).map (·.consumed) = readings.map ([some ·]) ∧
        Honest slot g.epoch (g.history readings)) ∧
      ∃ g, Shared.create slot epoch = .ok g ∧ g.slot = slot ∧ g.epoch = epochWord epoch ∧
        (g.history readings).map (·.consumed) = readings.map ([some ·]) ∧
          Honest slot g.epoch (g.history readings) := by
  constructor
  · refine ⟨_, Locked.create_of_inRange inRange epoch, rfl, rfl, ?_⟩
    rw [Locked.history_eq_trail _ rfl]
    exact ⟨trail_consumed .., (keeps_first inRange).trail readings⟩
  · refine ⟨_, Shared.create_of_inRange inRange epoch, rfl, rfl, ?_⟩
    rw [Shared.history_eq_trail]
    exact ⟨trail_consumed .., (keeps_first inRange).trail readings⟩

theorem polls_honest_around_epoch :
    let readings : List UInt64 := [1288834974657, 1288834974662, 1288834974659, 0]
    let outcomes : List (Outcome Poll) := [.value (.ready ⟨1⟩), .value (.ready ⟨20971520⟩),
      .error (.clockRegression 1288834974662 1288834974659),
      .error (.clockBeforeEpoch 0 1288834974657)]
    (∃ g, Locked.create ⟨0, 0⟩ Epoch.standard = .ok g ∧
      (g.history readings).map (·.outcome) = outcomes ∧
        Honest ⟨0, 0⟩ g.epoch (g.history readings)) ∧
      ∃ g, Shared.create ⟨0, 0⟩ Epoch.standard = .ok g ∧
        (g.history readings).map (·.outcome) = outcomes ∧
          Honest ⟨0, 0⟩ g.epoch (g.history readings) := by
  intro readings outcomes
  have inRange : Slot.InRange ⟨0, 0⟩ := by decide
  obtain ⟨⟨g, created, _, _, _, honest⟩, ⟨g', created', _, _, _, honest'⟩⟩ :=
    polls_honest inRange Epoch.standard readings
  refine ⟨⟨g, created, ?_, honest⟩, ⟨g', created', ?_, honest'⟩⟩
  · rw [Locked.create_of_inRange inRange] at created
    cases created
    rw [Locked.history_eq_trail _ rfl]
    decide
  · rw [Shared.create_of_inRange inRange] at created'
    cases created'
    rw [Shared.history_eq_trail]
    decide

end Generator

end SlotLease
