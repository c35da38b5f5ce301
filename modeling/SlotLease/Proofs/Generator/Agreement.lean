import SlotLease.Proofs.Generator.History

namespace SlotLease

open Clock (Script)

def Clock.Script.firstAbort (script : Script) : Nat := script.findIdx (·.isNone) + 1

def keptAfter {σ : Type} (poll : σ → StateM Script (Outcome Poll × σ)) :
    (calls : Nat) → σ → Script → σ × Script
  | 0, s, script => (s, script)
  | calls + 1, s, script =>
    let ((_, s), rest) := poll s script
    keptAfter poll calls s rest

theorem attempts_add {σ : Type} (poll : σ → StateM Script (Outcome Poll × σ)) (m n : Nat) (s : σ)
    (script : Script) : attempts poll (m + n) s script = attempts poll m s script ++
      attempts poll n (keptAfter poll m s script).1 (keptAfter poll m s script).2 := by
  induction m generalizing s script with
  | zero => simp [attempts, keptAfter]
  | succ m ih =>
    rw [Nat.succ_add]
    exact congrArg (_ :: ·) (ih ..)

theorem keptAfter_add {σ : Type} (poll : σ → StateM Script (Outcome Poll × σ)) (m n : Nat) (s : σ)
    (script : Script) : keptAfter poll (m + n) s script =
      keptAfter poll n (keptAfter poll m s script).1 (keptAfter poll m s script).2 := by
  induction m generalizing s script with
  | zero => simp [keptAfter]
  | succ m ih =>
    rw [Nat.succ_add]
    exact ih ..

theorem attempts_succ {σ : Type} {poll : σ → StateM Script (Outcome Poll × σ)} {s s' : σ}
    {outcome : Outcome Poll} {script : Script}
    (polled : poll s script = ((outcome, s'), script.tail)) (calls : Nat) :
    attempts poll (calls + 1) s script =
      ⟨script.take 1, outcome⟩ :: attempts poll calls s' script.tail := by
  simp only [attempts, polled]
  cases script <;> simp

theorem length_attempts {σ : Type} (poll : σ → StateM Script (Outcome Poll × σ)) (calls : Nat)
    (s : σ) (script : Script) : (attempts poll calls s script).length = calls := by
  induction calls generalizing s script with
  | zero => rfl
  | succ calls ih => exact congrArg (· + 1) (ih ..)

def Generator.glance (epoch : UInt64) (last : Id) : (shown : Option UInt64) → Outcome Poll × Id
  | none => (.aborted, last)
  | some now => follow epoch last now

open Generator (glance)

namespace Locked

variable {g : Locked}

def polls (g : Locked) (calls : Nat) (script : Script) : List Attempt :=
  attempts (fun g => g.poll.run Clock.scripted) calls g script

def after (g : Locked) (calls : Nat) (script : Script) : Locked × Script :=
  keptAfter (fun g => g.poll.run Clock.scripted) calls g script

def shown (g : Locked) (reading : Option UInt64) : Locked :=
  { g with last := (glance g.epoch g.last reading).2, poisoned := reading.isNone }

theorem poll_eq (healthy : g.poisoned = false) : g.poll =
    .ask .read fun reading => .done ((glance g.epoch g.last reading).1, g.shown reading) := by
  obtain ⟨slot, epoch, last, _⟩ := g
  cases healthy
  rw [poll_eq_advance]
  refine congrArg (Interaction.ask Clock.Request.read) (funext fun reading => ?_)
  simp only [Interaction.bind_done, shown]
  cases reading with
  | none => rfl
  | some now =>
    simp only [glance, Generator.follow]
    cases Generator.advance epoch last now with
    | error e => rfl
    | ok id => cases id <;> rfl

theorem poll_healthy (healthy : g.poisoned = false) (script : Script) :
    g.poll.run Clock.scripted script =
      (((glance g.epoch g.last script.head?.join).1, g.shown script.head?.join), script.tail) := by
  rw [poll_eq healthy]
  cases script <;> rfl

theorem polls_succ (healthy : g.poisoned = false) (calls : Nat) (script : Script) :
    g.polls (calls + 1) script = ⟨script.take 1, (glance g.epoch g.last script.head?.join).1⟩ ::
      (g.shown script.head?.join).polls calls script.tail :=
  attempts_succ (poll_healthy healthy script) calls

theorem poll_poisoned (poisoned : g.poisoned = true) :
    g.poll = pure (.error .lockPoisoned, g) := by
  rw [poll, if_pos poisoned]

theorem polls_poisoned (poisoned : g.poisoned = true) (calls : Nat) (script : Script) :
    g.polls calls script = List.replicate calls ⟨[], .error .lockPoisoned⟩ ∧
      g.after calls script = (g, script) := by
  have polled : g.poll.run Clock.scripted script = ((.error .lockPoisoned, g), script) := by
    rw [poll_poisoned poisoned]
    rfl
  induction calls with
  | zero => exact ⟨rfl, rfl⟩
  | succ calls ih =>
    obtain ⟨answers, same⟩ := ih
    constructor
    · rw [List.replicate_succ, ← answers]
      simp [polls, attempts, polled]
    · rw [← same]
      simp [after, keptAfter, polled]

theorem poisoned_after_firstAbort (healthy : g.poisoned = false) (script : Script) :
    (g.after script.firstAbort script).1.poisoned = true := by
  induction script generalizing g with
  | nil =>
    simp only [after, Script.firstAbort, List.findIdx_nil, keptAfter, poll_healthy healthy]
    rfl
  | cons reading rest ih =>
    cases reading with
    | none =>
      simp [after, Script.firstAbort, List.findIdx_cons, keptAfter, poll_healthy healthy, shown]
    | some now =>
      have next := ih (g := g.shown (some now)) rfl
      simpa [after, Script.firstAbort, List.findIdx_cons, keptAfter, poll_healthy healthy]
        using next

end Locked

namespace Shared

def polls (g : Shared) (calls : Nat) (word : Id) (script : Script) : List Attempt :=
  attempts (fun word => (g.poll.run scripted).run word) calls word script

theorem run_readClock_tail {α : Type} (f : Option UInt64 → Program α) (word : Id)
    (script : Script) : ((readClock >>= f).run scripted).run word script =
      ((f script.head?.join).run scripted).run word script.tail := by
  cases script <;> rfl

theorem poll_run (g : Shared) (word : Id) (script : Script) :
    (g.poll.run scripted).run word script =
      (glance g.epoch word script.head?.join, script.tail) := by
  simp only [poll_eq_advance, run_load, run_readClock_tail]
  cases script.head?.join with
  | none => rfl
  | some now =>
    simp only [glance, Generator.follow]
    cases Generator.advance g.epoch word now with
    | error e => rfl
    | ok id =>
      cases id with
      | none => rfl
      | some id => exact run_claim ..

theorem polls_succ (g : Shared) (calls : Nat) (word : Id) (script : Script) :
    g.polls (calls + 1) word script =
      ⟨script.take 1, (glance g.epoch word script.head?.join).1⟩ ::
        g.polls calls (glance g.epoch word script.head?.join).2 script.tail :=
  attempts_succ (poll_run ..) calls

theorem polls_cons (g : Shared) (calls : Nat) (word : Id) (reading : Option UInt64)
    (rest : Script) : g.polls (calls + 1) word (reading :: rest) =
      ⟨[reading], (glance g.epoch word reading).1⟩ ::
        g.polls calls (glance g.epoch word reading).2 rest := polls_succ ..

theorem polls_insert_aborted (g : Shared) (calls : Nat) (word : Id) (before rest : Script) :
    g.polls (before.length + calls + 1) word (before ++ none :: rest) =
      (g.polls (before.length + calls) word (before ++ rest)).insertIdx before.length
        ⟨[none], .aborted⟩ := by
  induction before generalizing word with
  | nil =>
    rw [List.length_nil, Nat.zero_add, List.insertIdx_zero]
    exact polls_succ ..
  | cons reading before ih =>
    rw [List.length_cons, Nat.add_right_comm _ 1, List.cons_append, List.cons_append, polls_cons,
      polls_cons, List.insertIdx_succ_cons, ih]

end Shared

namespace Generator

structure Agree (g : Locked) (g' : Shared) : Prop where
  alike : ∀ (calls : Nat) (script : Script), (g.polls calls script).take script.firstAbort =
    (g'.polls calls g'.initial script).take script.firstAbort
  poisoned : ∀ (calls : Nat) (script : Script),
    let (kept, rest) := g.after script.firstAbort script
    kept.poll = pure (.error .lockPoisoned, kept) ∧
      g.after (script.firstAbort + calls) script = (kept, rest) ∧
      (g.polls (script.firstAbort + calls) script).drop script.firstAbort =
        List.replicate calls ⟨[], .error .lockPoisoned⟩
  untouched : ∀ (calls : Nat) (before rest : Script),
    g'.polls (before.length + calls + 1) g'.initial (before ++ none :: rest) =
      (g'.polls (before.length + calls) g'.initial (before ++ rest)).insertIdx before.length
        ⟨[none], .aborted⟩

theorem polls_alike {g : Locked} (healthy : g.poisoned = false) {g' : Shared}
    (same : g'.epoch = g.epoch) (calls : Nat) (script : Script) :
    (g.polls calls script).take script.firstAbort =
      (g'.polls calls g.last script).take script.firstAbort := by
  induction calls generalizing g script with
  | zero => rfl
  | succ calls ih =>
    rw [Shared.polls_succ, Locked.polls_succ healthy, same]
    cases script with
    | nil => simp [Script.firstAbort]
    | cons reading rest =>
      cases reading with
      | none => simp [Script.firstAbort, List.findIdx_cons]
      | some now =>
        have next := ih (g := g.shown (some now)) rfl same rest
        simpa [Script.firstAbort, List.findIdx_cons, Locked.shown] using next

theorem agree {g : Locked} (healthy : g.poisoned = false) {g' : Shared}
    (epoch : g'.epoch = g.epoch) (last : g'.initial = g.last) : Agree g g' where
  alike calls script := by
    rw [last]
    exact polls_alike healthy epoch calls script
  poisoned calls script := by
    have poisoned := Locked.poisoned_after_firstAbort healthy script
    obtain ⟨answers, same⟩ :=
      Locked.polls_poisoned poisoned calls (g.after script.firstAbort script).2
    refine ⟨Locked.poll_poisoned poisoned, ?_, ?_⟩
    · exact (keptAfter_add ..).trans same
    · rw [Locked.polls, attempts_add, List.drop_left' (length_attempts ..)]
      exact answers
  untouched calls before rest := Shared.polls_insert_aborted ..

/-- Both kinds of generator refuse a slot with the same error, or accept it and agree. -/
theorem kinds_agree (slot : Slot) (epoch : Duration) :
    (∃ e, Locked.create slot epoch = .error e ∧ Shared.create slot epoch = .error e) ∨
      ∃ g g', Locked.create slot epoch = .ok g ∧ Shared.create slot epoch = .ok g' ∧
        Agree g g' := by
  cases checked : slot.check with
  | error e =>
    refine .inl ⟨e, ?_, ?_⟩
    · rw [Locked.create, checked]
      rfl
    · rw [Shared.create, checked]
      rfl
  | ok _ =>
    refine .inr ⟨⟨slot, epochWord epoch, first slot, false⟩, ⟨slot, epochWord epoch⟩, ?_, ?_, ?_⟩
    · rw [Locked.create, checked]
      rfl
    · rw [Shared.create, checked]
      rfl
    · exact agree rfl rfl rfl

end Generator

end SlotLease
