import SlotLease.Generator.Locked
import SlotLease.Proofs.Generator.Basic
import SlotLease.Proofs.Interaction

namespace SlotLease

def Clock.Answers (_ : Request) (shown : UInt64) (reply : Option UInt64) (later : UInt64) : Prop :=
  shown ≤ later ∧ (reply = some later ∨ reply = none)

namespace Locked

open Interaction

theorem create_of_inRange {slot : Slot} (inRange : slot.InRange) (epoch : Duration) :
    create slot epoch = .ok ⟨slot, Generator.epochWord epoch, Generator.first slot, false⟩ := by
  rw [create, Slot.check_of_inRange inRange]
  rfl

theorem poll_eq_advance (g : Locked) : g.poll = do
    if g.poisoned then
      return (.error .lockPoisoned, g)
    match ← Clock.read with
    | none => return (.aborted, { g with poisoned := true })
    | some now =>
      match Generator.advance g.epoch g.last now with
      | .error e => return (.error e, g)
      | .ok none => return (.value (.pending 1), g)
      | .ok (some id) => return (.value (.ready id), { g with last := id }) := by
  rw [poll]
  split
  · rfl
  · refine congrArg (Clock.read >>= ·) (funext fun reading => ?_)
    cases reading with
    | none => rfl
    | some now =>
      exact Generator.compare_eq_advance
        (fun e => (pure (.error e, g) : Clock.Program (Outcome Poll × Locked)))
        (pure (.value (.pending 1), g)) fun id => pure (.value (.ready id), { g with last := id })

inductive Makes (g : Locked) (shown : UInt64) : Option (Outcome Id) → Locked → UInt64 → Prop
  | made {id : Id} : shown ≤ later → Generator.advance g.epoch g.last later = .ok (some id) →
      Makes g shown (some (.value id)) { g with last := id } later
  | failed {poisoned : Bool} : shown ≤ later → (∀ id, result ≠ some (.value id)) →
      Makes g shown result { g with poisoned } later

theorem Makes.earlier {g : Locked} {shown shown' : UInt64} (h : Makes g shown' result g' later)
    (le : shown ≤ shown') : Makes g shown result g' later := by
  cases h with
  | made le' advanced => exact .made (UInt64.le_trans le le') advanced
  | failed le' none => exact .failed (UInt64.le_trans le le') none

theorem next_ensures (g : Locked) (spins : Nat) (shown : UInt64) :
    Ensures Clock.Answers (g.next spins)
      (fun result later => Makes g shown result.1 result.2 later) shown := by
  induction spins generalizing shown with
  | zero => exact .failed (UInt64.le_refl _) (by rintro id ⟨⟩)
  | succ spins ih =>
    rw [next, poll_eq_advance, ensures_bind]
    split
    · exact .failed (UInt64.le_refl _) (by rintro id ⟨⟩)
    · rw [ensures_bind]
      intro reply later answered
      obtain ⟨le, rfl | rfl⟩ := answered
      · simp only [ensures_done]
        cases advanced : Generator.advance g.epoch g.last later with
        | error e => exact .failed le (by rintro id ⟨⟩)
        | ok id =>
          cases id with
          | none => exact (ih later).mono fun _ _ makes => makes.earlier le
          | some id => exact .made le advanced
      · exact .failed le (by rintro id ⟨⟩)

end Locked

end SlotLease
