import SlotLease.Generator.Basic

namespace SlotLease

structure Locked where
  slot : Slot
  epoch : UInt64
  last : Id
  poisoned : Bool := false
deriving DecidableEq, Repr

namespace Locked

def create (slot : Slot) (epoch : Duration) : Except Error Locked := do
  slot.check
  return { slot, epoch := Generator.epochWord epoch, last := Generator.first slot }

def poll (g : Locked) : Clock.Program (Outcome Poll × Locked) := do
  if g.poisoned then
    return (.error .lockPoisoned, g)
  match ← Clock.read with
  | none => return (.aborted, { g with poisoned := true })
  | some now =>
    match Generator.offset g.epoch now with
    | .error e => return (.error e, g)
    | .ok offset =>
      match compare offset g.last.timestamp with
      | .eq =>
        if g.last.hasRoom then
          let id := g.last.increment
          return (.value (.ready id), { g with last := id })
        else return (.value (.pending 1), g)
      | .gt =>
        let id := g.last.rollover offset
        return (.value (.ready id), { g with last := id })
      | .lt =>
        return (.error (.clockRegression (g.last.timestamp + g.epoch) (offset + g.epoch)), g)

def next (g : Locked) : (spins : Nat) → Clock.Program (Option (Outcome Id) × Locked)
  | 0 => return (none, g)
  | spins + 1 => do
    match ← g.poll with
    | (.value (.ready id), g) => return (some (.value id), g)
    | (.value (.pending _), g) => next g spins
    | (.error e, g) => return (some (.error e), g)
    | (.aborted, g) => return (some .aborted, g)

def nextKey (g : Locked) (spins : Nat) : Clock.Program (Option (Outcome Int64) × Locked) := do
  let (outcome, g) ← g.next spins
  return (outcome.map (·.map Id.toInt64), g)

end Locked

end SlotLease
