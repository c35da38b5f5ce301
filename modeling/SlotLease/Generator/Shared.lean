import SlotLease.Generator.Basic

/-!
The generator that keeps its last id in a word shared by all callers. A poll loads the word, reads
the clock, and exchanges the word for the next id if nobody else has done so in between. The word is
loaded before the clock is read, so a clock that never goes back never seems to.
-/

namespace SlotLease

structure Shared where
  slot : Slot
  epoch : UInt64
deriving DecidableEq, Repr

namespace Shared

inductive Request where
  | load
  | clock
  | exchange (seen new : Id)

abbrev Reply : Request → Type
  | .load => Id
  | .clock => Option UInt64
  | .exchange _ _ => Bool

abbrev Program (α : Type) : Type := Interaction Request Reply α

def load : Program Id := .ask .load .done

def readClock : Program (Option UInt64) := .ask .clock .done

def exchange (seen new : Id) : Program Bool := .ask (.exchange seen new) .done

def create (slot : Slot) (epoch : Duration) : Except Error Shared := do
  slot.check
  return { slot, epoch := Generator.epochWord epoch }

def initial (g : Shared) : Id := Generator.first g.slot

def claim (seen id : Id) : Program (Outcome Poll) := do
  if ← exchange seen id then return .value (.ready id)
  else return .value (.pending 0)

def poll (g : Shared) : Program (Outcome Poll) := do
  let seen ← load
  match ← readClock with
  | none => return .aborted
  | some now =>
    match Generator.offset g.epoch now with
    | .error e => return .error e
    | .ok offset =>
      match compare offset seen.timestamp with
      | .eq =>
        if seen.hasRoom then claim seen seen.increment
        else return .value (.pending 1)
      | .gt => claim seen (seen.rollover offset)
      | .lt =>
        return .error (.clockRegression (seen.timestamp + g.epoch) (offset + g.epoch))

def next (g : Shared) : (spins : Nat) → Program (Option (Outcome Id))
  | 0 => return none
  | spins + 1 => do
    match ← g.poll with
    | .value (.ready id) => return some (.value id)
    | .value (.pending _) => next g spins
    | .error e => return some (.error e)
    | .aborted => return some .aborted

def nextKey (g : Shared) (spins : Nat) : Program (Option (Outcome Int64)) := do
  let outcome ← g.next spins
  return outcome.map (·.map Id.toInt64)

end Shared

end SlotLease
