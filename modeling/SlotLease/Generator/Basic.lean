import SlotLease.Error
import SlotLease.Interaction

namespace SlotLease

namespace Epoch

def standard : Duration := .ofMillis 1288834974657

def of2025 : Duration := .ofMillis 1735689600000

def unix : Duration := .zero

end Epoch

inductive Poll where
  | ready (id : Id)
  /-- No id yet; it is worth to poll again after `wait` milliseconds. -/
  | pending (wait : Nat)
deriving DecidableEq, Repr

inductive Outcome (α : Type) where
  | value (a : α)
  | error (e : Error)
  /-- The clock gave way. -/
  | aborted
deriving DecidableEq, Repr

def Outcome.map {α β : Type} (f : α → β) : Outcome α → Outcome β
  | .value a => .value (f a)
  | .error e => .error e
  | .aborted => .aborted

namespace Clock

inductive Request where
  | read

/-- A clock that gives way replies nothing. -/
abbrev Reply : Request → Type := fun _ => Option UInt64

abbrev Program (α : Type) : Type := Interaction Request Reply α

def read : Program (Option UInt64) := .ask .read .done

end Clock

namespace Generator

def epochWord (epoch : Duration) : UInt64 := epoch.millis.toUInt64

/-- What a new generator keeps: the id of its slot at the epoch, which is never given out. -/
def first (slot : Slot) : Id := .pack 0 slot.datacenter slot.worker 0

def offset (epoch now : UInt64) : Except Error UInt64 :=
  if now < epoch then .error (.clockBeforeEpoch now epoch)
  else if Id.maxTimestamp < now - epoch then .error (.timestampOverflow (now - epoch))
  else .ok (now - epoch)

end Generator

end SlotLease
