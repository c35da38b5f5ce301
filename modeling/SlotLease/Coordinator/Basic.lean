import SlotLease.Coordinator.Allocation
import SlotLease.Coordinator.State
import SlotLease.Generator.Locked
import SlotLease.Settings
import SlotLease.Text.Quoted

namespace SlotLease

structure Coordinator where
  keys : KeySpace
  leaseTtl : Duration
  epoch : Duration
  retry : Retry
  schedule : Schedule
  state : LeaseState := .unbound
  issuing : Bool := false
  generator : Option Locked := none
deriving Repr

namespace Coordinator

def create (settings : Settings) (now : Instant) : Except Error Coordinator := do
  let schedule ← settings.check now
  return {
    keys := settings.keySpace
    leaseTtl := settings.leaseTtl
    epoch := settings.epoch
    retry := settings.retry
    schedule }

def leaseKey? (c : Coordinator) : Option String := c.state.held?.map c.keys.leaseKey

def findSlot (c : Coordinator) : Lease.Program (Except Error (Option Slot)) := do
  match ← c.retry.run (.list c.keys.scanRoot) with
  | .error e => return .error e
  | .ok [] => return .ok (some ⟨0, 0⟩)
  | .ok listed =>
    Allocation.firstFree (fun slot => c.retry.run (.has (c.keys.leaseKey slot)))
      (Allocation.candidates (Allocation.occupied c.keys listed))

def reserve (c : Coordinator) : Lease.Program (Except Error Slot) := do
  match ← c.findSlot with
  | .error e => return .error e
  | .ok none => return .error .slotsExhausted
  | .ok (some slot) =>
    match ← c.retry.run (.set (c.keys.leaseKey slot) slot.toJson c.leaseTtl) with
    | .error e => return .error e
    | .ok () => return .ok slot

/-- The coordinator that holds a slot from now on. Its generator stays the first one it had. -/
def hold (c : Coordinator) (slot : Slot) : Except Error Coordinator := do
  let generator ← Locked.create slot c.epoch
  return { c with
    state := .bound slot
    issuing := true
    generator := some (c.generator.getD generator) }

/-- Takes a lease on a free slot. One that is held already is answered without a call, and nothing
is taken after a lease has ended. -/
def acquire (c : Coordinator) : Lease.Program (Except Error Slot × Coordinator) := do
  match c.state with
  | .bound slot => return (.ok slot, c)
  | .released slot => return (.error (.leaseEnded slot), c)
  | .expired slot => return (.error (.leaseEnded slot), c)
  | .unbound =>
    match ← c.reserve with
    | .error e => return (.error e, c)
    | .ok slot =>
      match c.hold slot with
      | .error e => return (.error e, c)
      | .ok c => return (.ok slot, c)

/-- Lets the lease last for another full length; false if none is held. A lease that is gone is lost
for good, but a store that fails leaves everything as it is, for the next renewal. -/
def renew (c : Coordinator) : Lease.Program (Except Error Bool × Coordinator) := do
  match c.state with
  | .bound slot =>
    match ← Lease.call (.refresh (c.keys.leaseKey slot) c.leaseTtl) with
    | .ok true => return (.ok true, c)
    | .ok false => return (.ok false, { c with state := .expired slot, issuing := false })
    | .error cause => return (.error (.store cause), c)
  | _ => return (.ok false, c)

/-- Gives the slot back; true if a lease was removed. The coordinator is released even if the store
fails, and a lease that was lost is left alone, for it may be another's by now. -/
def release (c : Coordinator) : Lease.Program (Except Error Bool × Coordinator) := do
  match c.state with
  | .bound slot =>
    let c := { c with state := .released slot, issuing := false }
    match ← Lease.call (.delete (c.keys.leaseKey slot)) with
    | .ok deleted => return (.ok deleted, c)
    | .error cause => return (.error (.store cause), c)
  | .expired slot => return (.ok false, { c with state := .released slot })
  | _ => return (.ok false, c)

def verify (c : Coordinator) : Lease.Program (Except Error Unit) := do
  match if c.issuing then c.state.slot? else none with
  | none => return .error .unbound
  | some slot =>
    let key := c.keys.leaseKey slot
    match ← Lease.call (.get key) with
    | .error cause => return .error (.store cause)
    | .ok found =>
      if found.bind Slot.ofText? = some slot then return .ok ()
      else return .error (.leaseMismatch key slot found)

def activeGenerator (c : Coordinator) : Except Error Locked :=
  match c.generator with
  | none => .error .unbound
  | some generator => if c.issuing then .ok generator else .error (.leaseEnded generator.slot)

def poll (c : Coordinator) : Clock.Program (Outcome Poll × Coordinator) := do
  match c.activeGenerator with
  | .error e => return (.error e, c)
  | .ok generator =>
    let (outcome, generator) ← generator.poll
    return (outcome, { c with generator := some generator })

def next (c : Coordinator) (spins : Nat) : Clock.Program (Option (Outcome Id) × Coordinator) := do
  match c.activeGenerator with
  | .error e => return (some (.error e), c)
  | .ok generator =>
    let (outcome, generator) ← generator.next spins
    return (outcome, { c with generator := some generator })

def nextSigned (c : Coordinator) (spins : Nat) :
    Clock.Program (Option (Outcome Int64) × Coordinator) := do
  let (outcome, c) ← c.next spins
  return (outcome.map (·.map Id.toInt64), c)

def generationTime (c : Coordinator) (id : Id) : UInt64 :=
  id.generationTime (Generator.epochWord c.epoch)

def description (c : Coordinator) : String :=
  "SlotCoordinator \x7b state: " ++ c.state.description ++
    ", keys: KeySpace \x7b prefix: " ++ Quoted.ofString c.keys.head ++
    ", subject: " ++ Quoted.ofString c.keys.subject ++
    " \x7d, lease_ttl: " ++ Decimal.text c.leaseTtl.seconds ++
    "s, schedule: " ++ Quoted.ofString c.schedule.expression ++ ", .. \x7d"

end Coordinator

end SlotLease
