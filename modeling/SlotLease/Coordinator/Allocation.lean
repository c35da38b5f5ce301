import SlotLease.KeySpace
import SlotLease.Retry

/-!
The choice of a free slot. Datacenters in use are filled first, from the lowest worker up, and a new
one is begun with its worker 0 only when they are full. A list of leases may be out of date, so each
candidate is looked up before it is chosen.
-/

namespace SlotLease.Allocation

def occupied (keys : KeySpace) (listed : List String) : List Slot :=
  (listed.filterMap keys.slotOf?).filter fun slot => slot.InRange

def numbers : List UInt64 := (List.range Slot.perField).map Nat.toUInt64

def isUsed (occupied : List Slot) (datacenter : UInt64) : Bool :=
  occupied.any fun slot => slot.datacenter = datacenter

def freeIn (occupied : List Slot) (datacenter : UInt64) : List Slot :=
  (numbers.map fun worker => Slot.mk datacenter worker).filter fun slot => !occupied.contains slot

def candidates (occupied : List Slot) : List Slot :=
  (numbers.filter (isUsed occupied)).flatMap (freeIn occupied) ++
    (numbers.filter fun datacenter => !isUsed occupied datacenter).map fun datacenter =>
      Slot.mk datacenter 0

def firstFree (isTaken : Slot → Lease.Program (Except Error Bool)) :
    List Slot → Lease.Program (Except Error (Option Slot))
  | [] => return .ok none
  | slot :: rest => do
    match ← isTaken slot with
    | .error e => return .error e
    | .ok true => firstFree isTaken rest
    | .ok false => return .ok (some slot)

end SlotLease.Allocation
