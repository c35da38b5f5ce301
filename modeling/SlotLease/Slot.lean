import SlotLease.Id
import SlotLease.Json.Value

namespace SlotLease

structure Slot where
  datacenter : UInt64
  worker : UInt64
deriving DecidableEq, Repr, Inhabited

namespace Slot

def perField : Nat := Id.maxWorker.toNat + 1

inductive Field where
  | datacenter
  | worker
deriving DecidableEq, Repr

def Field.name : Field → String
  | .datacenter => "datacenter_id"
  | .worker => "worker_id"

def InRange (slot : Slot) : Prop :=
  slot.datacenter ≤ Id.maxDatacenter ∧ slot.worker ≤ Id.maxWorker

instance (slot : Slot) : Decidable slot.InRange := inferInstanceAs (Decidable (_ ∧ _))

def outOfRange? (slot : Slot) : Option (Field × UInt64 × UInt64) :=
  if Id.maxDatacenter < slot.datacenter then some (.datacenter, slot.datacenter, Id.maxDatacenter)
  else if Id.maxWorker < slot.worker then some (.worker, slot.worker, Id.maxWorker)
  else none

def ofId (id : Id) : Slot := ⟨id.datacenter, id.worker⟩

def text (slot : Slot) : String :=
  "(" ++ Decimal.text slot.datacenter.toNat ++ ", " ++ Decimal.text slot.worker.toNat ++ ")"

def description (slot : Slot) : String :=
  "Slot \x7b datacenter_id: " ++ Decimal.text slot.datacenter.toNat ++ ", worker_id: " ++
    Decimal.text slot.worker.toNat ++ " \x7d"

def toJson (slot : Slot) : String :=
  "[" ++ Decimal.text slot.datacenter.toNat ++ "," ++ Decimal.text slot.worker.toNat ++ "]"

def ofJson? (json : Json) : Option Slot :=
  match json.elements? with
  | some [datacenter, worker] => do return ⟨← datacenter.word?, ← worker.word?⟩
  | _ => none

def ofText? (s : String) : Option Slot := (Json.ofString? s).bind ofJson?

end Slot

end SlotLease
