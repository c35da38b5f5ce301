import SlotLease.Slot

namespace SlotLease

inductive LeaseState where
  | unbound
  | bound (slot : Slot)
  | released (slot : Slot)
  /-- The lease was gone when it should have been renewed. -/
  | expired (slot : Slot)
deriving DecidableEq, Repr

namespace LeaseState

def slot? : LeaseState → Option Slot
  | .unbound => none
  | .bound slot => some slot
  | .released slot => some slot
  | .expired slot => some slot

def held? : LeaseState → Option Slot
  | .bound slot => some slot
  | _ => none

def isBound : LeaseState → Bool
  | .bound _ => true
  | _ => false

def isTerminal : LeaseState → Bool
  | .released _ => true
  | .expired _ => true
  | _ => false

def text : LeaseState → String
  | .unbound => "unbound"
  | .bound slot => "bound to " ++ slot.text
  | .released slot => "released " ++ slot.text
  | .expired slot => "lost lease on " ++ slot.text

def description : LeaseState → String
  | .unbound => "Unbound"
  | .bound slot => "Bound(" ++ slot.description ++ ")"
  | .released slot => "Released(" ++ slot.description ++ ")"
  | .expired slot => "Expired(" ++ slot.description ++ ")"

end LeaseState

end SlotLease
