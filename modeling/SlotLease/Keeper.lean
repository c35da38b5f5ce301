import SlotLease.Coordinator.Basic

namespace SlotLease.Keeper

inductive Request where
  | now
  /-- Lets a span pass; true if the keeper is stopped before its end. -/
  | wait (span : Duration)
  | renew

abbrev Reply : Request → Type
  | .now => Instant
  | .wait _ => Bool
  | .renew => Except Error Bool × LeaseState

abbrev Program (α : Type) : Type := Interaction Request Reply α

def now : Program Instant := .ask .now .done

def wait (span : Duration) : Program Bool := .ask (.wait span) .done

def renew : Program (Except Error Bool × LeaseState) := .ask .renew .done

def isLast : Except Error Bool × LeaseState → Bool
  | (.ok false, state) => state.isTerminal
  | _ => false

def round (schedule : Schedule) : Program Bool := do
  match schedule.delay (← now) with
  | none => return false
  | some span =>
    if ← wait span then return false
    else return !isLast (← renew)

def run (schedule : Schedule) : (rounds : Nat) → Program Bool
  | 0 => return true
  | rounds + 1 => do
    if ← round schedule then run schedule rounds else return false

end SlotLease.Keeper
