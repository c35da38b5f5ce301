import SlotLease.Error
import SlotLease.Interaction

namespace SlotLease

namespace Lease

inductive Request where
  | store (call : Store.Call)
  | sleep (time : Duration)

abbrev Reply : Request → Type
  | .store call => call.Reply
  | .sleep _ => Unit

abbrev Program (α : Type) : Type := Interaction Request Reply α

def call (c : Store.Call) : Program (Except StoreError c.Value) := .ask (.store c) .done

def sleep (time : Duration) : Program Unit := .ask (.sleep time) .done

end Lease

structure Retry where
  maxAttempts : UInt32
  initialBackoffMillis : UInt64
  maxBackoffMillis : UInt64
deriving DecidableEq, Repr

namespace Retry

def default : Retry := ⟨5, 100, 2000⟩

def once : Retry := ⟨1, 0, 0⟩

def attempts (r : Retry) : Nat := max 1 r.maxAttempts.toNat

def initialBackoff (r : Retry) : Duration := .ofMillis r.initialBackoffMillis.toNat

def maxBackoff (r : Retry) : Duration := .ofMillis r.maxBackoffMillis.toNat

def nextBackoff (r : Retry) (backoff : Duration) : Duration := backoff.double.min r.maxBackoff

/-- Attempts a call, and as often as `left` once more after a failure, first after `backoff`. -/
def attempt (r : Retry) (call : Store.Call) : (left : Nat) → (backoff : Duration) →
    Lease.Program (Except Error call.Value)
  | 0, _ => do
    match ← Lease.call call with
    | .ok value => return .ok value
    | .error cause => return .error (.storeUnavailable call.operation r.attempts cause)
  | left + 1, backoff => do
    match ← Lease.call call with
    | .ok value => return .ok value
    | .error _ =>
      Lease.sleep backoff
      r.attempt call left (r.nextBackoff backoff)

def run (r : Retry) (call : Store.Call) : Lease.Program (Except Error call.Value) :=
  r.attempt call (r.attempts - 1) r.initialBackoff

def ofJson? (json : Json) : Option Retry := do
  match ← json.fields? ["max_attempts", "initial_backoff_ms", "max_backoff_ms"] with
  | [maxAttempts, initialBackoff, maxBackoff] =>
    return {
      maxAttempts := ← match maxAttempts with
        | some json => (json.nat? (UInt32.size - 1)).map Nat.toUInt32
        | none => some default.maxAttempts
      initialBackoffMillis := ← match initialBackoff with
        | some json => json.word?
        | none => some default.initialBackoffMillis
      maxBackoffMillis := ← match maxBackoff with
        | some json => json.word?
        | none => some default.maxBackoffMillis }
  | _ => none

end Retry

end SlotLease
