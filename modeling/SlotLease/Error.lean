import SlotLease.Calendar
import SlotLease.Slot
import SlotLease.Store.Call

namespace SlotLease

inductive ConfigFault where
  | noLease
  | leaseTooLong (limit : Nat)
  | noAttempts
  | badHead
  | badSubject
  | badSchedule (expression : String)
  | pause (start : Instant) (length : Duration) (hours : Nat)
  | ends
deriving DecidableEq, Repr

namespace ConfigFault

def field : ConfigFault → String
  | .noLease => "lease_ttl_hours"
  | .leaseTooLong _ => "lease_ttl_hours"
  | .noAttempts => "retry.max_attempts"
  | .badHead => "key_prefix"
  | .badSubject => "key_subject"
  | .badSchedule _ => "renewal_schedule"
  | .pause .. => "renewal_schedule"
  | .ends => "renewal_schedule"

def reason : ConfigFault → String
  | .noLease => "must be at least 1 hour"
  | .leaseTooLong limit => "must be at most " ++ Decimal.text limit ++ " hours"
  | .noAttempts => "must be at least 1"
  | .badHead => "must be non-empty and free of ':'"
  | .badSubject => "must be non-empty and free of ':'"
  | .badSchedule expression => "invalid cron expression '" ++ expression ++ "'"
  | .pause start length hours =>
    "goes " ++ Decimal.text length.seconds ++ "s without firing after " ++ start.rfc3339 ++
      ", which is not shorter than the " ++ Decimal.text hours ++ "h lease TTL"
  | .ends => "must fire repeatedly to keep the lease alive"

end ConfigFault

inductive Error where
  | invalidSlot (field : Slot.Field) (value limit : UInt64)
  | invalidConfig (fault : ConfigFault)
  | clockRegression (last now : UInt64)
  | clockBeforeEpoch (now epoch : UInt64)
  | timestampOverflow (offset : UInt64)
  | slotsExhausted
  | storeUnavailable (operation : Store.Operation) (attempts : Nat) (cause : StoreError)
  | store (cause : StoreError)
  | leaseMismatch (key : String) (slot : Slot) (found : Option String)
  | unbound
  | leaseEnded (slot : Slot)
  | lockPoisoned
deriving DecidableEq, Repr

namespace Error

def message : Error → String
  | .invalidSlot field value limit =>
    field.name ++ " " ++ Decimal.text value.toNat ++ " is out of range (max " ++
      Decimal.text limit.toNat ++ ")"
  | .invalidConfig fault => "invalid configuration for `" ++ fault.field ++ "`: " ++ fault.reason
  | .clockRegression last now =>
    "clock moved backwards: last issued at " ++ Decimal.text last.toNat ++ " ms, now " ++
      Decimal.text now.toNat ++ " ms"
  | .clockBeforeEpoch now epoch =>
    "clock reads " ++ Decimal.text now.toNat ++ " ms, which is before the epoch at " ++
      Decimal.text epoch.toNat ++ " ms"
  | .timestampOverflow offset =>
    "timestamp offset " ++ Decimal.text offset.toNat ++ " ms exceeds the 41-bit timestamp field"
  | .slotsExhausted =>
    "all " ++ Decimal.text Slot.perField ++ "x" ++ Decimal.text Slot.perField ++
      " datacenter/worker slots are leased"
  | .storeUnavailable operation attempts _ =>
    "coordination store unavailable during `" ++ operation.name ++ "` after " ++
      Decimal.text attempts ++ " attempts"
  | .store cause => cause.message
  | .leaseMismatch key slot found =>
    "lease `" ++ key ++ "` holds " ++ found.getD "nothing" ++ ", expected " ++ slot.text
  | .unbound => "no slot has been acquired yet"
  | .leaseEnded slot => "lease on slot " ++ slot.text ++ " has ended"
  | .lockPoisoned => "generator lock poisoned"

def chain : Error → List String
  | .storeUnavailable operation attempts cause =>
    (storeUnavailable operation attempts cause).message :: cause.chain
  | .store cause => cause.chain
  | error => [error.message]

end Error

def Slot.check (slot : Slot) : Except Error Unit :=
  match slot.outOfRange? with
  | some (field, value, limit) => .error (.invalidSlot field value limit)
  | none => .ok ()

end SlotLease
