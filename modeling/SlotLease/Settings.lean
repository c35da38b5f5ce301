import SlotLease.Generator.Basic
import SlotLease.KeySpace
import SlotLease.Retry
import SlotLease.Schedule.Pause

namespace SlotLease

structure Settings where
  leaseHours : UInt64
  renewalSchedule : String
  keyHead : String
  keySubject : String
  epochMillis : UInt64
  retry : Retry
deriving DecidableEq, Repr

namespace Settings

def default : Settings where
  leaseHours := 24
  renewalSchedule := "0 0 * * * *"
  keyHead := KeySpace.defaultHead
  keySubject := KeySpace.defaultSubject
  epochMillis := Generator.epochWord Epoch.standard
  retry := .default

def maxLeaseHours : Nat := 366 * 24

/-- How far ahead a schedule is checked at least: a year and then some, so that monthly and yearly
patterns are walked through once. -/
def horizon : Duration := .ofSeconds (400 * 24 * 3600)

/-- The length of a lease, in seconds of a word of 64 bits at most. -/
def leaseTtl (s : Settings) : Duration :=
  .ofSeconds (min (s.leaseHours.toNat * 3600) (UInt64.size - 1))

def epoch (s : Settings) : Duration := .ofMillis s.epochMillis.toNat

def keySpace (s : Settings) : KeySpace := .ofPieces s.keyHead s.keySubject

def isPiece (s : String) : Bool := !s.isEmpty && !s.toList.contains ':'

def scheduleFault? (s : Settings) (schedule : Schedule) (now : Instant) : Option ConfigFault :=
  (schedule.findPause now s.leaseTtl (horizon.max s.leaseTtl.double)).map fun pause =>
    match pause.length with
    | some length => .pause pause.start length s.leaseHours.toNat
    | none => .ends

def faultless (schedule : Schedule) : Option ConfigFault → Except Error Schedule
  | some fault => .error (.invalidConfig fault)
  | none => .ok schedule

def check (s : Settings) (now : Instant) : Except Error Schedule :=
  if s.leaseHours = 0 then .error (.invalidConfig .noLease)
  else if maxLeaseHours < s.leaseHours.toNat then
    .error (.invalidConfig (.leaseTooLong maxLeaseHours))
  else if s.retry.maxAttempts = 0 then .error (.invalidConfig .noAttempts)
  else if !isPiece s.keyHead then .error (.invalidConfig .badHead)
  else if !isPiece s.keySubject then .error (.invalidConfig .badSubject)
  else
    match Schedule.ofString? s.renewalSchedule with
    | none => .error (.invalidConfig (.badSchedule s.renewalSchedule))
    | some schedule => faultless schedule (s.scheduleFault? schedule now)

def ofJson? (json : Json) : Option Settings := do
  match ← json.fields?
      ["lease_ttl_hours", "renewal_schedule", "key_prefix", "key_subject", "epoch_millis", "retry"]
    with
  | [leaseHours, renewalSchedule, keyHead, keySubject, epochMillis, retry] =>
    return {
      leaseHours := ← match leaseHours with
        | some json => json.word?
        | none => some default.leaseHours
      renewalSchedule := ← match renewalSchedule with
        | some json => json.string?
        | none => some default.renewalSchedule
      keyHead := ← match keyHead with
        | some json => json.string?
        | none => some default.keyHead
      keySubject := ← match keySubject with
        | some json => json.string?
        | none => some default.keySubject
      epochMillis := ← match epochMillis with
        | some json => json.word?
        | none => some default.epochMillis
      retry := ← match retry with
        | some json => Retry.ofJson? json
        | none => some .default }
  | _ => none

def ofText? (s : String) : Option Settings := (Json.ofString? s).bind ofJson?

end Settings

end SlotLease
