import SlotLease.CommandLine.Arguments
import SlotLease.Coordinator.Basic

namespace SlotLease.CommandLine

inductive Failure where
  | noCount
  | badSettings (cause : Error)
  | noStore (path : String) (cause : StoreError)
  | notLeased (cause : Error)
  | overwritten (cause : Error)
  | notReleased (cause : Error)
  | failed (cause : Error)
  | reserved (id : Id)
  /-- The clock stood still for too many polls. -/
  | noId
deriving DecidableEq, Repr

def Failure.messages : Failure → List String
  | .noCount => ["--count must be greater than 0"]
  | .badSettings cause => "invalid coordinator settings" :: cause.chain
  | .noStore path cause => ("failed to open lease store at " ++ path) :: cause.chain
  | .notLeased cause => "failed to lease a slot" :: cause.chain
  | .overwritten cause => "lease was overwritten right after acquisition" :: cause.chain
  | .notReleased cause => "failed to release slot" :: cause.chain
  | .failed cause => cause.chain
  | .reserved id => [id.text ++ " has the reserved top bit set and was not minted by slotflake"]
  | .noId => ["no id could be minted while the clock stood still"]

inductive Request where
  | now
  | openStore (path : String)
  | lease (r : Lease.Request)
  | print (text : String)
  | keep (c : Coordinator)

abbrev Reply : Request → Type
  | .now => Instant
  | .openStore _ => Except StoreError Unit
  | .lease r => Lease.Reply r
  | .print _ => Unit
  | .keep _ => Coordinator

abbrev Program (α : Type) : Type := Interaction Request Reply α

def now : Program Instant := .ask .now .done

def openStore (path : String) : Program (Except StoreError Unit) := .ask (.openStore path) .done

def print (text : String) : Program Unit := .ask (.print text) .done

def keep (c : Coordinator) : Program Coordinator := .ask (.keep c) .done

def leasing (p : Lease.Program α) : Program α := p.run fun r => .ask (.lease r) .done

def onWallClock (p : Clock.Program α) : Program α :=
  p.run fun
    | .read => do return some (← now).clock

def Invocation.check (i : Invocation) (now : Instant) : Except Failure Unit :=
  if i.command = .mint 0 then .error .noCount
  else
    match i.settings.check now with
    | .ok _ => .ok ()
    | .error cause => .error (.badSettings cause)

def connect (i : Invocation) : Program (Except Failure Coordinator) := do
  match ← openStore i.storeDir with
  | .error cause => return .error (.noStore i.storeDir cause)
  | .ok () =>
    match Coordinator.create i.settings (← now) with
    | .error cause => return .error (.failed cause)
    | .ok c => return .ok c

def printIds (spins : Nat) :
    (count : Nat) → Coordinator → Program (Except Failure Unit × Coordinator)
  | 0, c => return (.ok (), c)
  | count + 1, c => do
    match ← onWallClock (c.next spins) with
    | (some (.value id), c) =>
      print (id.text ++ "\n")
      printIds spins count c
    | (some (.error cause), c) => return (.error (.failed cause), c)
    | (_, c) => return (.error .noId, c)

def mint (i : Invocation) (spins count : Nat) : Program (Except Failure Unit) := do
  match ← connect i with
  | .error failure => return .error failure
  | .ok c =>
    match ← leasing c.acquire with
    | (.error cause, _) => return .error (.notLeased cause)
    | (.ok _, c) =>
      let (minted, c) ← printIds spins count c
      let _ ← leasing c.release
      return minted

def timeText (millis : UInt64) : String :=
  if millis.toNat ≤ Instant.last.millis then (Instant.ofMillis millis.toNat).rfc3339Millis
  else "out of range"

def describe (id : Id) (epoch : UInt64) : Except Failure String :=
  if !id.isValid then .error (.reserved id)
  else
    let made := id.generationTime epoch
    let number (n : UInt64) : String := Decimal.text n.toNat
    let lines := [
      "id:           " ++ id.text,
      "generated:    " ++ timeText made ++ " (" ++ number made ++ " ms)",
      "timestamp:    " ++ number id.timestamp ++ " ms after epoch " ++ number epoch,
      "datacenter:   " ++ number id.datacenter,
      "worker:       " ++ number id.worker,
      "sequence:     " ++ number id.sequence]
    .ok (String.join (lines.map (· ++ "\n")))

def decode (i : Invocation) (id : Id) : Program (Except Failure Unit) := do
  match describe id i.settings.epochMillis with
  | .error failure => return .error failure
  | .ok text =>
    print text
    return .ok ()

def printEntries : List String → Program (Except Failure Unit)
  | [] => return .ok ()
  | key :: rest => do
    match ← leasing (Lease.call (.get key)) with
    | .error cause => return .error (.failed (.store cause))
    | .ok none => printEntries rest
    | .ok (some value) =>
      print (key ++ "\t" ++ value ++ "\n")
      printEntries rest

def leases (i : Invocation) : Program (Except Failure Unit) := do
  match ← openStore i.storeDir with
  | .error cause => return .error (.noStore i.storeDir cause)
  | .ok () =>
    match ← leasing (Lease.call (.list i.settings.keySpace.scanRoot)) with
    | .error cause => return .error (.failed (.store cause))
    | .ok keys => printEntries keys

def hold (i : Invocation) : Program (Except Failure Unit) := do
  match ← connect i with
  | .error failure => return .error failure
  | .ok c =>
    match ← leasing c.acquire with
    | (.error cause, _) => return .error (.notLeased cause)
    | (.ok slot, c) =>
      match ← leasing c.verify with
      | .error cause => return .error (.overwritten cause)
      | .ok () =>
        print (slot.text ++ "\n")
        let c ← keep c
        match ← leasing c.release with
        | (.error cause, _) => return .error (.notReleased cause)
        | (.ok _, _) => return .ok ()

def Invocation.run (i : Invocation) (spins : Nat) : Program (Except Failure Unit) :=
  match i.command with
  | .mint count => mint i spins count.toNat
  | .decode id => decode i id
  | .leases => leases i
  | .hold => hold i

end SlotLease.CommandLine
