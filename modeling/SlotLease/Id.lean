import SlotLease.Text.Decimal
import SlotLease.Text.Hex

/-!
Ids of 64 bits. From the highest bit down an id holds a reserved bit, which is clear, 41 bits of
milliseconds since an epoch, 5 bits of datacenter, 5 bits of worker and 12 bits of sequence number,
so that ids ascend with time.
-/

namespace SlotLease

structure Id where
  raw : UInt64
deriving DecidableEq, Repr, Inhabited

namespace Id

def timestampBits : Nat := 41
def datacenterBits : Nat := 5
def workerBits : Nat := 5
def sequenceBits : Nat := 12

def maxTimestamp : UInt64 := 0x1FFFFFFFFFF
def maxDatacenter : UInt64 := 0x1F
def maxWorker : UInt64 := 0x1F
def maxSequence : UInt64 := 0xFFF

def sequenceShift : UInt64 := 0
def workerShift : UInt64 := 12
def datacenterShift : UInt64 := 17
def timestampShift : UInt64 := 22

def pack (timestamp datacenter worker sequence : UInt64) : Id :=
  ⟨(timestamp &&& maxTimestamp) <<< timestampShift |||
    (datacenter &&& maxDatacenter) <<< datacenterShift |||
    (worker &&& maxWorker) <<< workerShift |||
    (sequence &&& maxSequence) <<< sequenceShift⟩

def timestamp (id : Id) : UInt64 := id.raw >>> timestampShift &&& maxTimestamp

def datacenter (id : Id) : UInt64 := id.raw >>> datacenterShift &&& maxDatacenter

def worker (id : Id) : UInt64 := id.raw >>> workerShift &&& maxWorker

def sequence (id : Id) : UInt64 := id.raw >>> sequenceShift &&& maxSequence

def isValid (id : Id) : Bool := id.raw >>> 63 = 0

def toInt64 (id : Id) : Int64 := id.raw.toInt64

def generationTime (id : Id) (epoch : UInt64) : UInt64 := id.timestamp + epoch

def hasRoom (id : Id) : Bool := id.sequence < maxSequence

def increment (id : Id) : Id := pack id.timestamp id.datacenter id.worker (id.sequence + 1)

def rollover (id : Id) (timestamp : UInt64) : Id := pack timestamp id.datacenter id.worker 0

def text (id : Id) : String := Decimal.text id.raw.toNat

def padded (id : Id) : String := Decimal.padded 20 id.raw.toNat

def description (id : Id) : String :=
  let lines := [
    "SlotflakeId \x7b",
    "    raw id     : 0x" ++ String.ofList (Hex.digits 16 id.raw.toNat) ++ " (" ++ id.text ++ ")",
    "    timestamp  : " ++ Decimal.text id.timestamp.toNat ++ " (41 bits)",
    "    datacenter : " ++ Decimal.text id.datacenter.toNat ++ " (5 bits)",
    "    worker     : " ++ Decimal.text id.worker.toNat ++ " (5 bits)",
    "    sequence   : " ++ Decimal.text id.sequence.toNat ++ " (12 bits)",
    "\x7d"]
  String.intercalate "\n" lines

end Id

end SlotLease
