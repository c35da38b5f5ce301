namespace SlotLease

structure Duration where
  nanos : Nat
deriving DecidableEq, Repr, Inhabited

namespace Duration

def zero : Duration := ⟨0⟩

def ofMillis (ms : Nat) : Duration := ⟨ms * 1000000⟩

def ofSeconds (s : Nat) : Duration := ⟨s * 1000000000⟩

def millis (d : Duration) : Nat := d.nanos / 1000000

def seconds (d : Duration) : Nat := d.nanos / 1000000000

def double (d : Duration) : Duration := ⟨d.nanos * 2⟩

def min (a b : Duration) : Duration := if b.nanos < a.nanos then b else a

def max (a b : Duration) : Duration := if a.nanos < b.nanos then b else a

end Duration

structure Instant where
  nanos : Int
deriving DecidableEq, Repr, Inhabited

namespace Instant

def ofMillis (ms : Int) : Instant := ⟨ms * 1000000⟩

def ofSeconds (s : Int) : Instant := ⟨s * 1000000000⟩

def millis (t : Instant) : Int := t.nanos / 1000000

def seconds (t : Instant) : Int := t.nanos / 1000000000

def subsecond (t : Instant) : Nat := (t.nanos % 1000000000).toNat

def add (t : Instant) (d : Duration) : Instant := ⟨t.nanos + d.nanos⟩

def spanTo (t later : Instant) : Duration := ⟨(later.nanos - t.nanos).toNat⟩

/-- What a clock shows that counts milliseconds since 1970 in a word of 64 bits; before 1970 it
stands at 0. -/
def clock (t : Instant) : UInt64 := t.millis.toNat.toUInt64

end Instant

end SlotLease
