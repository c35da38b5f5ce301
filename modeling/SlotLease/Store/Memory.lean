import SlotLease.Store.Call
import SlotLease.Store.Table

namespace SlotLease

structure MemoryStore.Entry where
  value : String
  deadline : Instant
deriving DecidableEq, Repr

structure MemoryStore where
  table : Table MemoryStore.Entry

namespace MemoryStore

def empty : MemoryStore := ⟨.empty⟩

def Entry.isLive (e : Entry) (now : Instant) : Bool := now.nanos < e.deadline.nanos

/-- Deadlines have fewer than 2^63 seconds. -/
def deadline? (now : Instant) (ttl : Duration) : Except StoreError Instant :=
  let deadline := now.add ttl
  if deadline.seconds < 0x8000000000000000 then .ok deadline else .error (.ttlOutOfRange ttl)

def deadlineOf? (s : MemoryStore) (now : Instant) (key : String) : Option Instant :=
  ((s.table.get? key).filter (·.isLive now)).map (·.deadline)

def size (s : MemoryStore) (now : Instant) : Nat :=
  (s.table.entries.filter fun e => e.2.isLive now).length

def isEmpty (s : MemoryStore) (now : Instant) : Bool := s.size now = 0

def settle (s : MemoryStore) (now : Instant) (key : String) : MemoryStore :=
  match s.table.get? key with
  | some entry => if entry.isLive now then s else ⟨s.table.erase key⟩
  | none => s

def list (s : MemoryStore) (now : Instant) (root : String) : List String × MemoryStore :=
  let live := s.table.filter fun _ entry => entry.isLive now
  (live.keysFrom root, ⟨live⟩)

def has (s : MemoryStore) (now : Instant) (key : String) : Bool × MemoryStore :=
  let s := s.settle now key
  ((s.table.get? key).isSome, s)

def get (s : MemoryStore) (now : Instant) (key : String) : Option String × MemoryStore :=
  let s := s.settle now key
  ((s.table.get? key).map (·.value), s)

def set (s : MemoryStore) (now : Instant) (key value : String) (ttl : Duration) :
    Except StoreError Unit × MemoryStore :=
  match deadline? now ttl with
  | .error e => (.error e, s)
  | .ok deadline => (.ok (), ⟨s.table.insert key { value, deadline }⟩)

def refresh (s : MemoryStore) (now : Instant) (key : String) (ttl : Duration) :
    Except StoreError Bool × MemoryStore :=
  match deadline? now ttl with
  | .error e => (.error e, s)
  | .ok deadline =>
    let s := s.settle now key
    match s.table.get? key with
    | some entry => (.ok true, ⟨s.table.insert key { entry with deadline }⟩)
    | none => (.ok false, s)

def delete (s : MemoryStore) (now : Instant) (key : String) : Bool × MemoryStore :=
  ((s.table.get? key).any (·.isLive now), ⟨s.table.erase key⟩)

def answer (s : MemoryStore) (now : Instant) : (call : Store.Call) → call.Reply × MemoryStore
  | .list root => let (keys, s) := s.list now root; (.ok keys, s)
  | .has key => let (found, s) := s.has now key; (.ok found, s)
  | .get key => let (value, s) := s.get now key; (.ok value, s)
  | .set key value ttl => s.set now key value ttl
  | .refresh key ttl => s.refresh now key ttl
  | .delete key => let (deleted, s) := s.delete now key; (.ok deleted, s)

end MemoryStore

end SlotLease
