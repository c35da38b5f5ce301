import SlotLease.Store.Directory
import SlotLease.Store.Record
import SlotLease.Text.Hex

/-!
The store in a directory. Each key has a file of its own, named by the hexadecimal digits of its
bytes, that holds a record with a deadline on the wall clock. A record is written to a temporary
file that is then renamed, so readers never see half of one. A file whose record has ended is
evicted when it is met: it is moved aside and read back, for it may have been replaced by a live
one meanwhile, which then gets its name back unless the name is taken again.
-/

namespace SlotLease

structure FileStore where
  path : String
  /-- The number of the process that holds it, a part of the names of its temporary files. -/
  owner : UInt32
  counter : UInt64 := 0
deriving DecidableEq, Repr

namespace FileStore

def ending : String := ".lease"

def fileName (key : String) : String :=
  String.ofList (Hex.ofBytes key.toUTF8.data.toList) ++ ending

def isLeaseName (name : String) : Bool :=
  ending.toList.isSuffixOf name.toList && name ≠ ending

def pathOf (s : FileStore) (name : String) : String :=
  if s.path.isEmpty || s.path.toList.getLast? = some '/' then s.path ++ name
  else s.path ++ "/" ++ name

def temporary (s : FileStore) : String :=
  "." ++ Decimal.text s.owner.toNat ++ "." ++ Decimal.text s.counter.toNat ++ ".tmp"

def afterTemporary (s : FileStore) : FileStore := { s with counter := s.counter + 1 }

def ofFile (result : Except FileError α) : Except StoreError α :=
  match result with
  | .ok a => .ok a
  | .error cause => .error (.io cause)

def read (s : FileStore) (name : String) : Files.Program (Except StoreError (Option Record)) := do
  match ← Files.read name with
  | .ok content =>
    match Record.decode? content with
    | some record => return .ok (some record)
    | none => return .error (.corrupt (s.pathOf name))
  | .error .notFound => return .ok none
  | .error cause => return .error (.io cause)

def removeIfPresent (name : String) : Files.Program (Except StoreError Unit) := do
  match ← Files.remove name with
  | .error .notFound => return .ok ()
  | result => return ofFile result

def isLiveAside (s : FileStore) (aside : String) : Files.Program Bool := do
  match ← s.read aside with
  | .ok (some record) => return record.isLive (← Files.now)
  | _ => return false

/-- Moves a file aside and removes it, unless it turns out to hold a live record: that one gets its
name back, or is given up for a newer one of the name. -/
def evict (s : FileStore) (name : String) : Files.Program (Except StoreError Unit × FileStore) := do
  let aside := s.temporary
  let s := s.afterTemporary
  match ← Files.rename name aside with
  | .error .notFound => return (.ok (), s)
  | .error cause => return (.error (.io cause), s)
  | .ok () =>
    if ← s.isLiveAside aside then
      match ← Files.link aside name with
      | .ok () => return (← removeIfPresent aside, s)
      | .error .alreadyExists => return (← removeIfPresent aside, s)
      | .error _ => return (ofFile (← Files.rename aside name), s)
    else return (← removeIfPresent aside, s)

def readLive (s : FileStore) (key : String) :
    Files.Program (Except StoreError (Option Record) × FileStore) := do
  let name := fileName key
  match ← s.read name with
  | .error e => return (.error e, s)
  | .ok none => return (.ok none, s)
  | .ok (some record) =>
    if record.isLive (← Files.now) then return (.ok (some record), s)
    else
      match ← s.evict name with
      | (.ok (), s) => return (.ok none, s)
      | (.error e, s) => return (.error e, s)

def write (s : FileStore) (record : Record) :
    Files.Program (Except StoreError Unit × FileStore) := do
  let temporary := s.temporary
  let s := s.afterTemporary
  match ← Files.write temporary record.encode with
  | .error cause => return (.error (.io cause), s)
  | .ok () =>
    match ← Files.rename temporary (fileName record.key) with
    | .ok () => return (.ok (), s)
    | .error cause =>
      let _ ← Files.remove temporary
      return (.error (.io cause), s)

def deadline (ttl : Duration) : Files.Program (Except StoreError UInt64) := do
  if UInt64.size ≤ ttl.millis then return .error (.ttlOutOfRange ttl)
  else
    let now ← Files.now
    if UInt64.size ≤ now.toNat + ttl.millis then return .error (.ttlOutOfRange ttl)
    else return .ok (now + ttl.millis.toUInt64)

/-- The keys found so far, and those of the live records in more lease files that begin with `root`.
What is no record is passed over, and records that have ended are evicted. -/
def listFiles (s : FileStore) (root : String) (now : UInt64) : (names : List String) →
    (found : List String) → Files.Program (Except StoreError (List String) × FileStore)
  | [], found => return (.ok found, s)
  | name :: rest, found => do
    if !isLeaseName name then s.listFiles root now rest found
    else
      match ← s.read name with
      | .ok none => s.listFiles root now rest found
      | .ok (some record) =>
        if record.isLive now then
          let here := if root.toList.isPrefixOf record.key.toList then [record.key] else []
          s.listFiles root now rest (found ++ here)
        else
          match ← s.evict name with
          | (.ok (), s) => s.listFiles root now rest found
          | (.error e, s) => return (.error e, s)
      | .error (.corrupt _) => s.listFiles root now rest found
      | .error e => return (.error e, s)

def list (s : FileStore) (root : String) :
    Files.Program (Except StoreError (List String) × FileStore) := do
  let now ← Files.now
  match ← Files.names with
  | .error cause => return (.error (.io cause), s)
  | .ok names =>
    match ← s.listFiles root now names [] with
    | (.ok found, s) => return (.ok (found.mergeSort (· ≤ ·)), s)
    | (.error e, s) => return (.error e, s)

def has (s : FileStore) (key : String) : Files.Program (Except StoreError Bool × FileStore) := do
  let (result, s) ← s.readLive key
  return (result.map (·.isSome), s)

def get (s : FileStore) (key : String) :
    Files.Program (Except StoreError (Option String) × FileStore) := do
  let (result, s) ← s.readLive key
  return (result.map fun record => record.map (·.value), s)

def set (s : FileStore) (key value : String) (ttl : Duration) :
    Files.Program (Except StoreError Unit × FileStore) := do
  match ← deadline ttl with
  | .error e => return (.error e, s)
  | .ok expiresAt => s.write { key, value, expiresAt }

/-- Writes the live record in the file of a key again, with another deadline and to the file of the
key that the record names. -/
def refresh (s : FileStore) (key : String) (ttl : Duration) :
    Files.Program (Except StoreError Bool × FileStore) := do
  match ← deadline ttl with
  | .error e => return (.error e, s)
  | .ok expiresAt =>
    match ← s.readLive key with
    | (.error e, s) => return (.error e, s)
    | (.ok none, s) => return (.ok false, s)
    | (.ok (some record), s) =>
      let (result, s) ← s.write { record with expiresAt }
      return (result.map fun _ => true, s)

def delete (s : FileStore) (key : String) : Files.Program (Except StoreError Bool × FileStore) := do
  match ← s.readLive key with
  | (.error e, s) => return (.error e, s)
  | (.ok none, s) => return (.ok false, s)
  | (.ok (some _), s) =>
    let result ← removeIfPresent (fileName key)
    return (result.map fun _ => true, s)

def answer (s : FileStore) : (call : Store.Call) → Files.Program (call.Reply × FileStore)
  | .list root => s.list root
  | .has key => s.has key
  | .get key => s.get key
  | .set key value ttl => s.set key value ttl
  | .refresh key ttl => s.refresh key ttl
  | .delete key => s.delete key

end FileStore

end SlotLease
