import SlotLease.CommandLine.Run
import SlotLease.Keeper
import SlotLease.Store.Files
import Std.Async.Signal
import Std.Time.DateTime.Timestamp

namespace SlotLease.Main

def wallClock : IO Instant := do
  return ⟨(← Std.Time.Timestamp.now).toNanosecondsSinceUnixEpoch.val⟩

partial def waitUntil (stopped : IO Bool) (tick : Nat) : IO Bool := do
  if ← stopped then return true
  let now ← IO.monoMsNow
  if tick ≤ now then return false
  IO.sleep (min 100 (tick - now)).toUInt32
  waitUntil stopped tick

def wait (stopped : IO Bool) (span : Duration) : IO Bool := do
  waitUntil stopped ((← IO.monoMsNow) + (span.nanos + 999999) / 1000000)

def fileError : IO.Error → FileError
  | .noFileOrDirectory .. => .notFound
  | .alreadyExists .. => .alreadyExists
  | cause => .other (toString cause)

def tryFile (act : IO α) : IO (Except FileError α) := do
  try return .ok (← act)
  catch cause => return .error (fileError cause)

def filesReply (s : FileStore) : (r : Files.Request) → IO (Files.Reply r)
  | .read name => tryFile (IO.FS.readBinFile (s.pathOf name))
  | .write name content => tryFile (IO.FS.writeBinFile (s.pathOf name) content)
  | .rename source target => tryFile (IO.FS.rename (s.pathOf source) (s.pathOf target))
  | .link source target => tryFile (IO.FS.hardLink (s.pathOf source) (s.pathOf target))
  | .remove name => tryFile (IO.FS.removeFile (s.pathOf name))
  | .names => tryFile do
    let entries ← (System.mkFilePath [s.path]).readDir
    return entries.toList.map (·.fileName)
  | .now => do return (← wallClock).clock

def storeReply (store : IO.Ref FileStore) (call : Store.Call) : IO call.Reply := do
  let s ← store.get
  let (reply, s) ← (s.answer call).run (filesReply s)
  store.set s
  return reply

def leaseReply (store : IO.Ref FileStore) : (r : Lease.Request) → IO (Lease.Reply r)
  | .store call => storeReply store call
  | .sleep span => discard (wait (return false) span)

def keeperReply (store : IO.Ref FileStore) (held : IO.Ref Coordinator) (stopped : IO Bool) :
    (r : Keeper.Request) → IO (Keeper.Reply r)
  | .now => wallClock
  | .wait span => wait stopped span
  | .renew => do
    let (result, c) ← (← held.get).renew.run (leaseReply store)
    held.set c
    return (result, c.state)

def watchSignals : IO (IO Bool) := do
  let interrupted ← (← Std.Async.Signal.Waiter.mk .sigint false).wait
  let terminated ← (← Std.Async.Signal.Waiter.mk .sigterm false).wait
  return do return (← IO.hasFinished interrupted) || (← IO.hasFinished terminated)

def keep (store : IO.Ref FileStore) (c : Coordinator) : IO Coordinator := do
  let stopped ← watchSignals
  let held ← IO.mkRef c
  let mut going := true
  while going do
    going ← (Keeper.round c.schedule).run (keeperReply store held stopped)
  while !(← wait stopped (.ofSeconds 1)) do
    pure ()
  held.get

def openStore (store : IO.Ref FileStore) (path : String) : IO (Except StoreError Unit) := do
  match ← tryFile (IO.FS.createDirAll path) with
  | .error cause => return .error (.io cause)
  | .ok () =>
    store.set { path, owner := (← IO.rand 0 0x7FFFFFFF).toUInt32 }
    return .ok ()

def commandReply (store : IO.Ref FileStore) :
    (r : CommandLine.Request) → IO (CommandLine.Reply r)
  | .now => wallClock
  | .openStore path => openStore store path
  | .lease r => leaseReply store r
  | .print text => do
    let out ← IO.getStdout
    out.putStr text
    out.flush
  | .keep c => keep store c

def environment : IO (List (String × String)) := do
  let names := CommandLine.Parameter.common.filterMap CommandLine.Parameter.variableName?
  names.filterMapM fun name => do return (← IO.getEnv name).map (name, ·)

def usage : String :=
  "Usage: slotflake [OPTIONS] <COMMAND>\n\n" ++
  "Commands: mint [-n COUNT], decode ID, leases, hold, help\n\n" ++
  "Options: " ++
  String.intercalate ", " (CommandLine.Parameter.common.filterMap fun p =>
    p.option?.map ("--" ++ · ++ " VALUE"))

def refusalText : CommandLine.Refusal → String
  | .missingArgument => "a required argument was not given"
  | .badNumber => "a value is not a number in range"
  | .badValue => "a value is missing or not one of those allowed"
  | .unknownArgument => "unexpected argument"
  | .unknownCommand => "unrecognized command"
  | .missingCommand => "a command is required"
  | .repeated => "an option was given twice"
  | .surplusValue => "a value was given to an option that takes none"
  | .help => usage
  | .nothing => usage
  | .version => "slotflake 0.3.2"

def refuse (r : CommandLine.Refusal) : IO UInt32 := do
  match r with
  | .help | .version =>
    IO.println (refusalText r)
    return 0
  | .nothing =>
    IO.eprintln (refusalText r)
    return 2
  | _ =>
    IO.eprintln ("error: " ++ refusalText r ++ "\n\n" ++ usage)
    return 2

def report (result : Except CommandLine.Failure Unit) : IO UInt32 := do
  match result with
  | .ok () => return 0
  | .error failure =>
    IO.eprintln ("Error: " ++ String.intercalate "\n  caused by: " failure.messages)
    return 1

/-- So many polls outlast any millisecond. -/
def spins : Nat := 0x3FFFFFFFFFFFFFFF

def run (arguments : List String) : IO UInt32 := do
  let given ← environment
  match CommandLine.parse (given.lookup ·) arguments with
  | .error r => refuse r
  | .ok invocation =>
    match invocation.check (← wallClock) with
    | .error failure => report (.error failure)
    | .ok () =>
      let store ← IO.mkRef { path := invocation.storeDir, owner := 0 }
      report (← (invocation.run spins).run (commandReply store))

end SlotLease.Main

def main (arguments : List String) : IO UInt32 := SlotLease.Main.run arguments
