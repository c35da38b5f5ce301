import SlotLease.CommandLine.Parameter

namespace SlotLease.CommandLine

inductive Token where
  | dashes
  | long (name : String) (value : Option String)
  | short (letter : Char) (rest : List Char)
  | word (text : String)
deriving DecidableEq, Repr

namespace Token

def ofLong (chars : List Char) : Token :=
  let name := String.ofList (chars.takeWhile (· ≠ '='))
  match chars.dropWhile (· ≠ '=') with
  | _ :: value => .long name (some (String.ofList value))
  | [] => .long name none

def ofString (argument : String) : Token :=
  match argument.toList with
  | ['-', '-'] => .dashes
  | '-' :: '-' :: chars => ofLong chars
  | '-' :: letter :: rest => .short letter rest
  | _ => .word argument

def attached? : List Char → Option String
  | [] => none
  | '=' :: value => some (String.ofList value)
  | value => some (String.ofList value)

end Token

inductive Side where
  | before
  | behind (command : CommandName)
deriving DecidableEq, Repr

inductive Switch where
  | parameter (p : Parameter)
  | help
  | version
deriving DecidableEq, Repr

namespace Side

def parameters : Side → List Parameter
  | .behind .mint => .count :: Parameter.common
  | _ => Parameter.common

def long? (side : Side) (name : String) : Option Switch :=
  match side.parameters.find? fun p => p.option? = some name with
  | some p => some (.parameter p)
  | none =>
    if name = "help" then some .help
    else if name = "version" ∧ side = .before then some .version
    else none

def short? (side : Side) (letter : Char) : Option Switch :=
  if letter = 'h' then some .help
  else if letter = 'V' ∧ side = .before then some .version
  else if letter = 'n' ∧ side = .behind .mint then some (.parameter .count)
  else none

end Side

structure Scan where
  given : Values
  pending : Option (Parameter × Option String) := none

namespace Scan

def start : Scan := { given := .none }

def isWaiting (s : Scan) : Bool :=
  match s.pending with
  | some (_, none) => true
  | _ => false

def has (s : Scan) (p : Parameter) : Bool := (s.given p).isSome || s.pending.any (·.1 = p)

def give (s : Scan) (p : Parameter) (text : String) : Except Refusal Scan :=
  if (s.given p).isSome then .error .repeated
  else do return { s with given := s.given.set p (← p.read text) }

def settle (s : Scan) : Except Refusal Scan :=
  match s.pending with
  | none => .ok s
  | some (_, none) => .error .badValue
  | some (p, some text) => { s with pending := none }.give p text

def take (s : Scan) : Switch → Option String → Except Refusal Scan
  | .parameter p, some text => do (← s.settle).give p text
  | .parameter p, none => do return { ← s.settle with pending := some (p, none) }
  | _, some _ => .error .surplusValue
  | .help, none => do
    let _ ← s.settle
    .error .help
  | .version, none => do
    let _ ← s.settle
    .error .version

def place (s : Scan) (text : String) : Side → Except Refusal Scan
  | .before => .error .unknownCommand
  | .behind .decode =>
    if s.has .id then .error .unknownArgument
    else do return { ← s.settle with pending := some (.id, some text) }
  | .behind _ => .error .unknownArgument

def word (s : Scan) (side : Side) (text : String) : Except Refusal Scan :=
  match s.pending with
  | some (p, none) => .ok { s with pending := some (p, some text) }
  | _ => s.place text side

end Scan

inductive CommandWord where
  | command (name : CommandName)
  | help
deriving DecidableEq, Repr

def CommandWord.ofString? (text : String) : Option CommandWord :=
  if text = "help" then some .help else (CommandName.ofString? text).map .command

def scanWords (side : Side) (s : Scan) : List String → Except Refusal Scan
  | [] => .ok s
  | text :: rest =>
    if side = .before ∧ (CommandWord.ofString? text).isSome then .error .unknownArgument
    else do scanWords side (← s.place text side) rest

def commandAt? (side : Side) (s : Scan) (argument : String) : Option CommandWord :=
  if side = .before ∧ !s.isWaiting then CommandWord.ofString? argument else none

/-- Reads the arguments on one side. Before the command it ends with the word that names it, and
gives that and what is behind it. -/
def scan (side : Side) (s : Scan) :
    List String → Except Refusal (Scan × Option (CommandWord × List String))
  | [] => .ok (s, none)
  | argument :: rest =>
    match commandAt? side s argument with
    | some found => .ok (s, some (found, rest))
    | none =>
      match Token.ofString argument with
      | .dashes => do return (← scanWords side s rest, none)
      | .word text => do scan side (← s.word side text) rest
      | .long name value =>
        match side.long? name with
        | none => .error .unknownArgument
        | some switch => do scan side (← s.take switch value) rest
      | .short letter more =>
        match side.short? letter with
        | none => .error .unknownArgument
        | some (.parameter p) => do scan side (← s.take (.parameter p) (Token.attached? more)) rest
        | some switch => do scan side (← s.take switch none) rest

def complete (environment : String → Option String) (given : Values) : Except Refusal Values :=
  Parameter.common.foldlM
    (fun values p =>
      match values p, p.variableName?.bind environment with
      | none, some text => do return values.set p (← p.read text)
      | _, _ => return values)
    given

inductive Command where
  | mint (count : UInt64)
  | decode (id : Id)
  | leases
  | hold
deriving DecidableEq, Repr

def Command.ofValues (name : CommandName) (values : Values) : Except Refusal Command :=
  match name with
  | .mint => .ok (.mint ((values .count).getD 1))
  | .decode =>
    match values .id with
    | some raw => .ok (.decode ⟨raw⟩)
    | none => .error .missingArgument
  | .leases => .ok .leases
  | .hold => .ok .hold

structure Invocation where
  storeDir : String
  settings : Settings
  logFormat : LogFormat
  command : Command
deriving DecidableEq, Repr

def settingsOf (values : Values) : Settings where
  leaseHours := (values .leaseHours).getD Settings.default.leaseHours
  renewalSchedule := (values .renewalSchedule).getD Settings.default.renewalSchedule
  keyHead := (values .keyHead).getD Settings.default.keyHead
  keySubject := (values .keySubject).getD Settings.default.keySubject
  epochMillis := (values .epochMillis).getD Settings.default.epochMillis
  retry := { Retry.default with
    maxAttempts := (values .maxAttempts).getD Retry.default.maxAttempts }

def helpOn : List String → Refusal
  | [] => .help
  | [name] => if (CommandWord.ofString? name).isSome then .help else .unknownCommand
  | _ => .unknownCommand

def scanBehind (environment : String → Option String) (name : CommandName)
    (arguments : List String) : Except Refusal (Values × Command) := do
  let (s, _) ← scan (.behind name) .start arguments
  let s ← s.settle
  let _ ← complete environment s.given
  return (s.given, ← Command.ofValues name s.given)

/-- Reads all arguments. Each side is completed by itself first, so that the environment is refused
even where the other side would make up for it. -/
def parse (environment : String → Option String) (arguments : List String) :
    Except Refusal Invocation := do
  match ← scan .before .start arguments with
  | (s, none) =>
    let values ← complete environment (← s.settle).given
    .error (if values.isEmpty then .nothing else .missingCommand)
  | (_, some (.help, rest)) => .error (helpOn rest)
  | (s, some (.command name, rest)) =>
    let (behind, command) ← scanBehind environment name rest
    let before := (← s.settle).given
    let _ ← complete environment before
    let values ← complete environment (behind.orElse before)
    return {
      storeDir := (values .storeDir).getD ".slotflake"
      settings := settingsOf values
      logFormat := (values .logFormat).getD .pretty
      command }

end SlotLease.CommandLine
