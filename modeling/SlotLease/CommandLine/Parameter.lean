import SlotLease.Settings

namespace SlotLease.CommandLine

inductive Refusal where
  | missingArgument
  | badNumber
  | badValue
  | unknownArgument
  | unknownCommand
  | missingCommand
  | repeated
  | surplusValue
  | help
  | nothing
  | version
deriving DecidableEq, Repr

inductive LogFormat where
  | pretty
  | json
deriving DecidableEq, Repr

inductive CommandName where
  | mint
  | decode
  | leases
  | hold
deriving DecidableEq, Repr

def CommandName.ofString? : String → Option CommandName
  | "mint" => some .mint
  | "decode" => some .decode
  | "leases" => some .leases
  | "hold" => some .hold
  | _ => none

inductive Parameter where
  | storeDir
  | leaseHours
  | renewalSchedule
  | keyHead
  | keySubject
  | epochMillis
  | maxAttempts
  | logFormat
  | count
  | id
deriving DecidableEq, Repr

namespace Parameter

abbrev Value : Parameter → Type
  | .storeDir => String
  | .leaseHours => UInt64
  | .renewalSchedule => String
  | .keyHead => String
  | .keySubject => String
  | .epochMillis => UInt64
  | .maxAttempts => UInt32
  | .logFormat => LogFormat
  | .count => UInt64
  | .id => UInt64

def common : List Parameter :=
  [.storeDir, .leaseHours, .renewalSchedule, .keyHead, .keySubject, .epochMillis, .maxAttempts,
    .logFormat]

def option? : Parameter → Option String
  | .storeDir => some "store-dir"
  | .leaseHours => some "lease-ttl-hours"
  | .renewalSchedule => some "renewal-schedule"
  | .keyHead => some "key-prefix"
  | .keySubject => some "key-subject"
  | .epochMillis => some "epoch-millis"
  | .maxAttempts => some "store-max-attempts"
  | .logFormat => some "log-format"
  | .count => some "count"
  | .id => none

def variableName? : Parameter → Option String
  | .storeDir => some "SLOTFLAKE_STORE_DIR"
  | .leaseHours => some "LEASE_TTL_HOURS"
  | .renewalSchedule => some "RENEWAL_SCHEDULE"
  | .keyHead => some "KEY_PREFIX"
  | .keySubject => some "KEY_SUBJECT"
  | .epochMillis => some "EPOCH_MILLIS"
  | .maxAttempts => some "STORE_MAX_ATTEMPTS"
  | .logFormat => some "LOG_FORMAT"
  | .count => none
  | .id => none

def readWord (text : String) : Except Refusal UInt64 :=
  match Decimal.parseWord? text with
  | some n => .ok n
  | none => .error .badNumber

/-- A number of attempts; a zero may have a minus sign. -/
def readAttempts (text : String) : Except Refusal UInt32 :=
  let n := match text.toList with
    | '-' :: digits => (Decimal.read? digits).filter (· = 0)
    | _ => Decimal.parse? (UInt32.size - 1) text
  match n with
  | some n => .ok n.toUInt32
  | none => .error .badNumber

def readPath (text : String) : Except Refusal String :=
  if text.isEmpty then .error .badValue else .ok text

def readFormat : String → Except Refusal LogFormat
  | "pretty" => .ok .pretty
  | "json" => .ok .json
  | _ => .error .badValue

def read : (p : Parameter) → String → Except Refusal p.Value
  | .storeDir, text => readPath text
  | .leaseHours, text => readWord text
  | .renewalSchedule, text => .ok text
  | .keyHead, text => .ok text
  | .keySubject, text => .ok text
  | .epochMillis, text => readWord text
  | .maxAttempts, text => readAttempts text
  | .logFormat, text => readFormat text
  | .count, text => readWord text
  | .id, text => readWord text

end Parameter

abbrev Values : Type := (p : Parameter) → Option p.Value

namespace Values

def none : Values := fun _ => .none

def set (values : Values) (p : Parameter) (value : p.Value) : Values := fun q =>
  if same : q = p then some (same ▸ value) else values q

def orElse (inner outer : Values) : Values := fun p => (inner p).or (outer p)

def isEmpty (values : Values) : Bool := Parameter.common.all fun p => (values p).isNone

end Values

end SlotLease.CommandLine
