import SlotLease.Json.Value

namespace SlotLease

structure Record where
  key : String
  value : String
  expiresAt : UInt64
deriving DecidableEq, Repr

namespace Record

def isLive (r : Record) (now : UInt64) : Bool := now < r.expiresAt

def toJson (r : Record) : String :=
  "\x7b\"key\":" ++ Json.quote r.key ++ ",\"value\":" ++ Json.quote r.value ++
    ",\"expires_at_ms\":" ++ Decimal.text r.expiresAt.toNat ++ "\x7d"

def encode (r : Record) : ByteArray := r.toJson.toUTF8

def ofJson? (json : Json) : Option Record := do
  match ← json.fields? ["key", "value", "expires_at_ms"] with
  | [some key, some value, some expiresAt] =>
    return ⟨← key.string?, ← value.string?, ← expiresAt.word?⟩
  | _ => none

def decode? (content : ByteArray) : Option Record :=
  (Json.ofBytes? content.data.toList).bind ofJson?

end Record

end SlotLease
