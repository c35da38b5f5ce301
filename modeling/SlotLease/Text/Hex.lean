namespace SlotLease.Hex

def digitChar (d : Nat) : Char :=
  if d < 10 then Char.ofNat (48 + d) else Char.ofNat (87 + d)

def digitValue? (c : Char) : Option Nat :=
  if 48 ≤ c.toNat ∧ c.toNat ≤ 57 then some (c.toNat - 48)
  else if 97 ≤ c.toNat ∧ c.toNat ≤ 102 then some (c.toNat - 87)
  else if 65 ≤ c.toNat ∧ c.toNat ≤ 70 then some (c.toNat - 55)
  else none

def digits : Nat → Nat → List Char
  | 0, _ => []
  | width + 1, n => digits width (n / 16) ++ [digitChar (n % 16)]

def shortest (n : Nat) : List Char :=
  if n < 16 then [digitChar n] else shortest (n / 16) ++ [digitChar (n % 16)]

def ofBytes (bytes : List UInt8) : List Char :=
  bytes.flatMap fun b => digits 2 b.toNat

def toBytes? : List Char → Option (List UInt8)
  | [] => some []
  | high :: low :: rest => do
    let h ← digitValue? high
    let l ← digitValue? low
    return (16 * h + l).toUInt8 :: (← toBytes? rest)
  | [_] => none

end SlotLease.Hex
