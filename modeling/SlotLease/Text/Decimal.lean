namespace SlotLease.Decimal

def digitChar (d : Nat) : Char := Char.ofNat (48 + d)

def digitValue? (c : Char) : Option Nat :=
  if 48 ≤ c.toNat ∧ c.toNat ≤ 57 then some (c.toNat - 48) else none

def digits (n : Nat) : List Char :=
  if n < 10 then [digitChar n] else digits (n / 10) ++ [digitChar (n % 10)]

def text (n : Nat) : String := String.ofList (digits n)

def padded (width n : Nat) : String :=
  String.ofList (List.replicate (width - (digits n).length) '0' ++ digits n)

def signed (n : Int) : String :=
  if n < 0 then "-" ++ text n.natAbs else text n.natAbs

def readFrom (value : Nat) : List Char → Option Nat
  | [] => some value
  | c :: rest =>
    match digitValue? c with
    | some d => readFrom (value * 10 + d) rest
    | none => none

def read? : List Char → Option Nat
  | [] => none
  | digits => readFrom 0 digits

def parse? (limit : Nat) (s : String) : Option Nat :=
  let digits := match s.toList with
    | '+' :: rest => rest
    | whole => whole
  (read? digits).filter (· ≤ limit)

def parseWord? (s : String) : Option UInt64 :=
  (parse? (UInt64.size - 1) s).map Nat.toUInt64

end SlotLease.Decimal
