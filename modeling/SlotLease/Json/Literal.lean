import SlotLease.Text.Hex

namespace SlotLease.Json

def quoteChar (c : Char) : List Char :=
  if c = '"' then ['\\', '"']
  else if c = '\\' then ['\\', '\\']
  else if c = '\n' then ['\\', 'n']
  else if c = '\r' then ['\\', 'r']
  else if c = '\t' then ['\\', 't']
  else if c.toNat = 8 then ['\\', 'b']
  else if c.toNat = 12 then ['\\', 'f']
  else if c.toNat < 32 then '\\' :: 'u' :: Hex.digits 4 c.toNat
  else [c]

def quote (s : String) : String :=
  String.ofList ('"' :: s.toList.flatMap quoteChar ++ ['"'])

def asciiChars (bytes : List UInt8) : List Char := bytes.map fun b => Char.ofNat b.toNat

def hexValue? (digits : List UInt8) : Option Nat :=
  (asciiChars digits).foldlM (fun value c => (Hex.digitValue? c).map (16 * value + ·)) 0

def escapedByte? (letter : UInt8) : Option UInt8 :=
  if letter = 0x22 ∨ letter = 0x5C ∨ letter = 0x2F then some letter
  else if letter = 0x62 then some 0x08
  else if letter = 0x66 then some 0x0C
  else if letter = 0x6E then some 0x0A
  else if letter = 0x72 then some 0x0D
  else if letter = 0x74 then some 0x09
  else none

/-- What stands between an opening quote, already read, and the closing one, and what follows that.
Control characters and unknown escapes are refused. -/
def split? : List UInt8 → Option (List UInt8 × List UInt8)
  | [] => none
  | 0x22 :: rest => some ([], rest)
  | 0x5C :: 0x75 :: a :: b :: c :: d :: rest =>
    if (hexValue? [a, b, c, d]).isSome then
      (split? rest).map fun (body, after) => (0x5C :: 0x75 :: a :: b :: c :: d :: body, after)
    else none
  | 0x5C :: letter :: rest =>
    if (escapedByte? letter).isSome then
      (split? rest).map fun (body, after) => (0x5C :: letter :: body, after)
    else none
  | b :: rest =>
    if b < 0x20 ∨ b = 0x5C then none
    else (split? rest).map fun (body, after) => (b :: body, after)

def pairCodePoint (high low : Nat) : Nat := 0x10000 + (high - 0xD800) * 0x400 + (low - 0xDC00)

/-- The bytes that the inside of a literal stands for, code points above 127 in UTF-8. A surrogate
must come with its other half. -/
def unescape? : List UInt8 → Option (List UInt8)
  | [] => some []
  | 0x5C :: 0x75 :: a :: b :: c :: d :: rest =>
    match hexValue? [a, b, c, d] with
    | none => none
    | some n =>
      if 0xDC00 ≤ n ∧ n ≤ 0xDFFF then none
      else if 0xD800 ≤ n ∧ n ≤ 0xDBFF then
        match rest with
        | 0x5C :: 0x75 :: e :: f :: g :: h :: rest' =>
          match hexValue? [e, f, g, h] with
          | none => none
          | some low =>
            if 0xDC00 ≤ low ∧ low ≤ 0xDFFF then
              (unescape? rest').map
                (String.utf8EncodeChar (Char.ofNat (pairCodePoint n low)) ++ ·)
            else none
        | _ => none
      else (unescape? rest).map (String.utf8EncodeChar (Char.ofNat n) ++ ·)
  | 0x5C :: letter :: rest =>
    match escapedByte? letter with
    | none => none
    | some b => (unescape? rest).map (b :: ·)
  | b :: rest => (unescape? rest).map (b :: ·)

def unquote? (body : List UInt8) : Option String :=
  (unescape? body).bind fun bytes => String.fromUTF8? ⟨bytes.toArray⟩

end SlotLease.Json
