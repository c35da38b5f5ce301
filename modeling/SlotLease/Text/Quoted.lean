import SlotLease.Text.Hex
import SlotLease.Text.HiddenTable

namespace SlotLease.Quoted

def inRuns : List (Nat × Nat) → Nat → Bool
  | [], _ => false
  | (first, last) :: rest, n =>
    if n < first then false else if last < n then inRuns rest n else true

def codePoint (c : Char) : List Char :=
  '\\' :: 'u' :: '\x7b' :: Hex.shortest c.toNat ++ ['\x7d']

def quoteChar (c : Char) : List Char :=
  if c = '"' then ['\\', '"']
  else if c = '\\' then ['\\', '\\']
  else if c = '\n' then ['\\', 'n']
  else if c = '\r' then ['\\', 'r']
  else if c = '\t' then ['\\', 't']
  else if c.toNat = 0 then ['\\', '0']
  else if inRuns hiddenRuns c.toNat then codePoint c
  else [c]

def ofString (s : String) : String := String.ofList ('"' :: s.toList.flatMap quoteChar ++ ['"'])

end SlotLease.Quoted
