import SlotLease.Text.UpperTable

namespace SlotLease.Upper

def ofRuns : List Run → Nat → Option Nat
  | [], _ => none
  | run :: rest, n =>
    if n < run.first then none
    else if run.last < n then ofRuns rest n
    else if (n - run.first) % run.stride = 0 then some (run.upper + (n - run.first))
    else none

def ofExpansions : List (Nat × List Nat) → Nat → Option (List Nat)
  | [], _ => none
  | (letter, form) :: rest, n =>
    if n < letter then none else if letter < n then ofExpansions rest n else some form

def ofChar (c : Char) : List Char :=
  match ofExpansions expansions c.toNat with
  | some form => form.map Char.ofNat
  | none =>
    match ofRuns runs c.toNat with
    | some n => [Char.ofNat n]
    | none => [c]

def ofString (s : String) : String :=
  String.ofList (s.toList.flatMap ofChar)

end SlotLease.Upper
