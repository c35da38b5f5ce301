import SlotLease.Slot
import SlotLease.Text.Upper

namespace SlotLease

def composeKey (head : String) (pieces : List String) : String :=
  pieces.foldl (fun key piece => key ++ ":" ++ Upper.ofString piece) (Upper.ofString head)

structure KeySpace where
  head : String
  subject : String
deriving DecidableEq, Repr

namespace KeySpace

def defaultHead : String := "SNOWFLAKE"

def defaultSubject : String := "NODE"

def ofPieces (head subject : String) : KeySpace := ⟨Upper.ofString head, Upper.ofString subject⟩

def leaseKey (keys : KeySpace) (slot : Slot) : String :=
  composeKey keys.head
    [keys.subject, Decimal.text slot.datacenter.toNat, Decimal.text slot.worker.toNat]

def scanRoot (keys : KeySpace) : String := composeKey keys.head [keys.subject] ++ ":"

def splitPieces : List Char → List (List Char)
  | [] => [[]]
  | ':' :: rest => [] :: splitPieces rest
  | c :: rest =>
    match splitPieces rest with
    | piece :: pieces => (c :: piece) :: pieces
    | [] => [[c]]

def slotOf? (keys : KeySpace) (key : String) : Option Slot :=
  match splitPieces key.toList with
  | head :: subject :: datacenter :: worker :: _ =>
    if String.ofList head = keys.head ∧ String.ofList subject = keys.subject then do
      return ⟨← Decimal.parseWord? (String.ofList datacenter),
        ← Decimal.parseWord? (String.ofList worker)⟩
    else none
  | _ => none

end KeySpace

end SlotLease
