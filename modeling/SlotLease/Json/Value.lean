import SlotLease.Json.Literal
import SlotLease.Text.Decimal

/-!
Reading JSON strictly. A value is kept as its text, checked against the grammar, and its parts are
taken out as the type that the reader expects: so numbers keep their spelling, a member that nobody
asks for is passed over unread, and nesting may be of any depth.
-/

namespace SlotLease

structure Json where
  text : List UInt8
deriving DecidableEq

namespace Json

def isBlank (b : UInt8) : Bool := b = 0x20 || b = 0x09 || b = 0x0A || b = 0x0D

def skipBlanks (input : List UInt8) : List UInt8 := input.dropWhile isBlank

def isDigit (b : UInt8) : Bool := 0x30 ≤ b && b ≤ 0x39

def skipDigits? : List UInt8 → Option (List UInt8)
  | [] => none
  | b :: rest => if isDigit b then some (rest.dropWhile isDigit) else none

def skipInteger? : List UInt8 → Option (List UInt8)
  | 0x30 :: rest =>
    match rest with
    | b :: _ => if isDigit b then none else some rest
    | [] => some rest
  | input => skipDigits? input

def skipFraction? : List UInt8 → Option (List UInt8)
  | 0x2E :: rest => skipDigits? rest
  | input => some input

def skipExponent? : List UInt8 → Option (List UInt8)
  | b :: rest =>
    if b = 0x65 ∨ b = 0x45 then
      match rest with
      | sign :: digits => if sign = 0x2B ∨ sign = 0x2D then skipDigits? digits else skipDigits? rest
      | [] => none
    else some (b :: rest)
  | [] => some []

def skipNumber? (input : List UInt8) : Option (List UInt8) := do
  let unsigned := match input with
    | 0x2D :: rest => rest
    | whole => whole
  skipExponent? (← skipFraction? (← skipInteger? unsigned))

def skipWord? (word : String) (input : List UInt8) : Option (List UInt8) :=
  let bytes := word.toUTF8.data.toList
  if bytes.isPrefixOf input then some (input.drop bytes.length) else none

def skipScalar? : List UInt8 → Option (List UInt8)
  | 0x22 :: rest => (split? rest).map (·.2)
  | 0x6E :: rest => skipWord? "ull" rest
  | 0x74 :: rest => skipWord? "rue" rest
  | 0x66 :: rest => skipWord? "alse" rest
  | input => skipNumber? input

def splitName? (input : List UInt8) : Option (List UInt8 × List UInt8) :=
  match skipBlanks input with
  | 0x22 :: rest =>
    match split? rest with
    | none => none
    | some (name, after) =>
      match skipBlanks after with
      | 0x3A :: value => some (name, value)
      | _ => none
  | _ => none

inductive Bracket where
  | list
  | object
deriving DecidableEq

/-- What follows the value that encloses all `opened` brackets, the innermost first; `due` says
that a value comes next, and not what stands behind one. Every round reads a byte, so the length
of the input bounds their number. -/
def skipRounds? : Nat → (due : Bool) → (opened : List Bracket) → List UInt8 → Option (List UInt8)
  | 0, _, _, _ => none
  | rounds + 1, true, opened, input =>
    match skipBlanks input with
    | 0x5B :: rest =>
      match skipBlanks rest with
      | 0x5D :: after => skipRounds? rounds false opened after
      | _ => skipRounds? rounds true (.list :: opened) rest
    | 0x7B :: rest =>
      match skipBlanks rest with
      | 0x7D :: after => skipRounds? rounds false opened after
      | _ =>
        match splitName? rest with
        | some (_, value) => skipRounds? rounds true (.object :: opened) value
        | none => none
    | scalar =>
      match skipScalar? scalar with
      | some after => skipRounds? rounds false opened after
      | none => none
  | _ + 1, false, [], input => some input
  | rounds + 1, false, bracket :: opened, input =>
    match bracket, skipBlanks input with
    | .list, 0x2C :: rest => skipRounds? rounds true (.list :: opened) rest
    | .list, 0x5D :: rest => skipRounds? rounds false opened rest
    | .object, 0x2C :: rest =>
      match splitName? rest with
      | some (_, value) => skipRounds? rounds true (.object :: opened) value
      | none => none
    | .object, 0x7D :: rest => skipRounds? rounds false opened rest
    | _, _ => none

def splitValue? (input : List UInt8) : Option (Json × List UInt8) :=
  let value := skipBlanks input
  (skipRounds? (value.length + 1) true [] value).map fun after =>
    (⟨value.take (value.length - after.length)⟩, after)

def ofBytes? (input : List UInt8) : Option Json :=
  (splitValue? input).bind fun (json, after) =>
    if (skipBlanks after).isEmpty then some json else none

def ofString? (s : String) : Option Json := ofBytes? s.toUTF8.data.toList

def elementsFrom? : (rounds : Nat) → List UInt8 → Option (List Json)
  | 0, _ => none
  | rounds + 1, input =>
    match splitValue? input with
    | none => none
    | some (value, after) =>
      match skipBlanks after with
      | 0x2C :: rest => (elementsFrom? rounds rest).map (value :: ·)
      | [0x5D] => some [value]
      | _ => none

def elements? (json : Json) : Option (List Json) :=
  match json.text with
  | 0x5B :: rest =>
    if skipBlanks rest = [0x5D] then some [] else elementsFrom? rest.length rest
  | _ => none

def membersFrom? : (rounds : Nat) → List UInt8 → Option (List (String × Json))
  | 0, _ => none
  | rounds + 1, input =>
    match splitName? input with
    | none => none
    | some (name, rest) =>
      match unquote? name, splitValue? rest with
      | some name, some (value, after) =>
        match skipBlanks after with
        | 0x2C :: rest => (membersFrom? rounds rest).map ((name, value) :: ·)
        | [0x7D] => some [(name, value)]
        | _ => none
      | _, _ => none

def members? (json : Json) : Option (List (String × Json)) :=
  match json.text with
  | 0x7B :: rest =>
    if skipBlanks rest = [0x7D] then some [] else membersFrom? rest.length rest
  | _ => none

def string? (json : Json) : Option String :=
  match json.text with
  | 0x22 :: rest => (split? rest).bind fun (body, _) => unquote? body
  | _ => none

def nat? (limit : Nat) (json : Json) : Option Nat :=
  (Decimal.read? (asciiChars json.text)).filter (· ≤ limit)

def word? (json : Json) : Option UInt64 := (json.nat? (UInt64.size - 1)).map Nat.toUInt64

/-- The fields of a record with the given names: either an object, where a name given twice is
refused and one that is not asked for is passed over, or a list of the first fields in order. A
field that is left out is `none`. -/
def fields? (names : List String) (json : Json) : Option (List (Option Json)) :=
  match json.members? with
  | some members =>
    names.mapM fun name =>
      match members.filter (·.1 = name) with
      | [] => some none
      | [(_, value)] => some (some value)
      | _ => none
  | none =>
    match json.elements? with
    | some values =>
      if values.length ≤ names.length then
        some (values.map some ++ List.replicate (names.length - values.length) none)
      else none
    | none => none

end Json

end SlotLease
