import SlotLease.Schedule.Field
import SlotLease.Text.Decimal

/-!
The grammar of schedule expressions. Readers take what they can from the front of a text and give
what is left; of two alternatives the first that succeeds counts, and there is no way back.

    schedule = blanks shorthand blanks | seconds minutes hours day month weekday [year]
    field    = blanks item ("," item)* blanks
    item     = spec "/" number | spec | name
    spec     = "*" | number "-" number | number | name "-" name
    number   = blanks digits blanks
    name     = blanks letters blanks
-/

namespace SlotLease.Schedule

abbrev Reader (α : Type) := List Char → Option (α × List Char)

namespace Reader

def isBlank (c : Char) : Bool := c = ' ' || c = '\t' || c = '\r' || c = '\n'

def isDigit (c : Char) : Bool := '0' ≤ c && c ≤ '9'

def isLetter (c : Char) : Bool := ('a' ≤ c && c ≤ 'z') || ('A' ≤ c && c ≤ 'Z')

def skipBlanks (s : List Char) : List Char := s.dropWhile isBlank

def char (expected : Char) : Reader Unit
  | c :: rest => if c = expected then some ((), rest) else none
  | [] => none

def number : Reader Nat := fun s => do
  let s := skipBlanks s
  let value ← (Decimal.read? (s.takeWhile isDigit)).filter (· < UInt32.size)
  return (value, skipBlanks (s.dropWhile isDigit))

def name : Reader String := fun s =>
  let s := skipBlanks s
  match s.takeWhile isLetter with
  | [] => none
  | letters => some (String.ofList letters, skipBlanks (s.dropWhile isLetter))

def spec (any : Bool) : Reader Spec := fun s =>
  let star : Option (Spec × List Char) := do
    let (_, rest) ← char '*' s
    return (.every, rest)
  let question : Option (Spec × List Char) := do
    let (_, rest) ← char '?' s
    if any then return (.every, rest) else none
  let range : Option (Spec × List Char) := do
    let (low, rest) ← number s
    let (_, rest) ← char '-' rest
    let (high, rest) ← number rest
    return (.range low high, rest)
  let point : Option (Spec × List Char) := do
    let (value, rest) ← number s
    return (.point value, rest)
  let named : Option (Spec × List Char) := do
    let (low, rest) ← name s
    let (_, rest) ← char '-' rest
    let (high, rest) ← name rest
    return (.named low high, rest)
  question <|> star <|> range <|> point <|> named

def item (any : Bool) : Reader Item := fun s =>
  let stepped : Option (Item × List Char) := do
    let (values, rest) ← spec any s
    let (_, rest) ← char '/' rest
    let (stride, rest) ← number rest
    return (.stepped values stride, rest)
  let plain : Option (Item × List Char) := do
    let (values, rest) ← spec any s
    return (.spec values, rest)
  let named : Option (Item × List Char) := do
    let (value, rest) ← name s
    return (.name value, rest)
  stepped <|> plain <|> named

/-- More elements, each behind a comma; `rounds` bounds their number. A comma with no element behind
it is left over. -/
def moreItems (any : Bool) : (rounds : Nat) → List Char → List Item × List Char
  | 0, s => ([], s)
  | rounds + 1, s =>
    match s with
    | ',' :: rest =>
      match item any rest with
      | some (first, rest) =>
        let (items, rest) := moreItems any rounds rest
        (first :: items, rest)
      | none => ([], s)
    | _ => ([], s)

def field (f : Field) : Reader (List Item) := fun s => do
  let (first, rest) ← item f.allowsAny (skipBlanks s)
  let (items, rest) := moreItems f.allowsAny rest.length rest
  return (first :: items, skipBlanks rest)

end Reader

structure Written where
  second : List Item
  minute : List Item
  hour : List Item
  day : List Item
  month : List Item
  weekday : List Item
  year : List Item
deriving Repr

namespace Written

def every : List Item := [.spec .every]

def only (value : Nat) : List Item := [.spec (.point value)]

def shorthands : List (String × Written) :=
  [("@yearly", ⟨only 0, only 0, only 0, only 1, only 1, every, every⟩),
    ("@monthly", ⟨only 0, only 0, only 0, only 1, every, every, every⟩),
    ("@weekly", ⟨only 0, only 0, only 0, every, every, only 1, every⟩),
    ("@daily", ⟨only 0, only 0, only 0, every, every, every, every⟩),
    ("@hourly", ⟨only 0, only 0, every, every, every, every, every⟩)]

def ofShorthand? (s : List Char) : Option Written :=
  let s := Reader.skipBlanks s
  shorthands.findSome? fun (name, written) =>
    if name.toList.isPrefixOf s ∧ Reader.skipBlanks (s.drop name.length) = [] then some written
    else none

def ofFields? (s : List Char) : Option Written := do
  let (second, s) ← Reader.field .second s
  let (minute, s) ← Reader.field .minute s
  let (hour, s) ← Reader.field .hour s
  let (day, s) ← Reader.field .day s
  let (month, s) ← Reader.field .month s
  let (weekday, s) ← Reader.field .weekday s
  let (year, s) := (Reader.field .year s).getD (every, s)
  if s.isEmpty then return { second, minute, hour, day, month, weekday, year } else none

def ofString? (s : String) : Option Written := ofShorthand? s.toList <|> ofFields? s.toList

end Written

end SlotLease.Schedule
