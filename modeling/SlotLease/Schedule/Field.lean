namespace SlotLease.Schedule

inductive Field where
  | second
  | minute
  | hour
  | day
  | month
  | weekday
  | year
deriving DecidableEq, Repr

namespace Field

def least : Field → Nat
  | .second | .minute | .hour => 0
  | .day | .month | .weekday => 1
  | .year => 1970

def greatest : Field → Nat
  | .second | .minute => 59
  | .hour => 23
  | .day => 31
  | .month => 12
  | .weekday => 7
  | .year => 2100

def range (f : Field) : List Nat := List.range' f.least (f.greatest + 1 - f.least)

def allowsAny : Field → Bool
  | .day | .weekday => true
  | _ => false

def monthNames : List (String × Nat) :=
  [("jan", 1), ("january", 1), ("feb", 2), ("february", 2), ("mar", 3), ("march", 3), ("apr", 4),
    ("april", 4), ("may", 5), ("jun", 6), ("june", 6), ("jul", 7), ("july", 7), ("aug", 8),
    ("august", 8), ("sep", 9), ("september", 9), ("oct", 10), ("october", 10), ("nov", 11),
    ("november", 11), ("dec", 12), ("december", 12)]

def weekdayNames : List (String × Nat) :=
  [("sun", 1), ("sunday", 1), ("mon", 2), ("monday", 2), ("tue", 3), ("tues", 3), ("tuesday", 3),
    ("wed", 4), ("wednesday", 4), ("thu", 5), ("thurs", 5), ("thursday", 5), ("fri", 6),
    ("friday", 6), ("sat", 7), ("saturday", 7)]

def named? (f : Field) (name : String) : Option Nat :=
  match f with
  | .month => monthNames.lookup (name.map Char.toLower)
  | .weekday => weekdayNames.lookup (name.map Char.toLower)
  | _ => none

end Field

inductive Spec where
  | every
  | point (value : Nat)
  | range (low high : Nat)
  | named (low high : String)
deriving DecidableEq, Repr

inductive Item where
  | spec (values : Spec)
  /-- Every `stride`-th of the values; after a single value, of those from it on. -/
  | stepped (values : Spec) (stride : Nat)
  | name (value : String)
deriving DecidableEq, Repr

def Field.between? (f : Field) (low high : Nat) : Option (List Nat) :=
  if f.least ≤ low ∧ low ≤ high ∧ high ≤ f.greatest then some (List.range' low (high + 1 - low))
  else none

def Spec.values? (f : Field) : Spec → Option (List Nat)
  | .every => some f.range
  | .point value => f.between? value value
  | .range low high => f.between? low high
  | .named low high => do f.between? (← f.named? low) (← f.named? high)

def everyNth (stride : Nat) : List Nat → List Nat
  | [] => []
  | first :: rest => first :: rest.filter fun value => (value - first) % stride = 0

/-- The values of an item; none if it names a value that the field has not, or steps by nothing or
beyond the field's greatest value. -/
def Item.values? (f : Field) : Item → Option (List Nat)
  | .spec written => written.values? f
  | .name written => do
    let value ← f.named? written
    f.between? value value
  | .stepped written stride => do
    let values ← match written with
      | .point value => f.between? value f.greatest
      | other => other.values? f
    if stride = 0 ∨ f.greatest < stride then none else some (everyNth stride values)

def Field.values? (f : Field) (items : List Item) : Option (List Nat) := do
  let parts ← items.mapM (Item.values? f)
  return f.range.filter fun value => parts.any (·.contains value)

end SlotLease.Schedule
