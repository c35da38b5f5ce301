import SlotLease.Store.Call
import SlotLease.Store.Table
import SlotLease.Interaction

namespace SlotLease

namespace Files

inductive Request where
  | read (name : String)
  | write (name : String) (content : ByteArray)
  | rename (source target : String)
  | link (source target : String)
  | remove (name : String)
  | names
  | now

abbrev Reply : Request → Type
  | .read _ => Except FileError ByteArray
  | .write .. => Except FileError Unit
  | .rename .. => Except FileError Unit
  | .link .. => Except FileError Unit
  | .remove _ => Except FileError Unit
  | .names => Except FileError (List String)
  | .now => UInt64

abbrev Program (α : Type) : Type := Interaction Request Reply α

def read (name : String) : Program (Except FileError ByteArray) := .ask (.read name) .done

def write (name : String) (content : ByteArray) : Program (Except FileError Unit) :=
  .ask (.write name content) .done

def rename (source target : String) : Program (Except FileError Unit) :=
  .ask (.rename source target) .done

def link (source target : String) : Program (Except FileError Unit) :=
  .ask (.link source target) .done

def remove (name : String) : Program (Except FileError Unit) := .ask (.remove name) .done

def names : Program (Except FileError (List String)) := .ask .names .done

def now : Program UInt64 := .ask .now .done

end Files

inductive Node where
  | file (content : ByteArray)
  | folder (number : Nat)

abbrev Directory : Type := Table Node

namespace Directory

def maxNameLength : Nat := 255

def nameFits (name : String) : Bool := name.utf8ByteSize ≤ maxNameLength

def read (d : Directory) (name : String) : Except FileError ByteArray :=
  if !nameFits name then .error .nameTooLong
  else
    match d.get? name with
    | some (.file content) => .ok content
    | some (.folder _) => .error .isDirectory
    | none => .error .notFound

def write (d : Directory) (name : String) (content : ByteArray) :
    Except FileError Unit × Directory :=
  if !nameFits name then (.error .nameTooLong, d)
  else
    match d.get? name with
    | some (.folder _) => (.error .isDirectory, d)
    | _ => (.ok (), d.insert name (.file content))

def rename (d : Directory) (source target : String) : Except FileError Unit × Directory :=
  if !nameFits source || !nameFits target then (.error .nameTooLong, d)
  else
    match d.get? source, d.get? target with
    | none, _ => (.error .notFound, d)
    | some (.file _), some (.folder _) => (.error .isDirectory, d)
    | some (.folder _), some (.file _) => (.error .notDirectory, d)
    | some (.folder _), some (.folder _) => (.error .notEmpty, d)
    | some node, _ => (.ok (), (d.erase source).insert target node)

def link (d : Directory) (source target : String) : Except FileError Unit × Directory :=
  if !nameFits source || !nameFits target then (.error .nameTooLong, d)
  else
    match d.get? source, d.get? target with
    | none, _ => (.error .notFound, d)
    | some _, some _ => (.error .alreadyExists, d)
    | some (.folder _), none => (.error .notPermitted, d)
    | some (.file content), none => (.ok (), d.insert target (.file content))

def remove (d : Directory) (name : String) : Except FileError Unit × Directory :=
  if !nameFits name then (.error .nameTooLong, d)
  else
    match d.get? name with
    | none => (.error .notFound, d)
    | some (.folder _) => (.error .isDirectory, d)
    | some (.file _) => (.ok (), d.erase name)

def answer (d : Directory) (clock : UInt64) : (r : Files.Request) → Files.Reply r × Directory
  | .read name => (d.read name, d)
  | .write name content => d.write name content
  | .rename source target => d.rename source target
  | .link source target => d.link source target
  | .remove name => d.remove name
  | .names => (.ok d.keys, d)
  | .now => (clock, d)

end Directory

end SlotLease
