import SlotLease.Time
import SlotLease.Text.Decimal

namespace SlotLease

inductive FileError where
  | notFound
  | alreadyExists
  | notDirectory
  | isDirectory
  | notEmpty
  | notPermitted
  | nameTooLong
  | nulInName
  | other (reason : String)
deriving DecidableEq, Repr

def FileError.message : FileError → String
  | .notFound => "No such file or directory (os error 2)"
  | .alreadyExists => "File exists (os error 17)"
  | .notDirectory => "Not a directory (os error 20)"
  | .isDirectory => "Is a directory (os error 21)"
  | .notEmpty => "Directory not empty (os error 39)"
  | .notPermitted => "Operation not permitted (os error 1)"
  | .nameTooLong => "File name too long (os error 36)"
  | .nulInName => "file name contained an unexpected NUL byte"
  | .other reason => reason

inductive StoreError where
  | unavailable (reason : String)
  | io (cause : FileError)
  | corrupt (key : String)
  | ttlOutOfRange (ttl : Duration)
deriving DecidableEq, Repr

namespace StoreError

def message : StoreError → String
  | .unavailable reason => "store unavailable: " ++ reason
  | .io cause => "store I/O error: " ++ cause.message
  | .corrupt key => "corrupt entry `" ++ key ++ "`"
  | .ttlOutOfRange ttl => "expiry of " ++ Decimal.text ttl.seconds ++ "s from now is out of range"

def chain : StoreError → List String
  | .io cause => [(io cause).message, cause.message]
  | error => [error.message]

end StoreError

namespace Store

inductive Operation where
  | list
  | has
  | get
  | set
  | refresh
  | delete
deriving DecidableEq, Repr

def Operation.name : Operation → String
  | .list => "list_keys"
  | .has => "exists"
  | .get => "get"
  | .set => "set_with_expiry"
  | .refresh => "refresh_expiry"
  | .delete => "delete"

inductive Call where
  | list (root : String)
  | has (key : String)
  | get (key : String)
  | set (key value : String) (ttl : Duration)
  | refresh (key : String) (ttl : Duration)
  | delete (key : String)
deriving DecidableEq, Repr

namespace Call

def operation : Call → Operation
  | .list _ => .list
  | .has _ => .has
  | .get _ => .get
  | .set .. => .set
  | .refresh .. => .refresh
  | .delete _ => .delete

abbrev Value : Call → Type
  | .list _ => List String
  | .has _ => Bool
  | .get _ => Option String
  | .set .. => Unit
  | .refresh .. => Bool
  | .delete _ => Bool

abbrev Reply (call : Call) : Type := Except StoreError call.Value

end Call

end Store

end SlotLease
