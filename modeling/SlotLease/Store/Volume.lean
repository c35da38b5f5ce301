import SlotLease.Store.Directory

namespace SlotLease

structure Volume where
  folders : Array Directory

namespace Volume

def empty : Volume := ⟨#[∅]⟩

def folder (v : Volume) (number : Nat) : Directory := v.folders.getD number ∅

def setFolder (v : Volume) (number : Nat) (d : Directory) : Volume :=
  ⟨v.folders.setIfInBounds number d⟩

/-- The numbers of the directories from a directory up to the one below the root. -/
abbrev Place : Type := List Nat

def Place.number : Place → Nat
  | [] => 0
  | number :: _ => number

/-- The names between the slashes of a path, the last one first. -/
abbrev Route : Type := List String

def Route.ofPath (path : String) : Route := (path.splitOn "/").reverse

def stays (name : String) : Bool := name = "" || name = "."

def Route.heads : Route → List Route
  | [] => []
  | name :: rest => if stays name then heads rest else (name :: rest) :: heads rest

def Route.above (route : Route) : List Route := Route.heads (route.dropWhile stays).tail

def enter (v : Volume) (place : Place) (name : String) : Except FileError Place :=
  if stays name then .ok place
  else if name = ".." then .ok place.tail
  else if !Directory.nameFits name then .error .nameTooLong
  else
    match (v.folder place.number).get? name with
    | some (.folder number) => .ok (number :: place)
    | some (.file _) => .error .notDirectory
    | none => .error .notFound

def find (v : Volume) (route : Route) : Except FileError Place := route.reverse.foldlM v.enter []

def addFolder (v : Volume) (place : Place) (name : String) : Volume :=
  let number := v.folders.size
  let d := (v.folder place.number).insert name (.folder number)
  ⟨(v.setFolder place.number d).folders.push ∅⟩

/-- Makes a directory in one that is there. Slashes at the end of its route do not count; a dot
there names something that is there, if what stands above it is. -/
def makeFolder (v : Volume) (route : Route) : Except FileError Unit × Volume :=
  match route.dropWhile (·.isEmpty) with
  | [] => (.error .alreadyExists, v)
  | name :: above =>
    match v.find above with
    | .error cause => (.error cause, v)
    | .ok place =>
      if stays name || name = ".." then (.error .alreadyExists, v)
      else if !Directory.nameFits name then (.error .nameTooLong, v)
      else if ((v.folder place.number).get? name).isSome then (.error .alreadyExists, v)
      else (.ok (), v.addFolder place name)

def ensureFolder (v : Volume) (route : Route) : Except FileError Unit × Volume :=
  match v.makeFolder route with
  | (.error .alreadyExists, v) =>
    match v.find route with
    | .ok _ => (.ok (), v)
    | .error _ => (.error .alreadyExists, v)
  | result => result

/-- Goes up along routes to the first directory that is there or can be made, and gives the routes
before it, which are to be made from the outermost on. -/
def ensureOutermost (v : Volume) : (routes missing : List Route) →
    Except FileError (List Route) × Volume
  | [], missing => (.ok missing, v)
  | route :: rest, missing =>
    match v.ensureFolder route with
    | (.ok (), v) => (.ok missing, v)
    | (.error .notFound, v) => v.ensureOutermost rest (route :: missing)
    | (.error cause, v) => (.error cause, v)

def ensureAll (v : Volume) : List Route → Except FileError Unit × Volume
  | [] => (.ok (), v)
  | route :: rest =>
    match v.ensureFolder route with
    | (.ok (), v) => v.ensureAll rest
    | (.error cause, v) => (.error cause, v)

def maxPathLength : Nat := 4095

def pathFits (path : String) : Bool := path.utf8ByteSize ≤ maxPathLength

def makeFolders (v : Volume) (path : String) : Except FileError Place × Volume :=
  let route := Route.ofPath path
  if path.contains '\x00' then (.error .nulInName, v)
  else if !pathFits path then (.error .nameTooLong, v)
  else
    match v.ensureOutermost (route :: route.above) [] with
    | (.error cause, v) => (.error cause, v)
    | (.ok missing, v) =>
      match v.ensureAll missing with
      | (.error cause, v) => (.error cause, v)
      | (.ok (), v) => (v.find route, v)

def namesIn : Files.Request → List String
  | .read name => [name]
  | .write name _ => [name]
  | .rename source target => [source, target]
  | .link source target => [source, target]
  | .remove name => [name]
  | .names => []
  | .now => []

def tooLong (clock : UInt64) : (r : Files.Request) → Files.Reply r
  | .read _ => .error .nameTooLong
  | .write .. => .error .nameTooLong
  | .rename .. => .error .nameTooLong
  | .link .. => .error .nameTooLong
  | .remove _ => .error .nameTooLong
  | .names => .error .nameTooLong
  | .now => clock

def answer (v : Volume) (place : Place) (pathOf : String → String) (clock : UInt64)
    (r : Files.Request) : Files.Reply r × Volume :=
  if (namesIn r).all fun name => pathFits (pathOf name) then
    let (reply, d) := (v.folder place.number).answer clock r
    (reply, v.setFolder place.number d)
  else (tooLong clock r, v)

end Volume

end SlotLease
