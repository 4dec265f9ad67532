import ClassComponent.Event
import ClassComponent.Files.Path
import ClassComponent.Text.Utf8

/-!
# Files

A disk as a value: what stands where, and where writing is refused. Actions give the disk after them, and
the events that they log. A text without bytes leaves an empty file; any other is written as a whole or not
at all.
-/

namespace ClassComponent

/-- Where something stands: the names from the root on. -/
abbrev Place := List String

/-- What can stand at a place. -/
inductive Entry where
  | directory
  | file (bytes : ByteArray)
deriving Inhabited

/-- A disk. -/
structure Disk where
  /-- The path of the directory that relative paths start from. -/
  current : String
  entries : List (Place × Entry)
  /-- The places where nothing can be written. -/
  refuses : Place → Bool := fun _ => false
deriving Inhabited

/-- What keeps a text from being a path, or from being written. -/
inductive Flaw where
  /-- It holds half of a surrogate pair, which has no bytes. -/
  | half
  /-- It holds the character that ends paths. -/
  | nul
deriving DecidableEq, Repr

/-- The wording of a flaw. -/
def Flaw.message : Flaw → String
  | .half => "half of a surrogate pair cannot be encoded"
  | .nul => "a path holds no null character"

/-- Why an action fails. -/
inductive DiskFault where
  /-- The path is no path. -/
  | flawed (f : Flaw)
  | missing
  | notDirectory
  | isDirectory
  | occupied
  | longName
  | refused
deriving DecidableEq, Repr

/-- The wording of a fault. -/
def DiskFault.message : DiskFault → String
  | .flawed f => f.message
  | .missing => "No such file or directory"
  | .notDirectory => "Not a directory"
  | .isDirectory => "Is a directory"
  | .occupied => "File exists"
  | .longName => "File name too long"
  | .refused => "Permission denied"

namespace Disk

/-! ## Places -/

/-- The names in a path. -/
def names (path : String) : List String :=
  (Text.splitAt '/' path.toList).map String.ofList

/-- The place of the current directory. -/
def home (d : Disk) : Place :=
  (names d.current).filter (· != "")

/-- What stands at a place. The current directory and those above it are there. -/
def at? (d : Disk) (place : Place) : Option Entry :=
  if place.isPrefixOf d.home then some .directory else d.entries.lookup place

/-- Whether a directory stands at a place. -/
def isDirectoryAt (d : Disk) (place : Place) : Bool :=
  match d.at? place with
  | some .directory => true
  | _ => false

/-- The most bytes that a name may have. -/
def nameLimit : Nat := 255

/-- The most bytes that a path may have. -/
def pathLimit : Nat := 4095

/-- The characters of a path, which must hold neither half of a surrogate pair nor a null character. -/
def pathString (path : Text) : Except DiskFault String :=
  match path.toString? with
  | none => .error (.flawed .half)
  | some s =>
    if s.toList.contains '\x00' then .error (.flawed .nul)
    else if s.utf8ByteSize > pathLimit then .error .longName
    else .ok s

/-- The place that a part of a path leads to from `place`, which must be a directory. -/
def enter (d : Disk) (place : Place) (part : String) : Except DiskFault Place :=
  match d.at? place with
  | none => .error .missing
  | some (.file _) => .error .notDirectory
  | some .directory =>
    if part == "" || part == "." then .ok place
    else if part == ".." then .ok place.dropLast
    else if part.utf8ByteSize > nameLimit then .error .longName
    else .ok (place ++ [part])

/-- The place where a path starts: the root, or the current directory. -/
def start (d : Disk) (path : String) : Place :=
  if path.toList.head? == some '/' then [] else d.home

/-- The place that the names in a path lead to. -/
def follow (d : Disk) (path : String) : Except DiskFault Place :=
  if path == "" then .error .missing else (names path).foldlM d.enter (d.start path)

/-- The place that a path leads to; only its last part may be missing. -/
def place (d : Disk) (path : Text) : Except DiskFault Place := do
  d.follow (← pathString path)

/-- The places that a path passes, whatever stands there. -/
def placesAlong (d : Disk) (path : String) : List Place :=
  let next (place : Place) (part : String) : Place :=
    if part == "" || part == "." then place
    else if part == ".." then place.dropLast
    else place ++ [part]
  ((names path).foldl (fun (place, passed) part => (next place part, passed ++ [next place part]))
    (d.start path, [])).2

/-- What a path leads to. -/
def find? (d : Disk) (path : Text) : Option Entry :=
  match d.place path with
  | .ok place => d.at? place
  | .error _ => none

/-- Whether a path leads to something. -/
def has (d : Disk) (path : Text) : Bool :=
  (d.find? path).isSome

/-- Whether a path leads to a directory. -/
def hasDirectory (d : Disk) (path : Text) : Bool :=
  match d.find? path with
  | some .directory => true
  | _ => false

/-- The disk with something at a place. -/
def put (d : Disk) (place : Place) (entry : Entry) : Disk :=
  if d.entries.any (·.1 == place) then
    { d with entries := d.entries.map fun (p, e) => if p == place then (p, entry) else (p, e) }
  else { d with entries := d.entries ++ [(place, entry)] }

/-- What stands on a disk and not on another. -/
def addedTo (before after : Disk) : List (Place × Entry) :=
  after.entries.filter fun (place, _) => (before.at? place).isNone

/-! ## Reading and writing -/

/-- The bytes of the file that a path leads to. -/
def read (d : Disk) (path : Text) : Except DiskFault ByteArray := do
  match d.at? (← d.place path) with
  | some (.file bytes) => return bytes
  | some .directory => throw .isDirectory
  | none => throw .missing

/-- The disk with a file written. -/
def write (d : Disk) (path : Text) (bytes : ByteArray) : Except DiskFault Disk := do
  let place ← d.place path
  if d.isDirectoryAt place then throw .isDirectory
  if d.refuses place then throw .refused
  return d.put place (.file bytes)

/-- The disk with one more directory. -/
def makeDirectory (d : Disk) (path : Text) : Except DiskFault Disk := do
  let whole ← pathString path
  let bare := String.ofList (whole.toList.reverse.dropWhile (· == '/')).reverse
  let place ← d.follow (if bare == "" then whole else bare)
  if (d.at? place).isSome then throw .occupied
  if d.refuses place then throw .refused
  return d.put place .directory

/-- Makes a directory after those above it; one that is there already is no fault. Gives the disk, which
keeps what was made before a fault. -/
def makeDirectories : Nat → Disk → Text → Disk × Option DiskFault
  | 0, d, _ => (d, some .missing)
  | fuel + 1, d, path =>
    let whole := if (Path.fileName path).isEmpty then Path.directory path else path
    let above := Path.directory whole
    let name := Path.fileName whole
    let (d, fault?, isDone) :=
      if !above.isEmpty && !name.isEmpty && !d.has above then
        match makeDirectories fuel d above with
        | (d, some .occupied) => (d, none, name == ".")
        | (d, fault?) => (d, fault?, name == ".")
      else (d, none, false)
    if fault?.isSome || isDone then (d, fault?)
    else match d.makeDirectory path with
      | .ok d => (d, none)
      | .error fault => if d.hasDirectory path then (d, none) else (d, some fault)

end Disk

/-! ## Actions -/

/-- What reading a text gives. -/
inductive ReadResult where
  | text (content : String)
  | failed
  /-- The file is no text. -/
  | undecodable
  /-- The path is no path. -/
  | flawed (f : Flaw)
deriving DecidableEq, Repr

namespace Disk

/-- The text of a file, its line ends made uniform. -/
def readText (d : Disk) (path : Text) : ReadResult × List Event :=
  match d.read path with
  | .error (.flawed f) => (.flawed f, [])
  | .error fault => (.failed, [.readFailed path fault.message])
  | .ok bytes =>
    match Utf8.decode? bytes with
    | some content => (.text (Utf8.unifyLineEnds content), [])
    | none => (.undecodable, [])

/-- Makes sure that a directory is there; gives whether it is, or what is wrong with its path. -/
def ensureDirectory (d : Disk) (path : Text) : Disk × Except Flaw Bool × List Event :=
  if path.isEmpty || d.has path then (d, .ok true, [])
  else match d.makeDirectories (path.length + 1) path with
    | (d, none) => (d, .ok true, [.directoryCreated path])
    | (d, some (.flawed f)) => (d, .error f, [])
    | (d, some fault) => (d, .ok false, [.directoryFailed path fault.message])

/-- Writes a text into a file; one with half of a surrogate pair leaves the file empty. -/
def writeFile (d : Disk) (path content : Text) : Disk × Except Flaw Bool × List Event :=
  match d.write path (content.toString?.getD "").toUTF8 with
  | .ok d => if content.hasHalf then (d, .error .half, []) else (d, .ok true, [.written path])
  | .error (.flawed f) => (d, .error f, [])
  | .error fault => (d, .ok false, [.writeFailed path fault.message])

/-- Writes a text, making the directory for it if need be; gives whether it was written, or what is wrong
with the path or the text. -/
def writeText (d : Disk) (path content : Text) : Disk × Except Flaw Bool × List Event :=
  match d.ensureDirectory (Path.directory path) with
  | (d, .error f, events) => (d, .error f, events)
  | (d, .ok _, events) =>
    let (d, result, written) := d.writeFile path content
    (d, result, events ++ written)

/-- A path in a directory for a new file: named `base`, or `base` with a suffix if that is taken. Gives
the path, the suffixes left, and the events; `none` if the suffixes do not suffice. -/
def freePathFrom? (d : Disk) (directory base extension path : Text) :
    List String → Option (Text × List String × List Event)
  | [] => if d.has path then none else some (path, [], [])
  | suffix :: suffixes =>
    if d.has path then
      let next := Path.absolute d.current (Path.join directory (base ++ suffix ++ "." ++ extension))
      (d.freePathFrom? directory base extension next suffixes).map fun (path', left, events) =>
        (path', left, .pathTaken extension path :: events)
    else some (path, suffix :: suffixes, [])

/-- Why there is no path for a new file. -/
inductive PathFault where
  | noDirectory (path : Text)
  | noSuffix
deriving DecidableEq, Repr

/-- The wording of a fault. -/
def PathFault.message : PathFault → Text
  | .noDirectory path => "Directory \"" ++ path ++ "\" does not exist"
  | .noSuffix => "no suffix is left"

/-- A path for a new file in a directory, which must exist. -/
def freePath (d : Disk) (directory base extension : Text) (suffixes : List String) :
    Except PathFault (Text × List String × List Event) :=
  if !d.hasDirectory directory then .error (.noDirectory directory)
  else
    let path := Path.absolute d.current (Path.join directory (base ++ "." ++ extension))
    match d.freePathFrom? directory base extension path suffixes with
    | some found => .ok found
    | none => .error .noSuffix

end Disk

end ClassComponent
