import ClassComponent.CommandLine.Session

/-!
# The program

Runs a session on the files of the machine. A disk holds what was seen of them so far: before a file is
converted the places along its path are looked at, and after it those where something is to be written.
If something stands there, it is added to the disk and the file is converted again.
-/

namespace ClassComponent.Program

/-- How the program is called. -/
def usage : String :=
  "usage: class-component [-h] [-c CONFIG] [--log-level LEVEL] [--drop-unsupported] [--dump-ast] FILE..."

/-- The environment variable that names a settings file. -/
def settingsVariable : String := "OPTION2CLASS_CONFIG"

/-- How many suffixes are drawn for a file. -/
def suffixCount : Nat := 32

/-- The path of a place. -/
def placePath (place : Place) : String :=
  "/" ++ "/".intercalate place

/-- Whether something at a path can be opened. -/
def opens (path : String) : IO Bool := do
  try
    discard <| IO.FS.Handle.mk path .read
    return true
  catch _ => return false

/-- What stands at a place of the machine. -/
def standing? (place : Place) : IO (Option Entry) := do
  let path := placePath place
  if ← opens (path ++ "/.") then return some .directory
  try return some (.file (← IO.FS.readBinFile path))
  catch _ => return none

/-- The disk with what stands at a place of the machine. -/
def look (d : Disk) (place : Place) : IO Disk := do
  match ← standing? place with
  | some entry => return d.put place entry
  | none => return d

/-- The disk with what stands along a path. -/
def lookAlong (d : Disk) (path : String) : IO Disk :=
  (d.placesAlong path).foldlM look d

/-- Puts something at a place of the machine; gives whether that was possible. Nothing is replaced. -/
def create (place : Place) (entry : Entry) : IO Bool := do
  try
    match entry with
    | .directory => IO.FS.createDir (placePath place)
    | .file bytes =>
      let handle ← IO.FS.Handle.mk (placePath place) .writeNew
      handle.write bytes
    return true
  catch _ => return false

/-- Eight random hexadecimal digits. -/
def drawSuffix : IO String := do
  let bytes ← IO.getRandomBytes 4
  return String.ofList (bytes.toList.flatMap Digest.byteDigits)

/-- Converts a file, and again as long as its result cannot be put where it should be. -/
partial def convert (s : Session) (w : Workspace) (path : Text) : IO FileOutcome := do
  let outcome := s.step w path
  let added := w.disk.addedTo outcome.workspace.disk
  let seen ← (added.map (·.1)).foldlM look w.disk
  if seen.entries.length != w.disk.entries.length then
    convert s { w with disk := seen } path
  else
    for (place, entry) in added do
      unless ← create place entry do
        let refuses := fun p => p == place || w.disk.refuses p
        return ← convert s { w with disk := { w.disk with refuses } } path
    return outcome

/-- A time in milliseconds, with one decimal. -/
def milliseconds (nanoseconds : Nat) : String :=
  let tenths := (nanoseconds + 50000) / 100000
  toString (tenths / 10) ++ "." ++ toString (tenths % 10)

/-- Shows outputs; `elapsed` is the time that a conversion took. -/
def display (elapsed : String) (outputs : List Output) : IO Unit := do
  for output in outputs do
    match output with
    | .printed text => IO.print text.joined
    | .logged (.conversionFinished path _) =>
      let e := Event.conversionFinished path elapsed
      IO.println (e.severity.label ++ " - " ++ e.message.joined)
    | .logged e => IO.println (e.severity.label ++ " - " ++ e.message.joined)

/-- Goes on for ever. -/
partial def forever : IO UInt32 := do
  IO.sleep 1000
  forever

/-- Converts files one after the other; gives whether one failed, or why not all were converted. -/
def convertAll (s : Session) (d : Disk) : List String → IO (Except (NoResult FileFault) Bool)
  | [] => return .ok false
  | path :: paths => do
    let started ← IO.monoNanosNow
    let suffixes ← (List.range suffixCount).mapM fun _ => drawSuffix
    let outcome ← convert s ⟨← lookAlong d path, suffixes⟩ path
    display (milliseconds ((← IO.monoNanosNow) - started)) outcome.outputs
    match outcome.result with
    | .ok _ => convertAll s d paths
    | .error reason =>
      if Session.goesOn path outcome.result then
        return (← convertAll s d paths).map fun _ => true
      else return .error reason

/-- Runs a session; gives its status. -/
def run (arguments : Arguments) : IO UInt32 := do
  let fromEnvironment ← IO.getEnv settingsVariable
  let d : Disk := ⟨(← IO.currentDir).toString, [], fun _ => false⟩
  let seen ← match Settings.filePath? arguments.config? fromEnvironment with
    | some path => lookAlong d path
    | none => pure d
  match Session.start arguments fromEnvironment seen with
  | (.error fault, events) =>
    let (last, ending) := fault.ending
    display "" (openingOutputs (events ++ last))
    match ending with
    | .ok status => return status.toUInt32
    | .error _ =>
      IO.eprintln "the log level is no text"
      return 1
  | (.ok s, events) =>
    display "" (openingOutputs events)
    match ← convertAll s d arguments.files with
    | .ok hasFailed =>
      display "" s.closing
      return (Session.status hasFailed).toUInt32
    | .error (.fault fault) =>
      IO.eprintln fault.message.joined
      return 1
    | .error .endless => forever

end ClassComponent.Program

/-- The command line. -/
def main (arguments : List String) : IO UInt32 := do
  match ClassComponent.Arguments.parse arguments with
  | .ok parsed => ClassComponent.Program.run parsed
  | .error dismissal =>
    IO.println ClassComponent.Program.usage
    return dismissal.status.toUInt32
