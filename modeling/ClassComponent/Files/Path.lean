import ClassComponent.Text.Lines

/-!
# Paths

Paths are texts whose parts are divided by slashes. Nothing here looks at files.
-/

namespace ClassComponent.Path

/-- The code point that divides the parts of a path. -/
def slash : CodePoint := .char '/'

/-- The code point that an extension starts with. -/
def dot : CodePoint := .char '.'

/-- The name of the file that a path leads to: what follows the last slash. -/
def fileName (path : Text) : Text :=
  ⟨(path.points.reverse.takeWhile (· != slash)).reverse⟩

/-- A file name without its extension: without the last dot and what follows it, unless only dots stand
before it. -/
def withoutExtension (name : List CodePoint) : List CodePoint :=
  match name.reverse.dropWhile (· != dot) with
  | [] => name
  | _ :: stem => if stem.all (· == dot) then name else stem.reverse

/-- The name of the file that a path leads to, without its extension. -/
def stem (path : Text) : Text :=
  ⟨withoutExtension (fileName path).points⟩

/-- Code points without the slashes they end with. -/
def withoutSlashes (ps : List CodePoint) : List CodePoint :=
  (ps.reverse.dropWhile (· == slash)).reverse

/-- What precedes the last slash; slashes at its end are dropped unless there is nothing else. -/
def directory (path : Text) : Text :=
  let head := (path.points.reverse.dropWhile (· != slash)).reverse
  if head.all (· == slash) then ⟨head⟩ else ⟨withoutSlashes head⟩

/-- Whether a path starts from the root. -/
def isRooted (path : Text) : Bool :=
  path.points.head? == some slash

/-- A path below a directory; a path from the root stays as it is. -/
def join (directory path : Text) : Text :=
  if isRooted path then path
  else if directory.isEmpty || directory.points.getLast? == some slash then directory ++ path
  else directory ++ "/" ++ path

/-- The parts of a path. -/
def parts (path : Text) : List Text :=
  (Text.splitAt slash path.points).map Text.mk

/-- The parts of a path with `.` and empty parts left out and `..` resolved; `isRooted` says that nothing
lies above the start. The parts so far stand last one first. -/
def resolveParts (isRooted : Bool) : List Text → List Text → List Text
  | done, [] => done.reverse
  | done, part :: parts =>
    if part.isEmpty || part == "." then resolveParts isRooted done parts
    else if part == ".." then
      match done with
      | [] => if isRooted then resolveParts isRooted [] parts else resolveParts isRooted [part] parts
      | last :: rest =>
        if last == ".." then resolveParts isRooted (part :: done) parts
        else resolveParts isRooted rest parts
    else resolveParts isRooted (part :: done) parts

/-- A path without `.`, `..` and repeated slashes. Exactly two slashes at the start are kept. -/
def normalize (path : Text) : Text :=
  let slashes := path.points.takeWhile (· == slash)
  let lead : Text := if slashes.length == 2 then "//" else if slashes.isEmpty then "" else "/"
  let whole := lead ++ Text.intercalate "/" (resolveParts (!slashes.isEmpty) [] (parts path))
  if whole.isEmpty then "." else whole

/-- The path from the root, for a path that starts in the directory `current`. -/
def absolute (current path : Text) : Text :=
  normalize (join current path)

end ClassComponent.Path
