import ClassComponent.Document.ScriptBlock
import ClassComponent.Settings.Load
import ClassComponent.Tree.Outline

/-!
# Conversion of files

`Workspace.convertFile` takes the script out of a document, converts it, and writes the result beside the
document, under a name that is not taken.

* A document without a script gives no file, and neither does one whose result is blank.
* Scripts in `js` and `ts` are converted; `jsx` and `tsx` are class components already, and are only moved.
* Nothing is written unless the conversion succeeds, and no file is ever replaced.
* A conversion that never ends (`NoResult.endless`) leaves everything as it is.
-/

namespace ClassComponent

/-- Something that a run shows: an event of its log, or a text. -/
inductive Output where
  | logged (e : Event)
  | printed (text : Text)
deriving DecidableEq, Repr, Inhabited

namespace Output

/-- Whether something is shown when the log has threshold `threshold`. -/
def isShown (threshold : Nat) : Output → Bool
  | .logged e => e.reaches threshold
  | .printed _ => true

/-- The event of the log. -/
def event? : Output → Option Event
  | .logged e => some e
  | .printed _ => none

/-- The text, which is empty for an event. -/
def text : Output → Text
  | .logged _ => ""
  | .printed text => text

end Output

/-- Where files are converted: a disk, and the suffixes for names that are taken. -/
structure Workspace where
  disk : Disk
  suffixes : List String
deriving Inhabited

/-- Why a file is not converted. -/
inductive FileFault where
  | unreadable (path : Text)
  /-- The file is no text. -/
  | undecodable
  /-- The path is no path, or the code cannot be written. -/
  | flawed (f : Flaw)
  | script (fault : Script.Fault)
  | component (fault : ComponentFault)
  | language (lang : String)
  | noTarget (fault : Disk.PathFault)
  | unwritable (path : Text)
deriving DecidableEq, Repr

namespace FileFault

/-- The wording of a fault. -/
def message : FileFault → Text
  | .unreadable path => "Could not read file: " ++ path
  | .undecodable => "the file is not valid UTF-8"
  | .flawed f => f.message
  | .script fault => fault.message
  | .component fault => fault.message
  | .language lang => "Unsupported script lang: " ++ lang
  | .noTarget fault => fault.message
  | .unwritable path => "Could not write file: " ++ path

/-- What a session logs when a file fails before it goes on with the next; `none` for a fault that ends
the session. -/
def report? (path : Text) : FileFault → Option Event
  | .unreadable p => some (.fileFailed path (FileFault.unreadable p).message)
  | .script fault => some (.fileSkipped path fault.message)
  | .language lang => some (.fileFailed path (FileFault.language lang).message)
  | .unwritable p => some (.fileFailed path (FileFault.unwritable p).message)
  | .undecodable => none
  | .flawed _ => none
  | .component _ => none
  | .noTarget _ => none

end FileFault

/-! ## The code for a document -/

/-- A script's tree between two headings. -/
def dumpText (tree : Tree) : Text :=
  "\n=== AST STRUCTURE ===\n" ++ Tree.outlineText 0 (tree.get "body") ++ "=== END AST STRUCTURE ===\n\n"

/-- The code that a script is converted to; `dumps` says whether its tree is shown. -/
def scriptCode (style : Style) (dumps : Bool) (path : Text) (script : String) :
    Except (NoResult FileFault) Text × List Output :=
  match Script.parse script true with
  | .error fault => (.error (.fault (.script fault)), [.logged (.scriptRefused fault.message)])
  | .ok tree =>
    let dump := if dumps then [.printed (dumpText tree)] else []
    match convertTree style script tree path with
    | .error reason => (.error (reason.map .component), dump)
    | .ok conversion => (.ok conversion.code, dump ++ conversion.events.map .logged)

/-- The languages that are converted. -/
def scriptLanguages : List String := ["js", "ts"]

/-- The languages of class components. -/
def classLanguages : List String := ["jsx", "tsx"]

/-- The code for a document; `none` if it holds no script. -/
def documentCode (style : Style) (dumps : Bool) (path : Text) (content : String) :
    Except (NoResult FileFault) (Option Text) × List Output :=
  match (Document.scriptBlock? content).filter (!·.content.toList.all Text.isBlank) with
  | none => (.ok none, [.logged (.scriptMissing path)])
  | some block =>
    if scriptLanguages.contains block.lang then
      let (code, outputs) := scriptCode style dumps path block.content
      (code.map some, outputs)
    else if classLanguages.contains block.lang then (.ok (some block.content), [])
    else (.error (.fault (.language block.lang)), [])

/-! ## Files -/

/-- What became of a file. -/
structure FileOutcome where
  /-- The path of the file that was written, if there was something to write. -/
  result : Except (NoResult FileFault) (Option Text)
  workspace : Workspace
  outputs : List Output
deriving Inhabited

namespace Workspace

/-- Writes code beside a document. -/
def save (w : Workspace) (extension path code : Text) : FileOutcome :=
  let directory := Path.directory (Path.absolute w.disk.current path)
  match w.disk.freePath directory (Path.stem path) extension w.suffixes with
  | .error fault => ⟨.error (.fault (.noTarget fault)), w, []⟩
  | .ok (target, suffixes, taken) =>
    let (disk, written, events) := w.disk.writeText target code
    let result := match written with
      | .ok true => .ok (some target)
      | .ok false => .error (.fault (.unwritable target))
      | .error f => .error (.fault (.flawed f))
    ⟨result, ⟨disk, suffixes⟩, (taken ++ events).map .logged⟩

/-- Converts a file. The time in the last event is left open, for whoever measures it. -/
def convertFile (w : Workspace) (settings : Settings) (dumps : Bool) (path : Text) : FileOutcome :=
  let (content, events) := w.disk.readText path
  let opening := (Event.conversionStarted path :: events).map Output.logged
  match content with
  | .failed => ⟨.error (.fault (.unreadable path)), w, opening⟩
  | .undecodable => ⟨.error (.fault .undecodable), w, opening⟩
  | .flawed f => ⟨.error (.fault (.flawed f)), w, opening⟩
  | .text content =>
    match documentCode settings.style dumps path content with
    | (.error reason, outputs) => ⟨.error reason, w, opening ++ outputs⟩
    | (.ok none, outputs) => ⟨.ok none, w, opening ++ outputs⟩
    | (.ok (some code), outputs) =>
      let code := Text.trimStart code
      let saved := if code.isEmpty then ⟨.ok none, w, []⟩ else w.save settings.extension.toText path code
      let closing := match saved.result with
        | .ok _ => [.logged (.conversionFinished path "")]
        | .error _ => []
      { saved with outputs := opening ++ outputs ++ saved.outputs ++ closing }

end Workspace

end ClassComponent
