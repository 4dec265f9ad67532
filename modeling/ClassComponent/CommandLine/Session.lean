import ClassComponent.CommandLine.Arguments
import ClassComponent.Files.Conversion

/-!
# Sessions

A session loads the settings, converts one file after the other, and ends with a status. A file that
fails is reported, and the session goes on with the next; only a few faults end it at once. A file whose
conversion never ends keeps the session from ending, too.
-/

namespace ClassComponent

/-- What holds while files are converted. -/
structure Session where
  settings : Settings
  /-- Whether the trees of scripts are shown. -/
  dumps : Bool
  /-- The threshold of the log. -/
  threshold : Nat
deriving Inhabited

/-- What ends a session at once. -/
inductive Crash where
  /-- The threshold in the settings is no text. -/
  | threshold
  | file (fault : FileFault)
deriving DecidableEq, Repr

/-- What a session leaves: its status, the workspace, and what it showed. -/
structure SessionOutcome where
  ending : Except (NoResult Crash) Nat
  workspace : Workspace
  outputs : List Output

namespace Session

/-- What a session shows of `outputs`. -/
def shown (s : Session) (outputs : List Output) : List Output :=
  outputs.filter (·.isShown s.threshold)

/-! ## Start -/

/-- Why no file is converted. -/
inductive StartFault where
  | settings (fault : SettingsFault)
  | threshold
deriving DecidableEq, Repr

/-- What is logged when a session cannot start, and how it ends. -/
def StartFault.ending : StartFault → List Event × Except (NoResult Crash) Nat
  | .settings fault => ([.settingsRefused fault.message], .ok 1)
  | .threshold => ([], .error (.fault .threshold))

/-- The name of the threshold: that of the command line, if it is not empty, or that of the settings. -/
def thresholdName (arguments : Arguments) (settings : Settings) : Value :=
  match arguments.logLevel?.filter (· != "") with
  | some name => .text name
  | none => settings.logLevel

/-- The session that arguments ask for, or why there is none, and the events up to then. These are
logged with the default threshold. -/
def start (arguments : Arguments) (fromEnvironment : Option String) (d : Disk) :
    Except StartFault Session × List Event :=
  match Settings.load d arguments.config? fromEnvironment with
  | .error fault => (.error (.settings fault), [])
  | .ok (loaded, events) =>
    let settings := if arguments.dropsUnsupported then { loaded with keepsUnsupported := .flag false }
      else loaded
    match (thresholdName arguments settings).text? with
    | none => (.error .threshold, events)
    | some name =>
      match threshold? name with
      | some threshold => (.ok ⟨settings, arguments.dumpsTree, threshold⟩, events)
      | none =>
        (.ok ⟨settings, arguments.dumpsTree, defaultThreshold⟩, events ++ [.thresholdUnknown name])

/-! ## Files -/

/-- The line that tells where the result of a file is. -/
def resultLine (path output : Text) : Text :=
  "  " ++ path ++ " -> " ++ output ++ "\n"

/-- What a session adds to the outputs of a file: where its result is, or why it has none. -/
def remark (path : Text) : Except (NoResult FileFault) (Option Text) → List Output
  | .ok (some output) => [.printed (resultLine path output)]
  | .ok none => []
  | .error (.fault fault) => (fault.report? path).toList.map .logged
  | .error .endless => []

/-- Whether a session goes on after a file. -/
def goesOn (path : Text) : Except (NoResult FileFault) (Option Text) → Bool
  | .ok _ => true
  | .error (.fault fault) => (fault.report? path).isSome
  | .error .endless => false

/-- Converts one file, with the remark of the session. -/
def step (s : Session) (w : Workspace) (path : Text) : FileOutcome :=
  let outcome := w.convertFile s.settings s.dumps path
  { outcome with outputs := s.shown (outcome.outputs ++ remark path outcome.result) }

/-- What the files of a session leave: whether one failed or why the session did not get through them, the
workspace, and what was shown. -/
def runFiles (s : Session) (w : Workspace) :
    List Text → Except (NoResult FileFault) Bool × Workspace × List Output
  | [] => (.ok false, w, [])
  | path :: paths =>
    let outcome := s.step w path
    match outcome.result with
    | .ok _ =>
      let (ending, w', outputs) := s.runFiles outcome.workspace paths
      (ending, w', outcome.outputs ++ outputs)
    | .error reason =>
      if goesOn path outcome.result then
        let (ending, w', outputs) := s.runFiles outcome.workspace paths
        (ending.map fun _ => true, w', outcome.outputs ++ outputs)
      else (.error reason, outcome.workspace, outcome.outputs)

/-- The status of a session: 1 if a file failed, else 0. -/
def status (hasFailed : Bool) : Nat :=
  if hasFailed then 1 else 0

/-- What a session shows at its end. -/
def closing (s : Session) : List Output :=
  s.shown [.logged .sessionFinished]

end Session

/-- The events that are shown before a session sets its threshold. -/
def openingOutputs (events : List Event) : List Output :=
  (events.map .logged).filter (·.isShown defaultThreshold)

/-- Runs a session. `fromEnvironment` is the path of a settings file that the environment names. -/
def runSession (arguments : Arguments) (fromEnvironment : Option String) (w : Workspace) : SessionOutcome :=
  match Session.start arguments fromEnvironment w.disk with
  | (.error fault, events) =>
    let (last, ending) := fault.ending
    ⟨ending, w, openingOutputs (events ++ last)⟩
  | (.ok s, events) =>
    match s.runFiles w (arguments.files.map Text.ofString) with
    | (.error reason, w', outputs) => ⟨.error (reason.map .file), w', openingOutputs events ++ outputs⟩
    | (.ok hasFailed, w', outputs) =>
      ⟨.ok (Session.status hasFailed), w', openingOutputs events ++ outputs ++ s.closing⟩

/-- Runs the command line. -/
def runCommandLine (arguments : List String) (fromEnvironment : Option String) (w : Workspace) :
    Except Dismissal SessionOutcome :=
  (Arguments.parse arguments).map fun parsed => runSession parsed fromEnvironment w

end ClassComponent
