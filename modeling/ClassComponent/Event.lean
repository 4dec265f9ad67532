import ClassComponent.Diagnostic
import ClassComponent.Options.Kind

/-!
# Events

Everything that is logged, as data: each event has a severity and a message. A log shows the events whose
severity reaches its threshold; thresholds go by names, which `threshold?` reads.

Some messages hold what only the surroundings know: why the system refused a file, why a text cannot be
parsed, how long a conversion took. Events carry these as texts.
-/

namespace ClassComponent

/-- How much an event matters. -/
inductive Severity where
  | debug
  | info
  | warning
  | error
deriving DecidableEq, Repr, Inhabited

namespace Severity

/-- The number that thresholds are compared with. -/
def rank : Severity → Nat
  | .debug => 10
  | .info => 20
  | .warning => 30
  | .error => 40

/-- The name of a severity. -/
def label : Severity → String
  | .debug => "DEBUG"
  | .info => "INFO"
  | .warning => "WARNING"
  | .error => "ERROR"

end Severity

/-- The names of thresholds. -/
def thresholds : List (String × Nat) :=
  [("CRITICAL", 50), ("FATAL", 50), ("ERROR", 40), ("WARNING", 30), ("WARN", 30), ("INFO", 20),
   ("DEBUG", 10), ("NOTSET", 0)]

/-- The threshold with a name, in letters of any case. -/
def threshold? (name : Text) : Option Nat :=
  name.toString?.bind fun s => thresholds.lookup (LetterCase.upperText s)

/-- The threshold that holds before another is set. -/
def defaultThreshold : Nat := Severity.info.rank

/-- Something that is logged. -/
inductive Event where
  /-- The options of a script are about to be read. -/
  | readingStarted (file : Text)
  /-- An option was found. -/
  | optionFound (kind : OptionKind) (line? : Option Int)
  /-- An option is not converted. -/
  | optionKept (line? : Option Int)
  /-- Something was reported. -/
  | warned (d : Diagnostic)
  /-- The data of a component was read. -/
  | dataRead (fields hoisted : Nat)
  /-- A store helper was read. -/
  | helperRead (helper : Text) (bindings : Nat)
  /-- The options of a script were read. -/
  | readingFinished (isConverted : Bool)
  /-- A script has no options. -/
  | passedThrough
  /-- A class is about to be written. -/
  | classStarted (name : Text)
  /-- A script cannot be parsed. -/
  | scriptRefused (reason : Text)
  /-- A file is about to be converted. -/
  | conversionStarted (path : Text)
  /-- A file holds no script. -/
  | scriptMissing (path : Text)
  /-- A file was converted, in some milliseconds. -/
  | conversionFinished (path elapsed : Text)
  | readFailed (path reason : Text)
  | writeFailed (path reason : Text)
  | written (path : Text)
  | directoryFailed (path reason : Text)
  | directoryCreated (path : Text)
  /-- A path for a new file is taken. -/
  | pathTaken (extension path : Text)
  | settingUnknown (key : Text)
  | settingsLoaded (path : Text)
  | settingsRefused (message : Text)
  | thresholdUnknown (name : Text)
  /-- A file was left out because its script cannot be parsed. -/
  | fileSkipped (path reason : Text)
  /-- A file could not be converted. -/
  | fileFailed (path message : Text)
  /-- All files were processed. -/
  | sessionFinished
deriving DecidableEq, Repr, Inhabited

namespace Event

/-- How much an event matters. -/
def severity : Event → Severity
  | .readingStarted _ => .debug
  | .optionFound _ _ => .debug
  | .optionKept _ => .debug
  | .warned _ => .warning
  | .dataRead _ _ => .debug
  | .helperRead _ _ => .debug
  | .readingFinished _ => .debug
  | .passedThrough => .debug
  | .classStarted _ => .debug
  | .scriptRefused _ => .error
  | .conversionStarted _ => .info
  | .scriptMissing _ => .info
  | .conversionFinished _ _ => .info
  | .readFailed _ _ => .error
  | .writeFailed _ _ => .error
  | .written _ => .debug
  | .directoryFailed _ _ => .error
  | .directoryCreated _ => .debug
  | .pathTaken _ _ => .info
  | .settingUnknown _ => .warning
  | .settingsLoaded _ => .debug
  | .settingsRefused _ => .error
  | .thresholdUnknown _ => .warning
  | .fileSkipped _ _ => .error
  | .fileFailed _ _ => .error
  | .sessionFinished => .info

/-- A line number in a message. -/
def lineText : Option Int → String
  | some n => toString n
  | none => "None"

/-- What scripts may hold, told when one cannot be parsed. -/
def scriptLimits : String :=
  "The script parser (esprima) reads ECMAScript 2017 with JSX: optional chaining (?.), " ++
    "nullish coalescing (??) and TypeScript type syntax are not supported"

/-- What is logged. -/
def message : Event → Text
  | .readingStarted file =>
    "Starting option api traversal for " ++ (if file.isEmpty then "<snippet>" else file : Text)
  | .optionFound kind line => kind.label ++ " option at line " ++ lineText line
  | .optionKept line => "unsupported option at line " ++ lineText line
  | .warned d => d.text
  | .dataRead fields hoisted =>
    "data: " ++ toString fields ++ " field(s), " ++ toString hoisted ++ " hoisted statement(s)"
  | .helperRead helper bindings =>
    helper ++ " resolved " ++ toString bindings ++ " store binding(s)"
  | .readingFinished isConverted =>
    "Completed traversal, conversion required: " ++ if isConverted then "True" else "False"
  | .passedThrough => "No option api found, passing script through"
  | .classStarted name => "Generating class component " ++ name
  | .scriptRefused reason => "Script parsing failed: " ++ reason
  | .conversionStarted path => "Starting option api to class api conversion of " ++ path
  | .scriptMissing path => "No script block in " ++ path
  | .conversionFinished path elapsed => "Converted " ++ path ++ " in " ++ elapsed ++ "ms"
  | .readFailed path reason => "Failed to read file " ++ path ++ ": " ++ reason
  | .writeFailed path reason => "Failed to write file " ++ path ++ ": " ++ reason
  | .written path => "Successfully wrote file: " ++ path
  | .directoryFailed path reason => "Failed to create directory " ++ path ++ ": " ++ reason
  | .directoryCreated path => "Created directory: " ++ path
  | .pathTaken extension path => extension ++ " file already exists: " ++ path
  | .settingUnknown key => "Ignoring unknown config key: " ++ key
  | .settingsLoaded path => "Loaded config from " ++ path
  | .settingsRefused message => message
  | .thresholdUnknown name => "Unknown log level: " ++ name
  | .fileSkipped path reason =>
    "Skipped " ++ path ++ ", its script could not be parsed: " ++ reason ++ ". " ++ scriptLimits
  | .fileFailed path message => "Transpilation of " ++ path ++ " failed: " ++ message
  | .sessionFinished => "Option api to class api conversion finished"

/-- Whether a log with threshold `threshold` shows an event. -/
def reaches (e : Event) (threshold : Nat) : Bool :=
  threshold ≤ e.severity.rank

/-- The report that an event carries. -/
def diagnostic? : Event → Option Diagnostic
  | .warned d => some d
  | _ => none

end Event

/-- The reports among events. -/
def diagnostics (events : List Event) : List Diagnostic :=
  events.filterMap Event.diagnostic?

end ClassComponent
