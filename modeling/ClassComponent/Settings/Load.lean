import ClassComponent.Files.Disk
import ClassComponent.Settings.Basic

/-!
# Loading settings

Settings come from a file: the one that is named, or else the one that the environment names. Without a
file the settings are the usual ones.
-/

namespace ClassComponent

/-- Why settings cannot be loaded. -/
inductive SettingsFault where
  /-- The file cannot be read, or holds no value. -/
  | unreadable (path reason : String)
  | notObject (path : String)
deriving DecidableEq, Repr

/-- The wording of a fault. -/
def SettingsFault.message : SettingsFault → String
  | .unreadable path reason => "Could not load config " ++ path ++ ": " ++ reason
  | .notObject path => "Config " ++ path ++ " must contain a JSON object"

namespace Settings

/-- The path of the settings file: `named` or else `fromEnvironment`, empty ones left out. -/
def filePath? (named fromEnvironment : Option String) : Option String :=
  (named.filter (· != "")).or (fromEnvironment.filter (· != ""))

/-- The value that a settings file holds. -/
def loadValue (d : Disk) (path : String) : Except SettingsFault Value :=
  match d.read path with
  | .error fault => .error (.unreadable path fault.message)
  | .ok bytes =>
    match (Utf8.decode? bytes).bind fun text => Value.parse? (Utf8.unifyLineEnds text) with
    | some value => .ok value
    | none => .error (.unreadable path "no value can be read from it")

/-- The settings, and the events of loading them. -/
def load (d : Disk) (named fromEnvironment : Option String) :
    Except SettingsFault (Settings × List Event) :=
  match filePath? named fromEnvironment with
  | none => .ok ({}, [])
  | some path =>
    match loadValue d path with
    | .error fault => .error fault
    | .ok (.object entries) =>
      .ok (Settings.setAll {} entries,
        (unknownKeys entries).map .settingUnknown ++ [.settingsLoaded path])
    | .ok _ => .error (.notObject path)

end Settings

end ClassComponent
