import ClassComponent.Convert.Script
import ClassComponent.Settings.Reader

/-!
# Settings

The settings of a conversion, and how an object of a settings file changes them.
-/

namespace ClassComponent

/-- The settings, each any value. -/
structure Settings where
  /-- Whether options that cannot be converted are kept. -/
  keepsUnsupported : Value := .flag true
  /-- The extension of the files that are written. -/
  extension : Value := .text "tsx"
  /-- The name of a class that has no other. -/
  fallbackName : Value := .text "Component"
  /-- The threshold of the log. -/
  logLevel : Value := .text "INFO"
deriving Inhabited, Repr

namespace Settings

/-- The keys of settings files. -/
def keys : List String :=
  ["keep_unsupported_options", "output_extension", "default_component_name", "log_level"]

/-- The settings after an entry of a settings file; an unknown key changes nothing. -/
def set (s : Settings) (key : Text) (value : Value) : Settings :=
  if key == "keep_unsupported_options" then { s with keepsUnsupported := value }
  else if key == "output_extension" then { s with extension := value }
  else if key == "default_component_name" then { s with fallbackName := value }
  else if key == "log_level" then { s with logLevel := value }
  else s

/-- The settings after all entries. -/
def setAll (s : Settings) (entries : List (Text × Value)) : Settings :=
  entries.foldl (fun s (key, value) => s.set key value) s

/-- The keys among entries that are not known. -/
def unknownKeys (entries : List (Text × Value)) : List Text :=
  (entries.map (·.1)).filter (!·.isAmong keys)

/-- How scripts are converted under the settings. -/
def style (s : Settings) : Style where
  keepsUnsupported := s.keepsUnsupported.isFilled
  fallbackName := s.fallbackName.toText

end Settings

end ClassComponent
