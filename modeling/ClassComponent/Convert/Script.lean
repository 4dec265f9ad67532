import ClassComponent.Convert.Component
import ClassComponent.Render.Module
import ClassComponent.Script.Module

/-!
# Conversion of scripts

`convertTree` makes a class component from a script and its tree; `convertScript` parses the script
first.
-/

namespace ClassComponent

/-- How scripts are converted. -/
structure Style where
  /-- Whether options that cannot be converted are kept in the decorator of the class. -/
  keepsUnsupported : Bool := true
  /-- The name of a class that has no other. -/
  fallbackName : Text := "Component"
deriving DecidableEq, Repr, Inhabited

/-- A converted script. -/
structure Conversion where
  code : Text
  /-- Whether the script had options; if not, the code is the script. -/
  isConverted : Bool
  events : List Event
deriving Repr, Inhabited

/-- What was reported during a conversion. -/
def Conversion.diagnostics (c : Conversion) : List Diagnostic :=
  ClassComponent.diagnostics c.events

/-- The conversion of a script for which a component was read, with the events of reading it. -/
def Conversion.ofReading (style : Style) (script : Text) (tree : Tree) (file : Text)
    (reading : Component × List Event) : Conversion :=
  let (component, events) := reading
  { code := component.render tree script file style.fallbackName
    isConverted := component.isConverted
    events := events ++ component.renderEvents file style.fallbackName }

/-- The conversion of a script with its tree. -/
def convertTree (style : Style) (script : Text) (tree : Tree) (file : Text) :
    Except (NoResult ComponentFault) Conversion :=
  (Component.ofScript script tree file style.keepsUnsupported).map (.ofReading style script tree file)

/-- Why a script cannot be converted. -/
inductive ScriptFault where
  | unreadable (fault : Script.Fault)
  | component (fault : ComponentFault)
deriving DecidableEq, Repr

/-- The conversion of a script. -/
def convertScript (style : Style) (script : String) (file : Text) :
    Except (NoResult ScriptFault) Conversion :=
  match Script.parse script true with
  | .error fault => .error (.fault (.unreadable fault))
  | .ok tree => (convertTree style script tree file).mapError (.map .component)

end ClassComponent
