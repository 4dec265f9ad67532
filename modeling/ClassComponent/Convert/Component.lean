import ClassComponent.Component.Naming
import ClassComponent.Convert.Option
import ClassComponent.Convert.Walk

/-!
# From a script to a component

`Component.ofScript` reads all options of a script, one after the other, and then makes the names of
watchers unique. Two things can come between. There may be no character left to mask line breaks, which is a
fault. And all names that are tried for a watcher may be taken, which is none: then the search for a name
goes on for ever, and so does everything that waits for it (`NoResult.endless`).
-/

namespace ClassComponent

/-- Why a computation gives no result: a fault breaks it off, or it never ends. -/
inductive NoResult (ε : Type) where
  | fault (f : ε)
  /-- Nothing is raised and nothing is returned; whatever was to come after it never happens. -/
  | endless
deriving DecidableEq, Repr

/-- Puts a fault in other words. What never ends has no fault. -/
def NoResult.map {ε δ : Type} (f : ε → δ) : NoResult ε → NoResult δ
  | .fault cause => .fault (f cause)
  | .endless => .endless

/-- Why a component cannot be read. -/
inductive ComponentFault where
  /-- Every private-use character occurs in a script that needs one. -/
  | noMarker
deriving DecidableEq, Repr

/-- The wording of a fault. -/
def ComponentFault.message : ComponentFault → String
  | .noMarker => "no free private-use character for line break masking"

/-- The options of a script, in order. -/
def scriptOptions (o : Origin) (tree : Tree) : List (OptionKind × Tree) :=
  (Tree.walk o [tree]).filterMap fun t => t.optionKind?.map (·, t)

namespace Situation

/-- The component and the events after one more option. -/
def addOption (s : Situation) (state : Component × List Event) (option : OptionKind × Tree) :
    Component × List Event :=
  let (c, events) := state
  let (kind, node) := option
  let finding := s.readOption c.hoisted.length kind node
  (c.applyAll finding.updates,
    events ++ .optionFound kind (s.origin.line? node) :: finding.events)

/-- The component that options give, and the events of reading them. -/
def readOptions (s : Situation) (options : List (OptionKind × Tree)) : Component × List Event :=
  options.foldl s.addOption ({ marker := s.origin.marker }, [])

end Situation

namespace Component

/-- The component that a tree defines, with texts of a given origin, and the events of reading it. Without a
free name for a watcher there is no end. -/
def ofOrigin (origin : Origin) (tree : Tree) (file : Text) (keepsUnsupported : Bool) :
    Except (NoResult ComponentFault) (Component × List Event) :=
  let s : Situation := ⟨origin, file, keepsUnsupported⟩
  let (component, events) := s.readOptions (scriptOptions origin tree)
  match component.renameWatchers? Digest.short with
  | none => .error .endless
  | some component =>
    .ok (component, .readingStarted file :: events ++ [.readingFinished component.isConverted])

/-- The component that a script defines, and the events of reading it. `tree` is the tree of `script`,
`file` names it in reports. -/
def ofScript (script : Text) (tree : Tree) (file : Text) (keepsUnsupported : Bool) :
    Except (NoResult ComponentFault) (Component × List Event) :=
  match Origin.of? script (tree.get "tokens").items with
  | none => .error (.fault .noMarker)
  | some origin => ofOrigin origin tree file keepsUnsupported

end Component

end ClassComponent
