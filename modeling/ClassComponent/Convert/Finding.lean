import ClassComponent.Component.Basic
import ClassComponent.Convert.Origin
import ClassComponent.Event

/-!
# Findings

What reading an option gives: changes of the component and events. Readers do not see the component;
they say what changes.

An entry of an option gives an item or a report, never both and never neither: readers of entries have
type `Tree → Except Diagnostic α`.
-/

namespace ClassComponent

/-- Where options are read: the script, the name of its file, and whether options that cannot be
converted are kept. -/
structure Situation where
  origin : Origin
  file : Text
  keepsUnsupported : Bool
deriving Inhabited

namespace Situation

/-- The text of a node. -/
def text (s : Situation) (t : Tree) : Text :=
  s.origin.text t

/-- The report about a node. -/
def report (s : Situation) (t : Tree) (message : Text) : Diagnostic :=
  ⟨s.file, s.origin.line? t, s.origin.restore message⟩

end Situation

/-- Changes of the component, and events. -/
structure Finding where
  updates : List Update := []
  events : List Event := []

namespace Finding

instance : Append Finding where
  append a b := ⟨a.updates ++ b.updates, a.events ++ b.events⟩

/-- A report and no change. -/
def warning (d : Diagnostic) : Finding :=
  { events := [.warned d] }

/-- A single change. -/
def change (u : Update) : Finding :=
  { updates := [u] }

/-- Several findings, one after the other. -/
def concat (findings : List Finding) : Finding :=
  ⟨findings.flatMap (·.updates), findings.flatMap (·.events)⟩

end Finding

/-! ## Entries -/

/-- The items among the results of reading entries. -/
def items {α : Type} (results : List (Except Diagnostic α)) : List α :=
  results.filterMap fun
    | .ok item => some item
    | .error _ => none

/-- The reports among the results of reading entries, as events. -/
def reports {α : Type} (results : List (Except Diagnostic α)) : List Event :=
  results.filterMap fun
    | .ok _ => none
    | .error d => some (.warned d)

/-- A finding that replaces the items of a slot by those of the results. -/
def Finding.ofEntries (s : ListSlot) (results : List (Except Diagnostic s.Item)) : Finding :=
  { updates := [.put (.list s) (items results)], events := reports results }

end ClassComponent
