import ClassComponent.Options.Vocabulary
import ClassComponent.Text.Name
import ClassComponent.Tree.Basic

/-!
# Kinds of options

Which option a member of a component object is. Every member has exactly one kind: an option that is
written in a form its kind does not allow, a computed key, a spread or an unknown key make it
`unrecognized`. A node that is no member of an object has no kind.
-/

namespace ClassComponent

/-- The kinds of options. -/
inductive OptionKind where
  | name
  | data
  | components
  | computed
  | methods
  | props
  | watch
  | directives
  | filters
  | lifecycleHook
  | unrecognized
deriving DecidableEq, Repr, Inhabited

/-- The kind as it is reported. -/
def OptionKind.label : OptionKind → String
  | .name => "name"
  | .data => "data"
  | .components => "components"
  | .computed => "computed"
  | .methods => "methods"
  | .props => "props"
  | .watch => "watch"
  | .directives => "directives"
  | .filters => "filters"
  | .lifecycleHook => "lifecycleHook"
  | .unrecognized => "unrecognized"

/-- The options that must be written `key: value`. -/
def OptionKind.ofValueKey? (key : Text) : Option OptionKind :=
  [.name, .components, .computed, .methods, .props, .watch, .directives, .filters].find?
    fun (kind : OptionKind) => kind.label == key

namespace Tree

/-- The key of an object member, if it is written out as a name or a string. -/
def optionKey? (t : Tree) : Option Text :=
  if t.has "computed" then none
  else
    let key := t.get "key"
    match key.kind with
    | "Identifier" => (key.get "name").text?
    | "Literal" => (key.get "value").text?
    | _ => none

/-- Whether a member is neither a getter nor a setter. -/
def isInit (t : Tree) : Bool :=
  match t.get? "kind" with
  | none => true
  | some kind => kind.isWord "init"

/-- Whether a member has the form `key: value`: it is no method, no accessor and no shorthand. -/
def isPlainProperty (t : Tree) : Bool :=
  t.kind == "Property" && !t.has "method" && !t.has "shorthand" && t.isInit

/-- The kind of the option that a node is, if it is a member of an object. -/
def optionKind? (t : Tree) : Option OptionKind :=
  match t.kind with
  | "SpreadElement" => some .unrecognized
  | "Property" =>
    match t.optionKey? with
    | none => some .unrecognized
    | some key =>
      match OptionKind.ofValueKey? key with
      | some kind => some (if t.isPlainProperty then kind else .unrecognized)
      | none =>
        if key == "data" then
          some (if t.has "method" || t.isPlainProperty then .data else .unrecognized)
        else some (if isLifecycleHook key && t.isInit then .lifecycleHook else .unrecognized)
  | _ => none

end Tree

end ClassComponent
