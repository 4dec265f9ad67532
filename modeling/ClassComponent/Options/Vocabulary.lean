import ClassComponent.Text.Basic

/-!
# Words of component options

The names that options and store helpers go by: life-cycle hooks, the helpers that map a store into a
component, and the decorators that take their place in a class.
-/

namespace ClassComponent

/-- The hooks, in the order in which they are called. -/
def lifecycleHooks : List String :=
  ["beforeCreate", "created", "beforeMount", "mounted", "beforeUpdate", "updated", "activated",
   "deactivated", "beforeDestroy", "destroyed", "errorCaptured"]

/-- Whether `name` is a hook. -/
def isLifecycleHook (name : Text) : Bool :=
  name.isAmong lifecycleHooks

/-- The decorators that bind class members to a store; `namespace` makes such decorators for a part
of the store. -/
inductive StoreTool where
  | state
  | mutation
  | getter
  | action
  | scope
deriving DecidableEq, Repr, Inhabited

namespace StoreTool

/-- The name that a tool is imported by. -/
def name : StoreTool → String
  | .state => "State"
  | .mutation => "Mutation"
  | .getter => "Getter"
  | .action => "Action"
  | .scope => "namespace"

/-- The tool with a name. -/
def ofName? (text : String) : Option StoreTool :=
  [.state, .mutation, .getter, .action, .scope].find? (·.name == text)

/-- The helper that makes the helpers of a part of the store. -/
def namespaceHelper : String := "createNamespacedHelpers"

/-- The tool that takes the place of a helper. -/
def ofHelper? (helper : Text) : Option StoreTool :=
  if helper == "mapState" then some .state
  else if helper == "mapGetters" then some .getter
  else if helper == "mapMutations" then some .mutation
  else if helper == "mapActions" then some .action
  else if helper == namespaceHelper then some .scope
  else none

/-- Whether a helper maps store entries into a component. -/
def isMapHelper (helper : Text) : Bool :=
  helper != namespaceHelper && (ofHelper? helper).isSome

end StoreTool

end ClassComponent
