import ClassComponent.Component.Member
import ClassComponent.Text.Shown

/-!
# Components

The record of what the options of a component hold. It has slots, which are written one at a time:
`Component.put` stores a value in a slot, `Component.append` adds to a slot that holds a list, and
`Update` is either as data, so that a reader of options only has to say what it would write.

Storing something in a slot marks the component as converted, except for the two slots that hold no
member of the class: registered names and options kept as they are. The mark never goes away.
-/

namespace ClassComponent

/-- The options that list parts registered with the component, kept as text. -/
inductive Registry where
  | components
  | directives
  | filters
deriving DecidableEq, Repr, Inhabited

/-- The slots that hold lists. -/
inductive ListSlot where
  | data
  | computed
  | methods
  | props
  | watch
  | lifecycleHooks
  /-- Statements that the data function runs before it returns. -/
  | hoisted
  | stores
  | registeredNames
  | unsupportedOptions
deriving DecidableEq, Repr, Inhabited

/-- What a list slot holds. -/
abbrev ListSlot.Item : ListSlot → Type
  | .data => Field
  | .computed => Method
  | .methods => Member
  | .props => Field
  | .watch => Method
  | .lifecycleHooks => Method
  | .hoisted => Text
  | .stores => StoreBinding
  | .registeredNames => Text
  | .unsupportedOptions => Text

/-- The slots of a component. -/
inductive Slot where
  | name
  | registry (r : Registry)
  | list (s : ListSlot)
deriving DecidableEq, Repr, Inhabited

/-- The values of a slot. -/
abbrev Slot.Value : Slot → Type
  | .name => Text
  | .registry _ => Option Text
  | .list s => List s.Item

namespace Slot

/-- The name of a slot. -/
def label : Slot → String
  | .name => "name"
  | .registry .components => "components"
  | .registry .directives => "directives"
  | .registry .filters => "filters"
  | .list .data => "data"
  | .list .computed => "computed"
  | .list .methods => "methods"
  | .list .props => "props"
  | .list .watch => "watch"
  | .list .lifecycleHooks => "lifecycle_hooks"
  | .list .hoisted => "statement_in_data_scope"
  | .list .stores => "stores"
  | .list .registeredNames => "registered_names"
  | .list .unsupportedOptions => "unsupported_options"

/-- All slots. -/
def all : List Slot :=
  [.name, .list .data, .registry .components, .registry .directives, .registry .filters,
   .list .computed, .list .methods, .list .props, .list .watch, .list .lifecycleHooks,
   .list .hoisted, .list .stores, .list .registeredNames, .list .unsupportedOptions]

/-- The slot with a name. -/
def ofLabel? (label : String) : Option Slot :=
  all.find? (·.label == label)

/-- Whether what the slot holds makes the script a converted one. -/
def isConverting : Slot → Bool
  | .list .registeredNames => false
  | .list .unsupportedOptions => false
  | _ => true

/-- Whether a value of the slot is more than nothing. -/
def isFilled : (s : Slot) → s.Value → Bool
  | .name, value => !value.isEmpty
  | .registry _, value => value.any (!·.isEmpty)
  | .list _, value => !value.isEmpty

end Slot

/-- What the options of a component hold. -/
structure Component where
  name : Text := ""
  data : List Field := []
  components? : Option Text := none
  directives? : Option Text := none
  filters? : Option Text := none
  computed : List Method := []
  methods : List Member := []
  props : List Field := []
  watch : List Method := []
  lifecycleHooks : List Method := []
  hoisted : List Text := []
  stores : List StoreBinding := []
  registeredNames : List Text := []
  unsupportedOptions : List Text := []
  /-- Whether an option was found that a class takes over. -/
  isConverted : Bool := false
  /-- Stands for line breaks inside multi-line values in all texts of the record; empty if none. -/
  marker : Text := ""
deriving DecidableEq, Repr, Inhabited

namespace Component

/-! ## Slots -/

/-- The value of a list slot. -/
def getList (c : Component) : (s : ListSlot) → List s.Item
  | .data => c.data
  | .computed => c.computed
  | .methods => c.methods
  | .props => c.props
  | .watch => c.watch
  | .lifecycleHooks => c.lifecycleHooks
  | .hoisted => c.hoisted
  | .stores => c.stores
  | .registeredNames => c.registeredNames
  | .unsupportedOptions => c.unsupportedOptions

/-- The value of a slot. -/
def get (c : Component) : (s : Slot) → s.Value
  | .name => c.name
  | .registry .components => c.components?
  | .registry .directives => c.directives?
  | .registry .filters => c.filters?
  | .list s => c.getList s

/-- The component with another value in a slot, and nothing else changed. -/
def store (c : Component) : (s : Slot) → s.Value → Component
  | .name, value => { c with name := value }
  | .registry .components, value => { c with components? := value }
  | .registry .directives, value => { c with directives? := value }
  | .registry .filters, value => { c with filters? := value }
  | .list .data, value => { c with data := value }
  | .list .computed, value => { c with computed := value }
  | .list .methods, value => { c with methods := value }
  | .list .props, value => { c with props := value }
  | .list .watch, value => { c with watch := value }
  | .list .lifecycleHooks, value => { c with lifecycleHooks := value }
  | .list .hoisted, value => { c with hoisted := value }
  | .list .stores, value => { c with stores := value }
  | .list .registeredNames, value => { c with registeredNames := value }
  | .list .unsupportedOptions, value => { c with unsupportedOptions := value }

/-- The component marked as converted if `converts` holds. -/
def mark (c : Component) (converts : Bool) : Component :=
  { c with isConverted := c.isConverted || converts }

/-- Stores a value in a slot. -/
def put (c : Component) (s : Slot) (value : s.Value) : Component :=
  (c.store s value).mark (s.isConverting && s.isFilled value)

/-- Adds items to a slot that holds a list. -/
def append (c : Component) (s : ListSlot) (items : List s.Item) : Component :=
  c.put (.list s) (c.getList s ++ items)

/-! ## Writing by name -/

/-- The names of the operations on a component, and of those that every record has. Such a name is
accepted in place of a slot: what is stored under it shows in no slot, but marks the component as converted
like any other value. -/
def operationNames : List String :=
  ["set", "get", "append", "existing_member_names", "update_watch_method_names",
   "__annotations__", "__dataclass_fields__", "__dataclass_params__", "__delattr__", "__dir__", "__doc__",
   "__eq__", "__format__", "__ge__", "__getattribute__", "__getstate__", "__gt__", "__hash__", "__init__",
   "__init_subclass__", "__le__", "__lt__", "__match_args__", "__module__", "__ne__", "__new__",
   "__reduce__", "__reduce_ex__", "__repr__", "__setattr__", "__sizeof__", "__str__", "__subclasshook__"]

/-- The names of what a record is made of, which no value of a request can replace. -/
def layoutNames : List String := ["__class__", "__dict__"]

/-- The names under which a record shows something without storing it. -/
def viewNames : List String := ["__weakref__"]

/-- What a name stands for when something is stored under it. -/
inductive Target where
  | slot (s : Slot)
  | operation
deriving DecidableEq, Repr

/-- Why nothing can be stored under a name. -/
inductive Refusal where
  | unknown
  /-- The name takes values of another sort. -/
  | unsuitable
  | readOnly
deriving DecidableEq, Repr

/-- The wording of a refusal of `name`. -/
def Refusal.message (name : Text) : Refusal → Text
  | .unknown => "ComponentInfo has no field " ++ Text.shown name
  | .unsuitable => name ++ " takes no such value"
  | .readOnly => "attribute " ++ Text.shown name ++ " of 'ComponentInfo' objects is not writable"

/-- What a name stands for, if something can be stored under it. -/
def target (name : String) : Except Refusal Target :=
  match Slot.ofLabel? name with
  | some s => .ok (.slot s)
  | none =>
    if operationNames.contains name then .ok .operation
    else if layoutNames.contains name then .error .unsuitable
    else if viewNames.contains name then .error .readOnly
    else .error .unknown

/-- What a text stands for as a name. Half of a surrogate pair is in no name. -/
def targetOf (name : Text) : Except Refusal Target :=
  match name.toString? with
  | some name => target name
  | none => .error .unknown

/-- A value that is given with a name, before it is known where it goes: what each slot takes it for, and
whether it is more than nothing. -/
structure Given where
  value : (s : Slot) → s.Value
  isFilled : Bool

/-- Stores a value under a name: the component after that, and why nothing was stored, if nothing was. -/
def putNamed (c : Component) (name : Text) (given : Given) : Component × Option Refusal :=
  match targetOf name with
  | .ok (.slot s) => (c.put s (given.value s), none)
  | .ok .operation => (c.mark given.isFilled, none)
  | .error refusal => (c, some refusal)

end Component

/-! ## Updates -/

/-- A change of one slot. -/
inductive Update where
  | put (s : Slot) (value : s.Value)
  | append (s : ListSlot) (items : List s.Item)

namespace Component

/-- The component after a change. -/
def apply (c : Component) : Update → Component
  | .put s value => c.put s value
  | .append s items => c.append s items

/-- The component after several changes. -/
def applyAll (c : Component) (updates : List Update) : Component :=
  updates.foldl apply c

end Component

end ClassComponent
