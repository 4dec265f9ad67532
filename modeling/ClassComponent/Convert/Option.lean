import ClassComponent.Convert.Store

/-!
# Readers of options

What each option of a component object gives. An option whose value has the wrong form is reported as a
whole; inside an option, every entry is read on its own.
-/

namespace ClassComponent

namespace Situation

/-! ## Names, registrations, hooks -/

/-- `name: …` names the class. -/
def readName (s : Situation) (option : Tree) : Finding :=
  .change (.put .name (s.origin.nameText (option.get "value")))

/-- The names that a registration lists. -/
def registeredNames (s : Situation) (value : Tree) : List Text :=
  ((value.get "properties").items.filter (·.kind == "Property")).map s.origin.memberName

/-- `components: {…}` and the like are kept as they are; the names in them count as members. -/
def readRegistration (s : Situation) (registry : Registry) (option : Tree) : Finding :=
  let kept := Finding.change (.put (.registry registry) (some (Text.reindent (s.text option) "")))
  let value := option.get "value"
  if value.kind == "ObjectExpression" then
    kept ++ .change (.append .registeredNames (s.registeredNames value))
  else kept

/-- An option that cannot be converted is reported, and kept as it is or dropped. -/
def readUnsupported (s : Situation) (option : Tree) : Finding :=
  let text := s.text option
  let noted : Finding := { events := [.optionKept (s.origin.line? option)] }
  if s.keepsUnsupported then
    .warning (s.report option ("unsupported option api, kept in @Component options: " ++ text)) ++
      .change (.append .unsupportedOptions [Text.reindent text ""]) ++ noted
  else .warning (s.report option ("unsupported option api, dropped: " ++ text)) ++ noted

/-- A hook becomes a protected method; one that is no function is kept as it is. -/
def readHook (s : Situation) (option : Tree) : Finding :=
  match FunctionForm.ofMember? s.origin option with
  | some f => .change (.append .lifecycleHooks [f.toMethod s.origin ["protected"] [] none])
  | none => s.readUnsupported option

/-! ## Data -/

/-- The initializer of a member that becomes a field. -/
def initializer (s : Situation) (name : Text) (member : Tree) : Text :=
  if member.has "shorthand" then name else s.text (member.get "value")

/-- A member that becomes a private field. -/
def privateField (s : Situation) (member : Tree) : Field :=
  let name := Text.propertyName (s.origin.memberName member)
  { name, modifiers := ["private"], initializer? := some (s.initializer name member) }

/-- The field of a member of the data object. -/
def dataField (s : Situation) (member : Tree) : Except Diagnostic Field :=
  if member.kind != "Property" || member.has "method" || !member.isInit then
    .error (s.report member ("unsupported data member: " ++ s.text member))
  else .ok (s.privateField member)

/-- What the body of a data function holds: the texts of the statements besides its returns, and what
its first return gives. -/
def dataParts (s : Situation) (body : Tree) : List Text × Tree :=
  if body.kind == "BlockStatement" then
    let statements := (body.get "body").items
    let isReturn (t : Tree) : Bool := t.kind == "ReturnStatement"
    let returned := (statements.find? isReturn).getD .null
    ((statements.filter (!isReturn ·)).map s.text, returned.get "argument")
  else ([], body)

/-- `data` must be a function that returns an object literal. Its other statements are hoisted, also if
it turns out to return something else. `hoistedBefore` is the number of statements hoisted before. -/
def readData (s : Situation) (hoistedBefore : Nat) (option : Tree) : Finding :=
  match FunctionForm.ofMember? s.origin option with
  | none => .warning (s.report option "unsupported data declaration, data must be a function")
  | some f =>
    if !f.body.isFilled then
      .warning (s.report option "unsupported data declaration, data must be a function")
    else
      let (hoisted, returned) := s.dataParts f.body
      let lifted : Finding :=
        { updates := if hoisted.isEmpty then [] else [.put (.list .hoisted) hoisted] }
      if returned.kind == "ObjectExpression" then
        let results := (returned.get "properties").items.map s.dataField
        let count := if hoisted.isEmpty then hoistedBefore else hoisted.length
        lifted ++ .ofEntries .data results ++
          { events := [.dataRead (items results).length count] }
      else
        lifted ++ .warning
          (s.report option "unsupported data declaration, data must return an object literal")

/-! ## Computed properties -/

/-- An accessor named `name` that a function becomes. -/
def accessorMethod (s : Situation) (f : FunctionForm) (name : Text) (accessor : Accessor) : Finding :=
  let method := { f with name := Text.propertyName name }.toMethod s.origin ["private"] [] (some accessor)
  .change (.append .computed [method])

/-- The report about a function that cannot be an accessor. -/
def refusedAccessor (s : Situation) (member : Tree) : Finding :=
  .warning (s.report member
    ("unsupported computed property, async or generator: " ++ s.text member))

/-- A member of the object that holds the two accessors of `name`. Only `get` and `set` count. -/
def readAccessorPart (s : Situation) (name : Text) (member : Tree) : Finding :=
  if member.kind == "SpreadElement" then s.storeSpread member
  else match FunctionForm.ofMember? s.origin member with
    | none => {}
    | some f =>
      if f.isAsync || f.isGenerator then s.refusedAccessor member
      else match Accessor.ofWord? f.name with
        | some accessor => s.accessorMethod f name accessor
        | none => {}

/-- An entry of `computed`: a helper, an object with accessors, or a function. -/
def readComputedEntry (s : Situation) (member : Tree) : Finding :=
  let value := member.get "value"
  if member.kind == "SpreadElement" then s.storeSpread member
  else if value.kind == "ObjectExpression" then
    .concat ((value.get "properties").items.map
      (s.readAccessorPart (s.origin.memberName member)))
  else match FunctionForm.ofMember? s.origin member with
    | none => .warning (s.report member ("unsupported computed property: " ++ s.text member))
    | some f =>
      if f.isAsync || f.isGenerator then s.refusedAccessor member
      else s.accessorMethod f f.name .get

/-- `computed` must be an object. -/
def readComputed (s : Situation) (option : Tree) : Finding :=
  let value := option.get "value"
  if value.kind == "ObjectExpression" then
    .concat ((value.get "properties").items.map s.readComputedEntry)
  else .warning (s.report option ("unsupported computed declaration: " ++ s.text option))

/-! ## Methods -/

/-- A member of `methods`: a function becomes a private method, any other value a private field. -/
def methodMember (s : Situation) (member : Tree) : Except Diagnostic Member :=
  match FunctionForm.ofMember? s.origin member with
  | some f =>
    .ok (.method ({ f with name := Text.propertyName f.name }.toMethod s.origin ["private"] [] none))
  | none =>
    if member.kind == "Property" && member.isInit then .ok (.field (s.privateField member))
    else .error (s.report member ("unsupported method: " ++ s.text member))

/-- What an entry of `methods` gives besides a method: the bindings of a helper, or a report. -/
def methodFinding (s : Situation) (member : Tree) : Finding :=
  if member.kind == "SpreadElement" then s.storeSpread member
  else { events := reports [s.methodMember member] }

/-- The methods among the entries of `methods`. -/
def methodMembers (s : Situation) (members : List Tree) : List Member :=
  items ((members.filter (·.kind != "SpreadElement")).map s.methodMember)

/-- `methods` must be an object. -/
def readMethods (s : Situation) (option : Tree) : Finding :=
  let value := option.get "value"
  if value.kind == "ObjectExpression" then
    let entries := (value.get "properties").items
    let methods := s.methodMembers entries
    .concat (entries.map s.methodFinding) ++
      { updates := if methods.isEmpty then [] else [.append .methods methods] }
  else .warning (s.report option ("unsupported methods declaration: " ++ s.text option))

/-! ## Props -/

/-- A prop with the argument of its decorator. -/
def propField (name argument : Text) : Field :=
  { name := Text.propertyName name, modifiers := ["public"],
    decorators := ["@Prop(" ++ argument ++ ")"] }

/-- The argument for a prop that is given by its type alone, or not even that. -/
def propArgument (type : Text) : Text :=
  let entries : List Text := "required: false" :: if type.isEmpty then [] else ["type: " ++ type]
  "\x7b " ++ Text.intercalate ", " entries ++ " \x7d"

/-- The prop of an element of an array, which must be a string. -/
def propElement (s : Situation) (list element : Tree) : Except Diagnostic Field :=
  match element.kind, element.get "value" with
  | "Literal", .text name => .ok (propField name (propArgument ""))
  | _, _ =>
    .error (s.report (if element.isFilled then element else list)
      ("unsupported prop: " ++ s.text element))

/-- The prop of an entry of an object: its configuration, or its type. -/
def propEntry (s : Situation) (entry : Tree) : Except Diagnostic Field :=
  if entry.kind != "Property" || entry.has "method" || entry.has "shorthand" then
    .error (s.report entry ("unsupported prop: " ++ s.text entry))
  else
    let config := entry.get "value"
    let argument :=
      if config.kind == "ObjectExpression" then Text.reindent (s.text config) ""
      else propArgument (s.text config)
    .ok (propField (s.origin.memberName entry) argument)

/-- `props` must be an array or an object. -/
def readProps (s : Situation) (option : Tree) : Finding :=
  let value := option.get "value"
  if value.kind == "ArrayExpression" then
    .ofEntries .props ((value.get "elements").items.map (s.propElement value))
  else if value.kind == "ObjectExpression" then
    .ofEntries .props ((value.get "properties").items.map s.propEntry)
  else .warning (s.report option "unsupported props declaration")

/-! ## Watchers -/

/-- A watcher of `path`, with the settings beside its handler. -/
def watcher (s : Situation) (f : FunctionForm) (path : Text) (settings : List Tree) : Method :=
  let given : List Text := if settings.isEmpty then []
    else ["\x7b " ++ Text.intercalate ", " (settings.map s.text) ++ " \x7d"]
  let decorator := "@Watch(" ++ Text.intercalate ", " (Text.quote path :: given) ++ ")"
  { f with name := Text.watcherName path }.toMethod s.origin ["private"] [decorator] none

/-- Whether a member of a watcher's object is its handler. -/
def isHandler (s : Situation) (member : Tree) : Bool :=
  member.kind == "Property" && s.origin.nameText (member.get "key") == "handler"

/-- The handler of a watcher's object, which is the first member of that name, and the others. -/
def splitHandler (s : Situation) (members : List Tree) : Tree × List Tree :=
  match members.find? s.isHandler with
  | some handler =>
    (handler, members.takeWhile (!s.isHandler ·) ++ (members.dropWhile (!s.isHandler ·)).tail)
  | none => (.null, members)

/-- The watcher of an entry: a function, or an object with a handler. -/
def watchEntry (s : Situation) (entry : Tree) : Except Diagnostic Method :=
  let config := entry.get "value"
  let path := s.origin.memberName entry
  if entry.kind != "Property" then
    .error (s.report entry ("unsupported watcher: " ++ s.text entry))
  else if !entry.has "method" && config.kind == "ObjectExpression" then
    let (handler, settings) := s.splitHandler (config.get "properties").items
    match FunctionForm.ofMember? s.origin handler with
    | some f => .ok (s.watcher f path settings)
    | none => .error (s.report entry ("watcher dropped, no handler function found: " ++ path))
  else match FunctionForm.ofMember? s.origin entry with
    | some f => .ok (s.watcher f path [])
    | none => .error (s.report entry ("watcher dropped, unsupported handler: " ++ s.text entry))

/-- `watch` must be an object. -/
def readWatch (s : Situation) (option : Tree) : Finding :=
  let value := option.get "value"
  if value.kind == "ObjectExpression" then
    .ofEntries .watch ((value.get "properties").items.map s.watchEntry)
  else
    .warning (s.report option "unsupported watch declaration, only the object form is converted")

/-! ## Any option -/

/-- What an option of kind `kind` gives. `hoistedBefore` is the number of statements hoisted before. -/
def readOption (s : Situation) (hoistedBefore : Nat) (kind : OptionKind) (option : Tree) : Finding :=
  match kind with
  | .name => s.readName option
  | .data => s.readData hoistedBefore option
  | .components => s.readRegistration .components option
  | .directives => s.readRegistration .directives option
  | .filters => s.readRegistration .filters option
  | .computed => s.readComputed option
  | .methods => s.readMethods option
  | .props => s.readProps option
  | .watch => s.readWatch option
  | .lifecycleHook => s.readHook option
  | .unrecognized => s.readUnsupported option

end Situation

end ClassComponent
