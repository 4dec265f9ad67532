import ClassComponent.Component.Basic
import ClassComponent.Render.Import
import ClassComponent.Text.Lines
import ClassComponent.Text.Name

/-!
# The class

The text of the class: its decorator, then its members in a fixed order: the typing of its markup, store
bindings, data, computed properties, props, watchers, methods, hooks.
-/

namespace ClassComponent

/-- The indentation of members. -/
def memberIndent : Text := "    "

/-- A fragment moved to the indentation of members. -/
def indented (text : Text) : Text :=
  memberIndent ++ Text.reindent text memberIndent

/-- The field that types the markup of the component. -/
def typingField : Text :=
  "public _tsx!: tsx.DeclareProps<tsx.AutoProps<this>> & tsx.DeclareOnEvents<ComEvents>;"

/-- A store binding as a field. -/
def StoreBinding.toField (b : StoreBinding) : Field :=
  let decorator : Text := match b.scope? with
    | some part => if part.isEmpty then "@" ++ b.tool.name else "@" ++ part ++ "." ++ b.tool.name
    | none => "@" ++ b.tool.name
  { name := Text.propertyName b.name, modifiers := ["private"],
    decorators := [decorator ++ "(" ++ b.getter ++ ")"] }

/-- The text of a field. -/
def Field.render (f : Field) : Text :=
  let head := memberIndent ++ Text.intercalate " " (f.modifiers ++ [f.name])
  let value : Text := match f.initializer? with
    | some text => if text.isEmpty then "" else " = " ++ Text.reindent text memberIndent
    | none => ""
  Text.intercalate "\n" (f.decorators.map indented ++ [head ++ value ++ ";"])

/-- The text of a method. -/
def Method.render (m : Method) : Text :=
  let words : List Text := m.modifiers ++ (m.accessor?.map fun a => Text.ofString a.word).toList
  let name : Text := (if m.isGenerator then "*" else "") ++ m.name
  let head := Text.intercalate " " (words ++ [name ++ "(" ++ Text.intercalate ", " m.params ++ ")"])
  Text.intercalate "\n" (m.decorators.map indented ++
    [memberIndent ++ head ++ " " ++ Text.reindent m.body memberIndent])

/-- The text of a member. -/
def Member.render : Member → Text
  | .field f => f.render
  | .method m => m.render

namespace Component

/-- The options that stay in the decorator. -/
def decoratorOptions (c : Component) : List Text :=
  [c.components?, c.filters?, c.directives?].filterMap (fun text? => text?.filter (!·.isEmpty)) ++
    c.unsupportedOptions

/-- The decorator of the class. -/
def renderDecorator (c : Component) : Text :=
  if c.decoratorOptions.isEmpty then "@Component"
  else "@Component(\x7b\n" ++ Text.intercalate ",\n" (c.decoratorOptions.map indented) ++ "\n\x7d)"

/-- The members of the class. -/
def renderMembers (c : Component) : List Text :=
  (memberIndent ++ typingField) ::
    (c.stores.map (·.toField.render) ++ c.data.map Field.render ++ c.computed.map Method.render ++
      c.props.map Field.render ++ c.watch.map Method.render ++ c.methods.map Member.render ++
      c.lifecycleHooks.map Method.render)

/-- The class, named `name`. -/
def renderClass (c : Component) (name : Text) : Text :=
  c.renderDecorator ++ "\nexport default class " ++ name ++ " extends " ++ baseClass ++ " \x7b\n" ++
    Text.intercalate "\n" c.renderMembers ++ "\n\x7d"

end Component

end ClassComponent
