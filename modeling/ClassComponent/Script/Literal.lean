import ClassComponent.Script.Function

/-!
# Templates, arrays and objects

The literals that hold expressions. Between the properties of an object a comma may be missing, or a
semicolon may stand in its place; between the elements of an array it may not.
-/

namespace ClassComponent.Script

/-! ## Templates -/

/-- A piece of a template, and whether the template ends with it. -/
def templatePiece : Reading (Tree × Bool) := do
  let start ← here
  let token ← advance
  match token.kind with
  | .template _ closes =>
    let piece ← finish start "TemplateElement"
      [("value", .node [("raw", .text token.value)]), ("tail", .flag closes)]
    return (piece, closes)
  | _ => refuse token

/-- A template literal. -/
def template (rule : Rule) : Reading Tree := do
  let start ← here
  unless (← get).ahead.opensTemplate do refuseAhead
  let (first, closed) ← templatePiece
  let (pieces, expressions, _) ← loop (#[first], (#[] : Array Tree), closed)
    fun (pieces, expressions, closed) => do
      if closed then return ((pieces, expressions, closed), false)
      let value ← expression rule
      let (piece, closed) ← templatePiece
      return ((pieces.push piece, expressions.push value, closed), true)
  finish start "TemplateLiteral"
    [("quasis", .list pieces.toList), ("expressions", .list expressions.toList)]

/-! ## Arrays -/

/-- An expression that is spread into a list. -/
def spread (rule : Rule) : Reading Tree := do
  let start ← here
  expect "..."
  let value ← inherit (rule .assignment)
  finish start "SpreadElement" [("argument", value)]

/-- An array literal. -/
def arrayLiteral (rule : Rule) : Reading Tree := do
  let start ← here
  expect "["
  let elements ← upTo "]" do
    if ← sees "," then
      discard advance
      return .null
    if ← sees "..." then
      let element ← spread rule
      unless ← sees "]" do
        setBinding false
        expect ","
      return element
    let element ← inherit (rule .assignment)
    unless ← sees "]" do expect ","
    return element
  finish start "ArrayExpression" [("elements", .list elements)]

/-! ## Objects -/

/-- What a property of an object starts with. -/
structure PropertyHead where
  key? : Option Tree
  computed : Bool
  isAsync : Bool

/-- The words and the key that a property starts with. -/
def propertyHead (rule : Rule) (start : Nat) (token : Token) : Reading PropertyHead := do
  if token.kind == .identifier then
    discard advance
    let computed ← sees "["
    let isAsync := token.value == "async" && !(← get).newline && !(← seesAny [":", "(", "*", ","])
    let key ← if isAsync then propertyKey rule else finishName start token.value
    return ⟨some key, computed, isAsync⟩
  if ← sees "*" then
    discard advance
    return ⟨none, false, false⟩
  let computed ← sees "["
  return ⟨some (← propertyKey rule), computed, false⟩

/-- The rest of a property that is no accessor and no generator. -/
def plainProperty (rule : Rule) (start : Nat) (token : Token) (head : PropertyHead) (key : Tree) :
    Reading Tree := do
  if !head.isAsync && (← sees ":") then
    discard advance
    let value ← inherit (rule .assignment)
    finishProperty start "init" key head.computed value false false
  else if ← sees "(" then
    let value ← methodFunction rule (if head.isAsync then .async else .plain)
    finishProperty start "init" key head.computed value true false
  else if token.kind == .identifier then
    let name ← finishName start token.value
    if ← sees "=" then
      setInitializer (some (← get).ahead)
      discard advance
      let value ← isolate (rule .assignment)
      let target ← finish start "AssignmentPattern" [("left", name), ("right", value)]
      finishProperty start "init" key head.computed target false true
    else finishProperty start "init" key head.computed name false true
  else refuseAhead

/-- A property of an object. -/
def property (rule : Rule) : Reading Tree := do
  let start ← here
  let token := (← get).ahead
  let head ← propertyHead rule start token
  let accessor? ← if head.isAsync then pure none else accessorKind? token
  match accessor? with
  | some kind =>
    let (computed, key, value) ← accessor rule kind
    finishProperty start kind key computed value false false
  | none =>
    if token.isPunctuator "*" && (← get).ahead.startsKey then
      let (computed, key, value) ← generatorMethod rule
      finishProperty start "init" key computed value true false
    else match head.key? with
      | some key => plainProperty rule start token head key
      | none => refuseAhead

/-- An object literal. -/
def objectLiteral (rule : Rule) : Reading Tree := do
  let start ← here
  expect "\x7b"
  let properties ← upTo "\x7d" do
    let item ← if ← sees "..." then spread rule else property rule
    unless ← sees "\x7d" do passSeparator
    return item
  finish start "ObjectExpression" [("properties", .list properties)]

end ClassComponent.Script
