import ClassComponent.Script.Reading

/-!
# Patterns

Binding patterns, and expressions that turn out to be patterns.

* `Tree.toPattern` makes the pattern of an expression that was read before it was known to be one.
* `arrowParameters` makes the parameters of an arrow function from what was read in their place.
* `pattern` and its parts read a pattern where only a pattern can stand.
-/

namespace ClassComponent

/-! ## Expressions as patterns -/

/-- The type of the pattern that a node of type `kind` becomes, and the part that becomes a pattern
with it. -/
def Tree.patternForm? (kind : String) : Option (String × String) :=
  if kind == "SpreadElement" then some ("RestElement", "argument")
  else if kind == "ArrayExpression" then some ("ArrayPattern", "elements")
  else if kind == "ObjectExpression" then some ("ObjectPattern", "properties")
  else if kind == "Property" then some ("Property", "value")
  else if kind == "AssignmentExpression" then some ("AssignmentPattern", "left")
  else none

mutual

/-- The pattern that an expression stands for. -/
def Tree.toPattern : Tree → Tree
  | .node attrs =>
    match Tree.patternForm? (Tree.kind (.node attrs)) with
    | some (kind, part) => .node (Tree.patternAttributes kind part attrs)
    | none => .node attrs
  | .list ts => .list (Tree.toPatterns ts)
  | t => t

def Tree.toPatterns : List Tree → List Tree
  | [] => []
  | t :: ts => Tree.toPattern t :: Tree.toPatterns ts

/-- The attributes of the pattern: a new type, the part as a pattern, and no operator. -/
def Tree.patternAttributes (kind part : String) : List (String × Tree) → List (String × Tree)
  | [] => []
  | (name, t) :: attrs =>
    let rest := Tree.patternAttributes kind part attrs
    if name == "type" then (name, .text kind) :: rest
    else if name == "operator" then rest
    else if name == part then (name, Tree.toPattern t) :: rest
    else (name, t) :: rest

end

/-- The part of a pattern of type `kind` that holds further patterns. -/
def Tree.patternPart? (kind : String) : Option String :=
  if kind == "RestElement" then some "argument"
  else if kind == "AssignmentPattern" then some "left"
  else if kind == "ArrayPattern" then some "elements"
  else if kind == "ObjectPattern" then some "properties"
  else if kind == "Property" then some "value"
  else none

mutual

/-- The names that a pattern binds, in order. -/
def Tree.boundNames : Tree → List Text
  | .node attrs =>
    match Tree.kind (.node attrs) with
    | "Identifier" => (Tree.get (.node attrs) "name").text?.toList
    | kind =>
      match Tree.patternPart? kind with
      | some part => Tree.attributeNames part attrs
      | none => []
  | .list ts => Tree.boundNamesAll ts
  | _ => []

def Tree.boundNamesAll : List Tree → List Text
  | [] => []
  | t :: ts => Tree.boundNames t ++ Tree.boundNamesAll ts

def Tree.attributeNames (part : String) : List (String × Tree) → List Text
  | [] => []
  | (name, t) :: attrs =>
    if name == part then Tree.boundNames t else Tree.attributeNames part attrs

end

namespace Script

/-! ## Parameters of arrow functions -/

/-- What stands for the parameters of an arrow function until its arrow is reached. -/
def parameterHolder (parameters : List Tree) (isAsync : Bool) : Tree :=
  .node [("type", .text "ArrowParameterPlaceHolder"), ("params", .list parameters),
    ("isAsync", .flag isAsync)]

/-- Whether a node stands for parameters. -/
def isParameterHolder (t : Tree) : Bool :=
  t.kind == "ArrowParameterPlaceHolder"

/-- Whether the last objection to `names` is that one occurs twice; `eval` and `arguments` are
objected to as well, but tolerated. -/
def repeats (names : List Text) : Bool :=
  let step (state : List Text × Bool) (name : Text) : List Text × Bool :=
    let (seen, repeated) := state
    (name :: seen,
      if seen.contains name then true
      else if name == "eval" || name == "arguments" then false
      else repeated)
  (names.foldl step ([], false)).2

/-- A parameter of an arrow function. A default of a bare `yield` is the name `yield`. -/
def arrowParameter (isAsync : Bool) (parameter : Tree) : Reading Tree := do
  if parameter.kind == "AssignmentPattern" then
    let value := parameter.get "right"
    if value.kind == "YieldExpression" then
      if value.has "argument" then refuseAhead
      let name := .node [("type", .text "Identifier"), ("name", .text "yield"),
        ("range", value.get "range")]
      return parameter.set "right" name
    return parameter
  if isAsync && parameter.kind == "Identifier" && (parameter.get "name").isWord "await" then
    refuseAhead
  if parameter.kind == "YieldExpression" then refuseAhead
  return parameter

/-- The parameters of an arrow function, if the expression before the arrow can be such. -/
def arrowParameters (expression : Tree) : Reading (Option (List Tree)) := do
  let given? :=
    if expression.kind == "Identifier" then some [expression]
    else if isParameterHolder expression then some (expression.get "params").items
    else none
  match given? with
  | none => return none
  | some given =>
    let parameters ← given.mapM (arrowParameter (expression.has "isAsync"))
    if repeats (parameters.flatMap Tree.boundNames) then stopFor .repeatedParameter
    return some parameters

/-! ## Names -/

/-- A name that may be bound. -/
def bindingName : Reading Tree := do
  let start ← here
  let token ← advance
  if token.kind == .identifier || (token.kind == .keyword && token.value.isAmong moduleKeywords) then
    finishName start token.value
  else refuse token

/-- A name, reserved or not. -/
def anyName : Reading Tree := do
  let start ← here
  let token ← advance
  if token.isName then finishName start token.value else refuse token

/-- The key of a property. -/
def propertyKey (rule : Rule) : Reading Tree := do
  let start ← here
  let token ← advance
  if token.isName then finishName start token.value
  else if token.kind == .string then finishLiteral start token (.text token.value)
  else if token.isPunctuator "[" then
    let key ← isolate (rule .assignment)
    expect "]"
    return key
  else match token.number? with
    | some value =>
      if token.isLegacyOctal then tolerate token
      finishLiteral start token value
    | none => refuse token

/-- A property of an object or of an object pattern. -/
def finishProperty (start : Nat) (kind : String) (key : Tree) (computed : Bool) (value : Tree)
    (method shorthand : Bool) : Reading Tree :=
  finish start "Property" [("key", key), ("computed", .flag computed), ("value", value),
    ("kind", .text kind), ("method", .flag method), ("shorthand", .flag shorthand)]

/-! ## Patterns -/

/-- A pattern with an optional default. -/
def patternWithDefault (rule : Rule) : Reading Tree := do
  let start ← here
  let target ← rule .pattern
  unless ← sees "=" do return target
  discard advance
  let value ← allowingYield true (isolate (rule .assignment))
  finish start "AssignmentPattern" [("left", target), ("right", value)]

/-- A rest element that ends a list of parameters. -/
def restParameter (rule : Rule) : Reading Tree := do
  let start ← here
  expect "..."
  let target ← rule .pattern
  if (← sees "=") || !(← sees ")") then stopFor .misplacedRest
  finish start "RestElement" [("argument", target)]

/-- An array pattern. -/
def arrayPattern (rule : Rule) : Reading Tree := do
  let start ← here
  expect "["
  let elements ← loop (#[] : Array Tree) fun elements => do
    if ← sees "]" then return (elements, false)
    if ← sees "," then
      discard advance
      return (elements.push .null, true)
    if ← sees "..." then
      let restStart ← here
      expect "..."
      let target ← rule .pattern
      return (elements.push (← finish restStart "RestElement" [("argument", target)]), false)
    let element ← patternWithDefault rule
    unless ← sees "]" do expect ","
    return (elements.push element, true)
  expect "]"
  finish start "ArrayPattern" [("elements", .list elements.toList)]

/-- A property of an object pattern. -/
def propertyPattern (rule : Rule) : Reading Tree := do
  let start ← here
  if ← seesKind .identifier then
    let name := (← get).ahead.value
    let key ← bindingName
    let target ← finishName start name
    if ← sees "=" then
      discard advance
      let value ← rule .assignment
      let target ← finish start "AssignmentPattern" [("left", target), ("right", value)]
      finishProperty start "init" key false target false true
    else if ← sees ":" then
      expect ":"
      finishProperty start "init" key false (← patternWithDefault rule) false false
    else finishProperty start "init" key false target false true
  else
    let computed ← sees "["
    let key ← propertyKey rule
    expect ":"
    finishProperty start "init" key computed (← patternWithDefault rule) false false

/-- The rest of an object pattern, which ends it. -/
def restProperty (rule : Rule) : Reading Tree := do
  let start ← here
  expect "..."
  let target ← rule .pattern
  if (← sees "=") || !(← sees "\x7d") then stopFor .misplacedRest
  finish start "RestElement" [("argument", target)]

/-- An object pattern. -/
def objectPattern (rule : Rule) : Reading Tree := do
  let start ← here
  expect "\x7b"
  let properties ← upTo "\x7d" do
    let property ← if ← sees "..." then restProperty rule else propertyPattern rule
    unless ← sees "\x7d" do expect ","
    return property
  finish start "ObjectPattern" [("properties", .list properties)]

/-- A pattern: of an array, of an object, or a name. -/
def bindingPattern (rule : Rule) : Reading Tree := do
  if ← sees "[" then arrayPattern rule
  else if ← sees "\x7b" then objectPattern rule
  else bindingName

end Script

end ClassComponent
