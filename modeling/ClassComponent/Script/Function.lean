import ClassComponent.Script.Pattern

/-!
# Functions and classes

Parameters, bodies, function expressions and declarations, the functions that methods hold, and
classes.
-/

namespace ClassComponent.Script

/-- Expressions separated by commas; a single one stands for itself. -/
def expression (rule : Rule) : Reading Tree := do
  let start ← here
  let first ← isolate (rule .assignment)
  unless ← sees "," do return first
  let expressions ← loop #[first] fun expressions => do
    unless ← sees "," do return (expressions, false)
    discard advance
    return (expressions.push (← isolate (rule .assignment)), true)
  finish start "SequenceExpression" [("expressions", .list expressions.toList)]

/-! ## Parameters and bodies -/

/-- The parameters of a function, in parentheses. -/
def parameters (rule : Rule) : Reading (List Tree) := do
  expect "("
  let items ← collectUntil (return (← sees ")") || (← seesEnd)) do
    let item ← if ← sees "..." then restParameter rule else patternWithDefault rule
    unless ← sees ")" do expect ","
    return item
  expect ")"
  return items

/-- The statements of strings that a body may begin with; an empty string is the last of them. -/
def directives (rule : Rule) : Reading (Array Tree) :=
  loop #[] fun statements => do
    let token := (← get).ahead
    unless token.kind == .string do return (statements, false)
    let start ← here
    let value ← expression rule
    let content := excerpt (← read).text ⟨token.span.start + 1, token.span.stop - 1⟩
    let isDirective := value.kind == "Literal" && content != ""
    endStatement
    let mark := if isDirective then [("directive", Tree.text content)] else []
    let statement ← finish start "ExpressionStatement" (("expression", value) :: mark)
    return (statements.push statement, isDirective)

/-- The body of a function, in braces. -/
def functionBody (rule : Rule) : Reading Tree := do
  let start ← here
  expect "\x7b"
  let leading ← directives rule
  let statements ← insideFunction do
    let statements ← collectUntil (return (← sees "\x7d") || (← seesEnd)) (rule .item)
    expect "\x7d"
    return statements
  finish start "BlockStatement" [("body", .list (leading.toList ++ statements))]

/-- A function of some form. -/
def finishFunction (start : Nat) (kind : String) (name : Tree) (parameters : List Tree) (body : Tree)
    (isGenerator isAsync : Bool) : Reading Tree :=
  finish start kind [("id", name), ("params", .list parameters), ("body", body),
    ("generator", .flag isGenerator), ("expression", .flag false), ("isAsync", .flag isAsync)]

/-! ## Functions -/

/-- Passes `async` if it is ahead. -/
def passAsync : Reading Bool := do
  let isAsync ← seesWord "async"
  if isAsync then discard advance
  return isAsync

/-- Passes a star, which an async function does not take, if it is ahead. -/
def passStar (isAsync : Bool) : Reading Bool := do
  if isAsync then return false
  let isGenerator ← sees "*"
  if isGenerator then discard advance
  return isGenerator

/-- A function declaration; `unnamed` lets the name be left out. -/
def functionDeclaration (rule : Rule) (unnamed : Bool) : Reading Tree := do
  let start ← here
  let isAsync ← passAsync
  expectKeyword "function"
  let isGenerator ← passStar isAsync
  let name ← if unnamed && (← sees "(") then pure Tree.null else bindingName
  allowingAwait isAsync <| allowingYield (!isGenerator) do
    let given ← parameters rule
    let body ← rule .functionBody
    finishFunction start "FunctionDeclaration" name given body isGenerator isAsync

/-- A function expression. -/
def functionExpression (rule : Rule) : Reading Tree := do
  let start ← here
  let isAsync ← passAsync
  expectKeyword "function"
  let isGenerator ← passStar isAsync
  allowingAwait isAsync <| allowingYield (!isGenerator) do
    let name ← if ← sees "(" then pure Tree.null else bindingName
    let given ← parameters rule
    let body ← rule .functionBody
    finishFunction start "FunctionExpression" name given body isGenerator isAsync

/-! ## Methods -/

/-- The forms of methods. -/
inductive MethodForm where
  | plain
  | generator
  | async
deriving DecidableEq, Repr

/-- The function of a method, from its parameters on. -/
def methodFunction (rule : Rule) (form : MethodForm) : Reading Tree := do
  let start ← here
  let whole : Reading Tree := do
    let given ← parameters rule
    setBinding false
    let body := isolate (rule .functionBody)
    let body ← if form == .generator then allowingYield false body else body
    finishFunction start "FunctionExpression" .null given body (form == .generator) (form == .async)
  if form == .async then allowingYield false (allowingAwait true whole) else allowingYield true whole

/-- A getter or setter from its key on. Reading a getter leaves `yield` a name no longer. -/
def accessor (rule : Rule) (kind : String) : Reading (Bool × Tree × Tree) := do
  let computed ← sees "["
  let key ← propertyKey rule
  if kind == "get" then
    modify fun s => { s with context := { s.context with allowYield := false } }
  let value ← methodFunction rule .plain
  return (computed, key, value)

/-- A generator method from its key on. -/
def generatorMethod (rule : Rule) : Reading (Bool × Tree × Tree) := do
  let computed ← sees "["
  let key ← propertyKey rule
  let value ← methodFunction rule .generator
  return (computed, key, value)

/-- The accessor that the token `token` announces, if a key is ahead. -/
def accessorKind? (token : Token) : Reading (Option String) := do
  unless (← get).ahead.startsKey do return none
  if token.isContextual "get" then return some "get"
  if token.isContextual "set" then return some "set"
  return none

/-! ## Classes -/

/-- Whether `key` is the name or the string `name`. -/
def isKeyNamed (key : Tree) (name : String) : Bool :=
  (key.kind == "Identifier" && (key.get "name").isWord name) ||
    (key.kind == "Literal" && (key.get "value").isWord name)

/-- What stands before the parameters of a class member. -/
structure MemberHead where
  /-- The token that decides what the member is. -/
  token : Token
  key? : Option Tree
  computed : Bool
  isStatic : Bool
  isAsync : Bool

/-- The words and the key that a class member starts with. -/
def memberHead (rule : Rule) : Reading MemberHead := do
  let token := (← get).ahead
  if ← sees "*" then
    discard advance
    return ⟨token, none, false, false, false⟩
  let computed ← sees "["
  let key ← propertyKey rule
  let follows := (← get).ahead
  let isStatic := (key.get "name").isWord "static" && (follows.startsKey || follows.isPunctuator "*")
  let (token, computed, key) ←
    if isStatic then do
      let computed ← sees "["
      if ← sees "*" then
        discard advance
        pure (follows, computed, key)
      else pure (follows, computed, ← propertyKey rule)
    else pure (token, computed, key)
  let s ← get
  let isAsync := token.isContextual "async" && !s.newline && !s.ahead.value.isAmong [":", "(", "*"]
  if isAsync then
    let token := s.ahead
    return ⟨token, some (← propertyKey rule), computed, isStatic, true⟩
  return ⟨token, some key, computed, isStatic, false⟩

/-- What the member of a class turned out to be. -/
structure MemberBody where
  kind : String
  computed : Bool
  key : Tree
  value : Tree

/-- The rest of a class member after its head. -/
def memberBody (rule : Rule) (head : MemberHead) : Reading MemberBody := do
  match ← accessorKind? head.token with
  | some kind =>
    let (computed, key, value) ← accessor rule kind
    return ⟨kind, computed, key, value⟩
  | none =>
    if head.token.isPunctuator "*" && (← get).ahead.startsKey then
      let (computed, key, value) ← generatorMethod rule
      return ⟨"method", computed, key, value⟩
    match head.key? with
    | none => refuseAhead
    | some key =>
      unless ← sees "(" do refuseAhead
      let value ← methodFunction rule (if head.isAsync then .async else .plain)
      return ⟨"method", head.computed, key, value⟩

/-- A member of a class, and whether a constructor was met by then. -/
def classMember (rule : Rule) (hasConstructor : Bool) : Reading (Tree × Bool) := do
  let start ← here
  let head ← memberHead rule
  let body ← memberBody rule head
  let named (name : String) : Bool := !body.computed && isKeyNamed body.key name
  if head.isStatic && named "prototype" then stopFor .refusedMember
  let isConstructor := !head.isStatic && named "constructor"
  if isConstructor && (body.kind != "method" || body.value.has "generator" || hasConstructor) then
    stopFor .refusedMember
  let node ← finish start "MethodDefinition" [("key", body.key), ("computed", .flag body.computed),
    ("value", body.value), ("kind", .text (if isConstructor then "constructor" else body.kind)),
    ("static", .flag head.isStatic)]
  return (node, hasConstructor || isConstructor)

/-- The members of a class, in braces. -/
def classBody (rule : Rule) : Reading Tree := do
  let start ← here
  expect "\x7b"
  let (members, _) ← loop (#[], false) fun (members, hasConstructor) => do
    if ← sees "\x7d" then return ((members, hasConstructor), false)
    if ← sees ";" then
      discard advance
      return ((members, hasConstructor), true)
    let (member, hasConstructor) ← classMember rule hasConstructor
    return ((members.push member, hasConstructor), true)
  expect "\x7d"
  finish start "ClassBody" [("body", .list members.toList)]

/-- The rest of a class after its name. -/
def classRest (rule : Rule) (start : Nat) (kind : String) (name : Tree) : Reading Tree := do
  let parent ←
    if ← seesKeyword "extends" then do
      discard advance
      isolate (rule .call)
    else pure Tree.null
  let body ← classBody rule
  finish start kind [("id", name), ("superClass", parent), ("body", body)]

/-- A class declaration; `unnamed` lets the name be left out. -/
def classDeclaration (rule : Rule) (unnamed : Bool) : Reading Tree := do
  let start ← here
  expectKeyword "class"
  let name ← if unnamed && !(← seesKind .identifier) then pure Tree.null else bindingName
  classRest rule start "ClassDeclaration" name

/-- A class expression. -/
def classExpression (rule : Rule) : Reading Tree := do
  let start ← here
  expectKeyword "class"
  let name ← if ← seesKind .identifier then bindingName else pure Tree.null
  classRest rule start "ClassExpression" name

end ClassComponent.Script
