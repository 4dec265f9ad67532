import ClassComponent.Script.Literal
import ClassComponent.Script.Markup

/-!
# Expressions

The productions from single operands up to assignments. An arrow function is recognized by its arrow,
after its parameters were read as an expression.
-/

namespace ClassComponent.Script

/-! ## Operands -/

/-- What a parenthesis holds: an expression, or the parameters of an arrow function. -/
def group (rule : Rule) : Reading Tree := do
  expect "("
  if ← sees ")" then
    discard advance
    unless ← sees "=>" do refuseAhead
    return parameterHolder [] false
  let start ← here
  if ← sees "..." then
    let parameter ← restParameter rule
    expect ")"
    unless ← sees "=>" do refuseAhead
    return parameterHolder [parameter] false
  setBinding true
  let first ← inherit (rule .assignment)
  -- The expressions so far, and whether they turned out to be parameters.
  let (expressions, isHolder) ← loop (#[first], false) fun (expressions, _) => do
    unless ← sees "," do return ((expressions, false), false)
    discard advance
    if ← sees ")" then
      discard advance
      return ((expressions, true), false)
    if ← sees "..." then
      unless (← get).cover.binding do refuseAhead
      let parameter ← restParameter rule
      expect ")"
      unless ← sees "=>" do refuseAhead
      setBinding false
      return ((expressions.push parameter, true), false)
    return ((expressions.push (← inherit (rule .assignment)), false), true)
  if isHolder then return parameterHolder (Tree.toPatterns expressions.toList) false
  let inner ←
    if expressions.size == 1 then pure first
    else finish start "SequenceExpression" [("expressions", .list expressions.toList)]
  expect ")"
  let result ←
    if ← sees "=>" then do
      let isYield := inner.kind == "Identifier" && (inner.get "name").isWord "yield"
      unless isYield || (← get).cover.binding do refuseAhead
      pure (parameterHolder (Tree.toPatterns expressions.toList) false)
    else pure inner
  setBinding false
  return result

/-- A regular expression, whose slash was read as a punctuator. -/
def regex : Reading Tree := do
  setBinding false
  let start ← here
  let s ← get
  let (token, next) ← regexLexeme (← read).text { s.cursor with pos := s.start }
  set { s with
    cursor := next
    ahead := token
    tokens := s.tokens.pop.push (token.kind, token.span) }
  discard advance
  finishLiteral start token .null

/-- A literal of one token. -/
def literal (value : Tree) : Reading Tree := do
  setBinding false
  let start ← here
  let token ← advance
  finishLiteral start token value

/-- An operand that starts with a keyword. -/
def keywordOperand (rule : Rule) : Reading Tree := do
  setBinding false
  let start ← here
  if ← seesKeyword "function" then functionExpression rule
  else if ← seesKeyword "this" then
    discard advance
    finish start "ThisExpression" []
  else if ← seesKeyword "class" then classExpression rule
  else if ← seesImportCall then
    discard advance
    finish start "Import" []
  else refuseAhead

/-- An operand. -/
def operand (rule : Rule) : Reading Tree := do
  let start ← here
  let token := (← get).ahead
  match token.kind with
  | .identifier =>
    if ← seesAsyncFunction then functionExpression rule
    else
      discard advance
      finishName start token.value
  | .number mantissa exponent => literal (.number mantissa exponent)
  | .integer value isLegacy =>
    if isLegacy then tolerate token
    literal (.ofNat value)
  | .string => literal (.text token.value)
  | .boolean => literal (.flag (token.value == "true"))
  | .null => literal .null
  | .template _ _ => template rule
  | .punctuator =>
    match token.word with
    | "(" =>
      setBinding false
      inherit (group rule)
    | "[" => inherit (arrayLiteral rule)
    | "\x7b" => inherit (objectLiteral rule)
    | "/" => regex
    | "/=" => regex
    | "<" => if (← read).markup then markupRoot rule else refuseAhead
    | _ => refuseAhead
  | .keyword => keywordOperand rule
  | _ => refuseAhead

/-! ## Calls and members -/

/-- The arguments of a call, in parentheses. A comma between them may be missing, or a semicolon may
stand in its place. -/
def arguments (rule : Rule) (argument : Reading Tree) : Reading (List Tree) := do
  expect "("
  upTo ")" do
    let item ← if ← sees "..." then spread rule else argument
    unless ← sees ")" do passSeparator
    return item

/-- The target of `new`. -/
def newExpression (rule : Rule) : Reading Tree := do
  let start ← here
  let word ← anyName
  if ← sees "." then
    discard advance
    let s ← get
    unless s.context.inFunction && s.ahead.isContextual "target" do refuseAhead
    let name ← anyName
    finish start "MetaProperty" [("meta", word), ("property", name)]
  else if ← seesKeyword "import" then refuseAhead
  else
    let target ← isolate (rule .constructor)
    let given ← if ← sees "(" then arguments rule (isolate (rule .assignment)) else pure []
    let result ← finish start "NewExpression" [("callee", target), ("arguments", .list given)]
    setBinding false
    return result

/-- The word `super`, which must be used as one of `uses`. -/
def superWord (uses : List String) : Reading Tree := do
  let start ← here
  discard advance
  unless ← seesAny uses do refuseAhead
  finish start "Super" []

/-- An operand, `super` or the target of `new`, before any access. -/
def base (rule : Rule) (superUses : List String) : Reading Tree := do
  if (← get).context.inFunction && (← seesKeyword "super") then superWord superUses
  else if ← seesKeyword "new" then inherit (newExpression rule)
  else inherit (operand rule)

/-- The access of a member or the use of a template on `object`, if one is ahead. -/
def access? (rule : Rule) (start : Nat) (object : Tree) : Reading (Option Tree) := do
  if ← sees "." then
    setBinding false
    discard advance
    let name ← anyName
    return some (← finish start "MemberExpression"
      [("computed", .flag false), ("object", object), ("property", name)])
  if ← sees "[" then
    setBinding false
    discard advance
    let key ← isolate (expression rule)
    expect "]"
    return some (← finish start "MemberExpression"
      [("computed", .flag true), ("object", object), ("property", key)])
  if (← get).ahead.opensTemplate then
    let quasi ← template rule
    return some (← finish start "TaggedTemplateExpression" [("tag", object), ("quasi", quasi)])
  return none

/-- What `new` applies to: an operand with accesses and without calls. -/
def constructorTarget (rule : Rule) : Reading Tree := do
  let start ← here
  loop (← base rule [".", "["]) fun object => do
    match ← access? rule start object with
    | some next => return (next, true)
    | none => return (object, false)

/-- The call of `target` ahead. After `async` on the same line it may turn out to be the parameters of
an arrow function, so that its arguments may hold initializers. -/
def call (rule : Rule) (start : Nat) (mayBeAsync : Bool) (target : Tree) : Reading Tree := do
  setBinding false
  let argument : Reading Tree :=
    isolate do
      let item ← rule .assignment
      if mayBeAsync then setInitializer none
      return item
  let given ← arguments rule argument
  let result ← finish start "CallExpression" [("callee", target), ("arguments", .list given)]
  if mayBeAsync && (← sees "=>") then return parameterHolder (Tree.toPatterns given) true
  return result

/-- An operand with accesses and calls. -/
def callExpression (rule : Rule) : Reading Tree := do
  let start ← here
  let first := (← get).ahead
  let isAsync := first.isContextual "async"
  allowingIn true do
    loop (← base rule ["(", ".", "["]) fun object => do
      if ← sees "(" then
        let mayBeAsync := isAsync && first.line == (← get).ahead.line
        return (← call rule start mayBeAsync object, true)
      match ← access? rule start object with
      | some next => return (next, true)
      | none => return (object, false)

/-! ## Operators -/

/-- An operand with an increment or decrement before or after it. -/
def update (rule : Rule) : Reading Tree := do
  let start ← here
  let finishUpdate (operator : Token) (argument : Tree) (isBefore : Bool) : Reading Tree := do
    let result ← finish start "UpdateExpression" [("operator", .text operator.value),
      ("argument", argument), ("prefix", .flag isBefore)]
    setBinding false
    return result
  if ← seesAny ["++", "--"] then
    let operator ← advance
    finishUpdate operator (← inherit (rule .unary)) true
  else
    let argument ← inherit (callExpression rule)
    if !(← get).newline && (← seesAny ["++", "--"]) then
      finishUpdate (← advance) argument false
    else return argument

/-- An operand with the operators that stand before it. -/
def unary (rule : Rule) : Reading Tree := do
  let start ← here
  if (← seesAny ["+", "-", "~", "!"]) || (← seesKeywordOf ["delete", "void", "typeof"]) then
    let operator ← advance
    let argument ← inherit (rule .unary)
    let result ← finish start "UnaryExpression"
      [("operator", .text operator.value), ("argument", argument), ("prefix", .flag true)]
    setBinding false
    return result
  if (← get).context.allowAwait && (← seesWord "await") then
    discard advance
    let argument ← rule .unary
    finish start "AwaitExpression" [("argument", argument)]
  else update rule

/-- A power; the exponent may be one too. -/
def power (rule : Rule) : Reading Tree := do
  let start ← here
  let left ← inherit (unary rule)
  if left.kind != "UnaryExpression" && (← sees "**") then
    discard advance
    setBinding false
    let right ← isolate (rule .power)
    finish start "BinaryExpression" [("operator", .text "**"), ("left", left), ("right", right)]
  else return left

/-- How strongly a token binds as an operator between two operands; 0 if it is none. -/
def precedence (token : Token) (allowIn : Bool) : Nat :=
  match token.kind with
  | .punctuator =>
    match token.word with
    | "||" => 1
    | "&&" => 2
    | "|" => 3
    | "^" => 4
    | "&" => 5
    | "==" | "!=" | "===" | "!==" => 6
    | "<" | ">" | "<=" | ">=" => 7
    | "<<" | ">>" | ">>>" => 8
    | "+" | "-" => 9
    | "*" | "/" | "%" => 11
    | _ => 0
  | .keyword =>
    if token.value == "instanceof" || (allowIn && token.value == "in") then 7 else 0
  | _ => 0

/-- An operation that waits for its right operand. -/
structure Pending where
  start : Nat
  left : Tree
  operator : String
  strength : Nat

/-- An operation between two operands. -/
def finishBinary (start : Nat) (operator : String) (left right : Tree) : Reading Tree :=
  let kind := if operator == "||" || operator == "&&" then "LogicalExpression" else "BinaryExpression"
  finish start kind [("operator", .text operator), ("left", left), ("right", right)]

/-- Completes the waiting operations that bind at least as strongly as `strength`, with `right` as
the last operand; gives what still waits, the operand and where it starts. -/
def reduce (strength : Nat) : List Pending → Nat → Tree → Reading (List Pending × Nat × Tree)
  | [], start, right => return ([], start, right)
  | p :: pending, start, right => do
    if strength ≤ p.strength then
      reduce strength pending p.start (← finishBinary p.start p.operator p.left right)
    else return (p :: pending, start, right)

/-- Operands with operators between them. -/
def binary (rule : Rule) : Reading Tree := do
  let start ← here
  let first ← inherit (power rule)
  let (pending, start, last) ← loop (([] : List Pending), start, first)
    fun (pending, start, last) => do
      let s ← get
      let strength := precedence s.ahead s.context.allowIn
      if strength == 0 then return ((pending, start, last), false)
      let (pending, start, left) ← reduce strength pending start last
      let operator ← advance
      setBinding false
      let next ← here
      let right ← isolate (power rule)
      return ((⟨start, left, operator.word, strength⟩ :: pending, next, right), true)
  let (_, _, result) ← reduce 0 pending start last
  return result

/-- An operand, or the choice between two by a condition. -/
def conditional (rule : Rule) : Reading Tree := do
  let start ← here
  let test ← inherit (binary rule)
  unless ← sees "?" do return test
  discard advance
  let consequent ← allowingIn true (isolate (rule .assignment))
  expect ":"
  let alternate ← isolate (rule .assignment)
  let result ← finish start "ConditionalExpression"
    [("test", test), ("consequent", consequent), ("alternate", alternate)]
  setBinding false
  return result

/-! ## Assignments -/

/-- Whether an expression can start with the token ahead, so that `yield` has an argument. -/
def startsExpression : Reading Bool := do
  let token := (← get).ahead
  match token.kind with
  | .punctuator =>
    return ["[", "(", "\x7b", "+", "-", "!", "~", "++", "--", "/", "/="].contains token.word ||
      (token.value == "<" && (← read).markup)
  | .keyword =>
    return ["class", "delete", "function", "let", "new", "super", "this", "typeof", "void",
      "yield"].contains token.word
  | _ => return true

/-- A `yield` with its argument. -/
def yieldExpression (rule : Rule) : Reading Tree := do
  let start ← here
  expectKeyword "yield"
  let (argument, delegate) ←
    if (← get).newline then pure (Tree.null, false)
    else allowingYield false do
      if ← sees "*" then
        discard advance
        pure (← rule .assignment, true)
      else if ← startsExpression then pure (← rule .assignment, false)
      else pure (Tree.null, false)
  finish start "YieldExpression" [("argument", argument), ("delegate", .flag delegate)]

/-- The rest of an arrow function from its arrow on. -/
def arrowRest (rule : Rule) (start : Nat) (parameters : List Tree) (isAsync : Bool) :
    Reading Tree := do
  setInitializer none
  allowingYield true <| allowingAwait isAsync do
    expect "=>"
    let body ←
      if ← sees "\x7b" then allowingIn true (rule .functionBody) else isolate (rule .assignment)
    finish start "ArrowFunctionExpression" [("id", .null), ("params", .list parameters),
      ("body", body), ("generator", .flag false),
      ("expression", .flag (body.kind != "BlockStatement")), ("isAsync", .flag isAsync)]

/-- The operators that assign. -/
def assignmentOperators : List String :=
  ["=", "*=", "**=", "/=", "%=", "+=", "-=", "<<=", ">>=", ">>>=", "&=", "^=", "|="]

/-- The parameter of an arrow function after `async` on the same line, in place of the word. -/
def asyncParameter (rule : Rule) (first : Token) (word : Tree) : Reading Tree := do
  let s ← get
  let isParameter := s.ahead.kind == .identifier || s.ahead.isKeyword "yield"
  if first.isContextual "async" && first.line == s.ahead.line && isParameter then
    return parameterHolder [(← operand rule).toPattern] true
  return word

/-- An arrow function, an assignment, or whatever binds more strongly. -/
def assignment (rule : Rule) : Reading Tree := do
  if !(← get).context.allowYield && (← seesKeyword "yield") then return ← yieldExpression rule
  let start ← here
  let first := (← get).ahead
  let left ← asyncParameter rule first (← conditional rule)
  if isParameterHolder left || (← sees "=>") then
    setBinding false
    match ← arrowParameters left with
    | some parameters => arrowRest rule start parameters (left.has "isAsync")
    | none => return left
  else if ← seesAny assignmentOperators then
    let isPlain ← sees "="
    unless isPlain do setBinding false
    let target := if isPlain then left.toPattern else left
    let operator ← advance
    let right ← isolate (rule .assignment)
    let result ← finish start "AssignmentExpression"
      [("operator", .text operator.value), ("left", target), ("right", right)]
    setInitializer none
    return result
  else return left

end ClassComponent.Script
