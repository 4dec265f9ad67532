import ClassComponent.Script.Expression

/-!
# Statements

Declarations and statements. A missing closing parenthesis after the head of a statement is passed
over: the next token is taken in its place, and the body of the statement is empty.
-/

namespace ClassComponent.Script

/-! ## Declarations -/

/-- One name or pattern of a `let` or `const` declaration; `inFor` in the head of a loop. -/
def lexicalBinding (rule : Rule) (kind : String) (inFor : Bool) : Reading Tree := do
  let start ← here
  let target ← rule .pattern
  let assigned : Reading Tree := do
    expect "="
    isolate (rule .assignment)
  let value ←
    if kind == "const" then do
      if (← seesKeyword "in") || (← seesWord "of") then pure Tree.null
      else if ← sees "=" then assigned
      else stopFor .bareConstant
    else if (← sees "=") || (!inFor && target.kind != "Identifier") then assigned
    else pure Tree.null
  finish start "VariableDeclarator" [("id", target), ("init", value)]

/-- One name or pattern of a `var` declaration. -/
def variableBinding (rule : Rule) (inFor : Bool) : Reading Tree := do
  let start ← here
  let target ← rule .pattern
  let value ←
    if ← sees "=" then do
      discard advance
      isolate (rule .assignment)
    else do
      if target.kind != "Identifier" && !inFor then expect "="
      pure Tree.null
  finish start "VariableDeclarator" [("id", target), ("init", value)]

/-- A declaration as a node. -/
def finishDeclaration (start : Nat) (kind : String) (declarations : List Tree) : Reading Tree :=
  finish start "VariableDeclaration" [("declarations", .list declarations), ("kind", .text kind)]

/-- A `let` or `const` declaration. -/
def lexicalDeclaration (rule : Rule) : Reading Tree := do
  let start ← here
  let kind := (← advance).word
  let declarations ← commaList (lexicalBinding rule kind false)
  endStatement
  finishDeclaration start kind declarations

/-- A `var` declaration. -/
def variableStatement (rule : Rule) : Reading Tree := do
  let start ← here
  expectKeyword "var"
  let declarations ← commaList (variableBinding rule false)
  endStatement
  finishDeclaration start "var" declarations

/-- Whether the `let` ahead starts a declaration. -/
def startsLexicalDeclaration : Reading Bool := do
  let next ← lookBeyond
  return next.kind == .identifier || next.isPunctuator "[" || next.isPunctuator "\x7b" ||
    next.isKeyword "let" || next.isKeyword "yield"

/-! ## Simple statements -/

/-- Statements in braces. -/
def block (rule : Rule) : Reading Tree := do
  let start ← here
  expect "\x7b"
  let statements ← upTo "\x7d" (rule .item)
  finish start "BlockStatement" [("body", .list statements)]

/-- An expression as a statement. -/
def expressionStatement (rule : Rule) : Reading Tree := do
  let start ← here
  let value ← expression rule
  endStatement
  finish start "ExpressionStatement" [("expression", value)]

/-- A labelled statement, or an expression that starts with a name. -/
def labelledStatement (rule : Rule) : Reading Tree := do
  let start ← here
  let value ← expression rule
  if value.kind == "Identifier" && (← sees ":") then
    discard advance
    let name := ((value.get "name").text?).getD ""
    if (← get).context.labels.contains name then stopFor (.repeatedLabel name)
    let body ← underLabel name do
      if ← seesKeyword "class" then classDeclaration rule false
      else if ← seesKeyword "function" then functionDeclaration rule false
      else rule .statement
    finish start "LabeledStatement" [("label", value), ("body", body)]
  else
    endStatement
    finish start "ExpressionStatement" [("expression", value)]

/-- A `break` or `continue`, with the places that it may leave without a label. -/
def jump (kind keyword : String) (isInside : Context → Bool) : Reading Tree := do
  let start ← here
  expectKeyword keyword
  let s ← get
  let label ←
    if s.ahead.kind == .identifier && !s.newline then do
      let label ← bindingName
      let name := ((label.get "name").text?).getD ""
      unless s.context.labels.contains name do stopFor (.unknownLabel name)
      pure label
    else pure Tree.null
  endStatement
  if !label.isFilled && !isInside s.context then stopFor (.strayJump keyword)
  finish start kind [("label", label)]

/-- A `return`. -/
def returnStatement (rule : Rule) : Reading Tree := do
  let start ← here
  expectKeyword "return"
  let s ← get
  let ends := s.newline || s.ahead.kind == .endOfText || s.ahead.isPunctuator ";" ||
    s.ahead.isPunctuator "\x7d"
  let hasArgument := !ends || s.ahead.kind == .string || s.ahead.isTemplate
  let argument ← if hasArgument then expression rule else pure Tree.null
  endStatement
  finish start "ReturnStatement" [("argument", argument)]

/-- A `throw`. -/
def throwStatement (rule : Rule) : Reading Tree := do
  let start ← here
  expectKeyword "throw"
  if (← get).newline then stopFor .brokenThrow
  let argument ← expression rule
  endStatement
  finish start "ThrowStatement" [("argument", argument)]

/-- A `debugger` statement. -/
def debuggerStatement : Reading Tree := do
  let start ← here
  expectKeyword "debugger"
  endStatement
  finish start "DebuggerStatement" []

/-! ## Branches -/

/-- Passes the closing parenthesis of a head and reads the body; without the parenthesis, the next
token is passed and the body is empty. -/
def bodyAfterHead (body : Reading Tree) : Reading Tree := do
  if ← sees ")" then
    discard advance
    body
  else
    tolerate (← advance)
    emptyStatement

/-- An `if`. -/
def ifStatement (rule : Rule) : Reading Tree := do
  let start ← here
  expectKeyword "if"
  expect "("
  let test ← expression rule
  let isClosed ← sees ")"
  let consequent ← bodyAfterHead (rule .statement)
  let alternate ←
    if isClosed && (← seesKeyword "else") then do
      discard advance
      rule .statement
    else pure Tree.null
  finish start "IfStatement" [("test", test), ("consequent", consequent), ("alternate", alternate)]

/-- A clause of a switch. -/
def switchCase (rule : Rule) : Reading Tree := do
  let start ← here
  let test ←
    if ← seesKeyword "default" then do
      discard advance
      pure Tree.null
    else do
      expectKeyword "case"
      expression rule
  expect ":"
  let ends : Reading Bool := return (← sees "\x7d") || (← seesKeywordOf ["default", "case"])
  let statements ← collectUntil ends (rule .item)
  finish start "SwitchCase" [("test", test), ("consequent", .list statements)]

/-- A switch. -/
def switchStatement (rule : Rule) : Reading Tree := do
  let start ← here
  expectKeyword "switch"
  expect "("
  let discriminant ← expression rule
  expect ")"
  insideSwitch do
    expect "\x7b"
    let (cases, _) ← loop (#[], false) fun (cases, hasDefault) => do
      if ← sees "\x7d" then return ((cases, hasDefault), false)
      let clause ← switchCase rule
      let isDefault := !clause.has "test"
      if isDefault && hasDefault then stopFor .repeatedDefault
      return ((cases.push clause, hasDefault || isDefault), true)
    expect "\x7d"
    finish start "SwitchStatement" [("discriminant", discriminant), ("cases", .list cases.toList)]

/-- A `with`. -/
def withStatement (rule : Rule) : Reading Tree := do
  let start ← here
  expectKeyword "with"
  expect "("
  let object ← expression rule
  let body ← bodyAfterHead (rule .statement)
  finish start "WithStatement" [("object", object), ("body", body)]

/-- The handler of a `try`. -/
def catchClause (rule : Rule) : Reading Tree := do
  let start ← here
  expectKeyword "catch"
  expect "("
  if ← sees ")" then refuseAhead
  let parameter ← rule .pattern
  expect ")"
  let body ← block rule
  finish start "CatchClause" [("param", parameter), ("body", body)]

/-- A `try`. -/
def tryStatement (rule : Rule) : Reading Tree := do
  let start ← here
  expectKeyword "try"
  let body ← block rule
  let handler ← if ← seesKeyword "catch" then catchClause rule else pure Tree.null
  let finalizer ←
    if ← seesKeyword "finally" then do
      discard advance
      block rule
    else pure Tree.null
  unless handler.isFilled || finalizer.isFilled do stopFor .bareTry
  finish start "TryStatement" [("block", body), ("handler", handler), ("finalizer", finalizer)]

/-! ## Loops -/

/-- A `do` loop. -/
def doStatement (rule : Rule) : Reading Tree := do
  let start ← here
  expectKeyword "do"
  let body ← insideIteration (rule .statement)
  expectKeyword "while"
  expect "("
  let test ← expression rule
  if ← sees ")" then
    discard advance
    skip ";"
  else tolerate (← advance)
  finish start "DoWhileStatement" [("body", body), ("test", test)]

/-- A `while` loop. -/
def whileStatement (rule : Rule) : Reading Tree := do
  let start ← here
  expectKeyword "while"
  expect "("
  let test ← expression rule
  let body ← bodyAfterHead (insideIteration (rule .statement))
  finish start "WhileStatement" [("test", test), ("body", body)]

/-- What the head of a `for` loop turned out to be. -/
inductive ForHead where
  /-- A loop over keys or over elements: what is assigned, and where from. -/
  | each (kind : String) (left right : Tree)
  /-- A loop that starts with `init`. -/
  | counted (init : Tree)

/-- The rest of a head after `left`, if the loop is over keys or elements. -/
def forEach? (rule : Rule) (left : Reading Tree) : Reading (Option ForHead) := do
  if ← seesKeyword "in" then
    let left ← left
    discard advance
    return some (.each "ForInStatement" left (← expression rule))
  if ← seesWord "of" then
    let left ← left
    discard advance
    return some (.each "ForOfStatement" left (← rule .assignment))
  return none

/-- Whether one thing is declared, without a value. -/
def isBareDeclaration (declarations : List Tree) : Bool :=
  match declarations with
  | [declaration] => !declaration.has "init"
  | _ => false

/-- The head of a loop that starts with `var`. -/
def forVariable (rule : Rule) : Reading ForHead := do
  let start ← here
  discard advance
  let declarations ← allowingIn false (commaList (variableBinding rule true))
  let isEach :=
    (declarations.length == 1 && (← seesKeyword "in")) ||
      (isBareDeclaration declarations && (← seesWord "of"))
  let whole := finishDeclaration start "var" declarations
  match ← if isEach then forEach? rule whole else pure none with
  | some head => return head
  | none =>
    let init ← whole
    expect ";"
    return .counted init

/-- The head of a loop that starts with `let` or `const`. -/
def forLexical (rule : Rule) : Reading ForHead := do
  let start ← here
  let kind := (← advance).word
  let declarations ← allowingIn false (commaList (lexicalBinding rule kind true))
  let whole := finishDeclaration start kind declarations
  match ← if isBareDeclaration declarations then forEach? rule whole else pure none with
  | some head => return head
  | none =>
    endStatement
    return .counted (← whole)

/-- The head of a loop that starts with an expression. -/
def forExpression (rule : Rule) : Reading ForHead := do
  let start ← here
  let first ← allowingIn false (inherit (rule .assignment))
  match ← forEach? rule (pure first.toPattern) with
  | some head => return head
  | none =>
    let init ←
      if ← sees "," then do
        let expressions ← loop #[first] fun expressions => do
          unless ← sees "," do return (expressions, false)
          discard advance
          return (expressions.push (← isolate (rule .assignment)), true)
        finish start "SequenceExpression" [("expressions", .list expressions.toList)]
      else pure first
    expect ";"
    return .counted init

/-- A `for` loop. -/
def forStatement (rule : Rule) : Reading Tree := do
  let start ← here
  expectKeyword "for"
  expect "("
  let head ←
    if ← sees ";" then do
      discard advance
      pure (ForHead.counted .null)
    else if ← seesKeyword "var" then forVariable rule
    else if ← seesKeywordOf ["const", "let"] then forLexical rule
    else forExpression rule
  let body := bodyAfterHead (insideIteration (isolate (rule .statement)))
  match head with
  | .each kind left right =>
    let body ← body
    finish start kind [("left", left), ("right", right), ("body", body)]
  | .counted init =>
    let test ← if ← sees ";" then pure Tree.null else expression rule
    expect ";"
    let update ← if ← sees ")" then pure Tree.null else expression rule
    let body ← body
    finish start "ForStatement" [("init", init), ("test", test), ("update", update), ("body", body)]

/-! ## Statements -/

/-- A statement that starts with a keyword. -/
def keywordStatement (rule : Rule) : Reading Tree := do
  match (← get).ahead.word with
  | "break" => jump "BreakStatement" "break" fun c => c.inIteration || c.inSwitch
  | "continue" => jump "ContinueStatement" "continue" (·.inIteration)
  | "debugger" => debuggerStatement
  | "do" => doStatement rule
  | "for" => forStatement rule
  | "function" => functionDeclaration rule false
  | "if" => ifStatement rule
  | "return" => returnStatement rule
  | "switch" => switchStatement rule
  | "throw" => throwStatement rule
  | "try" => tryStatement rule
  | "var" => variableStatement rule
  | "while" => whileStatement rule
  | "with" => withStatement rule
  | _ => expressionStatement rule

/-- A statement. -/
def statement (rule : Rule) : Reading Tree := do
  let token := (← get).ahead
  match token.kind with
  | .punctuator =>
    if token.value == "\x7b" then block rule
    else if token.value == ";" then do
      let start ← here
      discard advance
      finish start "EmptyStatement" []
    else expressionStatement rule
  | .identifier =>
    if ← seesAsyncFunction then functionDeclaration rule false else labelledStatement rule
  | .keyword => keywordStatement rule
  | .endOfText => refuseAhead
  | _ => expressionStatement rule

end ClassComponent.Script
