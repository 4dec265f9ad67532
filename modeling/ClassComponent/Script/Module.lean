import ClassComponent.Script.Statement

/-!
# Modules

Imports, exports, and whole scripts. `parse` reads a script into a `Program` node, which also lists the
comments and the tokens of the script; `isValid` says whether a script can be read.
-/

namespace ClassComponent.Script

/-! ## Imports -/

/-- The string that names a module. -/
def moduleName : Reading Tree := do
  let start ← here
  let token := (← get).ahead
  unless token.kind == .string do stopFor .unnamedModule
  discard advance
  finishLiteral start token (.text token.value)

/-- Passes the word `value`. -/
def expectWord (value : String) : Reading Unit := do
  unless ← seesWord value do refuseAhead
  discard advance

/-- One name of a list of imports. -/
def importSpecifier : Reading Tree := do
  let start ← here
  let isPlain ← seesKind .identifier
  let imported ← if isPlain then bindingName else anyName
  let inner ←
    if ← seesWord "as" then do
      discard advance
      bindingName
    else if isPlain then pure imported
    else refuseAhead
  finish start "ImportSpecifier" [("local", inner), ("imported", imported)]

/-- The names of a list of imports, in braces. -/
def namedImports : Reading (List Tree) := do
  expect "\x7b"
  upTo "\x7d" do
    let specifier ← importSpecifier
    unless ← sees "\x7d" do expect ","
    return specifier

/-- The import of a whole module under one name. -/
def namespaceImport : Reading Tree := do
  let start ← here
  expect "*"
  expectWord "as"
  let name ← anyName
  finish start "ImportNamespaceSpecifier" [("local", name)]

/-- What an import takes from a module. -/
def importSpecifiers : Reading (List Tree) := do
  if ← sees "\x7b" then namedImports
  else if ← sees "*" then return [← namespaceImport]
  else if (← get).ahead.isName && !(← seesKeyword "default") then
    let start ← here
    let name ← anyName
    let first ← finish start "ImportDefaultSpecifier" [("local", name)]
    unless ← sees "," do return [first]
    discard advance
    if ← sees "*" then return [first, ← namespaceImport]
    if ← sees "\x7b" then return first :: (← namedImports)
    refuseAhead
  else refuseAhead

/-- An import. -/
def importDeclaration : Reading Tree := do
  if (← get).context.inFunction then stopFor .nestedModuleItem
  let start ← here
  expectKeyword "import"
  let specifiers ←
    if ← seesKind .string then pure []
    else do
      let specifiers ← importSpecifiers
      expectWord "from"
      pure specifiers
  let source ← moduleName
  endStatement
  finish start "ImportDeclaration" [("specifiers", .list specifiers), ("source", source)]

/-! ## Exports -/

/-- One name of a list of exports. -/
def exportSpecifier : Reading Tree := do
  let start ← here
  let name ← anyName
  let exported ←
    if ← seesWord "as" then do
      discard advance
      anyName
    else pure name
  finish start "ExportSpecifier" [("exported", exported), ("local", name)]

/-- The value of a default export. A function or a class takes no semicolon, nor does anything that
starts with `async`. -/
def defaultExport (rule : Rule) : Reading Tree := do
  if ← seesKeyword "function" then functionDeclaration rule true
  else if ← seesKeyword "class" then classDeclaration rule true
  else if ← seesWord "async" then
    if ← seesAsyncFunction then functionDeclaration rule true else rule .assignment
  else
    if ← seesWord "from" then refuseAhead
    let value ←
      if ← sees "\x7b" then objectLiteral rule
      else if ← sees "[" then arrayLiteral rule
      else rule .assignment
    endStatement
    return value

/-- A named export as a node. -/
def finishExport (start : Nat) (declaration : Tree) (specifiers : List Tree) (source : Tree) :
    Reading Tree :=
  finish start "ExportNamedDeclaration"
    [("declaration", declaration), ("specifiers", .list specifiers), ("source", source)]

/-- The names of a list of exports, in braces, and whether one of them is `default`. -/
def exportNames : Reading (List Tree × Bool) := do
  expect "\x7b"
  let (names, hasDefault) ← loop (#[], false) fun (names, hasDefault) => do
    if ← sees "\x7d" then return ((names, hasDefault), false)
    let isDefault ← seesKeyword "default"
    let specifier ← exportSpecifier
    unless ← sees "\x7d" do expect ","
    return ((names.push specifier, hasDefault || isDefault), true)
  expect "\x7d"
  return (names.toList, hasDefault)

/-- Exports by name, perhaps from another module; the default of that module may stand first, without
braces. -/
def exportByName (start : Nat) : Reading Tree := do
  let first ←
    if ← seesKind .identifier then do
      let start ← here
      let name ← anyName
      pure [← finish start "ExportDefaultSpecifier" [("local", name)]]
    else pure []
  let hasList ← if first.isEmpty then pure true else sees ","
  if !first.isEmpty && hasList then discard advance
  let (names, hasDefault) ← if hasList then exportNames else pure ([], false)
  let source ←
    if ← seesWord "from" then do
      discard advance
      moduleName
    else do
      if hasDefault then refuseAhead
      pure Tree.null
  endStatement
  finishExport start .null (first ++ names) source

/-- An export. -/
def exportDeclaration (rule : Rule) : Reading Tree := do
  if (← get).context.inFunction then stopFor .nestedModuleItem
  let start ← here
  expectKeyword "export"
  if ← seesKeyword "default" then
    discard advance
    let declaration ← defaultExport rule
    finish start "ExportDefaultDeclaration" [("declaration", declaration)]
  else if ← sees "*" then
    discard advance
    expectWord "from"
    let source ← moduleName
    endStatement
    finish start "ExportAllDeclaration" [("source", source)]
  else if ← seesKeywordOf ["let", "const"] then
    finishExport start (← lexicalDeclaration rule) [] .null
  else if ← seesKeywordOf ["var", "class", "function"] then
    finishExport start (← rule .item) [] .null
  else if ← seesKind .keyword then refuseAhead
  else if ← seesAsyncFunction then
    finishExport start (← functionDeclaration rule false) [] .null
  else exportByName start

/-! ## Scripts -/

/-- A statement, a declaration, an import or an export. -/
def item (rule : Rule) : Reading Tree := do
  setBinding true
  let token := (← get).ahead
  if token.kind != .keyword then statement rule
  else match token.word with
    | "export" => exportDeclaration rule
    | "import" => if ← seesImportCall then expressionStatement rule else importDeclaration
    | "const" => lexicalDeclaration rule
    | "function" => functionDeclaration rule false
    | "class" => classDeclaration rule false
    | "let" => if ← startsLexicalDeclaration then lexicalDeclaration rule else statement rule
    | _ => statement rule

/-- The production for a goal. -/
def production (rule : Rule) : Goal → Reading Tree
  | .assignment => assignment rule
  | .unary => unary rule
  | .power => power rule
  | .constructor => constructorTarget rule
  | .call => callExpression rule
  | .item => item rule
  | .statement => statement rule
  | .pattern => bindingPattern rule
  | .functionBody => functionBody rule
  | .element => element rule

/-- The productions, nested at most `depth` times. -/
def grammar : Nat → Rule
  | 0, _ => stopFor .tooDeep
  | depth + 1, goal => production (grammar depth) goal

/-- An entry of the list of comments or tokens of a script. -/
def entry (kind : String) (span : Span) : Tree :=
  .node [("type", .text kind), ("range", Tree.ofSpan span)]

/-- A whole script. -/
def program (rule : Rule) : Reading Tree := do
  let start ← here
  let leading ← directives rule
  let statements ← collectUntil seesEnd (rule .item)
  let s ← get
  let text := (← read).text
  let comment (span : Span) : Tree :=
    entry (if standsAt text "/*" span.start then "Block" else "Line") span
  finish start "Program" [
    ("body", .list (leading.toList ++ statements)),
    ("sourceType", .text "module"),
    ("comments", .list (s.comments.toList.map comment)),
    ("tokens", .list (s.tokens.toList.map fun (kind, span) => entry kind.name span))]

/-- The state before the first token. -/
def State.initial (text : Array Char) : State :=
  let line := if text.isEmpty then 0 else 1
  { cursor := ⟨0, line, []⟩
    ahead := ⟨.endOfText, "", ⟨0, 0⟩, line⟩
    newline := false
    start := 0
    startLine := line
    last := 0
    comments := #[]
    tokens := #[]
    context := {
      allowIn := true
      allowYield := true
      allowAwait := false
      inFunction := false
      inIteration := false
      inSwitch := false
      labels := [] }
    cover := ⟨false, none⟩ }

/-- The tree of a script; `markup` says whether elements may stand in expressions. Each level of
nesting takes a character at least, so the length of the script bounds the depth. -/
def parse (script : String) (markup : Bool) : Except Fault Tree := do
  let text := script.toList.toArray
  let first ← (State.initial text).follow text true
  let (tree, _) ← (program (grammar (4 * text.size + 64))).run ⟨text, markup⟩ |>.run first
  return tree

/-- Whether a script can be read. -/
def isValid (script : String) (markup : Bool) : Bool :=
  match parse script markup with
  | .ok _ => true
  | .error _ => false

end ClassComponent.Script
