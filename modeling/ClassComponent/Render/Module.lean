import ClassComponent.Event
import ClassComponent.Files.Path
import ClassComponent.Render.Class

/-!
# The module of a class component

The whole text: header comments, imports, the statements of the script, statements hoisted out of the
data function, and the class. A script without options is passed through as it is.
-/

namespace ClassComponent

/-! ## Statements of the script -/

/-- The declaration that a statement makes, perhaps while exporting it. -/
def declarationOf (t : Tree) : Tree :=
  if t.kind == "ExportNamedDeclaration" then t.get "declaration" else t

/-- The span of the callee in a declarator whose value is made by the helper for parts of the store. -/
def namespaceCallee? (declarator : Tree) : Option Span :=
  let value := declarator.get "init"
  let callee := value.get "callee"
  if value.kind == "CallExpression" && (callee.get "name").isWord StoreTool.namespaceHelper then
    callee.span?
  else none

/-- The spans of all such callees in a statement. -/
def namespaceCallees (t : Tree) : List Span :=
  let declaration := declarationOf t
  if declaration.kind == "VariableDeclaration" then
    (declaration.get "declarations").items.filterMap namespaceCallee?
  else []

/-- `text`, which begins at offset `start`, with another callee in the place of `span`. -/
def spliceCallee (start : Nat) (text : Text) (span : Span) : Text :=
  ⟨text.points.take (span.start - start)⟩ ++ StoreTool.scope.name ++ ⟨text.points.drop (span.stop - start)⟩

/-- The text of a statement with the callees `spans` replaced, from the last to the first. -/
def replaceCallees (start : Nat) (text : Text) (spans : List Span) : Text :=
  (spans.mergeSort Span.before).reverse.foldl (spliceCallee start) text

/-- Whether a statement stays outside the class. -/
def isOuterStatement (t : Tree) : Bool :=
  t.kind != "ImportDeclaration" && t.kind != "ExportDefaultDeclaration"

/-- The text of a statement with its comments. -/
def renderStatement (source : Text) (p : Placed) : Text :=
  replaceCallees p.bounds.start (p.bounds.of source) (namespaceCallees p.node)

/-- The statements that stay outside the class. -/
def outerStatements (tree : Tree) (source : Text) : List Text :=
  ((placedStatements tree source).filter fun p => isOuterStatement p.node).map (renderStatement source)

/-- The comments above the default export, for the class. -/
def classComments (tree : Tree) (source : Text) : Text :=
  match (placedStatements tree source).find? (·.node.kind == "ExportDefaultDeclaration") with
  | none => ""
  | some p =>
    let comments := Text.trimEnd ((⟨p.bounds.start, p.span.start⟩ : Span).of source)
    if comments.isEmpty then "" else comments ++ "\n"

/-! ## The whole -/

namespace Component

/-- The name of the class: the component's own, or that of its file, in Pascal case if need be, or else
`fallback`. -/
def className (c : Component) (file fallback : Text) : Text :=
  let name := if c.name.isEmpty && !file.isEmpty then Text.capitalize (Path.stem file) else c.name
  let name := if !name.isEmpty && !Text.isIdentifier name then Text.pascalCase name else name
  if name.isEmpty then fallback else name

/-- The text of the class component, line breaks inside values still masked. -/
def renderMasked (c : Component) (tree : Tree) (source file fallback : Text) : Text :=
  let header := ((headerComments? tree source).filter (!·.isEmpty)).toList
  let classText := classComments tree source ++ c.renderClass (c.className file fallback)
  Text.intercalate "\n" (header ++ importLines tree source c ++ outerStatements tree source ++
    c.hoisted.map (Text.reindent · "") ++ [classText]) ++ "\n"

/-- The text of the module for a component. -/
def render (c : Component) (tree : Tree) (source file fallback : Text) : Text :=
  if c.isConverted then Text.restoreLineBreaks (c.renderMasked tree source file fallback) c.marker
  else source

/-- The events of writing the module. -/
def renderEvents (c : Component) (file fallback : Text) : List Event :=
  if c.isConverted then [.classStarted (c.className file fallback)] else [.passedThrough]

end Component

end ClassComponent
