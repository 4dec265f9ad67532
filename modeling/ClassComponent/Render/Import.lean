import ClassComponent.Component.Basic
import ClassComponent.Render.Comment
import ClassComponent.Text.LetterCase

/-!
# Imports of a class component

The imports that the class needs, and those of the script that it keeps.
-/

namespace ClassComponent

/-- The class that components extend. -/
def baseClass : String := "Vue"

/-- An import of names from a module. -/
def importLine (names : List String) (module : String) : String :=
  "import \x7b " ++ ", ".intercalate names ++ " \x7d from \"" ++ module ++ "\";"

/-- The modules whose imports are dropped, in lower case. -/
def frameworkModules : List String := ["vue", "vuex"]

namespace Component

/-- The names imported for the decorators of the class. -/
def decoratorNames (c : Component) : List String :=
  ["Component", baseClass] ++ (if c.props.isEmpty then [] else ["Prop"]) ++
    (if c.watch.isEmpty then [] else ["Watch"])

end Component

/-- Whether a binding goes through a part of the store. -/
def StoreBinding.isNamespaced (b : StoreBinding) : Bool :=
  b.scope?.any (!·.isEmpty)

/-- The names imported for store bindings: each tool used on the whole store once, in order of first use,
and `namespace` last if a part of the store is used. -/
def storeNames (bindings : List StoreBinding) : List String :=
  let tools := ((bindings.filter (!·.isNamespaced)).map (·.tool.name)).eraseDups
  tools ++ if bindings.any (·.isNamespaced) then [StoreTool.scope.name] else []

namespace Component

/-- The import of names for the store, if there is a field bound to it. -/
def storeLines (c : Component) : List String :=
  if c.stores.isEmpty then [] else [importLine (storeNames c.stores) "vuex-class"]

/-- The imports that the class needs. -/
def neededLines (c : Component) : List String :=
  "import * as tsx from \"vue-tsx-support\";" ::
    importLine c.decoratorNames "vue-property-decorator" :: c.storeLines

end Component

/-- The module that an import names. -/
def importedModule (t : Tree) : Text :=
  match (t.get "source").get "value" with
  | .text name => name
  | _ => ""

/-- Whether an import of the script is kept. -/
def isKeptImport (t : Tree) : Bool :=
  t.kind == "ImportDeclaration" &&
    !(importedModule t).toString?.any fun name => frameworkModules.contains (LetterCase.lower name)

/-- The imports of the script that are kept, with their comments. -/
def keptImports (tree : Tree) (source : Text) : List Text :=
  ((placedStatements tree source).filter fun p => isKeptImport p.node).map fun p => p.bounds.of source

/-- All imports of the class component. -/
def importLines (tree : Tree) (source : Text) (c : Component) : List Text :=
  c.neededLines.map Text.ofString ++ keptImports tree source

end ClassComponent
