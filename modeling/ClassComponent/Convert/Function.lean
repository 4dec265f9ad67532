import ClassComponent.Component.Member
import ClassComponent.Convert.Origin
import ClassComponent.Options.Kind

/-!
# Functions as members

The forms in which an object member holds a function,

    a: function () {…}      a: () => x      a: () => ({…})      a() {…}

and what they become: a method, or an arrow function. A member in any of these forms has a
`FunctionForm`; accessors and all other values have none.
-/

namespace ClassComponent

namespace Origin

/-! ## Names -/

/-- The text of a node that names something: names and strings stand for what they say, other nodes for
their source. `none` for a name that is given as nothing. -/
def nameText? (o : Origin) (t : Tree) : Option Text :=
  match t.kind with
  | "Identifier" =>
    match t.get? "name" with
    | none => some ""
    | some name => name.text?
  | "Literal" =>
    match t.get "value" with
    | .text value => some value
    | _ =>
      match t.get "raw" with
      | .text raw => some (if raw.isEmpty then o.text t else raw)
      | _ => some (o.text t)
  | _ => some (o.text t)

/-- The text of a node that names something; a name given as nothing is empty. -/
def nameText (o : Origin) (t : Tree) : Text :=
  (o.nameText? t).getD ""

/-- The name of an object member. It is made from the key alone, so that comments around the key stay
out of it. -/
def memberName? (o : Origin) (t : Tree) : Option Text :=
  let key := t.get "key"
  if t.has "computed" then some ("[" ++ o.text key ++ "]") else o.nameText? key

/-- The name of an object member; empty if its key is a name given as nothing. -/
def memberName (o : Origin) (t : Tree) : Text :=
  (o.memberName? t).getD ""

end Origin

/-! ## Functions -/

/-- A function that an object member holds. -/
structure FunctionForm where
  name : Text
  params : List Tree
  /-- A block or an expression; `null` if the function has no body. -/
  body : Tree
  isAsync : Bool
  isGenerator : Bool
deriving Inhabited

/-- Whether a node is a function. -/
def Tree.isFunction (t : Tree) : Bool :=
  t.kind == "FunctionExpression" || t.kind == "ArrowFunctionExpression"

/-- Whether a member is a getter or a setter. -/
def Tree.isAccessor (t : Tree) : Bool :=
  (t.get "kind").isWord "get" || (t.get "kind").isWord "set"

namespace FunctionForm

/-- A function node under a name. -/
def ofNode (name : Text) (function : Tree) : FunctionForm where
  name
  params := (function.get "params").items
  body := function.get "body"
  isAsync := function.has "isAsync" || function.has "async"
  isGenerator := function.has "generator"

/-- The function that a member holds, if its value is one. -/
def ofMember? (o : Origin) (t : Tree) : Option FunctionForm :=
  if t.kind != "Property" || t.isAccessor then none
  else
    let value := t.get "value"
    if t.has "method" || value.isFunction then some (ofNode (o.memberName t) value) else none

/-- The words before the name of a method. -/
def modifiers (f : FunctionForm) : List Text :=
  if f.isAsync then ["async"] else []

/-- The texts of the parameters. -/
def paramTexts (f : FunctionForm) (o : Origin) : List Text :=
  f.params.map o.text

end FunctionForm

/-! ## Bodies -/

/-- A body as a block: an expression is returned, and no body is an empty block. -/
def blockText (o : Origin) (body : Tree) : Text :=
  if !body.isFilled then emptyBlock
  else if body.kind == "BlockStatement" then o.text body
  else "\x7b\n    return " ++ Text.reindent (o.text body) "    " ++ ";\n\x7d"

/-- A body after an arrow: an object literal needs parentheses. -/
def arrowBodyText (o : Origin) (body : Tree) : Text :=
  if !body.isFilled || body.kind == "BlockStatement" then blockText o body
  else if body.kind == "ObjectExpression" then "(" ++ o.text body ++ ")"
  else o.text body

namespace FunctionForm

/-- The function written with an arrow. -/
def arrowText (f : FunctionForm) (o : Origin) : Text :=
  let lead := if f.isAsync then "async " else ""
  lead ++ "(" ++ Text.intercalate ", " (f.paramTexts o) ++ ") => " ++ arrowBodyText o f.body

/-- The function as a method, with the given access, decorators and accessor. -/
def toMethod (f : FunctionForm) (o : Origin) (access : List Text) (decorators : List Text)
    (accessor? : Option Accessor) : Method where
  name := f.name
  params := f.paramTexts o
  body := blockText o f.body
  decorators
  modifiers := access ++ f.modifiers
  accessor?
  isGenerator := f.isGenerator

end FunctionForm

end ClassComponent
