import ClassComponent.Tree.Basic

/-!
# Outlines of trees

An outline shows a tree as indented lines, one for each node that has a type: the type, and after
it what tells the node from its neighbours. Identifiers show their name, literals their text in the
script, properties their key and form.
-/

namespace ClassComponent.Tree

/-- The indentation of one level. -/
def outlineIndent : Text := "   "

/-- Attributes that an outline does not go into. -/
def outlineSkips : List String :=
  ["range", "loc", "comments", "tokens", "raw", "errors", "type"]

/-- A value inside a label; an empty place shows as `None`. -/
def labelText : Tree → Text
  | .text s => s
  | .null => "None"
  | .flag true => "True"
  | .flag false => "False"
  | .number m _ => toString m
  | _ => ""

/-- The key of a property as a label. -/
def keyLabel (key : Tree) : Text :=
  if key.has "name" then labelText (key.get "name")
  else if key.has "raw" then labelText (key.get "raw")
  else "[computed]"

/-- What an outline shows after the type of a node. -/
def label (t : Tree) : Text :=
  match t.kind with
  | "Identifier" => " (" ++ labelText (t.get "name") ++ ")"
  | "Literal" => " (" ++ labelText (t.get "raw") ++ ")"
  | "Property" =>
    let form :=
      if t.has "method" then " [method]"
      else if (t.get "kind").isWord "get" then " [get]"
      else if (t.get "kind").isWord "set" then " [set]"
      else ""
    " " ++ keyLabel (t.get "key") ++ form
  | _ => ""

/-- The line of a node at some depth; above the outermost level nothing is indented. -/
def outlineLine (depth : Int) (t : Tree) : Text :=
  Text.concat (List.replicate depth.toNat outlineIndent) ++ "- " ++ t.kind ++ label t

mutual

/-- The lines of a tree at some depth. -/
def outline (depth : Int) : Tree → List Text
  | .list ts => outlineAll depth ts
  | .node attrs =>
    if (kind (.node attrs)).isEmpty then []
    else outlineLine depth (.node attrs) :: outlineAttributes (depth + 1) attrs
  | _ => []

def outlineAll (depth : Int) : List Tree → List Text
  | [] => []
  | t :: ts => outline depth t ++ outlineAll depth ts

def outlineAttributes (depth : Int) : List (String × Tree) → List Text
  | [] => []
  | (name, t) :: attrs =>
    (if outlineSkips.contains name then [] else outline depth t) ++ outlineAttributes depth attrs

end

/-- The outline of a tree as a text in which each line is ended. -/
def outlineText (depth : Int) (t : Tree) : Text :=
  Text.concat ((outline depth t).map (· ++ "\n"))

end ClassComponent.Tree
