import ClassComponent.Options.Vocabulary

/-!
# Members of a class

What a class component is made of: fields, methods and accessors, and fields bound to a store. Code
inside them is kept as the text of the script.
-/

namespace ClassComponent

/-- A field: `@Prop({…}) public a;` or `private b = 1;`. -/
structure Field where
  name : Text
  modifiers : List Text := []
  initializer? : Option Text := none
  decorators : List Text := []
deriving DecidableEq, Repr, Inhabited

/-- The two kinds of accessors. -/
inductive Accessor where
  | get
  | set
deriving DecidableEq, Repr, Inhabited

/-- The word that an accessor starts with. -/
def Accessor.word : Accessor → String
  | .get => "get"
  | .set => "set"

/-- The accessor that starts with a word. -/
def Accessor.ofWord? (word : Text) : Option Accessor :=
  if word == "get" then some .get else if word == "set" then some .set else none

/-- The block of a method without a body. -/
def emptyBlock : Text := "\x7b\n\x7d"

/-- A method or an accessor; `body` is a block. -/
structure Method where
  name : Text
  params : List Text := []
  body : Text := emptyBlock
  decorators : List Text := []
  modifiers : List Text := []
  accessor? : Option Accessor := none
  isGenerator : Bool := false
deriving DecidableEq, Repr, Inhabited

/-- A member that is either. -/
inductive Member where
  | field (value : Field)
  | method (value : Method)
deriving DecidableEq, Repr, Inhabited

/-- The name of a member. -/
def Member.name : Member → Text
  | .field f => f.name
  | .method m => m.name

/-- A field bound to a store: by which tool, through which part of the store, and to what. `getter` is
the text of a function or of a quoted string. -/
structure StoreBinding where
  tool : StoreTool
  name : Text
  scope? : Option Text := none
  getter : Text
deriving DecidableEq, Repr, Inhabited

end ClassComponent
