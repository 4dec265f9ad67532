import ClassComponent.Span

/-!
# Syntax trees

A tree of a script is made of nodes, and a node is a list of named attributes: its `type`, its
`range` in the script, and whatever parts a node of that type has, in a fixed order. Trees also come
from outside, with attributes left out or empty, so looking up an attribute never fails:
`Tree.get` gives `null` for one that is missing.

Where it only matters whether there is something, `Tree.isFilled` decides: `null`, `false`, zero, the
empty text, the empty list and the node without attributes count as nothing.
-/

namespace ClassComponent

/-- A node of a syntax tree, or a value that a node holds. -/
inductive Tree where
  | null
  | flag (value : Bool)
  /-- The number `mantissa * 10 ^ exponent`. -/
  | number (mantissa exponent : Int)
  | text (value : Text)
  | list (items : List Tree)
  | node (attributes : List (String × Tree))
deriving Inhabited

namespace Tree

/-! ## Attributes -/

/-- The attributes of a node. -/
def attributes : Tree → List (String × Tree)
  | .node attrs => attrs
  | _ => []

/-- The attribute `name`, if the node has it. -/
def get? (t : Tree) (name : String) : Option Tree :=
  t.attributes.lookup name

/-- The attribute `name`, or `null`. -/
def get (t : Tree) (name : String) : Tree :=
  (t.get? name).getD .null

/-- Whether there is something. -/
def isFilled : Tree → Bool
  | .null => false
  | .flag value => value
  | .number mantissa _ => mantissa != 0
  | .text value => !value.isEmpty
  | .list items => !items.isEmpty
  | .node attrs => !attrs.isEmpty

/-- Whether the attribute `name` holds something. -/
def has (t : Tree) (name : String) : Bool :=
  (t.get name).isFilled

/-- The type of a node; empty if it has none. -/
def kind (t : Tree) : String :=
  match t.get "type" with
  | .text k => k.toString?.getD ""
  | _ => ""

theorem isFilled_of_kind {t : Tree} (h : t.kind ≠ "") : t.isFilled := by
  cases t with
  | node attrs =>
    cases attrs with
    | nil => exact absurd rfl h
    | cons attr attrs => rfl
  | _ => exact absurd rfl h

/-- The elements of a list. -/
def items : Tree → List Tree
  | .list ts => ts
  | _ => []

/-- The text that a value is. -/
def text? : Tree → Option Text
  | .text s => some s
  | _ => none

/-- Whether a value is the text `word`. -/
def isWord (t : Tree) (word : String) : Bool :=
  t.text? == some (Text.ofString word)

/-- A number that counts something. -/
def natural? : Tree → Option Nat
  | .number (.ofNat n) 0 => some n
  | _ => none

/-- The stretch of the script that a node was read from. -/
def span? (t : Tree) : Option Span :=
  match t.get "range" with
  | .list [start, stop] => do return ⟨← start.natural?, ← stop.natural?⟩
  | _ => none

/-! ## Building nodes -/

/-- A count as a tree. -/
def ofNat (n : Nat) : Tree :=
  .number (Int.ofNat n) 0

/-- A span as the value of the attribute `range`. -/
def ofSpan (s : Span) : Tree :=
  .list [ofNat s.start, ofNat s.stop]

/-- A node of type `kind` with the given parts. -/
def make (kind : String) (span : Span) (parts : List (String × Tree)) : Tree :=
  .node (("type", .text kind) :: (parts ++ [("range", ofSpan span)]))

/-- The node with the attribute `name` set to `value`, in its place. -/
def set (t : Tree) (name : String) (value : Tree) : Tree :=
  .node (t.attributes.map fun (n, v) => if n == name then (n, value) else (n, v))

/-- The node without the attribute `name`. -/
def erase (t : Tree) (name : String) : Tree :=
  .node (t.attributes.filter fun (n, _) => n != name)

/-! ## Weight -/

mutual

/-- The number of values in a tree. -/
def weight : Tree → Nat
  | .list ts => weights ts + 1
  | .node attrs => attributeWeights attrs + 1
  | _ => 1

def weights : List Tree → Nat
  | [] => 0
  | t :: ts => weight t + weights ts

def attributeWeights : List (String × Tree) → Nat
  | [] => 0
  | (_, t) :: attrs => weight t + attributeWeights attrs

end

end Tree

end ClassComponent
