import ClassComponent.Text.LetterCase
import ClassComponent.Text.Lines
import ClassComponent.Text.Quoted

/-!
# Names

How texts become names of classes and members. `isIdentifier` is the test for a name that needs no
quotes; one line break at the very end is let through. A member name that is no identifier is
quoted, and a computed name keeps its brackets.
-/

namespace ClassComponent.Text

/-- Letters and digits of ASCII. -/
def isAlnum (c : Char) : Bool :=
  c.isAlphanum

/-- Characters that an identifier starts with. -/
def startsIdentifier (c : Char) : Bool :=
  c.isAlpha || c == '_' || c == '$'

/-- Characters that an identifier goes on with. -/
def continuesIdentifier (c : Char) : Bool :=
  c.isAlphanum || c == '_' || c == '$'

/-- `isIdentifier` on code points. -/
def identifierPoints : List CodePoint → Bool
  | [] => false
  | p :: ps =>
    let rest := ps.dropWhile (·.satisfies continuesIdentifier)
    p.satisfies startsIdentifier && (rest.isEmpty || rest == [lineBreak])

/-- Whether a text can stand as a name without quotes. -/
def isIdentifier (text : Text) : Bool :=
  identifierPoints text.points

/-- Whether a text has the form of a computed name, `[…]`. -/
def isBracketed (text : Text) : Bool :=
  text.points.head? == some (.char '[') && text.points.getLast? == some (.char ']')

/-- A member name: as it is if it is an identifier or a computed name, else quoted. -/
def propertyName (text : Text) : Text :=
  if isIdentifier text || isBracketed text then text else quote text

/-- The upper case of a code point. -/
def upperPoint : CodePoint → List CodePoint
  | .char c => (LetterCase.upper c).map .char
  | .half offset => [.half offset]

/-- `capitalize` on code points. -/
def capitalizePoints : List CodePoint → List CodePoint
  | [] => []
  | p :: ps => upperPoint p ++ ps

/-- A text with its first character in upper case. -/
def capitalize (text : Text) : Text :=
  ⟨capitalizePoints text.points⟩

/-- The runs of letters and digits, each capitalized, written together. -/
def pascalFrom (inWord : Bool) : List CodePoint → List CodePoint
  | [] => []
  | p :: ps =>
    if p.satisfies isAlnum then
      (if inWord then [p] else upperPoint p) ++ pascalFrom true ps
    else
      pascalFrom false ps

/-- A text as a name in Pascal case; only ASCII letters and digits are kept. -/
def pascalCase (text : Text) : Text :=
  ⟨pascalFrom false text.points⟩

/-- A text without its code points that are no ASCII letters or digits. -/
def alnumOnly (text : Text) : Text :=
  ⟨text.points.filter (·.satisfies isAlnum)⟩

/-- The method name of a watcher: `obj.id` gives `onObjIdChange`. -/
def watcherName (path : Text) : Text :=
  let steps := (splitAt (.char '.') path.points).map fun step => capitalize (alnumOnly ⟨step⟩)
  "on" ++ concat steps ++ "Change"

end ClassComponent.Text
