import ClassComponent.Text.Category

/-!
# Words and caseless letters

`isWord` holds of the characters that make up words, `wordEdge` says where a word starts or ends.
`sameLetter` compares a lower-case ASCII letter with any character, without regard to case: besides
the two ASCII cases, the long s is an s, the dotted capital I and the dotless small i are an i, and
the Kelvin sign is a k.
-/

namespace ClassComponent.Text

/-- Letters, digits, other numeric characters and the low line. -/
def isWord (c : Char) : Bool :=
  c == '_' || Category.isLetter c || Category.isDecimal c || Category.isNumeral c

/-- Whether a word starts or ends between two neighbours; `none` stands for the end of the text. -/
def wordEdge (before after : Option Char) : Bool :=
  before.any isWord != after.any isWord

/-- Whether `c` is the letter `letter`, in any case. -/
def sameLetter (letter c : Char) : Bool :=
  c == letter || c == letter.toUpper ||
    (letter == 's' && c.toNat == 0x17F) ||
    (letter == 'k' && c.toNat == 0x212A) ||
    (letter == 'i' && (c.toNat == 0x130 || c.toNat == 0x131))

/-- What follows `word` at the start of `cs`, letters compared without regard to case. -/
def dropCaseless? : List Char → List Char → Option (List Char)
  | [], cs => some cs
  | _ :: _, [] => none
  | w :: word, c :: cs => if sameLetter w c then dropCaseless? word cs else none

end ClassComponent.Text
