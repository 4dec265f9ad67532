import ClassComponent.Text.Category

/-!
# Characters of scripts

The classes of characters that the lexical grammar of scripts distinguishes. Its white space and its
line ends differ from the blanks of `ClassComponent.Text`: the byte order mark is white space here,
the next-line character is not.
-/

namespace ClassComponent.Script

/-- White space inside a line. -/
def isSpace (c : Char) : Bool :=
  let n := c.toNat
  n == 9 || n == 11 || n == 12 || n == 32 || n == 0xA0 || n == 0x1680 || n == 0x180E ||
    (0x2000 ≤ n && n ≤ 0x200A) || n == 0x202F || n == 0x205F || n == 0x3000 || n == 0xFEFF

/-- The characters that end a line. -/
def isLineEnd (c : Char) : Bool :=
  c == '\n' || c == '\r' || c.toNat == 0x2028 || c.toNat == 0x2029

/-- Characters that names may start with besides letters. -/
def otherStarts : List Nat :=
  [0x1885, 0x1886, 0x2118, 0x212E, 0x309B, 0x309C]

/-- Characters that names may go on with besides letters, marks, digits and connectors. -/
def otherParts : List Nat :=
  [0xB7, 0x387, 0x1369, 0x136A, 0x136B, 0x136C, 0x136D, 0x136E, 0x136F, 0x1370, 0x1371, 0x19DA,
   0x200C, 0x200D]

/-- Characters that a name starts with; a backslash starts an escaped character. -/
def startsName (c : Char) : Bool :=
  c == '$' || c == '_' || c == '\\' || Category.isLetter c || otherStarts.contains c.toNat

/-- Characters that a name goes on with. -/
def continuesName (c : Char) : Bool :=
  startsName c || Category.isDecimal c ||
    (128 ≤ c.toNat &&
      (Category.isMark c || Category.isConnector c || otherParts.contains c.toNat))

/-- The value of a hexadecimal digit. -/
def hexValue? (c : Char) : Option Nat :=
  if c.isDigit then some (c.toNat - 48)
  else if 'a' ≤ c && c ≤ 'f' then some (c.toNat - 87)
  else if 'A' ≤ c && c ≤ 'F' then some (c.toNat - 55)
  else none

/-- The value of an octal digit. -/
def octalValue? (c : Char) : Option Nat :=
  if '0' ≤ c && c ≤ '7' then some (c.toNat - 48) else none

/-- The character that opens and closes templates. -/
def backtick : Char := Char.ofNat 0x60

end ClassComponent.Script
