import ClassComponent.Text.Basic

/-!
# Blank characters

White space and separators as the layout of fragments sees them: the ASCII blanks, the four
information separators and the spaces and line separators of Unicode. The zero-width characters and
the byte order mark are not blank.
-/

namespace ClassComponent.Text

/-- Whether a character is blank. -/
def isBlank (c : Char) : Bool :=
  let n := c.toNat
  (9 ≤ n && n ≤ 13) || (28 ≤ n && n ≤ 32) || n == 0x85 || n == 0xA0 || n == 0x1680 ||
    (0x2000 ≤ n && n ≤ 0x200A) || n == 0x2028 || n == 0x2029 || n == 0x202F || n == 0x205F ||
    n == 0x3000

/-- Whether a code point is a blank character. -/
def isBlankPoint (p : CodePoint) : Bool :=
  p.satisfies isBlank

/-- Whether all code points are blank. -/
def allBlank (ps : List CodePoint) : Bool :=
  ps.all isBlankPoint

/-- A text without the blanks it starts with. -/
def trimStart (t : Text) : Text :=
  ⟨t.points.dropWhile isBlankPoint⟩

/-- A text without the blanks it ends with. -/
def trimEnd (t : Text) : Text :=
  ⟨(t.points.reverse.dropWhile isBlankPoint).reverse⟩

/-- The number of blanks that code points start with. -/
def blankWidth (ps : List CodePoint) : Nat :=
  (ps.takeWhile isBlankPoint).length

end ClassComponent.Text
