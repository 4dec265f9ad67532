import ClassComponent.Text.Basic

/-!
# Quoted text

`quote` writes a text as a string literal in double quotes, in ASCII only: the quote, the backslash
and the control characters are escaped, and every code point above the first 127 is written
as one or two UTF-16 units of four lower-case hexadecimal digits.
-/

namespace ClassComponent.Text

/-- The hexadecimal digit of a number below sixteen, in lower case. -/
def hexDigit (n : Nat) : Char :=
  if n < 10 then Char.ofNat (48 + n) else Char.ofNat (87 + n)

/-- The last four hexadecimal digits of a number. -/
def fourDigits (n : Nat) : List Char :=
  [hexDigit (n / 4096 % 16), hexDigit (n / 256 % 16), hexDigit (n / 16 % 16), hexDigit (n % 16)]

/-- A UTF-16 unit as an escape sequence. -/
def escapeUnit (n : Nat) : List Char :=
  '\\' :: 'u' :: fourDigits n

/-- A character inside a quoted text. -/
def escapeChar (c : Char) : List Char :=
  if c == '"' then ['\\', '"']
  else if c == '\\' then ['\\', '\\']
  else if c == '\n' then ['\\', 'n']
  else if c == '\r' then ['\\', 'r']
  else if c == '\t' then ['\\', 't']
  else if c.toNat == 8 then ['\\', 'b']
  else if c.toNat == 12 then ['\\', 'f']
  else if 32 ≤ c.toNat && c.toNat < 127 then [c]
  else if c.toNat < 0x10000 then escapeUnit c.toNat
  else
    let rest := c.toNat - 0x10000
    escapeUnit (0xD800 + rest / 0x400) ++ escapeUnit (0xDC00 + rest % 0x400)

/-- A code point inside a quoted text; half of a surrogate pair is a unit of its own. -/
def escapePoint : CodePoint → List Char
  | .char c => escapeChar c
  | .half offset => escapeUnit (CodePoint.half offset).toNat

/-- `ps` in double quotes. -/
def quotePoints (ps : List CodePoint) : List Char :=
  '"' :: (ps.flatMap escapePoint ++ ['"'])

/-- `text` as a string literal. -/
def quote (text : Text) : Text :=
  ofChars (quotePoints text.points)

end ClassComponent.Text
