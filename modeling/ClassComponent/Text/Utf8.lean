/-!
# Reading bytes as text

`decode?` accepts exactly the well-formed UTF-8 texts. `decodeLossy` reads any bytes: each longest
start of a character that cannot go on is shown as one replacement character.
`unifyLineEnds` turns the three forms of a line end into a line feed.
-/

namespace ClassComponent.Utf8

/-- The text of well-formed bytes. -/
def decode? (bytes : ByteArray) : Option String :=
  String.fromUTF8? bytes

/-- Whether `b` is a later byte of a character. -/
def isTail (b : Nat) : Bool :=
  0x80 ≤ b && b ≤ 0xBF

/-- How many bytes a character that starts with `b` has, or zero if none does. -/
def width (b : Nat) : Nat :=
  if b < 0x80 then 1
  else if 0xC2 ≤ b && b ≤ 0xDF then 2
  else if 0xE0 ≤ b && b ≤ 0xEF then 3
  else if 0xF0 ≤ b && b ≤ 0xF4 then 4
  else 0

/-- Whether `second` can follow the first byte `b` of a character. -/
def allowsSecond (b second : Nat) : Bool :=
  isTail second &&
    (b != 0xE0 || 0xA0 ≤ second) && (b != 0xED || second ≤ 0x9F) &&
    (b != 0xF0 || 0x90 ≤ second) && (b != 0xF4 || second ≤ 0x8F)

/-- The number of bytes in `rest` that can go on a character starting with `b`. -/
def matched (b : Nat) (rest : List Nat) : Nat :=
  match rest with
  | [] => 0
  | second :: more =>
    if width b < 2 || !allowsSecond b second then 0
    else 1 + ((more.take (width b - 2)).takeWhile isTail).length

/-- The code point of a whole character. -/
def codePoint (b : Nat) (tails : List Nat) : Nat :=
  let lead :=
    if width b == 1 then b else if width b == 2 then b - 0xC0
    else if width b == 3 then b - 0xE0 else b - 0xF0
  tails.foldl (fun n t => n * 64 + (t - 0x80)) lead

/-- The characters of `bytes`, the first `skip` of which belong to the character before. -/
def decodeFrom : Nat → List Nat → List Char
  | _, [] => []
  | skip + 1, _ :: rest => decodeFrom skip rest
  | 0, b :: rest =>
    let n := matched b rest
    let c := if width b == n + 1 then Char.ofNat (codePoint b (rest.take n)) else Char.ofNat 0xFFFD
    c :: decodeFrom n rest

/-- The text of any bytes. -/
def decodeLossy (bytes : ByteArray) : String :=
  String.ofList (decodeFrom 0 (bytes.toList.map UInt8.toNat))

/-- `unifyLineEnds` on characters. -/
def unifyChars : List Char → List Char
  | [] => []
  | '\r' :: '\n' :: cs => '\n' :: unifyChars cs
  | '\r' :: cs => '\n' :: unifyChars cs
  | c :: cs => c :: unifyChars cs

/-- A text in which every line ends with a line feed alone. -/
def unifyLineEnds (text : String) : String :=
  String.ofList (unifyChars text.toList)

end ClassComponent.Utf8
