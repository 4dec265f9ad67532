import ClassComponent.Text.Quoted

/-!
# Message digest

The MD5 digest of a text's UTF-8 bytes, as hexadecimal digits. Its first digits tell apart names
that would otherwise clash; nothing here relies on it being hard to invert.
-/

namespace ClassComponent.Digest

/-- The four words that a digest is computed in. -/
structure Chain where
  a : UInt32
  b : UInt32
  c : UInt32
  d : UInt32

/-- Where every digest starts. -/
def Chain.start : Chain :=
  ⟨0x67452301, 0xefcdab89, 0x98badcfe, 0x10325476⟩

/-- The word added in each of the 64 rounds. -/
def roundWords : Array UInt32 :=
  #[0xd76aa478, 0xe8c7b756, 0x242070db, 0xc1bdceee, 0xf57c0faf, 0x4787c62a,
    0xa8304613, 0xfd469501, 0x698098d8, 0x8b44f7af, 0xffff5bb1, 0x895cd7be,
    0x6b901122, 0xfd987193, 0xa679438e, 0x49b40821, 0xf61e2562, 0xc040b340,
    0x265e5a51, 0xe9b6c7aa, 0xd62f105d, 0x02441453, 0xd8a1e681, 0xe7d3fbc8,
    0x21e1cde6, 0xc33707d6, 0xf4d50d87, 0x455a14ed, 0xa9e3e905, 0xfcefa3f8,
    0x676f02d9, 0x8d2a4c8a, 0xfffa3942, 0x8771f681, 0x6d9d6122, 0xfde5380c,
    0xa4beea44, 0x4bdecfa9, 0xf6bb4b60, 0xbebfbc70, 0x289b7ec6, 0xeaa127fa,
    0xd4ef3085, 0x04881d05, 0xd9d4d039, 0xe6db99e5, 0x1fa27cf8, 0xc4ac5665,
    0xf4292244, 0x432aff97, 0xab9423a7, 0xfc93a039, 0x655b59c3, 0x8f0ccc92,
    0xffeff47d, 0x85845dd1, 0x6fa87e4f, 0xfe2ce6e0, 0xa3014314, 0x4e0811a1,
    0xf7537e82, 0xbd3af235, 0x2ad7d2bb, 0xeb86d391]

/-- How far each round rotates: four amounts in turn for each quarter of the rounds. -/
def rotation (round : Nat) : UInt32 :=
  let amounts : Array UInt32 := #[7, 12, 17, 22, 5, 9, 14, 20, 4, 11, 16, 23, 6, 10, 15, 21]
  amounts.getD (round / 16 * 4 + round % 4) 0

/-- `w` rotated to the left by `n` bits, `0 < n < 32`. -/
def rotateLeft (w n : UInt32) : UInt32 :=
  (w <<< n) ||| (w >>> (32 - n))

/-- One round over a block of sixteen words. -/
def round (block : Array UInt32) (s : Chain) (i : Nat) : Chain :=
  let (mixed, index) :=
    if i < 16 then ((s.b &&& s.c) ||| (~~~s.b &&& s.d), i)
    else if i < 32 then ((s.d &&& s.b) ||| (~~~s.d &&& s.c), (5 * i + 1) % 16)
    else if i < 48 then (s.b ^^^ s.c ^^^ s.d, (3 * i + 5) % 16)
    else (s.c ^^^ (s.b ||| ~~~s.d), (7 * i) % 16)
  let sum := s.a + mixed + roundWords.getD i 0 + block.getD index 0
  ⟨s.d, s.b + rotateLeft sum (rotation i), s.b, s.c⟩

/-- All rounds over a block, added to the chain before it. -/
def absorb (s : Chain) (block : Array UInt32) : Chain :=
  let t := (List.range 64).foldl (round block) s
  ⟨s.a + t.a, s.b + t.b, s.c + t.c, s.d + t.d⟩

/-- The `n` lowest bytes of a number, the lowest first. -/
def lowBytes : Nat → Nat → List UInt8
  | 0, _ => []
  | n + 1, value => UInt8.ofNat (value % 256) :: lowBytes n (value / 256)

/-- A message with the mark of its end, zeros up to a whole number of blocks and its length in
bits. -/
def padded (message : List UInt8) : Array UInt8 :=
  let zeros := (119 - message.length % 64) % 64
  (message ++ 0x80 :: List.replicate zeros 0 ++ lowBytes 8 (8 * message.length)).toArray

/-- The word at byte `i`, its lowest byte first. -/
def wordAt (bytes : Array UInt8) (i : Nat) : UInt32 :=
  let byte (k : Nat) : UInt32 := (bytes.getD (i + k) 0).toUInt32
  byte 0 ||| (byte 1 <<< 8) ||| (byte 2 <<< 16) ||| (byte 3 <<< 24)

/-- The block of sixteen words that starts at byte `i`. -/
def blockAt (bytes : Array UInt8) (i : Nat) : Array UInt32 :=
  ((List.range 16).map fun k => wordAt bytes (i + 4 * k)).toArray

/-- The digest of a message. -/
def ofBytes (message : List UInt8) : List UInt8 :=
  let bytes := padded message
  let s := (List.range (bytes.size / 64)).foldl (fun s k => absorb s (blockAt bytes (64 * k))) .start
  [s.a, s.b, s.c, s.d].flatMap fun w => lowBytes 4 w.toNat

/-- The hexadecimal digits of a byte, the high one first. -/
def byteDigits (byte : UInt8) : List Char :=
  [Text.hexDigit (byte.toNat / 16), Text.hexDigit (byte.toNat % 16)]

/-- The digest of a text as 32 hexadecimal digits. -/
def digits (text : Text) : List Char :=
  (ofBytes text.utf8).flatMap byteDigits

/-- The first `length` digits of a text's digest; a length below zero leaves digits out at the end. -/
def head (text : Text) (length : Int) : Text :=
  .ofChars ((digits text).take (if length < 0 then 32 + length else length).toNat)

/-- The four digits that are put after a name to tell it from another. -/
def short (text : Text) : Text :=
  head text 4

end ClassComponent.Digest
