/-!
# Texts

A text is a sequence of code points. Most code points are characters. An escape in a script can also name
half of a surrogate pair, which is no character; two halves that stand side by side stay two code points.

* `Text.toString?` gives the characters of a text without halves. Only such a text can be written to a
  file.
* `Text.joined` shows any text: two halves that make a pair as their character, and a half that stands
  alone as the replacement character.
-/

namespace ClassComponent

/-! ## Code points -/

/-- A character, or half of a surrogate pair, counted from the first half. -/
inductive CodePoint where
  | char (c : Char)
  | half (offset : Fin 2048)
deriving DecidableEq, Repr

namespace CodePoint

instance : Inhabited CodePoint := ⟨.char ' '⟩

instance : Coe Char CodePoint := ⟨.char⟩

/-- The number of the first half. -/
def firstHalf : Nat := 0xD800

/-- The number of a code point. -/
def toNat : CodePoint → Nat
  | .char c => c.toNat
  | .half offset => firstHalf + offset

/-- The code point with a number. -/
def ofNat (n : Nat) : CodePoint :=
  if h : firstHalf ≤ n ∧ n < firstHalf + 2048 then .half ⟨n - firstHalf, by omega⟩
  else .char (Char.ofNat n)

/-- The character that a code point is. -/
def char? : CodePoint → Option Char
  | .char c => some c
  | .half _ => none

/-- Whether a code point is a character with some property. -/
def satisfies (p : CodePoint) (property : Char → Bool) : Bool :=
  p.char?.any property

/-- The character that two halves make, if they are a first and a second one. -/
def pair? (first second : CodePoint) : Option Char :=
  match first, second with
  | .half high, .half low =>
    if high.val < 0x400 && 0x400 ≤ low.val then
      some (Char.ofNat (0x10000 + 0x400 * high.val + (low.val - 0x400)))
    else none
  | _, _ => none

/-- The bytes of a code point in UTF-8, which has room for halves too. -/
def utf8 (p : CodePoint) : List UInt8 :=
  let n := p.toNat
  let tail (shift : Nat) : UInt8 := UInt8.ofNat (0x80 + n / shift % 64)
  if n < 0x80 then [UInt8.ofNat n]
  else if n < 0x800 then [UInt8.ofNat (0xC0 + n / 64), tail 1]
  else if n < 0x10000 then [UInt8.ofNat (0xE0 + n / 4096), tail 64, tail 1]
  else [UInt8.ofNat (0xF0 + n / 262144), tail 4096, tail 64, tail 1]

end CodePoint

/-! ## Texts -/

/-- A sequence of code points. -/
structure Text where
  points : List CodePoint
deriving DecidableEq, Repr

namespace Text

/-- The text of characters. -/
def ofChars (cs : List Char) : Text :=
  ⟨cs.map .char⟩

/-- A string as a text. -/
def ofString (s : String) : Text :=
  ofChars s.toList

instance : Coe String Text := ⟨ofString⟩

instance : Inhabited Text := ⟨⟨[]⟩⟩

instance : Append Text where
  append a b := ⟨a.points ++ b.points⟩

/-- Whether a text is one of `words`. -/
def isAmong (t : Text) (words : List String) : Bool :=
  words.any (ofString · == t)

/-- Whether a text has no code points. -/
def isEmpty (t : Text) : Bool :=
  t.points.isEmpty

/-- The number of code points. -/
def length (t : Text) : Nat :=
  t.points.length

/-- Texts one after the other. -/
def concat (texts : List Text) : Text :=
  ⟨texts.flatMap points⟩

/-- Texts one after the other, with `separator` between neighbours. -/
def intercalate (separator : Text) (texts : List Text) : Text :=
  ⟨List.intercalate separator.points (texts.map points)⟩

/-- Whether `a` comes before `b` or is the same, code points compared by number. -/
def before (a b : Text) : Bool :=
  let rec compare : List CodePoint → List CodePoint → Bool
    | [], _ => true
    | _ :: _, [] => false
    | p :: ps, q :: qs => p.toNat < q.toNat || (p.toNat == q.toNat && compare ps qs)
  compare a.points b.points

/-- The characters of a text without halves. -/
def toString? (t : Text) : Option String :=
  (t.points.mapM CodePoint.char?).map String.ofList

/-- Whether the text holds half of a surrogate pair. -/
def hasHalf (t : Text) : Bool :=
  t.points.any fun p => p.char?.isNone

/-- `joined` on code points. -/
def joinHalves : List CodePoint → List Char
  | [] => []
  | [p] => [p.char?.getD (Char.ofNat 0xFFFD)]
  | p :: q :: rest =>
    match CodePoint.pair? p q with
    | some c => c :: joinHalves rest
    | none => p.char?.getD (Char.ofNat 0xFFFD) :: joinHalves (q :: rest)

/-- A text as it is shown. -/
def joined (t : Text) : String :=
  String.ofList (joinHalves t.points)

/-- The bytes of a text in UTF-8. -/
def utf8 (t : Text) : List UInt8 :=
  t.points.flatMap CodePoint.utf8

end Text

end ClassComponent
