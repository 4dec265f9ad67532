import ClassComponent.Number.Binary64
import ClassComponent.Text.Shown

/-!
# Setting values

The values that a settings file can hold. A setting takes any value: where a switch is needed it counts
whether the value is something, where a text is needed the value is written out.
-/

namespace ClassComponent

/-- A value of a settings file. -/
inductive Value where
  | null
  | flag (value : Bool)
  | integer (value : Int)
  | float (value : Binary64)
  | text (value : Text)
  | list (items : List Value)
  | object (entries : List (Text × Value))
deriving Inhabited, Repr

namespace Value

/-- Whether a value is more than nothing. -/
def isFilled : Value → Bool
  | .null => false
  | .flag value => value
  | .integer value => value != 0
  | .float value => !value.isZero
  | .text value => !value.isEmpty
  | .list items => !items.isEmpty
  | .object entries => !entries.isEmpty

/-- The text that a value is. -/
def text? : Value → Option Text
  | .text value => some value
  | _ => none

/-- The entry of an object with a key. -/
def find? (v : Value) (key : Text) : Option Value :=
  match v with
  | .object entries => entries.lookup key
  | _ => none

/-! ## Numbers -/

/-- The digits of a number without the zeros at its end, and how many of those there were. -/
def trimZeros (digits : List Char) : List Char × Nat :=
  let kept := (digits.reverse.dropWhile (· == '0')).reverse
  (kept, digits.length - kept.length)

/-- A positive decimal number: digits with a point among them while its size allows, else with an
exponent of two digits at least. -/
def decimalText (mantissa : Nat) (exponent : Int) : String :=
  let (digits, zeros) := trimZeros (Nat.toDigits 10 mantissa)
  let exponent := exponent + zeros
  let point : Int := digits.length + exponent
  let text (cs : List Char) : String := String.ofList cs
  if -4 < point && point ≤ 16 then
    if point ≤ 0 then "0." ++ text (List.replicate (-point).toNat '0' ++ digits)
    else if 0 ≤ exponent then text (digits ++ List.replicate exponent.toNat '0') ++ ".0"
    else text (digits.take point.toNat) ++ "." ++ text (digits.drop point.toNat)
  else
    let power := Nat.toDigits 10 (point - 1).natAbs
    let power := if power.length < 2 then '0' :: power else power
    let fraction := if digits.length == 1 then [] else '.' :: digits.tail
    text (digits.take 1 ++ fraction) ++ "e" ++ (if point - 1 < 0 then "-" else "+") ++ text power

/-- A number of the binary format, in the fewest digits. -/
def floatText : Binary64 → String
  | .finite isNegative mantissa exponent =>
    let (digits, power) := Binary64.shortest mantissa exponent
    (if isNegative then "-" else "") ++ if mantissa == 0 then "0.0" else decimalText digits power
  | .infinity isNegative => if isNegative then "-inf" else "inf"
  | .undefined => "nan"

/-! ## Texts -/

/-- A value that holds no others, written out; `isInner` inside another value, where texts are
quoted. -/
def plainText (isInner : Bool) : Value → Text
  | .null => "None"
  | .flag value => if value then "True" else "False"
  | .integer value => toString value
  | .float value => floatText value
  | .text value => if isInner then Text.shown value else value
  | .list _ => ""
  | .object _ => ""

mutual

/-- A value written out inside another. -/
def innerText : Value → Text
  | .list items => "[" ++ Text.intercalate ", " (innerTexts items) ++ "]"
  | .object entries => "\x7b" ++ Text.intercalate ", " (entryTexts entries) ++ "\x7d"
  | v => plainText true v

def innerTexts : List Value → List Text
  | [] => []
  | v :: vs => innerText v :: innerTexts vs

def entryTexts : List (Text × Value) → List Text
  | [] => []
  | (key, v) :: entries => (Text.shown key ++ ": " ++ innerText v) :: entryTexts entries

end

/-- A value written out. -/
def toText : Value → Text
  | .text value => value
  | v => innerText v

end Value

end ClassComponent
