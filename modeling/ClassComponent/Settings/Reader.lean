import ClassComponent.Script.Letter
import ClassComponent.Settings.Value

/-!
# Reading setting values

The format of settings files: objects, lists, texts, numbers and the words `null`, `true`, `false`, and
also `NaN`, `Infinity` and `-Infinity`. Of two entries of an object with one key the last counts, in the
place of the first.

The readers of this module take the rest of the text and give a value and what follows it.
-/

namespace ClassComponent.Value

/-- `cs` without white space at its start. -/
def skipSpace (cs : List Char) : List Char :=
  cs.dropWhile fun c => c == ' ' || c == '\t' || c == '\n' || c == '\r'

/-- What follows `word` at the start of `cs`. -/
def afterWord? : List Char → List Char → Option (List Char)
  | [], cs => some cs
  | _ :: _, [] => none
  | w :: word, c :: cs => if w == c then afterWord? word cs else none

/-! ## Texts -/

/-- The value of the four hexadecimal digits at the start of `cs`. -/
def unit? : List Char → Option (Nat × List Char)
  | a :: b :: c :: d :: rest => do
    let a ← Script.hexValue? a
    let b ← Script.hexValue? b
    let c ← Script.hexValue? c
    let d ← Script.hexValue? d
    return (4096 * a + 256 * b + 16 * c + d, rest)
  | _ => none

/-- The second half of a pair of units at the start of `cs`. -/
def lowUnit? (cs : List Char) : Option (Nat × List Char) :=
  match cs with
  | '\\' :: 'u' :: rest =>
    match unit? rest with
    | some (n, rest) => if 0xDC00 ≤ n && n ≤ 0xDFFF then some (n, rest) else none
    | none => none
  | _ => none

/-- The code point that an escaped unit stands for, with the unit after it if the two make a pair. -/
def unitPoint (n : Nat) (rest : List Char) : CodePoint × List Char :=
  let alone := CodePoint.ofNat n
  match lowUnit? rest with
  | none => (alone, rest)
  | some (low, after) =>
    match CodePoint.pair? alone (.ofNat low) with
    | some c => (.char c, after)
    | none => (alone, rest)

/-- The character that a letter stands for after a backslash. -/
def escaped? (c : Char) : Option Char :=
  if c == '"' || c == '\\' || c == '/' then some c
  else if c == 'n' then some '\n'
  else if c == 'r' then some '\r'
  else if c == 't' then some '\t'
  else if c == 'b' then some (Char.ofNat 8)
  else if c == 'f' then some (Char.ofNat 12)
  else none

/-- The rest of a text up to its closing quote, the code points so far last one first. -/
def textRest? : Nat → List CodePoint → List Char → Option (Text × List Char)
  | 0, _, _ => none
  | _ + 1, _, [] => none
  | fuel + 1, done, c :: cs =>
    if c == '"' then some (⟨done.reverse⟩, cs)
    else if c.toNat < 32 then none
    else if c == '\\' then
      match cs with
      | 'u' :: rest =>
        match unit? rest with
        | some (n, rest) =>
          let (p, rest) := unitPoint n rest
          textRest? fuel (p :: done) rest
        | none => none
      | e :: rest =>
        match escaped? e with
        | some c => textRest? fuel (.char c :: done) rest
        | none => none
      | [] => none
    else textRest? fuel (.char c :: done) cs

/-! ## Numbers -/

/-- The number that decimal digits stand for. -/
def digitsValue (digits : List Char) : Nat :=
  digits.foldl (fun n c => 10 * n + (c.toNat - 48)) 0

/-- The digits of the whole part of a number: a zero alone, or digits that do not start with one. -/
def wholeDigits (cs : List Char) : List Char × List Char :=
  match cs with
  | '0' :: rest => (['0'], rest)
  | cs => (cs.takeWhile Char.isDigit, cs.dropWhile Char.isDigit)

/-- The digits after a point, if any follow it. -/
def fractionDigits (cs : List Char) : List Char × List Char :=
  match cs with
  | '.' :: rest =>
    let digits := rest.takeWhile Char.isDigit
    if digits.isEmpty then ([], cs) else (digits, rest.dropWhile Char.isDigit)
  | cs => ([], cs)

/-- The exponent of a number, if it has one. -/
def exponent? (cs : List Char) : Option (Int × List Char) :=
  match cs with
  | e :: rest =>
    if e != 'e' && e != 'E' then none
    else
      let (isNegative, rest) := match rest with
        | '-' :: rest => (true, rest)
        | '+' :: rest => (false, rest)
        | rest => (false, rest)
      let digits := rest.takeWhile Char.isDigit
      if digits.isEmpty then none
      else
        let n := Int.ofNat (digitsValue digits)
        some (if isNegative then -n else n, rest.dropWhile Char.isDigit)
  | [] => none

/-- The most digits that a whole number may have. -/
def digitLimit : Nat := 4300

/-- The number at the start of `cs`; its sign was read before. -/
def number? (isNegative : Bool) (cs : List Char) : Option (Value × List Char) :=
  let (whole, rest) := wholeDigits cs
  if whole.isEmpty then none
  else
    let (fraction, rest) := fractionDigits rest
    let mantissa := digitsValue (whole ++ fraction)
    let float (exponent : Int) : Value :=
      .float (.ofDecimal isNegative mantissa (exponent - fraction.length))
    match exponent? rest with
    | some (exponent, rest) => some (float exponent, rest)
    | none =>
      if !fraction.isEmpty then some (float 0, rest)
      else if whole.length > digitLimit then none
      else some (.integer (if isNegative then -(Int.ofNat mantissa) else Int.ofNat mantissa), rest)

/-! ## Values -/

/-- Entries with one more: a key that is there already gets the new value in its place. -/
def setEntry (entries : List (Text × Value)) (key : Text) (value : Value) : List (Text × Value) :=
  if entries.any (·.1 == key) then
    entries.map fun (k, v) => if k == key then (k, value) else (k, v)
  else entries ++ [(key, value)]

/-- A word or a number at the start of `cs`. -/
def word? (cs : List Char) : Option (Value × List Char) :=
  let words : List (String × Value) :=
    [("null", .null), ("true", .flag true), ("false", .flag false), ("NaN", .float .undefined),
     ("Infinity", .float (.infinity false)), ("-Infinity", .float (.infinity true))]
  match words.findSome? fun (word, value) => (afterWord? word.toList cs).map (value, ·) with
  | some found => some found
  | none =>
    match cs with
    | '-' :: rest => number? true rest
    | cs => number? false cs

mutual

/-- The value at the start of `cs`. -/
def value? : Nat → List Char → Option (Value × List Char)
  | 0, _ => none
  | fuel + 1, cs =>
    match cs with
    | '"' :: rest => (textRest? (rest.length + 1) [] rest).map fun (content, rest) => (.text content, rest)
    | '[' :: rest =>
      match skipSpace rest with
      | ']' :: rest => some (.list [], rest)
      | rest => itemsRest? fuel [] rest
    | '\x7b' :: rest =>
      match skipSpace rest with
      | '\x7d' :: rest => some (.object [], rest)
      | rest => entriesRest? fuel [] rest
    | cs => word? cs

/-- The rest of a list from an item on. -/
def itemsRest? : Nat → List Value → List Char → Option (Value × List Char)
  | 0, _, _ => none
  | fuel + 1, done, cs =>
    match value? fuel cs with
    | none => none
    | some (item, rest) =>
      match skipSpace rest with
      | ',' :: rest => itemsRest? fuel (item :: done) (skipSpace rest)
      | ']' :: rest => some (.list (item :: done).reverse, rest)
      | _ => none

/-- The rest of an object from a key on. -/
def entriesRest? : Nat → List (Text × Value) → List Char → Option (Value × List Char)
  | 0, _, _ => none
  | fuel + 1, done, cs =>
    match cs with
    | '"' :: rest =>
      match textRest? (rest.length + 1) [] rest with
      | none => none
      | some (key, rest) =>
        match skipSpace rest with
        | ':' :: rest =>
          match value? fuel (skipSpace rest) with
          | none => none
          | some (value, rest) =>
            let entries := setEntry done key value
            match skipSpace rest with
            | ',' :: rest => entriesRest? fuel entries (skipSpace rest)
            | '\x7d' :: rest => some (.object entries, rest)
            | _ => none
        | _ => none
    | _ => none

end

/-- The value that a text stands for; a byte order mark at its start is refused. -/
def parse? (text : String) : Option Value :=
  let cs := text.toList
  match value? (2 * cs.length + 2) (skipSpace cs) with
  | some (value, rest) => if (skipSpace rest).isEmpty then some value else none
  | none => none

end ClassComponent.Value
