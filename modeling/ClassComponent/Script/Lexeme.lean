import ClassComponent.Script.Fault
import ClassComponent.Script.Letter
import ClassComponent.Script.Token

/-!
# Lexemes

Reading tokens and comments from the characters of a script. A `Cursor` is a place in the script: the
offset, the line and the open braces, which tell whether a closing brace goes on a template.

* `skipTrivia` passes over white space, line ends and comments.
* `lexeme` reads the token at a cursor. A slash is read as a punctuator; where the grammar expects an
  operand instead, `regexLexeme` reads a regular expression.
-/

namespace ClassComponent.Script

/-- An open brace: of a block or object, or of an expression inside a template. -/
inductive Brace where
  | plain
  | substitution
deriving DecidableEq, Repr

/-- A place in a script. -/
structure Cursor where
  pos : Nat
  line : Nat
  braces : List Brace
deriving Repr, Inhabited

/-- The first offset from `pos` on whose character satisfies `stop`, or the end of the text. -/
def seek (text : Array Char) (stop : Char → Bool) (pos : Nat) : Nat :=
  if h : pos < text.size then
    if stop text[pos] then pos else seek text stop (pos + 1)
  else pos
termination_by text.size - pos

/-- The characters of a stretch of the script. -/
def excerpt (text : Array Char) (span : Span) : String :=
  String.ofList (text.extract span.start span.stop).toList

/-- Whether the characters of `word` stand at `pos`. -/
def standsAt (text : Array Char) (word : String) (pos : Nat) : Bool :=
  (text.extract pos (pos + word.length)).toList == word.toList

/-- The offset after the line end at `pos`. -/
def afterLineEnd (text : Array Char) (pos : Nat) : Nat :=
  if text[pos]? == some '\r' && text[pos + 1]? == some '\n' then pos + 2 else pos + 1

/-! ## Comments -/

/-- The offset after a block comment and the line there; `pos` lies inside the comment. A comment
that is never closed ends with the text. -/
def blockCommentEnd (text : Array Char) (pos line : Nat) : Nat × Nat :=
  if h : pos < text.size then
    if text[pos] == '\r' && text[pos + 1]? == some '\n' then
      blockCommentEnd text (pos + 2) (line + 1)
    else if isLineEnd text[pos] then blockCommentEnd text (pos + 1) (line + 1)
    else if text[pos] == '*' && text[pos + 1]? == some '/' then (pos + 2, line)
    else blockCommentEnd text (pos + 1) line
  else (pos, line)
termination_by text.size - pos

/-- The cursor after a comment that runs to the end of its line, and the span of the comment, whose
text starts at `pos`. -/
def lineComment (text : Array Char) (c : Cursor) (pos : Nat) : Cursor × Span :=
  let stop := seek text isLineEnd pos
  let next : Cursor :=
    if stop < text.size then { c with pos := afterLineEnd text stop, line := c.line + 1 }
    else { c with pos := stop }
  (next, ⟨c.pos, stop⟩)

/-- Passes over white space, line ends and comments; gives the spans of the comments, the last one
first. `html` lets `<!--` start a comment, `fresh` says that nothing but those stands on the line so
far, so that `-->` starts a comment. -/
def skipTriviaFrom (text : Array Char) (html : Bool) :
    Nat → Bool → Cursor → List Span → Cursor × List Span
  | 0, _, c, comments => (c, comments)
  | fuel + 1, fresh, c, comments =>
    match text[c.pos]? with
    | none => (c, comments)
    | some ch =>
      if isSpace ch then skipTriviaFrom text html fuel fresh { c with pos := c.pos + 1 } comments
      else if isLineEnd ch then
        skipTriviaFrom text html fuel true
          { c with pos := afterLineEnd text c.pos, line := c.line + 1 } comments
      else if standsAt text "//" c.pos then
        let (next, span) := lineComment text c (c.pos + 2)
        skipTriviaFrom text html fuel true next (span :: comments)
      else if standsAt text "/*" c.pos then
        let (stop, line) := blockCommentEnd text (c.pos + 2) c.line
        skipTriviaFrom text html fuel fresh { c with pos := stop, line }
          (⟨c.pos, stop⟩ :: comments)
      else if fresh && standsAt text "-->" c.pos then
        let (next, span) := lineComment text c (c.pos + 3)
        skipTriviaFrom text html fuel true next (span :: comments)
      else if html && standsAt text "<!--" c.pos then
        let (next, span) := lineComment text c (c.pos + 4)
        skipTriviaFrom text html fuel fresh next (span :: comments)
      else (c, comments)

/-- Passes over white space, line ends and comments, and gives the spans of the comments in
order. -/
def skipTrivia (text : Array Char) (html : Bool) (c : Cursor) : Cursor × List Span :=
  let (next, comments) := skipTriviaFrom text html (text.size + 1) (c.pos == 0) c []
  (next, comments.reverse)

/-! ## Escapes -/

/-- The value of exactly `count` hexadecimal digits at `pos`, and the offset after them. -/
def hexDigits? (text : Array Char) : Nat → Nat → Nat → Option (Nat × Nat)
  | 0, pos, value => some (value, pos)
  | count + 1, pos, value =>
    match text[pos]?.bind hexValue? with
    | some digit => hexDigits? text count (pos + 1) (16 * value + digit)
    | none => none

/-- The value of the digits from `start` up to `stop` in base `base`. -/
def digitsValue (text : Array Char) (base : Nat) (start stop : Nat) : Nat :=
  (text.extract start stop).foldl (fun n c => base * n + (hexValue? c).getD 0) 0

/-- A code point in braces: `pos` lies after the opening brace. -/
def bracedCodePoint? (text : Array Char) (pos : Nat) : Option (Nat × Nat) :=
  let stop := seek text (fun c => (hexValue? c).isNone) pos
  let value := digitsValue text 16 pos stop
  if stop > pos && text[stop]? == some '\x7d' && value ≤ 0x10FFFF then some (value, stop + 1) else none

/-- An escape after `\u`: a code point in braces or four digits. -/
def unicodeEscape? (text : Array Char) (pos : Nat) : Option (Nat × Nat) :=
  if text[pos]? == some '\x7b' then bracedCodePoint? text (pos + 1) else hexDigits? text 4 pos 0

/-- An octal escape whose first digit stands at `pos`: up to three digits if it is at most 3, else up
to two. -/
def octalEscape (text : Array Char) (pos : Nat) : Nat × Nat :=
  let digit (i : Nat) : Option Nat := text[i]?.bind octalValue?
  let first := (digit pos).getD 0
  match digit (pos + 1) with
  | none => (first, pos + 1)
  | some second =>
    match if first ≤ 3 then digit (pos + 2) else none with
    | none => (8 * first + second, pos + 2)
    | some third => (64 * first + 8 * second + third, pos + 3)

/-- The fault of characters that make no token. -/
def Cursor.illegal (c : Cursor) : Fault :=
  ⟨c.line, .illegal⟩

/-! ## Names -/

/-- An escaped character of a name: `pos` lies after the backslash. Four digits must name a character
that satisfies `fits`. -/
def nameEscape? (text : Array Char) (fits : Char → Bool) (pos : Nat) : Option (CodePoint × Nat) :=
  if text[pos]? != some 'u' then none
  else match unicodeEscape? text (pos + 1) with
    | none => none
    | some (value, next) =>
      let p := CodePoint.ofNat value
      if text[pos + 1]? == some '\x7b' || p.satisfies (fun c => c != '\\' && fits c) then some (p, next)
      else none

/-- The rest of a name with escapes, its code points so far last one first. -/
def escapedName? (text : Array Char) : Nat → Nat → List CodePoint → Option (Text × Nat)
  | 0, _, _ => none
  | fuel + 1, pos, name =>
    match text[pos]? with
    | none => some (⟨name.reverse⟩, pos)
    | some c =>
      if c == '\\' then
        match nameEscape? text continuesName (pos + 1) with
        | none => none
        | some (escaped, next) => escapedName? text fuel next (escaped :: name)
      else if continuesName c then escapedName? text fuel (pos + 1) (.char c :: name)
      else some (⟨name.reverse⟩, pos)

/-- The name at `pos` and the offset after it. -/
def name? (text : Array Char) (pos : Nat) : Option (Text × Nat) :=
  let plain := seek text (fun c => c == '\\' || !continuesName c) pos
  if text[plain]? != some '\\' then some (excerpt text ⟨pos, plain⟩, plain)
  else if plain == pos then
    match nameEscape? text startsName (pos + 1) with
    | none => none
    | some (escaped, next) => escapedName? text (text.size + 1) next [escaped]
  else escapedName? text (text.size + 1) pos []

/-- The name or keyword at a cursor. -/
def nameLexeme (text : Array Char) (c : Cursor) : Except Fault (Token × Cursor) :=
  match name? text c.pos with
  | none => .error c.illegal
  | some (name, stop) =>
    let kind := if name.length == 1 then .identifier else wordKind name
    .ok (⟨kind, name, ⟨c.pos, stop⟩, c.line⟩, { c with pos := stop })

/-! ## Numbers -/

/-- A number token up to `stop`, unless a name or a digit follows directly. -/
def numberToken (text : Array Char) (c : Cursor) (stop : Nat) (digitAfter : Bool) (kind : TokenKind) :
    Except Fault (Token × Cursor) :=
  if text[stop]?.any (fun ch => startsName ch || (digitAfter && ch.isDigit)) then .error c.illegal
  else
    let span : Span := ⟨c.pos, stop⟩
    .ok (⟨kind, excerpt text span, span, c.line⟩, { c with pos := stop })

/-- A number with a letter for its base: digits of that base from the third character on. -/
def basedNumber (text : Array Char) (c : Cursor) (base : Nat) : Except Fault (Token × Cursor) :=
  let start := c.pos + 2
  let stop := seek text (fun ch => !(hexValue? ch).any (· < base)) start
  if stop == start then .error c.illegal
  else numberToken text c stop (base < 10) (.integer (digitsValue text base start stop) false)

/-- Whether the digits after a leading zero are all octal. -/
def allOctal (text : Array Char) (pos : Nat) : Bool :=
  let stop := seek text (fun ch => (octalValue? ch).isNone) pos
  !(text[stop]?.any fun ch => ch == '8' || ch == '9')

/-- A decimal number: digits, a fraction and an exponent, each optional. -/
def decimalNumber (text : Array Char) (c : Cursor) : Except Fault (Token × Cursor) :=
  let notDigit (ch : Char) : Bool := !ch.isDigit
  let whole := seek text notDigit c.pos
  let fraction := if text[whole]? == some '.' then seek text notDigit (whole + 1) else whole
  let places := fraction - whole - 1
  let mantissa :=
    digitsValue text 10 c.pos whole * Nat.pow 10 places + digitsValue text 10 (whole + 1) fraction
  let shift : Int := -(Int.ofNat places)
  if text[fraction]?.any (fun ch => ch == 'e' || ch == 'E') then
    let sign := text[fraction + 1]?
    let start := if sign == some '+' || sign == some '-' then fraction + 2 else fraction + 1
    let stop := seek text notDigit start
    if stop == start then .error c.illegal
    else
      let power : Int := digitsValue text 10 start stop
      let exponent := shift + if sign == some '-' then -power else power
      numberToken text c stop false (.number mantissa exponent)
  else numberToken text c fraction false (.number mantissa shift)

/-- The number at a cursor. -/
def numberLexeme (text : Array Char) (c : Cursor) : Except Fault (Token × Cursor) :=
  let second := text[c.pos + 1]?
  if text[c.pos]? != some '0' then decimalNumber text c
  else if second == some 'x' || second == some 'X' then basedNumber text c 16
  else if second == some 'b' || second == some 'B' then basedNumber text c 2
  else if second == some 'o' || second == some 'O' then basedNumber text c 8
  else if (second.bind octalValue?).isSome && allOctal text (c.pos + 1) then
    let stop := seek text (fun ch => (octalValue? ch).isNone) c.pos
    numberToken text c stop true (.integer (digitsValue text 8 c.pos stop) true)
  else decimalNumber text c

/-! ## Strings and templates -/

/-- What an escape stands for. -/
inductive Escape where
  /-- A code point; the next offset. -/
  | unit (value next : Nat)
  /-- A line end that is left out; the next offset. -/
  | lineEnd (next : Nat)
  | refused

/-- The control characters with an escape of one letter. -/
def letterEscape? (c : Char) : Option Nat :=
  if c == 'n' then some 10 else if c == 'r' then some 13 else if c == 't' then some 9
  else if c == 'b' then some 8 else if c == 'f' then some 12 else if c == 'v' then some 11
  else none

/-- An escape in a string: `pos` lies after the backslash. -/
def stringEscape (text : Array Char) (pos : Nat) : Escape :=
  match text[pos]? with
  | none => .refused
  | some c =>
    if isLineEnd c then .lineEnd (afterLineEnd text pos)
    else if c == 'u' then
      match unicodeEscape? text (pos + 1) with
      | some (value, next) => .unit value next
      | none => .refused
    else if c == 'x' then
      match hexDigits? text 2 (pos + 1) 0 with
      | some (value, next) => .unit value next
      | none => .refused
    else match letterEscape? c with
      | some value => .unit value (pos + 1)
      | none =>
        if (octalValue? c).isSome then
          let (value, next) := octalEscape text pos
          .unit value next
        else .unit c.toNat (pos + 1)

/-- The rest of a string, its code points so far last one first; gives the offset after the closing
quote and the line there. -/
def stringRest (text : Array Char) (quote : Char) :
    Nat → Nat → Nat → List Nat → Option (List Nat × Nat × Nat)
  | 0, _, _, _ => none
  | fuel + 1, pos, line, units =>
    match text[pos]? with
    | none => none
    | some c =>
      if c == quote then some (units.reverse, pos + 1, line)
      else if c == '\\' then
        match stringEscape text (pos + 1) with
        | .unit value next => stringRest text quote fuel next line (value :: units)
        | .lineEnd next => stringRest text quote fuel next (line + 1) units
        | .refused => none
      else if isLineEnd c then none
      else stringRest text quote fuel (pos + 1) line (c.toNat :: units)

/-- The string at a cursor. -/
def stringLexeme (text : Array Char) (quote : Char) (c : Cursor) : Except Fault (Token × Cursor) :=
  match stringRest text quote (text.size + 1) (c.pos + 1) c.line [] with
  | none => .error c.illegal
  | some (units, stop, line) =>
    .ok (⟨.string, ⟨units.map .ofNat⟩, ⟨c.pos, stop⟩, line⟩, { c with pos := stop, line })

/-- An escape in a template: `pos` lies after the backslash. Octal escapes are refused, and a
malformed `\u` stands for the letter. -/
def templateEscape (text : Array Char) (pos : Nat) : Escape :=
  match text[pos]? with
  | none => .refused
  | some c =>
    if c == 'u' then
      match unicodeEscape? text (pos + 1) with
      | some (value, next) => .unit value next
      | none => if text[pos + 1]? == some '\x7b' then .refused else .unit c.toNat (pos + 1)
    else if c == '0' then
      if text[pos + 1]?.any Char.isDigit then .refused else .unit 0 (pos + 1)
    else if (octalValue? c).isSome then .refused
    else stringEscape text pos

/-- The offset after a piece of a template and the line there, and whether the piece closes the
template. -/
def templateRest (text : Array Char) : Nat → Nat → Nat → Option (Nat × Nat × Bool)
  | 0, _, _ => none
  | fuel + 1, pos, line =>
    match text[pos]? with
    | none => none
    | some c =>
      if c == backtick then some (pos + 1, line, true)
      else if c == '$' && text[pos + 1]? == some '\x7b' then some (pos + 2, line, false)
      else if c == '\\' then
        match templateEscape text (pos + 1) with
        | .unit _ next => templateRest text fuel next line
        | .lineEnd next => templateRest text fuel next (line + 1)
        | .refused => none
      else if isLineEnd c then templateRest text fuel (afterLineEnd text pos) (line + 1)
      else templateRest text fuel (pos + 1) line

/-- The piece of a template at a cursor. A piece that goes on a template keeps the brace of the
expression before it if another expression follows. -/
def templateLexeme (text : Array Char) (c : Cursor) : Except Fault (Token × Cursor) :=
  let opens := text[c.pos]? == some backtick
  match templateRest text (text.size + 1) (c.pos + 1) c.line with
  | none => .error c.illegal
  | some (stop, line, closes) =>
    let braces :=
      match opens, closes with
      | true, false => .substitution :: c.braces
      | false, true => c.braces.tail
      | _, _ => c.braces
    let trail := if closes then 1 else 2
    .ok (⟨.template opens closes, excerpt text ⟨c.pos + 1, stop - trail⟩, ⟨c.pos, stop⟩, line⟩,
      { pos := stop, line, braces })

/-! ## Regular expressions -/

/-- The offset after the closing slash of a regular expression; `inClass` inside brackets. -/
def regexBodyEnd? (text : Array Char) : Nat → Nat → Bool → Option Nat
  | 0, _, _ => none
  | fuel + 1, pos, inClass =>
    match text[pos]? with
    | none => none
    | some c =>
      if isLineEnd c then none
      else if c == '\\' then
        if text[pos + 1]?.all isLineEnd then none else regexBodyEnd? text fuel (pos + 2) inClass
      else if inClass then regexBodyEnd? text fuel (pos + 1) (c != ']')
      else if c == '/' then some (pos + 1)
      else regexBodyEnd? text fuel (pos + 1) (c == '[')

/-- The regular expression at a cursor. Neither its pattern nor its flags are checked. -/
def regexLexeme (text : Array Char) (c : Cursor) : Except Fault (Token × Cursor) :=
  match regexBodyEnd? text (text.size + 1) (c.pos + 1) false with
  | none => .error ⟨c.line, .openRegex⟩
  | some body =>
    let stop := seek text (fun ch => !continuesName ch) body
    let span : Span := ⟨c.pos, stop⟩
    .ok (⟨.regex, excerpt text span, span, c.line⟩, { c with pos := stop })

/-! ## Punctuators -/

/-- The punctuators of several characters, longer ones first. -/
def longPunctuators : List String :=
  [">>>=", "...", "===", "!==", ">>>", "<<=", ">>=", "**=",
   "&&", "||", "==", "!=", "+=", "-=", "*=", "/=", "++", "--", "<<", ">>", "&=", "|=", "^=", "%=",
   "<=", ">=", "=>", "**"]

/-- The punctuators of one character. -/
def shortPunctuators : List Char :=
  ['(', ')', ';', ',', '[', ']', ':', '?', '~', '.', '\x7b', '\x7d',
   '<', '>', '=', '!', '+', '-', '*', '%', '&', '|', '^', '/']

/-- The punctuator at a cursor, the longest that fits. -/
def punctuatorLexeme (text : Array Char) (c : Cursor) : Except Fault (Token × Cursor) :=
  let token (value : String) : Token × Cursor :=
    let stop := c.pos + value.length
    let braces :=
      if value == "\x7b" then .plain :: c.braces
      else if value == "\x7d" then c.braces.tail
      else c.braces
    (⟨.punctuator, value, ⟨c.pos, stop⟩, c.line⟩, { c with pos := stop, braces })
  match longPunctuators.find? (standsAt text · c.pos) with
  | some value => .ok (token value)
  | none =>
    match text[c.pos]? with
    | some ch => if shortPunctuators.contains ch then .ok (token ch.toString) else .error c.illegal
    | none => .error c.illegal

/-! ## Tokens -/

/-- The token at a cursor that stands at no white space or comment. -/
def lexeme (text : Array Char) (c : Cursor) : Except Fault (Token × Cursor) :=
  match text[c.pos]? with
  | none => .ok (⟨.endOfText, "", ⟨c.pos, c.pos⟩, c.line⟩, c)
  | some ch =>
    if startsName ch then nameLexeme text c
    else if ch == '\'' || ch == '"' then stringLexeme text ch c
    else if ch.isDigit || (ch == '.' && text[c.pos + 1]?.any Char.isDigit) then numberLexeme text c
    else if ch == backtick || (ch == '\x7d' && c.braces.head? == some .substitution) then
      templateLexeme text c
    else punctuatorLexeme text c

end ClassComponent.Script
