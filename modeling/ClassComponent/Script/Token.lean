import ClassComponent.Tree.Basic

/-!
# Tokens

The tokens of a script. A name is kept as it reads after its escapes are resolved, so the text of a
token in the script is found through its span.
-/

namespace ClassComponent.Script

/-- What a token is. -/
inductive TokenKind where
  | endOfText
  | identifier
  | keyword
  | boolean
  | null
  /-- The number `mantissa * 10 ^ exponent`, written in base ten. -/
  | number (mantissa exponent : Int)
  /-- A whole number in another base; `isLegacy` if only a zero before its digits tells the base. -/
  | integer (value : Nat) (isLegacy : Bool)
  | string
  | punctuator
  | regex
  /-- A piece of a template; `opens` if it starts with the opening backtick, `closes` if it ends
  with the closing one. -/
  | template (opens closes : Bool)
  | jsxIdentifier
  | jsxText
deriving DecidableEq, Repr, Inhabited

/-- The kind as it is listed with a tree. -/
def TokenKind.name : TokenKind → String
  | .endOfText => "<end>"
  | .identifier => "Identifier"
  | .keyword => "Keyword"
  | .boolean => "Boolean"
  | .null => "Null"
  | .number _ _ => "Numeric"
  | .integer _ _ => "Numeric"
  | .string => "String"
  | .punctuator => "Punctuator"
  | .regex => "RegularExpression"
  | .template _ _ => "Template"
  | .jsxIdentifier => "JSXIdentifier"
  | .jsxText => "JSXText"

/-- A token: what it is, what it reads as, where it stands and on which line it ends. -/
structure Token where
  kind : TokenKind
  value : Text
  span : Span
  line : Nat
deriving Repr, Inhabited

namespace Token

/-- What the token reads as, if it is made of characters, else nothing. -/
def word (t : Token) : String :=
  t.value.toString?.getD ""

def isPunctuator (t : Token) (value : String) : Bool :=
  t.kind == .punctuator && t.value == value

def isKeyword (t : Token) (value : String) : Bool :=
  t.kind == .keyword && t.value == value

/-- An identifier that acts as a keyword in some places. -/
def isContextual (t : Token) (value : String) : Bool :=
  t.kind == .identifier && t.value == value

/-- Whether the token is a name, reserved or not. -/
def isName (t : Token) : Bool :=
  t.kind == .identifier || t.kind == .keyword || t.kind == .boolean || t.kind == .null

/-- Whether the token is a piece of a template that starts with the opening backtick. -/
def opensTemplate (t : Token) : Bool :=
  match t.kind with
  | .template opens _ => opens
  | _ => false

/-- Whether the token is a piece of a template. -/
def isTemplate (t : Token) : Bool :=
  match t.kind with
  | .template _ _ => true
  | _ => false

/-- Whether the token is a number. -/
def isNumber (t : Token) : Bool :=
  match t.kind with
  | .number _ _ => true
  | .integer _ _ => true
  | _ => false

/-- The number that a token stands for. -/
def number? (t : Token) : Option Tree :=
  match t.kind with
  | .number mantissa exponent => some (.number mantissa exponent)
  | .integer value _ => some (.ofNat value)
  | _ => none

/-- Whether the token is a number in base eight with nothing but a zero to tell its base. -/
def isLegacyOctal (t : Token) : Bool :=
  match t.kind with
  | .integer _ isLegacy => isLegacy
  | _ => false

/-- The most digits that a report writes of a whole number. -/
def reportedDigits : Nat := 4300

/-- Whether a report can name the token. A whole number in another base is named in base ten, where it
may be too long. -/
def isReportable (t : Token) : Bool :=
  match t.kind with
  | .integer value _ => value < Nat.pow 10 reportedDigits
  | _ => true

/-- Whether the token can be the key of a property, or opens a computed one. -/
def startsKey (t : Token) : Bool :=
  t.isName || t.kind == .string || t.isNumber || t.isPunctuator "["

end Token

/-- The words that are keywords everywhere. -/
def keywords : List String :=
  ["if", "in", "do", "var", "for", "new", "try", "let", "this", "else", "case", "void", "with",
   "enum", "while", "break", "catch", "throw", "const", "yield", "class", "super", "return",
   "typeof", "delete", "switch", "export", "import", "default", "finally", "extends", "function",
   "continue", "debugger", "instanceof"]

/-- The words that become keywords in a module. -/
def moduleKeywords : List String :=
  ["implements", "interface", "package", "private", "protected", "public", "static", "yield", "let"]

/-- What a name is. -/
def wordKind (word : Text) : TokenKind :=
  if word == "null" then .null
  else if word == "true" || word == "false" then .boolean
  else if word.isAmong keywords then .keyword
  else .identifier

end ClassComponent.Script
