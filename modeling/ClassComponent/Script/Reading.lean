import ClassComponent.Script.Lexeme
import ClassComponent.Tree.Basic

/-!
# Reading a script

The state in which the grammar reads a script, and the steps that all its productions share.

The reader always holds one token ahead. `last` is the offset where the token before it ended, `start`
the offset where it starts: a node runs from the `start` at its first token up to the `last` after its
final one. Whether a statement may end without a semicolon depends on `newline`: the token ahead ends
on another line than the token before it.

An expression that could turn out to be the parameter list of an arrow function is read once, before
that is known. `Cover` records what the reader has to remember about it: whether it could still be a
binding pattern, and whether it holds an initializer that only a pattern may have.
-/

namespace ClassComponent.Script

/-- What is known of an expression that may turn out to be a pattern. -/
structure Cover where
  /-- The expression so far could be a binding pattern. -/
  binding : Bool
  /-- The token of an initializer that is allowed in a pattern only. -/
  initializer? : Option Token
deriving Inhabited

/-- The surroundings that decide which productions apply. -/
structure Context where
  allowIn : Bool
  allowYield : Bool
  allowAwait : Bool
  inFunction : Bool
  inIteration : Bool
  inSwitch : Bool
  labels : List Text
deriving Inhabited

/-- The state of reading. -/
structure State where
  cursor : Cursor
  /-- The token ahead. -/
  ahead : Token
  /-- The token ahead ends on another line than the token before it. -/
  newline : Bool
  /-- Where the token ahead starts, and the line there. -/
  start : Nat
  startLine : Nat
  /-- Where the token before it ended. -/
  last : Nat
  comments : Array Span
  tokens : Array (TokenKind × Span)
  context : Context
  cover : Cover
deriving Inhabited

/-- What is read: the characters, and whether markup may stand in expressions. -/
structure Source where
  text : Array Char
  markup : Bool

/-- A production of the grammar. -/
abbrev Reading := ReaderT Source (StateT State (Except Fault))

/-! ## Faults -/

/-- Stops on the line of the cursor. -/
def stopFor {α : Type} (cause : Cause) : Reading α := do
  throw ⟨(← get).cursor.line, cause⟩

/-- Stops because of a token. -/
def refuse {α : Type} (token : Token) : Reading α :=
  throw ⟨token.line, if token.kind == .endOfText then .unexpectedEnd else .unexpected token.value⟩

/-- Stops because of the token ahead. -/
def refuseAhead {α : Type} : Reading α := do
  refuse (← get).ahead

/-! ## Tokens -/

/-- The token that follows in `s`, and the state with it ahead. In a module some more words are
keywords; the first token of a script is read before it is known to be one. -/
def State.follow (text : Array Char) (s : State) (isFirst : Bool) : Except Fault State := do
  let (cursor, comments) := skipTrivia text isFirst s.cursor
  let (token, next) ← lexeme text cursor
  let token :=
    if !isFirst && token.kind == .identifier && token.value.isAmong moduleKeywords then
      { token with kind := .keyword }
    else token
  return { s with
    cursor := next
    ahead := token
    newline := s.ahead.line != token.line
    start := cursor.pos
    startLine := cursor.line
    last := s.cursor.pos
    comments := s.comments ++ comments
    tokens := if token.kind == .endOfText then s.tokens else s.tokens.push (token.kind, token.span) }

/-- Passes the token ahead and gives it. -/
def advance : Reading Token := do
  let s ← get
  set (← s.follow (← read).text false)
  return s.ahead

/-- The token after the one ahead. Looking at it opens and closes braces as reading it does. -/
def lookBeyond : Reading Token := do
  let s ← get
  let text := (← read).text
  let (token, next) ← lexeme text (skipTrivia text false s.cursor).1
  set { s with cursor := { s.cursor with braces := next.braces } }
  return token

/-- Whether the punctuator `value` is ahead. -/
def sees (value : String) : Reading Bool :=
  return (← get).ahead.isPunctuator value

/-- Whether one of the punctuators `values` is ahead. -/
def seesAny (values : List String) : Reading Bool :=
  return values.any (← get).ahead.isPunctuator

/-- Whether the keyword `value` is ahead. -/
def seesKeyword (value : String) : Reading Bool :=
  return (← get).ahead.isKeyword value

/-- Whether one of the keywords `values` is ahead. -/
def seesKeywordOf (values : List String) : Reading Bool :=
  return values.any (← get).ahead.isKeyword

/-- Whether the identifier `value` is ahead. -/
def seesWord (value : String) : Reading Bool :=
  return (← get).ahead.isContextual value

/-- Whether a token of kind `kind` is ahead. -/
def seesKind (kind : TokenKind) : Reading Bool :=
  return (← get).ahead.kind == kind

/-- Whether nothing is ahead. -/
def seesEnd : Reading Bool :=
  seesKind .endOfText

/-- Passes the punctuator `value`. -/
def expect (value : String) : Reading Unit := do
  let token ← advance
  unless token.isPunctuator value do refuse token

/-- Passes the keyword `value`. -/
def expectKeyword (value : String) : Reading Unit := do
  let token ← advance
  unless token.isKeyword value do refuse token

/-- Passes the punctuator `value` if it is ahead. -/
def skip (value : String) : Reading Unit := do
  if ← sees value then discard advance

/-- Goes on after a fault at a token that can be passed over. The fault is reported, so a token that a
report cannot name stops the reading. -/
def tolerate (token : Token) : Reading Unit :=
  unless token.isReportable do throw ⟨token.line, .longNumber⟩

/-- Passes a comma or a semicolon; if neither is ahead, it is taken to be missing. -/
def passSeparator : Reading Unit := do
  if ← seesAny [",", ";"] then discard advance else tolerate (← get).ahead

/-- Passes the end of a statement: a semicolon, or a place where one may be left out. Where the
statement ends on the line of the token ahead, it runs up to that token. -/
def endStatement : Reading Unit := do
  let s ← get
  if s.ahead.isPunctuator ";" then discard advance
  else unless s.newline do
    if s.ahead.kind == .endOfText || s.ahead.isPunctuator "\x7d" then
      set { s with last := s.start }
    else refuseAhead

/-- Whether `async function` is ahead on one line. -/
def seesAsyncFunction : Reading Bool := do
  unless ← seesWord "async" do return false
  let line := (← get).cursor.line
  let next ← lookBeyond
  return next.line == line && next.isKeyword "function"

/-- Whether a call of `import` is ahead. -/
def seesImportCall : Reading Bool := do
  unless ← seesKeyword "import" do return false
  return (← lookBeyond).isPunctuator "("

/-! ## Nodes -/

/-- Where the token ahead starts. -/
def here : Reading Nat :=
  return (← get).start

/-- A node from the offset `start` up to the token before the one ahead. -/
def finish (start : Nat) (kind : String) (parts : List (String × Tree)) : Reading Tree :=
  return Tree.make kind ⟨start, (← get).last⟩ parts

/-- A node without parts at the place reached. -/
def emptyStatement : Reading Tree := do
  finish (← here) "EmptyStatement" []

/-- A name as a node. -/
def finishName (start : Nat) (name : Text) : Reading Tree :=
  finish start "Identifier" [("name", .text name)]

/-- A literal as a node; `raw` is how it stands in the script. -/
def finishLiteral (start : Nat) (token : Token) (value : Tree) : Reading Tree := do
  finish start "Literal" [("value", value), ("raw", .text (excerpt (← read).text token.span))]

/-! ## Context -/

/-- Runs `p` in a changed context; `restore` takes back from the outer context what was changed. -/
def within {α : Type} (change : Context → Context) (restore : Context → Context → Context)
    (p : Reading α) : Reading α := do
  let outer := (← get).context
  modify fun s => { s with context := change s.context }
  let result ← p
  modify fun s => { s with context := restore outer s.context }
  return result

/-- Runs `p` with or without the operator `in`. -/
def allowingIn {α : Type} (value : Bool) : Reading α → Reading α :=
  within ({ · with allowIn := value }) fun outer c => { c with allowIn := outer.allowIn }

/-- Runs `p` with `yield` as a name, or as an operator. -/
def allowingYield {α : Type} (value : Bool) : Reading α → Reading α :=
  within ({ · with allowYield := value }) fun outer c => { c with allowYield := outer.allowYield }

/-- Runs `p` with or without the operator `await`. -/
def allowingAwait {α : Type} (value : Bool) : Reading α → Reading α :=
  within ({ · with allowAwait := value }) fun outer c => { c with allowAwait := outer.allowAwait }

/-- Runs `p` inside a loop. -/
def insideIteration {α : Type} : Reading α → Reading α :=
  within ({ · with inIteration := true }) fun outer c => { c with inIteration := outer.inIteration }

/-- Runs `p` inside a switch. -/
def insideSwitch {α : Type} : Reading α → Reading α :=
  within ({ · with inSwitch := true }) fun outer c => { c with inSwitch := outer.inSwitch }

/-- Runs `p` under one more label. -/
def underLabel {α : Type} (label : Text) : Reading α → Reading α :=
  within (fun c => { c with labels := label :: c.labels }) fun outer c =>
    { c with labels := outer.labels }

/-- Runs `p` inside the body of a function, out of reach of loops, switches and labels around it. -/
def insideFunction {α : Type} : Reading α → Reading α :=
  within ({ · with labels := [], inIteration := false, inSwitch := false, inFunction := true })
    fun outer c => { c with
      labels := outer.labels
      inIteration := outer.inIteration
      inSwitch := outer.inSwitch
      inFunction := outer.inFunction }

/-- Notes whether what was read can still be a binding pattern. -/
def setBinding (value : Bool) : Reading Unit :=
  modify fun s => { s with cover := { s.cover with binding := value } }

/-- Notes that an initializer is allowed after all, or which one is not. -/
def setInitializer (token? : Option Token) : Reading Unit :=
  modify fun s => { s with cover := { s.cover with initializer? := token? } }

/-- Reads an expression on its own: it is no pattern, and what is known outside stays. -/
def isolate {α : Type} (p : Reading α) : Reading α := do
  let outer := (← get).cover
  modify fun s => { s with cover := ⟨true, none⟩ }
  let result ← p
  match (← get).cover.initializer? with
  | some token => refuse token
  | none => modify fun s => { s with cover := outer }
  return result

/-- Reads an expression that may be part of a pattern: what is learnt counts outside too. -/
def inherit {α : Type} (p : Reading α) : Reading α := do
  let outer := (← get).cover
  modify fun s => { s with cover := ⟨true, none⟩ }
  let result ← p
  modify fun s => { s with cover :=
    ⟨outer.binding && s.cover.binding, outer.initializer?.or s.cover.initializer?⟩ }
  return result

/-! ## Loops -/

/-- Repeats `step` while it gives `true`, at most `fuel` times. -/
def repeatStep {σ : Type} (step : σ → Reading (σ × Bool)) : Nat → σ → Reading σ
  | 0, _ => stopFor .tooDeep
  | fuel + 1, s => do
    let (s, more) ← step s
    if more then repeatStep step fuel s else return s

/-- Repeats `step` from `first` on while it gives `true`. Every repetition passes a character, so the
text bounds their number. -/
def loop {σ : Type} (first : σ) (step : σ → Reading (σ × Bool)) : Reading σ := do
  repeatStep step ((← read).text.size + 2) first

/-- Reads items until `done` holds. -/
def collectUntil (done : Reading Bool) (item : Reading Tree) : Reading (List Tree) := do
  let items ← loop (#[] : Array Tree) fun items => do
    if ← done then return (items, false)
    return (items.push (← item), true)
  return items.toList

/-- Reads items up to the punctuator `close` and passes that. -/
def upTo (close : String) (item : Reading Tree) : Reading (List Tree) := do
  let items ← collectUntil (sees close) item
  expect close
  return items

/-- Reads one item, and another after every comma. -/
def commaList (item : Reading Tree) : Reading (List Tree) := do
  let items ← loop (#[← item] : Array Tree) fun items => do
    unless ← sees "," do return (items, false)
    discard advance
    return (items.push (← item), true)
  return items.toList

/-! ## Goals -/

/-- The productions that others reach through nesting. -/
inductive Goal where
  | assignment
  | unary
  | power
  /-- What `new` applies to. -/
  | constructor
  /-- An operand with calls and member accesses. -/
  | call
  | item
  | statement
  | pattern
  | functionBody
  | element
deriving DecidableEq, Repr

/-- How nested productions are read. -/
abbrev Rule := Goal → Reading Tree

end ClassComponent.Script
