import ClassComponent.Script.Reading

/-!
# Markup in expressions

Elements between angle brackets, read with tokens of their own: names may hold hyphens, strings have
entities and no escapes, and what stands between tags is text. An expression in braces is read with
the tokens of scripts, so the reader goes back and forth between the two: `leaveMarkup` reads the
token ahead anew as a script token, `returnToMarkup` gives it back.
-/

namespace ClassComponent.Script

/-! ## Tokens of markup -/

/-- The most digits that the number of an entity may have in base ten. -/
def entityDigits : Nat := 4300

/-- The offset after an entity in a string; `pos` lies after the ampersand. An entity that does not
fit ends with the character that does not, and one whose number is too long or names no code point is
refused. -/
def entityEnd? (text : Array Char) (quote : Char) (pos : Nat) : Option Nat :=
  let isStop (c : Char) : Bool := c == quote || c == ';'
  let close (stop : Nat) : Nat := if text[stop]?.all (· == quote) then stop else stop + 1
  let numbered (base start : Nat) : Option Nat :=
    let stop := seek text (fun c => !(hexValue? c).any (· < base)) start
    let isTooLong := base == 10 && stop - start > entityDigits
    if text[stop]? == some ';' && (isTooLong || digitsValue text base start stop > 0x10FFFF) then none
    else some (close stop)
  if text[pos]? != some '#' then some (close (seek text isStop pos))
  else if text[pos + 1]? == some 'x' then numbered 16 (pos + 2)
  else if text[pos + 1]?.any Char.isDigit then numbered 10 (pos + 1)
  else some (close (pos + 1))

/-- The offset after a string of markup; an unfinished one ends with the text. -/
def markupStringEnd? (text : Array Char) (quote : Char) : Nat → Nat → Option Nat
  | 0, _ => none
  | fuel + 1, pos =>
    match text[pos]? with
    | none => some pos
    | some c =>
      if c == quote then some (pos + 1)
      else if c == '&' then
        match entityEnd? text quote (pos + 1) with
        | some next => markupStringEnd? text quote fuel next
        | none => none
      else markupStringEnd? text quote fuel (pos + 1)

/-- The token of markup at a cursor. -/
def markupLexeme (text : Array Char) (c : Cursor) : Except Fault (Token × Cursor) :=
  let token (kind : TokenKind) (stop : Nat) : Token × Cursor :=
    (⟨kind, excerpt text ⟨c.pos, stop⟩, ⟨c.pos, stop⟩, c.line⟩, { c with pos := stop })
  match text[c.pos]? with
  | none => lexeme text c
  | some ch =>
    if ['<', '>', '/', ':', '=', '\x7b', '\x7d'].contains ch then .ok (token .punctuator (c.pos + 1))
    else if ch == '\'' || ch == '"' then
      match markupStringEnd? text ch (text.size + 1) (c.pos + 1) with
      | some stop => .ok (token .string stop)
      | none => .error c.illegal
    else if ch == '.' then
      .ok (token .punctuator (c.pos + if standsAt text "..." c.pos then 3 else 1))
    else if ch == backtick then .ok (token (.template false false) c.pos)
    else if startsName ch && ch != '\\' then
      let isEnd (c : Char) : Bool := c != '-' && (c == '\\' || !continuesName c)
      .ok (token .jsxIdentifier (seek text isEnd c.pos))
    else lexeme text c

/-- Passes white space and comments before a token of markup. -/
def passMarkupTrivia : Reading Unit := do
  let text := (← read).text
  modify fun s =>
    let (cursor, comments) := skipTrivia text false s.cursor
    { s with cursor, comments := s.comments ++ comments }

/-- The place reached in markup. -/
def markupPos : Reading Nat := do
  passMarkupTrivia
  return (← get).cursor.pos

/-- Whether the text ends here. -/
def atTextEnd : Reading Bool :=
  return (← get).cursor.pos ≥ (← read).text.size

/-- Passes the token of markup here and gives it. -/
def advanceMarkup : Reading Token := do
  passMarkupTrivia
  let s ← get
  let (token, next) ← markupLexeme (← read).text s.cursor
  set { s with
    cursor := next
    start := s.cursor.pos
    startLine := s.cursor.line
    last := next.pos
    tokens := s.tokens.push (token.kind, token.span) }
  return token

/-- Whether one of the punctuators `values` is here. -/
def seesMarkup (values : List String) : Reading Bool := do
  let s ← get
  let text := (← read).text
  let (token, next) ← markupLexeme text (skipTrivia text false s.cursor).1
  set { s with cursor := { s.cursor with braces := next.braces } }
  return values.any token.isPunctuator

/-- Passes the punctuator `value` of markup. -/
def expectMarkup (value : String) : Reading Unit := do
  let token ← advanceMarkup
  unless token.isPunctuator value do refuse token

/-- Goes back to where the token ahead starts, to read markup from there. -/
def enterMarkup : Reading Unit :=
  modify fun s => { s with cursor := { s.cursor with pos := s.start, line := s.startLine } }

/-- Reads on with the tokens of scripts. -/
def leaveMarkup : Reading Unit :=
  discard advance

/-- Passes the closing brace after an expression, which was read as a script token, as markup. -/
def returnToMarkup : Reading Unit := do
  enterMarkup
  expectMarkup "\x7d"
  modify fun s => { s with tokens := s.tokens.pop }

/-! ## Names and attributes -/

/-- A name of markup. -/
def markupName : Reading Tree := do
  let start ← markupPos
  let token ← advanceMarkup
  unless token.kind == .jsxIdentifier do refuse token
  finish start "JSXIdentifier" [("name", .text token.value)]

/-- The rest of a name with a namespace. -/
def namespacedName (start : Nat) (outer : Tree) : Reading Tree := do
  expectMarkup ":"
  let name ← markupName
  finish start "JSXNamespacedName" [("namespace", outer), ("name", name)]

/-- The name of an element. -/
def elementName : Reading Tree := do
  let start ← markupPos
  let name ← markupName
  if ← seesMarkup [":"] then namespacedName start name
  else loop name fun object => do
    unless ← seesMarkup ["."] do return (object, false)
    expectMarkup "."
    let member ← markupName
    return (← finish start "JSXMemberExpression" [("object", object), ("property", member)], true)

/-- The name of an attribute. -/
def attributeName : Reading Tree := do
  let start ← markupPos
  let name ← markupName
  if ← seesMarkup [":"] then namespacedName start name else return name

/-- An expression in braces. -/
def bracedExpression (rule : Rule) : Reading Tree := do
  let start ← markupPos
  expectMarkup "\x7b"
  leaveMarkup
  let value ← rule .assignment
  returnToMarkup
  finish start "JSXExpressionContainer" [("expression", value)]

/-- The value of an attribute. -/
def attributeValue (rule : Rule) : Reading Tree := do
  if ← seesMarkup ["\x7b"] then bracedExpression rule
  else if ← seesMarkup ["<"] then rule .element
  else
    let start ← markupPos
    let token ← advanceMarkup
    unless token.kind == .string do refuse token
    finishLiteral start token (.text token.value)

/-- An attribute with a name. -/
def namedAttribute (rule : Rule) : Reading Tree := do
  let start ← markupPos
  let name ← attributeName
  let value ←
    if ← seesMarkup ["="] then do
      expectMarkup "="
      attributeValue rule
    else pure Tree.null
  finish start "JSXAttribute" [("name", name), ("value", value)]

/-- Attributes that are spread from an expression. -/
def spreadAttribute (rule : Rule) : Reading Tree := do
  let start ← markupPos
  expectMarkup "\x7b"
  expectMarkup "..."
  leaveMarkup
  let value ← rule .assignment
  returnToMarkup
  finish start "JSXSpreadAttribute" [("argument", value)]

/-! ## Elements -/

/-- The rest of an opening tag after its bracket. -/
def openingRest (rule : Rule) (start : Nat) : Reading Tree := do
  let name ← elementName
  let attributes ← collectUntil (seesMarkup ["/", ">"]) do
    if ← seesMarkup ["\x7b"] then spreadAttribute rule else namedAttribute rule
  let selfClosing ← seesMarkup ["/"]
  if selfClosing then expectMarkup "/"
  expectMarkup ">"
  finish start "JSXOpeningElement" [("name", name), ("selfClosing", .flag selfClosing),
    ("attributes", .list attributes)]

/-- A tag, opening or closing. -/
def tag (rule : Rule) : Reading Tree := do
  let start ← markupPos
  expectMarkup "<"
  if ← seesMarkup ["/"] then
    expectMarkup "/"
    let name ← elementName
    expectMarkup ">"
    finish start "JSXClosingElement" [("name", name)]
  else openingRest rule start

/-- The line after a stretch of text that starts on `line`. -/
def lineAfter (text : Array Char) (start stop line : Nat) : Nat :=
  let step (count i : Nat) : Nat :=
    match text[i]? with
    | none => count
    | some c =>
      if !isLineEnd c || (c == '\n' && i > start && text[i - 1]? == some '\r') then count
      else count + 1
  (List.range' start (stop - start)).foldl step line

/-- The text up to the next tag or brace, as a node if there is any. -/
def markupText : Reading (Option Tree) := do
  let text := (← read).text
  let s ← get
  let first := s.cursor.pos
  let stop := seek text (fun c => c == '\x7b' || c == '<') first
  let span : Span := ⟨first, stop⟩
  set { s with
    cursor := { s.cursor with pos := stop, line := lineAfter text first stop s.cursor.line }
    start := first
    startLine := s.cursor.line
    last := stop
    tokens := if first < stop then s.tokens.push (.jsxText, span) else s.tokens }
  if first < stop then
    let content := Tree.text (excerpt text span)
    return some (← finish first "JSXText" [("value", content), ("raw", content)])
  return none

/-- Braces between tags: an expression, or nothing but comments. -/
def childExpression (rule : Rule) : Reading Tree := do
  let start ← markupPos
  expectMarkup "\x7b"
  let value ←
    if ← seesMarkup ["\x7d"] then do
      let emptyStart := (← get).cursor.pos
      passMarkupTrivia
      modify fun s => { s with last := s.cursor.pos }
      let value ← finish emptyStart "JSXEmptyExpression" []
      expectMarkup "\x7d"
      pure value
    else do
      leaveMarkup
      let value ← rule .assignment
      returnToMarkup
      pure value
  finish start "JSXExpressionContainer" [("expression", value)]

/-- The text and expressions up to the next tag. -/
def childrenBeforeTag (rule : Rule) : Reading (Array Tree) :=
  loop #[] fun children => do
    if ← atTextEnd then return (children, false)
    let text? ← markupText
    let children := children ++ text?.toArray
    let s ← get
    if (← read).text[s.cursor.pos]? == some '\x7b' then
      return (children.push (← childExpression rule), true)
    return (children, false)

/-- An element whose closing tag was not met yet. -/
structure OpenElement where
  start : Nat
  opening : Tree
  children : Array Tree

/-- An element as a node. -/
def finishElement (start : Nat) (opening : Tree) (children : Array Tree) (closing : Tree) :
    Reading Tree :=
  finish start "JSXElement" [("openingElement", opening), ("children", .list children.toList),
    ("closingElement", closing)]

/-- The children of an element up to its closing tag, which need not have its name, and that tag.
Elements inside wait on a stack. Where the text ends after a tag, everything left open ends there, and
what the innermost element holds is taken. -/
def elementContent (rule : Rule) (start : Nat) (opening : Tree) : Reading (Array Tree × Tree) := do
  let (element, _, closing) ← loop ((⟨start, opening, #[]⟩ : OpenElement), ([] : List OpenElement), Tree.null)
    fun (element, outer, closing) => do
      if ← atTextEnd then return ((element, outer, closing), false)
      let children := element.children ++ (← childrenBeforeTag rule)
      let element := { element with children }
      let tagStart := (← get).cursor.pos
      let next ← tag rule
      if next.kind == "JSXOpeningElement" then
        if next.has "selfClosing" then
          let child ← finishElement tagStart next #[] .null
          return (({ element with children := element.children.push child }, outer, closing), true)
        return ((⟨tagStart, next, #[]⟩, element :: outer, closing), true)
      match outer with
      | [] => return ((element, [], next), false)
      | parent :: outer =>
        let child ← finishElement element.start element.opening element.children next
        return (({ parent with children := parent.children.push child }, outer, closing), true)
  return (element.children, closing)

/-- An element. -/
def element (rule : Rule) : Reading Tree := do
  let start ← markupPos
  expectMarkup "<"
  let opening ← openingRest rule start
  if opening.has "selfClosing" then finishElement start opening #[] .null
  else
    let (children, closing) ← elementContent rule start opening
    finishElement start opening children closing

/-- An element as an expression of a script. -/
def markupRoot (rule : Rule) : Reading Tree := do
  modify fun s => { s with tokens := s.tokens.pop }
  enterMarkup
  let root ← rule .element
  leaveMarkup
  return root

end ClassComponent.Script
