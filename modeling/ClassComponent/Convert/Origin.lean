import ClassComponent.Text.Lines
import ClassComponent.Tree.Basic

/-!
# Fragments of a script

Where fragments of a script come from. Nodes carry spans only; `Origin.text` gives the text of a node.
Fragments are moved to other places and indented anew, which must not touch the lines of multi-line strings
and templates: their line breaks are masked by a marker that does not occur in the script. The record of
the component keeps the marker, and the breaks are put back at the very end.
-/

namespace ClassComponent

/-- A script, the script with line breaks masked, and what masks them (empty if nothing is). -/
structure Origin where
  source : Text
  masked : Text
  marker : Text
deriving DecidableEq, Repr, Inhabited

namespace Origin

/-- The spans of the tokens whose text is a value. -/
def verbatimSpans (tokens : List Tree) : List Span :=
  tokens.filterMap fun t =>
    if t.kind == "Template" || t.kind == "String" then t.span? else none

/-- Whether some span holds a line break. -/
def breaksLine (source : Text) (spans : List Span) : Bool :=
  spans.any fun span => (span.slice source.points).contains Text.lineBreak

/-- A script with the line breaks in `spans` masked by `marker`. -/
def masking (source : Text) (spans : List Span) (marker : Text) : Origin :=
  ⟨source, Text.maskLineBreaks source spans marker, marker⟩

/-- A script with its tokens. A marker is needed only if a string or template spans lines; then there
must be a character left for it. -/
def of? (source : Text) (tokens : List Tree) : Option Origin :=
  let spans := verbatimSpans tokens
  if breaksLine source spans then
    (Text.freeMarker? source).map fun marker => masking source spans ⟨[.char marker]⟩
  else some ⟨source, source, ""⟩

/-- The text of a node; empty if it has no span. -/
def text (o : Origin) (t : Tree) : Text :=
  match t.span? with
  | some span => span.of o.masked
  | none => ""

/-- The line on which a node starts, counted from one. -/
def line? (o : Origin) (t : Tree) : Option Int :=
  t.span?.map fun span => Int.ofNat (((o.source.points.take span.start).count Text.lineBreak) + 1)

/-- A text for the reader, with all line breaks. -/
def restore (o : Origin) (text : Text) : Text :=
  Text.restoreLineBreaks text o.marker

end Origin

end ClassComponent
