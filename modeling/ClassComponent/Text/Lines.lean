import ClassComponent.Span
import ClassComponent.Text.Blank

/-!
# Lines of a fragment

A fragment cut out of a script keeps the indentation of the place it stood at. `reindent` moves it:
the first line stays as it is, the other lines lose the blanks that all of them start with and get
the new indentation.

Line breaks inside multi-line values must survive that. `maskLineBreaks` writes a marker in place
of each such line break, so that `reindent` sees one line; `restoreLineBreaks` puts the breaks back.
Masking with a marker of one character keeps every offset.
-/

namespace ClassComponent.Text

/-! ## Splitting and joining -/

/-- The pieces of `xs` between separators; always at least one. -/
def splitAt {α : Type} [BEq α] (separator : α) : List α → List (List α)
  | [] => [[]]
  | x :: xs =>
    if x == separator then [] :: splitAt separator xs
    else match splitAt separator xs with
      | [] => [[x]]
      | piece :: pieces => (x :: piece) :: pieces

/-- The code point that ends a line. -/
def lineBreak : CodePoint := .char '\n'

/-- The lines of a text: always at least one, none of them with a line break. -/
def splitLines (ps : List CodePoint) : List (List CodePoint) :=
  splitAt lineBreak ps

/-- Lines with a line break between neighbours. -/
def joinLines (lines : List (List CodePoint)) : List CodePoint :=
  List.intercalate [lineBreak] lines

/-! ## Indentation -/

/-- The least number of leading blanks among the lines that hold more than blanks. -/
def commonWidth (lines : List (List CodePoint)) : Nat :=
  (((lines.filter fun line => !allBlank line).map blankWidth).min?).getD 0

/-- A line after the first, moved from indentation `width` to `indent`; a blank line is emptied. -/
def moveLine (width : Nat) (indent line : List CodePoint) : List CodePoint :=
  if allBlank line then [] else indent ++ line.drop width

/-- `reindent` on code points. -/
def reindentPoints (ps indent : List CodePoint) : List CodePoint :=
  match splitLines ps with
  | [] => ps
  | [_] => ps
  | first :: rest => joinLines (first :: rest.map (moveLine (commonWidth rest) indent))

/-- A fragment moved to a place with indentation `indent`. -/
def reindent (text indent : Text) : Text :=
  ⟨reindentPoints text.points indent.points⟩

/-! ## Markers for line breaks -/

/-- The first line break from offset `start` on and before offset `stop`. -/
def findBreak? (ps : List CodePoint) (start stop : Nat) : Option Nat :=
  ((Span.slice ⟨start, stop⟩ ps).findIdx? (· == lineBreak)).map (start + ·)

theorem findBreak?_bounds {ps : List CodePoint} {start stop pos : Nat}
    (h : findBreak? ps start stop = some pos) : start ≤ pos ∧ pos < stop := by
  obtain ⟨i, hi, rfl⟩ := Option.map_eq_some_iff.mp h
  obtain ⟨hlt, -⟩ := List.findIdx?_eq_some_iff_getElem.mp hi
  simp only [Span.length_slice] at hlt
  omega

/-- Writes `marker` over the line breaks of a span, one after the other, up to one that ends the span.
`pieces` holds what is written for each code point of `ps`. -/
def maskSpan (ps marker : List CodePoint) (start stop : Nat) (pieces : List (List CodePoint)) :
    List (List CodePoint) :=
  match h : findBreak? ps start stop with
  | none => pieces
  | some pos =>
    if pos + 1 < stop then maskSpan ps marker (pos + 1) stop (pieces.set pos marker) else pieces
termination_by stop - start
decreasing_by
  have hpos := findBreak?_bounds h
  omega

/-- `text` with `marker` in place of each line break after which a line inside one of `spans`
starts. -/
def maskLineBreaks (text : Text) (spans : List Span) (marker : Text) : Text :=
  let maskIn := fun pieces (span : Span) =>
    maskSpan text.points marker.points span.start span.stop pieces
  ⟨(spans.foldl maskIn (text.points.map ([·]))).flatten⟩

/-- What follows `lead` at the start of `ps`. -/
def afterLead? : List CodePoint → List CodePoint → Option (List CodePoint)
  | [], ps => some ps
  | _ :: _, [] => none
  | l :: lead, p :: ps => if l == p then afterLead? lead ps else none

/-- `ps` with a line break in place of each `marker`, read from the left; `skip` code points of a
marker are still to be passed over. -/
def restoreFrom (marker : List CodePoint) : Nat → List CodePoint → List CodePoint
  | _, [] => []
  | skip + 1, _ :: ps => restoreFrom marker skip ps
  | 0, p :: ps =>
    match afterLead? marker (p :: ps) with
    | some _ => lineBreak :: restoreFrom marker (marker.length - 1) ps
    | none => p :: restoreFrom marker 0 ps

/-- `restoreLineBreaks` on code points. -/
def restorePoints (marker ps : List CodePoint) : List CodePoint :=
  if marker.isEmpty then ps else restoreFrom marker 0 ps

/-- `text` with a line break in place of each `marker`; an empty marker stands for none. -/
def restoreLineBreaks (text marker : Text) : Text :=
  ⟨restorePoints marker.points text.points⟩

/-- The private-use characters, in the order in which they are tried as markers. -/
def markerCandidates : List Char :=
  (List.range' 0xE000 0x1900).map Char.ofNat

/-- The first private-use character that does not occur in `text`. -/
def freeMarker? (text : Text) : Option Char :=
  markerCandidates.find? fun c => !text.points.contains (.char c)

end ClassComponent.Text
