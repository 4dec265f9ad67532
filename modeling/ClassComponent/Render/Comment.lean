import ClassComponent.Text.Lines
import ClassComponent.Tree.Basic

/-!
# Comments around statements

Comments belong to the statements of a script by position:

    /* header */              before the first statement
    const a = 1; // a         trailing: starts on the last line of the statement
    // b                      leading: on its own lines before the statement
    const b = 1;
-/

namespace ClassComponent

/-- The spans of the comments of a script, in order. -/
def commentSpans (tree : Tree) : List Span :=
  ((tree.get "comments").items.filterMap Tree.span?).mergeSort Span.before

/-- The statements of a script. -/
def statements (tree : Tree) : List Tree :=
  (tree.get "body").items

/-- The span of a statement. -/
def statementSpan (t : Tree) : Span :=
  t.span?.getD ⟨0, 0⟩

/-- Whether a line ends between two offsets. -/
def breaksBetween (source : List CodePoint) (start stop : Nat) : Bool :=
  ((⟨start, stop⟩ : Span).slice source).contains Text.lineBreak

/-- The comments before the first statement. -/
def headerComments? (tree : Tree) (source : Text) : Option Text :=
  let limit := match statements tree with
    | [] => source.length
    | first :: _ => (statementSpan first).start
  let header := (commentSpans tree).filter (·.stop ≤ limit)
  match header.head?, header.getLast? with
  | some first, some last => some ((⟨first.start, last.stop⟩ : Span).of source)
  | _, _ => none

/-- Where a statement begins together with the comments that lead it. Everything before the first
statement is the header. -/
def leadingStart (comments : List Span) (source : List CodePoint) (before? : Option Span) (span : Span) : Nat :=
  match before? with
  | none => span.start
  | some before =>
    let leads (c : Span) : Bool :=
      before.stop ≤ c.start && c.stop ≤ span.start && breaksBetween source before.stop c.start
    match comments.find? leads with
    | some c => c.start
    | none => span.start

/-- Where a statement ends together with the comments that trail it; the next statement starts at
`limit`. -/
def trailingStop (comments : List Span) (source : List CodePoint) (limit : Nat) (span : Span) : Nat :=
  comments.foldl
    (fun stop c =>
      if stop ≤ c.start && c.stop ≤ limit && !breaksBetween source stop c.start then c.stop else stop)
    span.stop

/-- A statement with its place in the script. -/
structure Placed where
  node : Tree
  span : Span
  /-- The span together with the comments of the statement. -/
  bounds : Span
deriving Inhabited

/-- The places of statements; `before?` is the span of the statement before them. -/
def placeFrom (comments : List Span) (source : List CodePoint) : Option Span → List Tree → List Placed
  | _, [] => []
  | before?, t :: ts =>
    let span := statementSpan t
    let limit := match ts with
      | [] => source.length
      | next :: _ => (statementSpan next).start
    let bounds : Span :=
      ⟨leadingStart comments source before? span, trailingStop comments source limit span⟩
    ⟨t, span, bounds⟩ :: placeFrom comments source (some span) ts

/-- The statements of a script with their places. -/
def placedStatements (tree : Tree) (source : Text) : List Placed :=
  placeFrom (commentSpans tree) source.points none (statements tree)

end ClassComponent
