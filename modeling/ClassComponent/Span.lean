import ClassComponent.Text.Basic

/-!
# Spans

A span is a stretch of a text, from an offset up to, not including, another. Offsets count
code points. `Span.slice` clamps at the end of the text, and a span whose stop does not lie after its
start holds nothing.
-/

namespace ClassComponent

/-- The elements from offset `start` up to, not including, offset `stop`. -/
structure Span where
  start : Nat
  stop : Nat
deriving DecidableEq, Repr, Inhabited

namespace Span

/-- The elements of `xs` that lie in the span. -/
def slice {α : Type} (s : Span) (xs : List α) : List α :=
  (xs.take s.stop).drop s.start

/-- The part of a text that lies in the span. -/
def of (s : Span) (text : Text) : Text :=
  ⟨s.slice text.points⟩

/-- The span between two offsets in a text of length `length`. A start below zero counts back from the
end of the text. -/
def ofOffsets (length : Nat) (start stop : Int) : Span :=
  ⟨(if start < 0 then length + start else start).toNat, stop.toNat⟩

/-- Spans in the order of their starts, then of their stops. -/
def before (a b : Span) : Bool :=
  a.start < b.start || (a.start == b.start && a.stop ≤ b.stop)

theorem slice_eq_nil {α : Type} {s : Span} (h : s.stop ≤ s.start) (xs : List α) : s.slice xs = [] := by
  simp only [slice, List.drop_eq_nil_iff, List.length_take]
  omega

theorem length_slice {α : Type} (s : Span) (xs : List α) :
    (s.slice xs).length = min s.stop xs.length - s.start := by
  simp [slice]

theorem getElem?_slice {α : Type} (s : Span) (xs : List α) (i : Nat) :
    (s.slice xs)[i]? = if s.start + i < s.stop then xs[s.start + i]? else none := by
  rw [slice, List.getElem?_drop, List.getElem?_take]

end Span

end ClassComponent
