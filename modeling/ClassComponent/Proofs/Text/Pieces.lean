import ClassComponent.Proofs.Text.Lines

/-!
# Pieces of a text

Pieces that stand in a text one after the other, and what moving the text does to them.

* `InOrder pieces text`: the pieces stand in the text, in order, with anything between them. Spans that
  follow each other cut such pieces (`inOrder_slices`), and mapping code points keeps them
  (`InOrder.map`).
* `Solid piece`: no indentation reaches into the piece. It starts with a code point that is not blank,
  and no line starts inside it; only its last code point may be a line break.
* `InOrder.reindentPoints`: solid pieces stay, unchanged and in order, when the text is moved.

A move is followed code point by code point (`Relaid`): all code points are kept, except that blanks at
the start of a line may be exchanged for others.
-/

namespace ClassComponent

namespace Span

/-- Two spans that meet cut what the span over both cuts. -/
theorem slice_append_slice {α : Type} {a b c : Nat} (hab : a ≤ b) (hbc : b ≤ c) (xs : List α) :
    (⟨a, b⟩ : Span).slice xs ++ (⟨b, c⟩ : Span).slice xs = (⟨a, c⟩ : Span).slice xs := by
  have hdrop : xs.drop b = (xs.drop a).drop (b - a) := by
    rw [List.drop_drop]
    congr 1
    omega
  have hlen : c - a = (b - a) + (c - b) := by omega
  simp only [slice, List.drop_take]
  rw [hdrop, hlen, List.take_add]

/-- Whether two spans do not overlap. -/
def Apart (s t : Span) : Prop :=
  s.stop ≤ t.start ∨ t.stop ≤ s.start

instance : Std.Symm Apart :=
  ⟨fun _ _ h => h.symm⟩

theorem before_iff {s t : Span} :
    s.before t ↔ s.start < t.start ∨ s.start = t.start ∧ s.stop ≤ t.stop := by
  simp [before]

theorem pairwise_before_mergeSort (spans : List Span) :
    (spans.mergeSort before).Pairwise fun s t => s.before t := by
  apply List.pairwise_mergeSort
  · intro a b c hab hbc
    rw [before_iff] at *
    omega
  · intro a b
    rw [Bool.or_eq_true, before_iff, before_iff]
    omega

/-- Spans in order that lie apart from each other follow each other. -/
theorem pairwise_follow {spans : List Span} (hin : ∀ s ∈ spans, s.start ≤ s.stop)
    (hsorted : spans.Pairwise fun s t => s.before t)
    (hapart : spans.Pairwise Apart) : spans.Pairwise fun s t => s.stop ≤ t.start := by
  refine (hsorted.and hapart).imp_of_mem ?_
  intro s t hs ht hst
  have hs' := hin s hs
  have ht' := hin t ht
  rw [before_iff, Apart] at hst
  omega

/-- Spans that lie apart from each other follow each other when they are sorted. -/
theorem pairwise_follow_mergeSort {spans : List Span} (hin : ∀ s ∈ spans, s.start ≤ s.stop)
    (hapart : spans.Pairwise Apart) : (spans.mergeSort before).Pairwise fun s t => s.stop ≤ t.start := by
  have hperm : (spans.mergeSort before).Perm spans := List.mergeSort_perm _ _
  refine pairwise_follow (fun s hs => hin s (hperm.mem_iff.mp hs)) (pairwise_before_mergeSort spans) ?_
  exact (hperm.pairwise_iff Or.symm).mpr hapart

end Span

namespace Text

/-! ## Pieces in order -/

/-- The pieces stand in the text one after the other, with anything before, between and after them. -/
inductive InOrder : List (List CodePoint) → List CodePoint → Prop
  | nil (text : List CodePoint) : InOrder [] text
  | cons (gap piece : List CodePoint) {pieces : List (List CodePoint)} {rest : List CodePoint}
      (h : InOrder pieces rest) : InOrder (piece :: pieces) (gap ++ (piece ++ rest))

theorem InOrder.map {pieces : List (List CodePoint)} {text : List CodePoint}
    (h : InOrder pieces text) (f : CodePoint → CodePoint) :
    InOrder (pieces.map (List.map f)) (text.map f) := by
  induction h with
  | nil => exact .nil _
  | cons gap piece _ ih =>
    simp only [List.map_cons, List.map_append]
    exact .cons (gap.map f) (piece.map f) ih

/-- Spans inside a stretch of a text, each ending before the next one starts, cut pieces in order. -/
theorem inOrder_slices {spans : List Span} {start stop : Nat} (xs : List CodePoint)
    (hin : ∀ s ∈ spans, start ≤ s.start ∧ s.start ≤ s.stop ∧ s.stop ≤ stop)
    (hord : spans.Pairwise fun s t => s.stop ≤ t.start) :
    InOrder (spans.map (·.slice xs)) ((⟨start, stop⟩ : Span).slice xs) := by
  induction spans generalizing start with
  | nil => exact .nil _
  | cons s spans ih =>
    obtain ⟨h₁, h₂, h₃⟩ := hin s (by simp)
    rw [List.pairwise_cons] at hord
    have hrest := ih (fun t ht => ⟨hord.1 t ht, (hin t (by simp [ht])).2⟩) hord.2
    rw [← Span.slice_append_slice h₁ (Nat.le_trans h₂ h₃), ← Span.slice_append_slice h₂ h₃]
    exact .cons _ _ hrest

/-! ## Moving a text, code point by code point -/

/-- The text `ys` is the text `xs` with other blanks at the start of lines. The flag tells whether a
line starts here; the blanks of the first line are not exchanged if it does not. -/
inductive Relaid : Bool → List CodePoint → List CodePoint → Prop
  | nil (fresh : Bool) : Relaid fresh [] []
  | keep (fresh : Bool) {p : CodePoint} {xs ys : List CodePoint} (hp : p ≠ lineBreak)
      (h : Relaid false xs ys) : Relaid fresh (p :: xs) (p :: ys)
  | next (fresh : Bool) {xs ys : List CodePoint} (h : Relaid true xs ys) :
      Relaid fresh (lineBreak :: xs) (lineBreak :: ys)
  | indent {old new xs ys : List CodePoint} (ho : IsIndent old) (hn : IsIndent new)
      (h : Relaid false xs ys) : Relaid true (old ++ xs) (new ++ ys)

theorem Relaid.prepend {lead xs ys : List CodePoint} (hl : lineBreak ∉ lead)
    (h : ∀ fresh, Relaid fresh xs ys) (fresh : Bool) : Relaid fresh (lead ++ xs) (lead ++ ys) := by
  induction lead generalizing fresh with
  | nil => exact h fresh
  | cons p lead ih =>
    have hp : p ≠ lineBreak := fun e => hl (by simp [e])
    exact .keep fresh hp (ih (fun hm => hl (by simp [hm])) false)

theorem relaid_lines {ls ms : List (List CodePoint)} (h : List.Forall₂ Moved ls ms)
    (hl : ∀ line ∈ ls, lineBreak ∉ line) (fresh : Bool) :
    Relaid fresh (ls.flatMap (lineBreak :: ·)) (ms.flatMap (lineBreak :: ·)) := by
  induction h generalizing fresh with
  | nil => exact .nil fresh
  | cons hm _ ih =>
    obtain ⟨old, new, core, ho, hn, rfl, rfl⟩ := hm.same
    simp only [List.flatMap_cons, List.cons_append, List.append_assoc]
    refine .next fresh (.indent ho hn (Relaid.prepend ?_ ?_ false))
    · exact fun hc => hl (old ++ core) (by simp) (by simp [hc])
    · exact ih fun line hline => hl line (by simp [hline])

/-- A moved text has other blanks at the start of lines. -/
theorem relaid_reindentPoints (ps : List CodePoint) {indent : List CodePoint} (hi : IsIndent indent) :
    Relaid false ps (reindentPoints ps indent) := by
  obtain ⟨first, rest, rest', h, h', hm⟩ := reindented_reindentPoints ps hi
  have hl : ∀ line ∈ first :: rest, lineBreak ∉ line := fun line hline =>
    lineBreak_not_mem_of_mem_splitLines ps (by rw [h]; exact hline)
  have hlines : Relaid false (joinLines (first :: rest)) (joinLines (first :: rest')) := by
    rw [joinLines_cons, joinLines_cons]
    refine Relaid.prepend (hl first (by simp)) (relaid_lines hm ?_) false
    exact fun line hline => hl line (by simp [hline])
  rwa [← h, ← h', joinLines_splitLines, joinLines_splitLines] at hlines

/-! ## Solid pieces -/

/-- A piece that no indentation reaches into. -/
structure Solid (piece : List CodePoint) : Prop where
  opens : ∃ p, piece.head? = some p ∧ isBlankPoint p = false
  unbroken : lineBreak ∉ piece.dropLast

/-- After some code points of a text, what follows has other blanks at the start of lines too, unless
it starts in the middle of the blanks of a line. -/
theorem Relaid.drop {fresh : Bool} {lead xs ys : List CodePoint} (h : Relaid fresh (lead ++ xs) ys)
    {p : CodePoint} (hx : xs.head? = some p) (hp : isBlankPoint p = false) :
    ∃ lead' ys' fresh', ys = lead' ++ ys' ∧ Relaid fresh' xs ys' := by
  generalize hw : lead ++ xs = whole at h
  induction h generalizing lead with
  | nil fresh =>
    obtain ⟨rfl, rfl⟩ := List.append_eq_nil_iff.mp hw
    cases hx
  | keep fresh hq h ih =>
    cases lead with
    | nil =>
      rw [List.nil_append] at hw
      subst hw
      exact ⟨[], _, fresh, rfl, .keep fresh hq h⟩
    | cons q lead =>
      rw [List.cons_append, List.cons.injEq] at hw
      obtain ⟨rfl, hw⟩ := hw
      obtain ⟨lead', ys', fresh', rfl, h'⟩ := ih hw
      exact ⟨q :: lead', ys', fresh', rfl, h'⟩
  | next fresh h ih =>
    cases lead with
    | nil =>
      rw [List.nil_append] at hw
      subst hw
      exact ⟨[], _, fresh, rfl, .next fresh h⟩
    | cons q lead =>
      rw [List.cons_append, List.cons.injEq] at hw
      obtain ⟨rfl, hw⟩ := hw
      obtain ⟨lead', ys', fresh', rfl, h'⟩ := ih hw
      exact ⟨lineBreak :: lead', ys', fresh', rfl, h'⟩
  | @indent old new rest ys ho hn h ih =>
    rcases List.append_eq_append_iff.mp hw with ⟨gap, rfl, rfl⟩ | ⟨gap, rfl, rfl⟩
    · -- The stretch ends among the blanks, so it must take all of them: `xs` starts with no blank.
      cases gap with
      | nil => exact ⟨new, ys, false, rfl, h⟩
      | cons q gap =>
        have hq : isBlankPoint q := List.all_eq_true.mp ho.1 q (by simp)
        simp only [List.cons_append, List.head?_cons, Option.some.injEq] at hx
        rw [hx, hp] at hq
        cases hq
    · obtain ⟨lead', ys', fresh', rfl, h'⟩ := ih rfl
      exact ⟨new ++ lead', ys', fresh', by simp, h'⟩

/-- A stretch in the middle of a line is kept, up to and including the end of the line. -/
theorem Relaid.stretch {piece xs ys : List CodePoint} (hb : lineBreak ∉ piece.dropLast)
    (h : Relaid false (piece ++ xs) ys) : ∃ ys' fresh, ys = piece ++ ys' ∧ Relaid fresh xs ys' := by
  induction piece generalizing ys with
  | nil => exact ⟨ys, false, rfl, h⟩
  | cons q piece ih =>
    cases h with
    | keep _ _ h =>
      have hb' : lineBreak ∉ piece.dropLast := by
        cases piece with
        | nil => simp
        | cons r piece => exact fun hm => hb (by simp [hm])
      obtain ⟨ys', fresh, rfl, h'⟩ := ih hb' h
      exact ⟨ys', fresh, rfl, h'⟩
    | next _ h =>
      cases piece with
      | nil => exact ⟨_, true, rfl, h⟩
      | cons r piece => exact absurd (by simp) hb

/-- Before a code point that is not blank, at most the blanks of a line are exchanged. -/
theorem Relaid.settle {fresh : Bool} {p : CodePoint} {xs ys : List CodePoint}
    (hp : isBlankPoint p = false) (h : Relaid fresh (p :: xs) ys) :
    ∃ gap ys', ys = gap ++ ys' ∧ Relaid false (p :: xs) ys' := by
  generalize hw : p :: xs = whole at h
  cases h with
  | nil => cases hw
  | keep _ hq h => exact ⟨[], _, rfl, .keep false hq h⟩
  | next _ h => exact ⟨[], _, rfl, .next false h⟩
  | @indent old new rest ys ho hn h =>
    cases old with
    | nil => exact ⟨new, ys, rfl, h⟩
    | cons q old =>
      have hq : isBlankPoint q := List.all_eq_true.mp ho.1 q (by simp)
      rw [← (List.cons.inj hw).1, hp] at hq
      cases hq

/-- Solid pieces of a text stay, in order, when blanks at the start of lines are exchanged. -/
theorem InOrder.relaid {pieces : List (List CodePoint)} {xs : List CodePoint}
    (h : InOrder pieces xs) (hs : ∀ piece ∈ pieces, Solid piece) {fresh : Bool} {ys : List CodePoint}
    (hr : Relaid fresh xs ys) : InOrder pieces ys := by
  induction h generalizing fresh ys with
  | nil => exact .nil _
  | cons gap piece h ih =>
    obtain ⟨⟨p, hhead, hp⟩, hb⟩ := hs piece (by simp)
    obtain ⟨tail, rfl⟩ : ∃ tail, piece = p :: tail := by
      cases piece with
      | nil => cases hhead
      | cons q tail => exact ⟨tail, by simpa using hhead⟩
    -- Skip what stands before the piece, then its line's blanks, then the piece itself.
    obtain ⟨lead, ys₁, _, rfl, hr₁⟩ := hr.drop (by simp) hp
    obtain ⟨gap', ys₂, rfl, hr₂⟩ := hr₁.settle hp
    obtain ⟨ys₃, _, rfl, hr₃⟩ := Relaid.stretch hb hr₂
    have hrest := ih (fun piece hpiece => hs piece (by simp [hpiece])) hr₃
    rw [← List.append_assoc]
    exact .cons (lead ++ gap') (p :: tail) hrest

/-- **Pieces survive a move.** Solid pieces of a text stay, unchanged and in order, when it is moved. -/
theorem InOrder.reindentPoints {pieces : List (List CodePoint)} {ps : List CodePoint}
    (h : InOrder pieces ps) (hs : ∀ piece ∈ pieces, Solid piece) {indent : List CodePoint}
    (hi : IsIndent indent) : InOrder pieces (reindentPoints ps indent) :=
  h.relaid hs (relaid_reindentPoints ps hi)

/-- Solid pieces stay when a text is moved any number of times. -/
theorem InOrder.foldl_reindent {pieces : List (List CodePoint)} {indents : List Text}
    (hs : ∀ piece ∈ pieces, Solid piece) (hi : ∀ i ∈ indents, IsIndent i.points) {text : Text}
    (h : InOrder pieces text.points) : InOrder pieces (indents.foldl reindent text).points := by
  induction indents generalizing text with
  | nil => exact h
  | cons indent indents ih =>
    exact ih (fun i hm => hi i (by simp [hm])) (h.reindentPoints hs (hi indent (by simp)))

end Text

end ClassComponent
