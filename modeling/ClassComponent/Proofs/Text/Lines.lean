import ClassComponent.Text.Lines
import Mathlib.Data.List.Forall2

/-!
# Moving fragments line by line

What `reindent` does to the lines of a fragment, for one move and for any number of them.

* **Lines** (`joinLines_splitLines`, `splitLines_joinLines`): a text is its lines, joined.
* **One line** (`moveLine_moved`): a moved line differs from the line at most in the blanks before
  it (`SameButIndent`), and a blank line is emptied (`Moved`). No more blanks are cut off than every
  line has, because `commonWidth` is at most the width of each line that is not blank.
* **One move** (`reindented_reindentPoints`): the first line stays, all others are moved
  (`Reindented`).
* **Many moves** (`reindented_foldl`): `Moved` is transitive, so one move after the other still only
  moves lines.
-/

namespace ClassComponent.Text

/-! ## Lines of a text -/

theorem splitAt_eq_splitOn {α : Type} [BEq α] (separator : α) (xs : List α) :
    splitAt separator xs = xs.splitOn separator := by
  induction xs with
  | nil => rfl
  | cons x xs ih =>
    rw [List.splitOn_cons_eq_if_modifyHead, splitAt, ih]
    obtain ⟨piece, pieces, h⟩ := List.exists_cons_of_ne_nil (List.splitOn_ne_nil separator xs)
    rw [h]
    rfl

theorem splitLines_ne_nil (ps : List CodePoint) : splitLines ps ≠ [] := by
  rw [splitLines, splitAt_eq_splitOn]
  exact List.splitOn_ne_nil _ _

/-- The lines of a text, joined, are the text. -/
theorem joinLines_splitLines (ps : List CodePoint) : joinLines (splitLines ps) = ps := by
  rw [joinLines, splitLines, splitAt_eq_splitOn, List.intercalate_splitOn]

/-- Lines without line breaks, joined, have these lines. -/
theorem splitLines_joinLines {lines : List (List CodePoint)} (hne : lines ≠ [])
    (h : ∀ line ∈ lines, lineBreak ∉ line) : splitLines (joinLines lines) = lines := by
  rw [joinLines, splitLines, splitAt_eq_splitOn, List.splitOn_intercalate _ h hne]

theorem splitLines_cons_lineBreak (ps : List CodePoint) :
    splitLines (lineBreak :: ps) = [] :: splitLines ps := by
  simp [splitLines, splitAt]

theorem splitLines_cons_of_ne {p : CodePoint} (hp : p ≠ lineBreak) {ps first : List CodePoint}
    {rest : List (List CodePoint)} (h : splitLines ps = first :: rest) :
    splitLines (p :: ps) = (p :: first) :: rest := by
  unfold splitLines at h ⊢
  simp [splitAt, h, hp]

/-- No piece holds the separator. -/
theorem not_mem_of_mem_splitAt {α : Type} [BEq α] [LawfulBEq α] {separator : α} {xs piece : List α}
    (h : piece ∈ splitAt separator xs) : separator ∉ piece := by
  induction xs generalizing piece with
  | nil =>
    have : piece = [] := by simpa [splitAt] using h
    simp [this]
  | cons x xs ih =>
    rw [splitAt] at h
    split at h
    · rcases List.mem_cons.mp h with rfl | h
      · simp
      · exact ih h
    · next hx =>
      cases hs : splitAt separator xs with
      | nil =>
        rw [splitAt_eq_splitOn] at hs
        exact absurd hs (List.splitOn_ne_nil separator xs)
      | cons first rest =>
        simp only [hs] at h
        rcases List.mem_cons.mp h with rfl | h
        · rw [List.mem_cons, not_or]
          exact ⟨fun heq => hx (beq_iff_eq.mpr heq.symm), ih (by simp [hs])⟩
        · exact ih (by simp [hs, h])

theorem lineBreak_not_mem_of_mem_splitLines (ps : List CodePoint) {line : List CodePoint}
    (h : line ∈ splitLines ps) : lineBreak ∉ line :=
  not_mem_of_mem_splitAt h

/-- Pieces of a list whose elements are renamed are the pieces, renamed. -/
theorem splitAt_map {α β : Type} [BEq α] [LawfulBEq α] [BEq β] [LawfulBEq β] {f : α → β}
    (hf : Function.Injective f) (separator : α) (xs : List α) :
    splitAt (f separator) (xs.map f) = (splitAt separator xs).map (List.map f) := by
  induction xs with
  | nil => rfl
  | cons x xs ih =>
    rw [List.map_cons, splitAt, splitAt, ih]
    by_cases hx : x = separator
    · simp [hx]
    · have hfx : f x ≠ f separator := fun h => hx (hf h)
      rw [if_neg (by simpa using hfx), if_neg (by simpa using hx)]
      cases splitAt separator xs <;> rfl

/-- Pieces with a separator between neighbours are the first one, and then the separator before each
other one. -/
theorem intercalate_cons {α : Type} (separator : α) (piece : List α) (pieces : List (List α)) :
    [separator].intercalate (piece :: pieces) = piece ++ pieces.flatMap (separator :: ·) := by
  induction pieces generalizing piece with
  | nil => simp
  | cons next pieces ih =>
    rw [List.intercalate_cons_cons, ih next]
    simp

/-- A text is its first line and then a line break before each other line. -/
theorem joinLines_cons (line : List CodePoint) (lines : List (List CodePoint)) :
    joinLines (line :: lines) = line ++ lines.flatMap (lineBreak :: ·) :=
  intercalate_cons lineBreak line lines

/-! ## One line -/

/-- Code points that can stand before a line: blanks, none of them a line break. -/
def IsIndent (ps : List CodePoint) : Prop :=
  allBlank ps ∧ lineBreak ∉ ps

instance (ps : List CodePoint) : Decidable (IsIndent ps) :=
  inferInstanceAs (Decidable (_ ∧ _))

theorem isIndent_nil : IsIndent [] := by
  simp [IsIndent, allBlank]

theorem IsIndent.append {ps qs : List CodePoint} (hp : IsIndent ps) (hq : IsIndent qs) :
    IsIndent (ps ++ qs) := by
  simp_all [IsIndent, allBlank]

theorem IsIndent.of_append_right {ps qs : List CodePoint} (h : IsIndent (ps ++ qs)) : IsIndent qs := by
  simp_all [IsIndent, allBlank]

/-- The lines `l` and `m` differ at most in the blanks before them. -/
def SameButIndent (l m : List CodePoint) : Prop :=
  ∃ old new core, IsIndent old ∧ IsIndent new ∧ l = old ++ core ∧ m = new ++ core

theorem SameButIndent.trans {l m n : List CodePoint} (h₁ : SameButIndent l m)
    (h₂ : SameButIndent m n) : SameButIndent l n := by
  obtain ⟨old₁, new₁, core₁, ho₁, hn₁, rfl, rfl⟩ := h₁
  obtain ⟨old₂, new₂, core₂, ho₂, hn₂, hm, rfl⟩ := h₂
  -- The two cuts of the middle line differ by a stretch of blanks, which goes to one of the ends.
  rcases List.append_eq_append_iff.mp hm with ⟨gap, rfl, rfl⟩ | ⟨gap, rfl, rfl⟩
  · exact ⟨old₁ ++ gap, new₂, core₂, ho₁.append ho₂.of_append_right, hn₂, by simp, rfl⟩
  · exact ⟨old₁, new₂ ++ gap, core₁, ho₁, hn₂.append hn₁.of_append_right, rfl, by simp⟩

/-- The line `m` is the line `l` moved: other blanks stand before it, and a blank line is emptied. -/
structure Moved (l m : List CodePoint) : Prop where
  same : SameButIndent l m
  emptied : allBlank l → m = []

theorem Moved.trans {l m n : List CodePoint} (h₁ : Moved l m) (h₂ : Moved m n) : Moved l n where
  same := h₁.same.trans h₂.same
  emptied hl := h₂.emptied (by simp [h₁.emptied hl, allBlank])

/-- As many code points as a line has blanks at its start are blanks. -/
theorem allBlank_take {width : Nat} {line : List CodePoint} (h : width ≤ blankWidth line) :
    allBlank (line.take width) := by
  have hpre : line.takeWhile isBlankPoint = line.take (blankWidth line) :=
    List.prefix_iff_eq_take.mp (List.takeWhile_prefix _)
  have hall : allBlank (line.take (blankWidth line)) := by
    rw [← hpre]
    exact List.all_takeWhile
  have htake : line.take width = (line.take (blankWidth line)).take width := by
    rw [List.take_take, Nat.min_eq_left h]
  unfold allBlank at hall ⊢
  rw [htake]
  exact List.all_eq_true.mpr fun p hp => List.all_eq_true.mp hall p (List.mem_of_mem_take hp)

/-- A line that is cut by no more than its blanks is moved. -/
theorem moveLine_moved {width : Nat} {indent line : List CodePoint} (hi : IsIndent indent)
    (hl : lineBreak ∉ line) (hw : allBlank line = false → width ≤ blankWidth line) :
    Moved line (moveLine width indent line) := by
  cases hb : allBlank line with
  | true =>
    have hm : moveLine width indent line = [] := by simp [moveLine, hb]
    exact ⟨⟨line, [], [], ⟨hb, hl⟩, isIndent_nil, by simp, by simp [hm]⟩, fun _ => hm⟩
  | false =>
    have hm : moveLine width indent line = indent ++ line.drop width := by simp [moveLine, hb]
    have hold : IsIndent (line.take width) :=
      ⟨allBlank_take (hw hb), fun h => hl (List.mem_of_mem_take h)⟩
    refine ⟨⟨line.take width, indent, line.drop width, hold, hi, ?_, hm⟩, ?_⟩
    · exact (List.take_append_drop width line).symm
    · intro h
      rw [hb] at h
      cases h

theorem lineBreak_not_mem_moveLine {width : Nat} {indent line : List CodePoint}
    (hi : lineBreak ∉ indent) (hl : lineBreak ∉ line) : lineBreak ∉ moveLine width indent line := by
  unfold moveLine
  split
  · simp
  · intro h
    rcases List.mem_append.mp h with h | h
    · exact hi h
    · exact hl (List.mem_of_mem_drop h)

/-- Every line that is not blank starts with the common blanks. -/
theorem commonWidth_le {line : List CodePoint} {lines : List (List CodePoint)} (h : line ∈ lines)
    (hb : allBlank line = false) : commonWidth lines ≤ blankWidth line := by
  unfold commonWidth
  apply List.min?_getD_le_of_mem
  exact List.mem_map.mpr ⟨line, List.mem_filter.mpr ⟨h, by simp [hb]⟩, rfl⟩

/-! ## One move -/

/-- The lines of a fragment after a move: the first one stays, all others are moved. -/
theorem splitLines_reindentPoints {ps indent first : List CodePoint} {rest : List (List CodePoint)}
    (hi : lineBreak ∉ indent) (h : splitLines ps = first :: rest) :
    splitLines (reindentPoints ps indent) =
      first :: rest.map (moveLine (commonWidth rest) indent) := by
  cases hr : rest with
  | nil => simp [reindentPoints, h, hr]
  | cons second rest' =>
    have hp : reindentPoints ps indent =
        joinLines (first :: rest.map (moveLine (commonWidth rest) indent)) := by
      simp [reindentPoints, h, hr]
    rw [← hr, hp]
    apply splitLines_joinLines (by simp)
    intro line hline
    rcases List.mem_cons.mp hline with rfl | hline
    · exact lineBreak_not_mem_of_mem_splitLines ps (by simp [h])
    · obtain ⟨old, hold, rfl⟩ := List.mem_map.mp hline
      exact lineBreak_not_mem_moveLine hi
        (lineBreak_not_mem_of_mem_splitLines ps (by simp [h, hold]))

/-- The lines `ms` are the lines `ls` of a fragment that was moved. -/
def Reindented (ls ms : List (List CodePoint)) : Prop :=
  ∃ first rest rest', ls = first :: rest ∧ ms = first :: rest' ∧ List.Forall₂ Moved rest rest'

/-- **One move.** The first line stays and every other line is moved. -/
theorem reindented_reindentPoints (ps : List CodePoint) {indent : List CodePoint}
    (hi : IsIndent indent) : Reindented (splitLines ps) (splitLines (reindentPoints ps indent)) := by
  obtain ⟨first, rest, h⟩ := List.exists_cons_of_ne_nil (splitLines_ne_nil ps)
  refine ⟨first, rest, _, h, splitLines_reindentPoints hi.2 h, ?_⟩
  rw [List.forall₂_map_right_iff, List.forall₂_same]
  intro line hline
  apply moveLine_moved hi
  · exact lineBreak_not_mem_of_mem_splitLines ps (by simp [h, hline])
  · exact commonWidth_le hline

/-! ## Many moves -/

theorem forall₂_moved_trans {ls ms ns : List (List CodePoint)} (h₁ : List.Forall₂ Moved ls ms)
    (h₂ : List.Forall₂ Moved ms ns) : List.Forall₂ Moved ls ns := by
  induction h₁ generalizing ns with
  | nil => exact h₂
  | cons hlm _ ih =>
    cases h₂ with
    | cons hmn hrest => exact .cons (hlm.trans hmn) (ih hrest)

theorem Reindented.trans {ls ms ns : List (List CodePoint)} (h₁ : Reindented ls ms)
    (h₂ : Reindented ms ns) : Reindented ls ns := by
  obtain ⟨first, rest, mid, rfl, rfl, h₁⟩ := h₁
  obtain ⟨first', mid', rest', hm, rfl, h₂⟩ := h₂
  cases hm
  exact ⟨first, rest, rest', rfl, rfl, forall₂_moved_trans h₁ h₂⟩

/-- **Many moves.** A fragment that is moved to one indentation after the other keeps its first line,
and every other line is moved. -/
theorem reindented_foldl (indent : Text) (indents : List Text)
    (h : ∀ i ∈ indent :: indents, IsIndent i.points) (text : Text) :
    Reindented (splitLines text.points)
      (splitLines ((indent :: indents).foldl reindent text).points) := by
  induction indents generalizing indent text with
  | nil => exact reindented_reindentPoints text.points (h indent (by simp))
  | cons next indents ih =>
    have h₁ := reindented_reindentPoints text.points (h indent (by simp))
    have h₂ := ih next (fun i hi => h i (List.mem_cons_of_mem _ hi)) (reindent text indent)
    exact h₁.trans h₂

end ClassComponent.Text
