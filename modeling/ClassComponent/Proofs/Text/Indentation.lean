import ClassComponent.Proofs.Text.Lines
import Mathlib.Data.List.TakeWhile
import Mathlib.Order.Bounds.Defs

/-!
# One move after another

Moving a fragment twice is moving it once, and what stands before and after a fragment on the same lines does
not change how it is moved.

* **Widths** (`blankWidth_moveLine`): a line that is moved from one width to an indentation keeps what it has beyond
  that width. So the common width of the moved lines is that of the indentation (`commonWidth_map_moveLine`), and a
  second move takes away what the first one put there (`reindentPoints_reindentPoints`).
* **Surroundings** (`reindentPoints_surround`): what precedes a fragment joins its first line, which stays. What
  follows it joins its last line, whose width stays the same unless it is blank.
* **Nothing else** (`reindent_changes_indentation_only`): a move changes the blanks before lines, by as many for every
  line, so that the narrowest line stands right at the indentation.
-/

namespace ClassComponent.Text

/-! ## Widths of lines -/

theorem allBlank_append (ps qs : List CodePoint) : allBlank (ps ++ qs) = (allBlank ps && allBlank qs) :=
  List.all_append

theorem blankWidth_append_of_allBlank {indent : List CodePoint} (hi : allBlank indent) (line : List CodePoint) :
    blankWidth (indent ++ line) = indent.length + blankWidth line := by
  unfold blankWidth
  rw [List.takeWhile_append_of_pos (List.all_eq_true.mp hi), List.length_append]

theorem blankWidth_append_of_not_allBlank {line : List CodePoint} (hb : allBlank line = false)
    (rest : List CodePoint) : blankWidth (line ++ rest) = blankWidth line := by
  unfold blankWidth
  rw [List.takeWhile_append, if_neg]
  intro hlength
  have hall : line.takeWhile isBlankPoint = line :=
    (List.takeWhile_prefix _).eq_of_length hlength
  rw [List.takeWhile_eq_self_iff] at hall
  rw [allBlank, List.all_eq_true.mpr hall] at hb
  cases hb

section

variable {width : Nat} {indent line : List CodePoint}

theorem blankWidth_drop (hw : width ≤ blankWidth line) : blankWidth (line.drop width) = blankWidth line - width := by
  have hle : blankWidth line ≤ line.length := (List.takeWhile_prefix _).length_le
  have hsplit := blankWidth_append_of_allBlank (allBlank_take hw) (line.drop width)
  rw [List.take_append_drop, List.length_take] at hsplit
  omega

theorem allBlank_drop (hw : width ≤ blankWidth line) : allBlank (line.drop width) = allBlank line := by
  have hsplit := allBlank_append (line.take width) (line.drop width)
  rw [List.take_append_drop, allBlank_take hw, Bool.true_and] at hsplit
  exact hsplit.symm

theorem moveLine_of_allBlank (hb : allBlank line = true) : moveLine width indent line = [] := by
  simp [moveLine, hb]

theorem moveLine_of_not_allBlank (hb : allBlank line = false) :
    moveLine width indent line = indent ++ line.drop width := by
  simp [moveLine, hb]

/-- A line is blank after a move exactly if it was blank before. -/
theorem allBlank_moveLine (hi : allBlank indent) (hw : allBlank line = false → width ≤ blankWidth line) :
    allBlank (moveLine width indent line) = allBlank line := by
  cases hb : allBlank line with
  | true =>
    rw [moveLine_of_allBlank hb]
    rfl
  | false => rw [moveLine_of_not_allBlank hb, allBlank_append, hi, allBlank_drop (hw hb), hb, Bool.true_and]

/-- A moved line keeps the blanks that it has beyond the width it is moved from. -/
theorem blankWidth_moveLine (hi : allBlank indent) (hb : allBlank line = false) (hw : width ≤ blankWidth line) :
    blankWidth (moveLine width indent line) = indent.length + (blankWidth line - width) := by
  rw [moveLine_of_not_allBlank hb, blankWidth_append_of_allBlank hi, blankWidth_drop hw]

theorem trimStart_append_of_allBlank {lead : List CodePoint} (hlead : allBlank lead) (ps : List CodePoint) :
    trimStart ⟨lead ++ ps⟩ = trimStart ⟨ps⟩ :=
  congrArg Text.mk (List.dropWhile_append_of_pos (List.all_eq_true.mp hlead))

/-- What follows the blanks of a line stays. -/
theorem trimStart_moveLine (hi : allBlank indent) (hw : allBlank line = false → width ≤ blankWidth line) :
    trimStart ⟨moveLine width indent line⟩ = trimStart ⟨line⟩ := by
  cases hb : allBlank line with
  | true =>
    have hempty := trimStart_append_of_allBlank hb []
    rw [List.append_nil] at hempty
    rw [moveLine_of_allBlank hb, hempty]
  | false =>
    have hcut := trimStart_append_of_allBlank (allBlank_take (hw hb)) (line.drop width)
    rw [List.take_append_drop] at hcut
    rw [moveLine_of_not_allBlank hb, trimStart_append_of_allBlank hi, hcut]

/-- A second move takes away the indentation that the first one put there. -/
theorem moveLine_moveLine (hi : allBlank indent) (hw : allBlank line = false → width ≤ blankWidth line)
    (next : List CodePoint) :
    moveLine indent.length next (moveLine width indent line) = moveLine width next line := by
  have hblank := allBlank_moveLine hi hw
  cases hb : allBlank line with
  | true => rw [moveLine_of_allBlank (hblank.trans hb), moveLine_of_allBlank hb]
  | false =>
    rw [moveLine_of_not_allBlank (hblank.trans hb), moveLine_of_not_allBlank hb, moveLine_of_not_allBlank hb,
      List.drop_left]

end

/-! ## The common width -/

/-- The common width is that of some line, if not all lines are blank. -/
theorem exists_blankWidth_eq_commonWidth {lines : List (List CodePoint)}
    (h : ∃ line ∈ lines, allBlank line = false) :
    ∃ line ∈ lines, allBlank line = false ∧ blankWidth line = commonWidth lines := by
  obtain ⟨line, hline, hb⟩ := h
  have hmem : blankWidth line ∈ (lines.filter fun line => !allBlank line).map blankWidth :=
    List.mem_map_of_mem (List.mem_filter.mpr ⟨hline, by simp [hb]⟩)
  obtain ⟨width, hwidth⟩ := Option.isSome_iff_exists.mp (List.isSome_min?_of_mem hmem)
  obtain ⟨least, hleast, heq⟩ := List.mem_map.mp (List.min?_mem hwidth)
  obtain ⟨hleast, hb'⟩ := List.mem_filter.mp hleast
  refine ⟨least, hleast, by simpa using hb', ?_⟩
  rw [heq, commonWidth, hwidth, Option.getD_some]

/-- Lines that are moved to an indentation have its width in common. -/
theorem commonWidth_map_moveLine {lines : List (List CodePoint)} {indent : List CodePoint} (hi : allBlank indent)
    (h : ∃ line ∈ lines, allBlank line = false) :
    commonWidth (lines.map (moveLine (commonWidth lines) indent)) = indent.length := by
  have hblank : ∀ line ∈ lines, allBlank (moveLine (commonWidth lines) indent line) = allBlank line :=
    fun line hline => allBlank_moveLine hi (commonWidth_le hline)
  apply Nat.le_antisymm
  · -- The line that had the common width has no blanks beyond the indentation.
    obtain ⟨line, hline, hb, heq⟩ := exists_blankWidth_eq_commonWidth h
    have hle := commonWidth_le (List.mem_map_of_mem (f := moveLine (commonWidth lines) indent) hline)
      ((hblank line hline).trans hb)
    rwa [blankWidth_moveLine hi hb (Nat.le_of_eq heq.symm), heq, Nat.sub_self, Nat.add_zero] at hle
  · obtain ⟨line, hline, hb⟩ := h
    obtain ⟨moved, hmoved, hb', heq⟩ := exists_blankWidth_eq_commonWidth
      ⟨_, List.mem_map_of_mem (f := moveLine (commonWidth lines) indent) hline, (hblank line hline).trans hb⟩
    obtain ⟨line', hline', rfl⟩ := List.mem_map.mp hmoved
    rw [hblank line' hline'] at hb'
    rw [← heq, blankWidth_moveLine hi hb' (commonWidth_le hline' hb')]
    exact Nat.le_add_right _ _

/-! ## Moving twice -/

/-- A moved fragment is its first line and its other lines, moved. -/
theorem reindentPoints_eq {ps first : List CodePoint} {rest : List (List CodePoint)}
    (h : splitLines ps = first :: rest) (indent : List CodePoint) :
    reindentPoints ps indent = joinLines (first :: rest.map (moveLine (commonWidth rest) indent)) := by
  cases rest with
  | nil =>
    rw [reindentPoints, h]
    exact (joinLines_splitLines ps).symm.trans (congrArg joinLines h)
  | cons second rest => rw [reindentPoints, h]

/-- **The last move counts.** A fragment that is moved twice is where the second move alone takes it. -/
theorem reindentPoints_reindentPoints (ps : List CodePoint) {indent : List CodePoint} (hi : IsIndent indent)
    (next : List CodePoint) : reindentPoints (reindentPoints ps indent) next = reindentPoints ps next := by
  obtain ⟨first, rest, h⟩ := List.exists_cons_of_ne_nil (splitLines_ne_nil ps)
  rw [reindentPoints_eq (splitLines_reindentPoints hi.2 h), reindentPoints_eq h, List.map_map]
  congr 2
  apply List.map_congr_left
  intro line hline
  cases hb : allBlank line with
  | true =>
    have hmoved : moveLine (commonWidth rest) indent line = [] := moveLine_of_allBlank hb
    rw [Function.comp_apply, hmoved, moveLine_of_allBlank hb]
    exact moveLine_of_allBlank rfl
  | false =>
    rw [Function.comp_apply, commonWidth_map_moveLine hi.1 ⟨line, hline, hb⟩]
    exact moveLine_moveLine hi.1 (commonWidth_le hline) next

/-! ## Surroundings -/

/-- The last line of a text. -/
def lastLine (ps : List CodePoint) : List CodePoint :=
  (splitLines ps).getLast (splitLines_ne_nil ps)

theorem splitLines_of_not_mem {ps : List CodePoint} (h : lineBreak ∉ ps) : splitLines ps = [ps] := by
  have hlines : splitLines (joinLines [ps]) = [ps] := splitLines_joinLines (by simp) (by simpa using h)
  rwa [joinLines_cons, List.flatMap_nil, List.append_nil] at hlines

theorem reindentPoints_of_not_mem {ps : List CodePoint} (h : lineBreak ∉ ps) (indent : List CodePoint) :
    reindentPoints ps indent = ps := by
  rw [reindentPoints, splitLines_of_not_mem h]

/-- A fragment of more than one line, with something before and after it, has the same lines, the first and the
last one apart. -/
theorem splitLines_surround {ps first last lead trail : List CodePoint} {rest : List (List CodePoint)}
    (hlead : lineBreak ∉ lead) (htrail : lineBreak ∉ trail) (h : splitLines ps = first :: (rest ++ [last])) :
    splitLines (lead ++ ps ++ trail) = (lead ++ first) :: (rest ++ [last ++ trail]) := by
  have hlines : ∀ line ∈ first :: (rest ++ [last]), lineBreak ∉ line := fun line hline =>
    lineBreak_not_mem_of_mem_splitLines ps (h ▸ hline)
  have hjoin : lead ++ ps ++ trail = joinLines ((lead ++ first) :: (rest ++ [last ++ trail])) := by
    rw [← joinLines_splitLines ps, h, joinLines_cons, joinLines_cons]
    simp
  rw [hjoin]
  apply splitLines_joinLines (by simp)
  intro line hline
  rcases List.mem_cons.mp hline with rfl | hline
  · simpa [hlead] using hlines first (by simp)
  · rcases List.mem_append.mp hline with hline | hline
    · exact hlines line (by simp [hline])
    · rw [List.mem_singleton.mp hline]
      simpa [htrail] using hlines last (by simp)

/-- What follows a line that is not blank does not change its width. -/
theorem commonWidth_concat_append {last : List CodePoint} (hb : allBlank last = false)
    (lines : List (List CodePoint)) (trail : List CodePoint) :
    commonWidth (lines ++ [last ++ trail]) = commonWidth (lines ++ [last]) := by
  have hb' : allBlank (last ++ trail) = false := by rw [allBlank_append, hb, Bool.false_and]
  simp [commonWidth, hb, hb', blankWidth_append_of_not_allBlank hb]

/-- What follows a line that is not blank is moved with it. -/
theorem moveLine_append {width : Nat} {last : List CodePoint} (hb : allBlank last = false)
    (hw : width ≤ blankWidth last) (indent trail : List CodePoint) :
    moveLine width indent (last ++ trail) = moveLine width indent last ++ trail := by
  have hb' : allBlank (last ++ trail) = false := by rw [allBlank_append, hb, Bool.false_and]
  have hle : blankWidth last ≤ last.length := (List.takeWhile_prefix _).length_le
  rw [moveLine_of_not_allBlank hb', moveLine_of_not_allBlank hb,
    List.drop_append_of_le_length (Nat.le_trans hw hle), List.append_assoc]

/-- **Surroundings stay.** A fragment that does not end with a blank line is moved in the same way if something
stands before it and after it on the same lines. -/
theorem reindentPoints_surround {ps lead trail : List CodePoint} (hlead : lineBreak ∉ lead)
    (htrail : lineBreak ∉ trail) (hlast : lineBreak ∉ ps ∨ allBlank (lastLine ps) = false)
    (indent : List CodePoint) :
    reindentPoints (lead ++ ps ++ trail) indent = lead ++ reindentPoints ps indent ++ trail := by
  by_cases hps : lineBreak ∈ ps
  · obtain ⟨first, rest, h⟩ := List.exists_cons_of_ne_nil (splitLines_ne_nil ps)
    rcases List.eq_nil_or_concat rest with rfl | ⟨rest, last, rfl⟩
    · have hfirst : ps = first := by
        rw [← joinLines_splitLines ps, h, joinLines_cons, List.flatMap_nil, List.append_nil]
      exact absurd (hfirst ▸ hps) (lineBreak_not_mem_of_mem_splitLines ps (by simp [h]))
    · rw [List.concat_eq_append] at h
      have hb : allBlank last = false := by
        have hlast := hlast.resolve_left (not_not_intro hps)
        simpa [lastLine, h] using hlast
      have hw : commonWidth (rest ++ [last]) ≤ blankWidth last := commonWidth_le (by simp) hb
      rw [reindentPoints_eq (splitLines_surround hlead htrail h), reindentPoints_eq h,
        commonWidth_concat_append hb, joinLines_cons, joinLines_cons]
      simp [moveLine_append hb hw]
  · have hall : lineBreak ∉ lead ++ ps ++ trail := by simp [hlead, hps, htrail]
    rw [reindentPoints_of_not_mem hps, reindentPoints_of_not_mem hall]

/-! ## Texts -/

/-- A text is a single line, or its last line is not blank. -/
def EndsFilled (text : Text) : Prop :=
  lineBreak ∉ text.points ∨ allBlank (lastLine text.points) = false

theorem reindent_reindent (text : Text) {indent : Text} (hi : IsIndent indent.points) (next : Text) :
    reindent (reindent text indent) next = reindent text next :=
  congrArg Text.mk (reindentPoints_reindentPoints text.points hi next.points)

theorem reindent_surround {lead text trail : Text} (hlead : lineBreak ∉ lead.points)
    (htrail : lineBreak ∉ trail.points) (hlast : EndsFilled text) (indent : Text) :
    reindent (lead ++ text ++ trail) indent = lead ++ reindent text indent ++ trail :=
  congrArg Text.mk (reindentPoints_surround hlead htrail hlast indent.points)

/-! ## What a move changes -/

/-- The widths of those lines that hold more than blanks. -/
def filledWidths (lines : List (List CodePoint)) : Set Nat :=
  {width | ∃ line ∈ lines, allBlank line = false ∧ blankWidth line = width}

/-- The common width is the least one. -/
theorem isLeast_commonWidth {lines : List (List CodePoint)} (h : ∃ line ∈ lines, allBlank line = false) :
    IsLeast (filledWidths lines) (commonWidth lines) := by
  refine ⟨exists_blankWidth_eq_commonWidth h, ?_⟩
  rintro width ⟨line, hline, hb, rfl⟩
  exact commonWidth_le hline hb

/-- The narrowest of the moved lines stands right at the indentation. -/
theorem isLeast_filledWidths_map {lines : List (List CodePoint)} {indent : List CodePoint} (hi : allBlank indent)
    (h : ∃ line ∈ lines, allBlank line = false) :
    IsLeast (filledWidths (lines.map (moveLine (commonWidth lines) indent))) indent.length := by
  rw [← commonWidth_map_moveLine hi h]
  obtain ⟨line, hline, hb⟩ := h
  have hb' := (allBlank_moveLine hi (commonWidth_le hline)).trans hb
  exact isLeast_commonWidth ⟨_, List.mem_map_of_mem hline, hb'⟩

/-- Two moved lines stand as far from each other as before. -/
theorem blankWidth_sub_moveLine {lines : List (List CodePoint)} {indent line line' : List CodePoint}
    (hi : allBlank indent) (hline : line ∈ lines) (hline' : line' ∈ lines) (hb : allBlank line = false)
    (hb' : allBlank line' = false) :
    (blankWidth (moveLine (commonWidth lines) indent line) : Int) -
        blankWidth (moveLine (commonWidth lines) indent line') =
      (blankWidth line : Int) - blankWidth line' := by
  have hle := commonWidth_le hline hb
  have hle' := commonWidth_le hline' hb'
  rw [blankWidth_moveLine hi hb hle, blankWidth_moveLine hi hb' hle']
  omega

/-- **A move changes nothing but the indentation.** A fragment that is moved has as many lines as before and the same
first line. Every other line is the same after its blanks; a blank line becomes empty, and any other one starts with
the indentation, which an end of the old line follows. Lines that are not blank keep the differences of
their widths, and the least width among them is that of the indentation. -/
theorem reindent_changes_indentation_only (text : Text) {indent : Text} (hi : IsIndent indent.points) :
    let old := splitLines text.points
    let new := splitLines (reindent text indent).points
    let moves := old.tail.zip new.tail
    new.length = old.length ∧ new.head? = old.head? ∧
    (∀ line moved, (line, moved) ∈ moves →
      trimStart ⟨moved⟩ = trimStart ⟨line⟩ ∧
      (allBlank line → moved = []) ∧
      (allBlank line = false → ∃ kept, kept <:+ line ∧ moved = indent.points ++ kept)) ∧
    (∀ line moved line' moved', (line, moved) ∈ moves → (line', moved') ∈ moves →
      allBlank line = false → allBlank line' = false →
      (blankWidth moved : Int) - blankWidth moved' = (blankWidth line : Int) - blankWidth line') ∧
    ((∃ line ∈ old.tail, allBlank line = false) → IsLeast (filledWidths new.tail) indent.length) := by
  intro old new moves
  obtain ⟨first, rest, hold⟩ := List.exists_cons_of_ne_nil (splitLines_ne_nil text.points)
  have hnew : new = first :: rest.map (moveLine (commonWidth rest) indent.points) :=
    splitLines_reindentPoints hi.2 hold
  have hold : old = first :: rest := hold
  have hmoves : ∀ {line moved}, (line, moved) ∈ moves →
      line ∈ rest ∧ moved = moveLine (commonWidth rest) indent.points line := by
    intro line moved hmem
    simp only [moves, hold, hnew, List.tail_cons, ← List.map_prod_left_eq_zip] at hmem
    obtain ⟨line', hline, hsame⟩ := List.mem_map.mp hmem
    cases hsame
    exact ⟨hline, rfl⟩
  refine ⟨by simp [hold, hnew], by simp [hold, hnew], ?_, ?_, ?_⟩
  · intro line moved hmem
    obtain ⟨hline, rfl⟩ := hmoves hmem
    exact ⟨trimStart_moveLine hi.1 (commonWidth_le hline), moveLine_of_allBlank,
      fun hb => ⟨_, List.drop_suffix _ _, moveLine_of_not_allBlank hb⟩⟩
  · intro line moved line' moved' hmem hmem' hb hb'
    obtain ⟨hline, rfl⟩ := hmoves hmem
    obtain ⟨hline', rfl⟩ := hmoves hmem'
    exact blankWidth_sub_moveLine hi.1 hline hline' hb hb'
  · rw [hold, hnew, List.tail_cons, List.tail_cons]
    exact isLeast_filledWidths_map hi.1

/-- Tabs, wide and narrow spaces before lines, a line that ends with a carriage return and one that holds nothing
else. -/
theorem reindent_of_mixed_blanks :
    let text : Text := "f(\n\t\u3000x,\r\n \t\r\n\t  \u00a0y\n\t\t)"
    let indent : Text := " "
    let moved : Text := "f(\n x,\r\n\n  \u00a0y\n )"
    IsIndent indent.points ∧ reindent text indent = moved ∧
      (splitLines text.points).map blankWidth = [0, 2, 3, 4, 2] ∧
      (splitLines moved.points).map blankWidth = [0, 1, 0, 3, 1] ∧
      IsLeast (filledWidths (splitLines moved.points).tail) 1 := by
  intro text indent moved
  have hi : IsIndent indent.points := by decide
  have hmoved : reindent text indent = moved := by decide
  obtain ⟨-, -, -, -, hleast⟩ := reindent_changes_indentation_only text hi
  rw [hmoved] at hleast
  exact ⟨hi, hmoved, by decide, by decide, hleast (by decide)⟩

end ClassComponent.Text
