import ClassComponent.Proofs.Text.Pieces

/-!
# Masked line breaks

What the lines of a masked text are.

* **The loop** (`maskLineBreaks_points`): whether a line break is masked depends on nothing but its offset, so the
  loop over the spans writes what `maskFrom` writes offset by offset.
* `Masks spans f pos ps qs`: from offset `pos` on, `qs` is the text `ps` in which every line break
  before a line that starts inside one of `spans` is masked, and nothing else is changed; `f` undoes
  it. `maskFrom` with a marker that does not occur gives such a text (`masks_maskFrom`), and a text
  without such line breaks is one itself (`masks_self`).
* **Lines** (`Masks.splitLines`): the lines of `qs`, unmasked, are the stretches of `ps` between the
  line breaks that stay (`outerLines`): the lines that start outside every span.
* **Blank lines** (`Masks.allBlank_lines`): if spans start with code points that are not blank, a line
  after the first one that is blank when unmasked was blank before.
* **Spans** (`Masks.solid`): the text of a span, masked, is a solid piece.
-/

namespace ClassComponent.Text

/-! ## Undoing the mask -/

theorem isBlankPoint_lineBreak : isBlankPoint lineBreak := by
  decide

theorem ne_lineBreak {p : CodePoint} (hp : isBlankPoint p = false) : p ≠ lineBreak := by
  rintro rfl
  rw [isBlankPoint_lineBreak] at hp
  cases hp

/-- The line break that a marker stands for; other code points stand for themselves. -/
def unmask (marker p : CodePoint) : CodePoint :=
  if p = marker then lineBreak else p

theorem restoreFrom_singleton (marker : CodePoint) (ps : List CodePoint) :
    restoreFrom [marker] 0 ps = ps.map (unmask marker) := by
  induction ps with
  | nil => rfl
  | cons p ps ih =>
    by_cases h : p = marker
    · simp [restoreFrom, afterLead?, unmask, h, ih]
    · simp [restoreFrom, afterLead?, unmask, h, Ne.symm h, ih]

theorem restorePoints_singleton (marker : CodePoint) (ps : List CodePoint) :
    restorePoints [marker] ps = ps.map (unmask marker) := by
  simp [restorePoints, restoreFrom_singleton]

theorem map_joinLines {f : CodePoint → CodePoint} (hf : f lineBreak = lineBreak)
    (lines : List (List CodePoint)) : (joinLines lines).map f = joinLines (lines.map (List.map f)) := by
  cases lines with
  | nil => rfl
  | cons line lines =>
    simp only [List.map_cons, joinLines_cons, List.map_append, List.map_flatMap, List.flatMap_map, hf]

/-! ## The rule for each offset -/

/-- The line at offset `pos` starts inside one of the spans. -/
def StartsInside (spans : List Span) (pos : Nat) : Prop :=
  ∃ s ∈ spans, s.start < pos ∧ pos < s.stop

instance (spans : List Span) (pos : Nat) : Decidable (StartsInside spans pos) :=
  inferInstanceAs (Decidable (∃ s ∈ spans, _))

/-- Whether the offset `pos` of a line break lies in `span` with more of the span after it. -/
def breaksInside (span : Span) (pos : Nat) : Bool :=
  span.start ≤ pos && pos + 1 < span.stop

theorem any_breaksInside {spans : List Span} {pos : Nat} :
    spans.any (breaksInside · pos) ↔ StartsInside spans (pos + 1) := by
  simp only [StartsInside, List.any_eq_true, breaksInside, Bool.and_eq_true, decide_eq_true_eq]
  constructor
  · rintro ⟨s, hs, h₁, h₂⟩
    exact ⟨s, hs, by omega, h₂⟩
  · rintro ⟨s, hs, h₁, h₂⟩
    exact ⟨s, hs, by omega, h₂⟩

/-- What is written for the code point at offset `pos`: each offset is looked at by itself. -/
def pieceAt (spans : List Span) (marker : List CodePoint) (pos : Nat) (p : CodePoint) : List CodePoint :=
  if p == lineBreak && spans.any (breaksInside · pos) then marker else [p]

/-- The code points from offset `pos` on, each as it is written. -/
def maskFrom (spans : List Span) (marker : List CodePoint) : Nat → List CodePoint → List CodePoint
  | _, [] => []
  | pos, p :: ps => pieceAt spans marker pos p ++ maskFrom spans marker (pos + 1) ps

/-! ## The loop -/

theorem findBreak?_eq_none {ps : List CodePoint} {start stop : Nat} (h : findBreak? ps start stop = none)
    {i : Nat} (hstart : start ≤ i) (hstop : i < stop) : ps[i]? ≠ some lineBreak := by
  intro hi
  have hnone := List.findIdx?_eq_none_iff.mp (Option.map_eq_none_iff.mp h) lineBreak
  refine absurd (hnone (List.mem_iff_getElem?.mpr ⟨i - start, ?_⟩)) (by simp)
  rw [Span.getElem?_slice, Nat.add_sub_cancel' hstart, if_pos hstop, hi]

theorem findBreak?_eq_some {ps : List CodePoint} {start stop pos : Nat}
    (h : findBreak? ps start stop = some pos) :
    ps[pos]? = some lineBreak ∧ ∀ i, start ≤ i → i < pos → ps[i]? ≠ some lineBreak := by
  have hbounds := findBreak?_bounds h
  obtain ⟨k, hk, rfl⟩ := Option.map_eq_some_iff.mp h
  obtain ⟨hlt, hfound, hbefore⟩ := List.findIdx?_eq_some_iff_getElem.mp hk
  have hpoint : ∀ j ≤ k, (Span.slice ⟨start, stop⟩ ps)[j]? = ps[start + j]? := by
    intro j hj
    rw [Span.getElem?_slice, if_pos (show start + j < stop by omega)]
  refine ⟨?_, fun i hstart hi hbreak => ?_⟩
  · rw [← hpoint k (Nat.le_refl k), List.getElem?_eq_getElem hlt]
    exact congrArg some (beq_iff_eq.mp hfound)
  · have hi' : i - start < k := by omega
    refine hbefore (i - start) hi' (beq_iff_eq.mpr (Option.some.inj ?_))
    rw [← List.getElem?_eq_getElem, hpoint _ (Nat.le_of_lt hi'), Nat.add_sub_cancel' hstart, hbreak]

/-- What one span writes, offset by offset. -/
theorem getElem?_maskSpan (ps marker : List CodePoint) (start stop : Nat) (pieces : List (List CodePoint)) (i : Nat) :
    (maskSpan ps marker start stop pieces)[i]? = pieces[i]?.map fun piece =>
      if ps[i]? = some lineBreak ∧ start ≤ i ∧ i + 1 < stop then marker else piece := by
  fun_induction maskSpan ps marker start stop pieces with
  | case1 start pieces h =>
    have hkeep : ¬ (ps[i]? = some lineBreak ∧ start ≤ i ∧ i + 1 < stop) :=
      fun ⟨hbreak, hstart, hstop⟩ => findBreak?_eq_none h hstart (by omega) hbreak
    simp only [if_neg hkeep, Option.map_id']
  | case2 start pieces pos h hinside ih =>
    obtain ⟨hpos, hbefore⟩ := findBreak?_eq_some h
    have hbounds := findBreak?_bounds h
    rw [ih]
    by_cases hi : i = pos
    · subst hi
      have hwritten : (pieces.set i marker)[i]? = pieces[i]?.map fun _ => marker :=
        List.getElem?_set_self'
      simp only [hwritten, Option.map_map, Function.comp_def, hpos, hbounds.1, hinside, and_self, if_true, ite_self]
    · rw [List.getElem?_set_ne (Ne.symm hi)]
      have hsame : (ps[i]? = some lineBreak ∧ pos + 1 ≤ i ∧ i + 1 < stop) ↔
          (ps[i]? = some lineBreak ∧ start ≤ i ∧ i + 1 < stop) := by
        constructor
        · exact fun ⟨hbreak, hstart, hstop⟩ => ⟨hbreak, by omega, hstop⟩
        · intro ⟨hbreak, hstart, hstop⟩
          have hafter : ¬ i < pos := fun hlt => hbefore i hstart hlt hbreak
          exact ⟨hbreak, by omega, hstop⟩
      simp only [hsame]
  | case3 start pieces pos h hlast =>
    obtain ⟨-, hbefore⟩ := findBreak?_eq_some h
    have hbounds := findBreak?_bounds h
    have hkeep : ¬ (ps[i]? = some lineBreak ∧ start ≤ i ∧ i + 1 < stop) :=
      fun ⟨hbreak, hstart, hstop⟩ => hbefore i hstart (by omega) hbreak
    simp only [if_neg hkeep, Option.map_id']

/-- What all spans write, one after the other: a line break that lies in several of them is masked once. -/
theorem getElem?_foldl_maskSpan (ps marker : List CodePoint) (spans : List Span) (pieces : List (List CodePoint))
    (i : Nat) :
    (spans.foldl (fun pieces span => maskSpan ps marker span.start span.stop pieces) pieces)[i]? =
      pieces[i]?.map fun piece =>
        if ps[i]? = some lineBreak ∧ spans.any (breaksInside · i) then marker else piece := by
  induction spans generalizing pieces with
  | nil => simp
  | cons span spans ih =>
    rw [List.foldl_cons, ih, getElem?_maskSpan, Option.map_map]
    refine congrArg (Option.map · pieces[i]?) (funext fun piece => ?_)
    have hspan : breaksInside span i ↔ span.start ≤ i ∧ i + 1 < span.stop := by
      rw [breaksInside, Bool.and_eq_true, decide_eq_true_eq, decide_eq_true_eq]
    simp only [Function.comp_apply, List.any_cons, Bool.or_eq_true, ← hspan]
    by_cases hbreak : ps[i]? = some lineBreak
    · cases breaksInside span i <;> simp [hbreak]
    · simp [hbreak]

theorem maskFrom_eq_flatten (spans : List Span) (marker : List CodePoint) (pos : Nat) (ps : List CodePoint) :
    maskFrom spans marker pos ps = (ps.mapIdx fun i p => pieceAt spans marker (pos + i) p).flatten := by
  induction ps generalizing pos with
  | nil => rfl
  | cons p ps ih =>
    rw [maskFrom, ih, List.mapIdx_cons, List.flatten_cons]
    simp only [Nat.add_zero, Nat.add_assoc, Nat.add_comm 1]

/-- **The loop looks at each offset by itself.** Whatever the spans, and whether they overlap or not, it writes the
marker for the line breaks after which a line starts inside a span, and every other code point as it is. -/
theorem maskLineBreaks_points (text : Text) (spans : List Span) (marker : Text) :
    (maskLineBreaks text spans marker).points = maskFrom spans marker.points 0 text.points := by
  rw [maskFrom_eq_flatten]
  refine congrArg List.flatten (List.ext_getElem? fun i => ?_)
  rw [getElem?_foldl_maskSpan, List.getElem?_map, List.getElem?_mapIdx]
  cases text.points[i]? with
  | none => rfl
  | some p => simp [pieceAt]

/-! ## Masked texts -/

/-- From offset `pos` on, `qs` is `ps` with the line breaks masked after which a line starts inside one
of `spans`, and `f` undoes the mask. -/
inductive Masks (spans : List Span) (f : CodePoint → CodePoint) :
    Nat → List CodePoint → List CodePoint → Prop
  | nil (pos : Nat) : Masks spans f pos [] []
  | keep {pos : Nat} {p : CodePoint} {ps qs : List CodePoint} (hf : f p = p)
      (hp : p = lineBreak → ¬ StartsInside spans (pos + 1)) (h : Masks spans f (pos + 1) ps qs) :
      Masks spans f pos (p :: ps) (p :: qs)
  | mask {pos : Nat} {q : CodePoint} {ps qs : List CodePoint} (hf : f q = lineBreak)
      (hq : isBlankPoint q = false) (hs : StartsInside spans (pos + 1))
      (h : Masks spans f (pos + 1) ps qs) : Masks spans f pos (lineBreak :: ps) (q :: qs)

/-- Masking goes on point by point. -/
theorem maskFrom_cons (spans : List Span) (marker : CodePoint) (pos : Nat) (p : CodePoint) (ps : List CodePoint) :
    maskFrom spans [marker] pos (p :: ps) =
      (if p = lineBreak ∧ StartsInside spans (pos + 1) then marker else p) ::
        maskFrom spans [marker] (pos + 1) ps := by
  have hmasked : (p == lineBreak && spans.any (breaksInside · pos)) = true ↔
      p = lineBreak ∧ StartsInside spans (pos + 1) := by
    rw [Bool.and_eq_true, beq_iff_eq, any_breaksInside]
  rw [maskFrom, pieceAt]
  simp only [hmasked]
  split <;> rfl

/-- A marker that does not occur masks line breaks. -/
theorem masks_maskFrom (spans : List Span) {marker : CodePoint} (hb : isBlankPoint marker = false)
    (pos : Nat) {ps : List CodePoint} (hm : marker ∉ ps) :
    Masks spans (unmask marker) pos ps (maskFrom spans [marker] pos ps) := by
  induction ps generalizing pos with
  | nil => exact .nil pos
  | cons p ps ih =>
    have hp : p ≠ marker := fun e => hm (by simp [e])
    have hrest := ih (pos + 1) (fun h => hm (by simp [h]))
    rw [maskFrom_cons]
    split
    · next hs =>
      obtain ⟨rfl, hs⟩ := hs
      exact .mask (by simp [unmask]) hb hs hrest
    · next hs => exact .keep (by simp [unmask, hp]) (fun e h => hs ⟨e, h⟩) hrest

/-- A text in which no line starts inside a span needs no mask. -/
theorem masks_self {spans : List Span} {pos : Nat} {ps : List CodePoint}
    (h : ∀ i, ps[i]? = some lineBreak → ¬ StartsInside spans (pos + i + 1)) :
    Masks spans id pos ps ps := by
  induction ps generalizing pos with
  | nil => exact .nil pos
  | cons p ps ih =>
    refine .keep rfl (fun hp => h 0 (by simp [hp])) (ih fun i hi => ?_)
    rw [show pos + 1 + i = pos + (i + 1) by omega]
    exact h (i + 1) (by simpa using hi)

namespace Masks

variable {spans : List Span} {f : CodePoint → CodePoint} {pos : Nat} {ps qs : List CodePoint}

theorem map_eq (h : Masks spans f pos ps qs) : qs.map f = ps := by
  induction h with
  | nil => rfl
  | keep hf _ _ ih => simp [hf, ih]
  | mask hf _ _ _ ih => simp [hf, ih]

/-- Undoing the mask changes nothing in the text itself. -/
theorem fixes (h : Masks spans f pos ps qs) (hf : f lineBreak = lineBreak) : ∀ p ∈ ps, f p = p := by
  induction h with
  | nil => nofun
  | keep hp _ _ ih => exact List.forall_mem_cons.mpr ⟨hp, ih⟩
  | mask _ _ _ _ ih => exact List.forall_mem_cons.mpr ⟨hf, ih⟩

theorem take (h : Masks spans f pos ps qs) (n : Nat) :
    Masks spans f pos (ps.take n) (qs.take n) := by
  induction h generalizing n with
  | nil pos => simpa using .nil pos
  | keep hf hp _ ih =>
    cases n with
    | zero => exact .nil _
    | succ n => exact .keep hf hp (ih n)
  | mask hf hq hs _ ih =>
    cases n with
    | zero => exact .nil _
    | succ n => exact .mask hf hq hs (ih n)

theorem drop (h : Masks spans f pos ps qs) (n : Nat) :
    Masks spans f (pos + n) (ps.drop n) (qs.drop n) := by
  induction n generalizing pos ps qs with
  | zero => exact h
  | succ n ih =>
    rw [show pos + (n + 1) = pos + 1 + n by omega]
    cases h with
    | nil => simpa using .nil _
    | keep _ _ h => exact ih h
    | mask _ _ _ h => exact ih h

/-- A stretch of a masked text is that stretch, masked. -/
theorem slice (h : Masks spans f 0 ps qs) (s : Span) :
    Masks spans f s.start (s.slice ps) (s.slice qs) := by
  have := (h.take s.stop).drop s.start
  rwa [Nat.zero_add] at this

/-- The line breaks that stay are those before lines that start outside every span. -/
theorem not_startsInside (h : Masks spans f pos ps qs) {i : Nat} (hi : qs[i]? = some lineBreak) :
    ¬ StartsInside spans (pos + i + 1) := by
  induction h generalizing i with
  | nil => simp at hi
  | keep hf hp _ ih =>
    cases i with
    | zero => exact hp (by simpa using hi)
    | succ i =>
      rw [show ∀ n, n + (i + 1) = n + 1 + i by omega]
      exact ih (by simpa using hi)
  | mask hf hq _ _ ih =>
    cases i with
    | zero => exact absurd (by simpa using hi) (ne_lineBreak hq)
    | succ i =>
      rw [show ∀ n, n + (i + 1) = n + 1 + i by omega]
      exact ih (by simpa using hi)

/-- A code point that is not blank is not masked. -/
theorem getElem?_of_not_blank (h : Masks spans f pos ps qs) {i : Nat} {p : CodePoint}
    (hi : ps[i]? = some p) (hp : isBlankPoint p = false) : qs[i]? = some p := by
  induction h generalizing i with
  | nil => simp at hi
  | keep _ _ _ ih =>
    cases i with
    | zero => simpa using hi
    | succ i => exact ih (by simpa using hi)
  | mask _ _ _ _ ih =>
    cases i with
    | zero => exact absurd (by simpa [eq_comm] using hi) (ne_lineBreak hp)
    | succ i => exact ih (by simpa using hi)

end Masks

/-! ## Lines that start outside every span -/

/-- The text from offset `pos` on, cut at the line breaks after which a line starts outside every
span. The other line breaks stay inside the lines. -/
def outerLines (spans : List Span) : Nat → List CodePoint → List (List CodePoint)
  | _, [] => [[]]
  | pos, p :: ps =>
    if p = lineBreak ∧ ¬ StartsInside spans (pos + 1) then [] :: outerLines spans (pos + 1) ps
    else match outerLines spans (pos + 1) ps with
      | [] => [[p]]
      | line :: lines => (p :: line) :: lines

theorem outerLines_ne_nil (spans : List Span) (pos : Nat) (ps : List CodePoint) :
    outerLines spans pos ps ≠ [] := by
  cases ps with
  | nil => simp [outerLines]
  | cons p ps =>
    rw [outerLines]
    split
    · simp
    · split <;> simp

/-- A text is its outer lines, joined. -/
theorem joinLines_outerLines (spans : List Span) (pos : Nat) (ps : List CodePoint) :
    joinLines (outerLines spans pos ps) = ps := by
  induction ps generalizing pos with
  | nil => rfl
  | cons p ps ih =>
    obtain ⟨line, lines, hl⟩ := List.exists_cons_of_ne_nil (outerLines_ne_nil spans (pos + 1) ps)
    have h := ih (pos + 1)
    rw [hl, joinLines_cons] at h
    rw [outerLines, hl]
    split
    · rename_i hp
      simp [joinLines_cons, hp.1, h]
    · simp [joinLines_cons, h]

namespace Masks

variable {spans : List Span} {f : CodePoint → CodePoint} {pos : Nat} {ps qs : List CodePoint}

/-- **Lines of a masked text.** Unmasked, they are the lines that start outside every span. -/
theorem splitLines (h : Masks spans f pos ps qs) :
    (Text.splitLines qs).map (List.map f) = outerLines spans pos ps := by
  induction h with
  | nil => rfl
  | @keep pos p ps qs hf hp _ ih =>
    by_cases hl : p = lineBreak
    · subst hl
      rw [splitLines_cons_lineBreak, outerLines, if_pos ⟨rfl, hp rfl⟩, ← ih]
      rfl
    · obtain ⟨first, rest, hs⟩ := List.exists_cons_of_ne_nil (splitLines_ne_nil qs)
      rw [splitLines_cons_of_ne hl hs, outerLines, if_neg (fun h => hl h.1), ← ih, hs]
      simp [hf]
  | @mask pos q ps qs hf hq hs _ ih =>
    obtain ⟨first, rest, hr⟩ := List.exists_cons_of_ne_nil (splitLines_ne_nil qs)
    rw [splitLines_cons_of_ne (ne_lineBreak hq) hr, outerLines, if_neg (fun h => h.2 hs), ← ih, hr]
    simp [hf]

/-- What the next two statements need of the spans: the ones that start in `ps`, which begins at offset
`pos`, start with a code point that is not blank. -/
def Opens (spans : List Span) (pos : Nat) (ps : List CodePoint) : Prop :=
  ∀ s ∈ spans, pos ≤ s.start → ∀ p, ps[s.start - pos]? = some p → isBlankPoint p = false

theorem Opens.tail {p : CodePoint} (h : Opens spans pos (p :: ps)) : Opens spans (pos + 1) ps := by
  intro s hs hpos q hq
  apply h s hs (by omega) q
  rw [show s.start - pos = s.start - (pos + 1) + 1 by omega]
  simpa using hq

/-- Where a line starts inside a span but the code point before it does not lie inside one, that code
point is the first of a span. -/
theorem Opens.head {p : CodePoint} (h : Opens spans pos (p :: ps)) (h₁ : ¬ StartsInside spans pos)
    (h₂ : StartsInside spans (pos + 1)) : isBlankPoint p = false := by
  obtain ⟨s, hs, hstart, hstop⟩ := h₂
  have hpos : s.start = pos := by
    by_contra hne
    exact h₁ ⟨s, hs, by omega, by omega⟩
  exact h s hs (by omega) p (by simp [hpos])

/-- Lines of a masked text that are blank when unmasked. Only the first line can have a mask without
a code point before it that is not blank, and only if it starts inside a span. -/
theorem allBlank_lines (h : Masks spans f pos ps qs) (ho : Opens spans pos ps)
    {first : List CodePoint} {rest : List (List CodePoint)}
    (hl : Text.splitLines qs = first :: rest) :
    (∀ line ∈ rest, allBlank (line.map f) → allBlank line) ∧
      (¬ StartsInside spans pos → allBlank (first.map f) → allBlank first) := by
  induction h generalizing first rest with
  | nil =>
    obtain ⟨rfl, rfl⟩ : first = [] ∧ rest = [] := by
      simpa [Text.splitLines, splitAt, eq_comm] using hl
    simp [allBlank]
  | @keep pos p ps qs hf hp _ ih =>
    obtain ⟨next, later, hs⟩ := List.exists_cons_of_ne_nil (splitLines_ne_nil qs)
    obtain ⟨ih₁, ih₂⟩ := ih ho.tail hs
    by_cases hb : p = lineBreak
    · subst hb
      rw [splitLines_cons_lineBreak, hs] at hl
      cases hl
      refine ⟨fun line hline => ?_, fun _ _ => by simp [allBlank]⟩
      rcases List.mem_cons.mp hline with rfl | hline
      · exact ih₂ (hp rfl)
      · exact ih₁ line hline
    · rw [splitLines_cons_of_ne hb hs] at hl
      cases hl
      refine ⟨ih₁, fun hpos hall => ?_⟩
      have hall' : isBlankPoint p ∧ allBlank (next.map f) := by
        simpa [allBlank, hf] using hall
      by_cases hin : StartsInside spans (pos + 1)
      · rw [ho.head hpos hin] at hall'
        cases hall'.1
      · have := ih₂ hin hall'.2
        simpa [allBlank, hall'.1] using this
  | @mask pos q ps qs hf hq hin _ ih =>
    obtain ⟨next, later, hs⟩ := List.exists_cons_of_ne_nil (splitLines_ne_nil qs)
    obtain ⟨ih₁, -⟩ := ih ho.tail hs
    rw [splitLines_cons_of_ne (ne_lineBreak hq) hs] at hl
    cases hl
    exact ⟨ih₁, fun hpos => absurd rfl (ne_lineBreak (ho.head hpos hin))⟩

/-- The text of a span, masked, is a solid piece. -/
theorem solid (h : Masks spans f 0 ps qs) {s : Span} (hs : s ∈ spans) (hstop : s.start < s.stop)
    {p : CodePoint} (hp : ps[s.start]? = some p) (hb : isBlankPoint p = false) :
    Solid (s.slice qs) where
  opens := by
    refine ⟨p, ?_, hb⟩
    rw [List.head?_eq_getElem?, Span.getElem?_slice]
    simpa [hstop] using h.getElem?_of_not_blank hp hb
  unbroken := by
    intro hm
    obtain ⟨i, hi⟩ := List.mem_iff_getElem?.mp hm
    rw [List.getElem?_dropLast] at hi
    split at hi
    · rename_i hlen
      rw [Span.length_slice] at hlen
      exact (h.slice s).not_startsInside hi ⟨s, hs, by omega, by omega⟩
    · cases hi

end Masks

/-! ## Moving masked lines -/

/-- A move of a masked line, unmasked, is a move of the line, if that line is blank only if the masked
one is. -/
theorem Moved.map {f : CodePoint → CodePoint} (hf : ∀ p, isBlankPoint p → f p = p)
    {l m : List CodePoint} (hl : allBlank (l.map f) → allBlank l) (h : Moved l m) :
    Moved (l.map f) (m.map f) := by
  have hindent : ∀ {ps : List CodePoint}, IsIndent ps → ps.map f = ps := by
    intro ps hps
    refine (List.map_congr_left fun p hp => ?_).trans (List.map_id ps)
    exact hf p (List.all_eq_true.mp hps.1 p hp)
  obtain ⟨old, new, core, ho, hn, rfl, rfl⟩ := h.same
  refine ⟨⟨old, new, core.map f, ho, hn, ?_, ?_⟩, fun hb => ?_⟩
  · rw [List.map_append, hindent ho]
  · rw [List.map_append, hindent hn]
  · rw [h.emptied (hl hb)]
    rfl

theorem forall₂_moved_map {f : CodePoint → CodePoint} (hf : ∀ p, isBlankPoint p → f p = p)
    {ls ms : List (List CodePoint)} (hl : ∀ l ∈ ls, allBlank (l.map f) → allBlank l)
    (h : List.Forall₂ Moved ls ms) :
    List.Forall₂ Moved (ls.map (List.map f)) (ms.map (List.map f)) := by
  induction h with
  | nil => exact .nil
  | cons hm _ ih => exact .cons (hm.map hf (hl _ (by simp))) (ih fun l hl' => hl l (by simp [hl']))

end ClassComponent.Text
