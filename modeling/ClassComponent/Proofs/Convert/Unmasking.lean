import ClassComponent.Proofs.Convert.Origin

/-!
# Masking and unmasking

Masking writes a marker in place of some line breaks. It is exact, and it can be undone.

* **Positions** (`getElem?_maskFrom`): a line break is masked if a line starts behind it inside one of the
  spans. Every other code point stays where it is, so all offsets stay valid.
* **Stretches** (`restoreLineBreaks_between`): a marker that does not occur in a text can be taken out of any
  stretch of the masked text, which is the stretch of the text then.
* **Markers** (`freeMarker?_eq_some_iff`): the marker of a script is the least private-use character that does not
  occur in it.
-/

namespace ClassComponent

theorem Span.map_slice {α β : Type} (f : α → β) (s : Span) (xs : List α) :
    (s.slice xs).map f = s.slice (xs.map f) := by
  rw [slice, slice, List.map_drop, List.map_take]

namespace Text

/-! ## Positions -/

theorem startsInside_succ {spans : List Span} {pos : Nat} :
    StartsInside spans (pos + 1) ↔ ∃ span ∈ spans, span.start ≤ pos ∧ pos + 1 < span.stop := by
  simp only [StartsInside, Nat.lt_succ_iff]

theorem length_maskFrom (spans : List Span) (marker : CodePoint) (pos : Nat) (ps : List CodePoint) :
    (maskFrom spans [marker] pos ps).length = ps.length := by
  induction ps generalizing pos with
  | nil => rfl
  | cons p ps ih => rw [maskFrom_cons, List.length_cons, List.length_cons, ih]

theorem getElem?_maskFrom (spans : List Span) (marker : CodePoint) (pos : Nat) (ps : List CodePoint) (i : Nat) :
    (maskFrom spans [marker] pos ps)[i]? =
      ps[i]?.map fun p => if p = lineBreak ∧ StartsInside spans (pos + i + 1) then marker else p := by
  induction ps generalizing pos i with
  | nil => rfl
  | cons p ps ih =>
    rw [maskFrom_cons]
    cases i with
    | zero => rfl
    | succ i =>
      have hpos : pos + 1 + i + 1 = pos + (i + 1) + 1 := by omega
      rw [List.getElem?_cons_succ, List.getElem?_cons_succ, ih, hpos]

theorem length_maskLineBreaks (text : Text) (spans : List Span) (marker : CodePoint) :
    (maskLineBreaks text spans ⟨[marker]⟩).length = text.length := by
  rw [length, maskLineBreaks_points]
  exact length_maskFrom spans marker 0 text.points

/-- Where the marker stands in a masked text, and what stands everywhere else. -/
theorem getElem?_maskLineBreaks (text : Text) (spans : List Span) (marker : CodePoint) (i : Nat) :
    let masked := maskLineBreaks text spans ⟨[marker]⟩
    (masked.points[i]? = some marker ↔
      text.points[i]? = some lineBreak ∧ StartsInside spans (i + 1) ∨ text.points[i]? = some marker) ∧
    (¬ (text.points[i]? = some lineBreak ∧ StartsInside spans (i + 1)) →
      masked.points[i]? = text.points[i]?) := by
  have hpoint : (maskLineBreaks text spans ⟨[marker]⟩).points[i]? =
      text.points[i]?.map fun p => if p = lineBreak ∧ StartsInside spans (i + 1) then marker else p := by
    rw [maskLineBreaks_points, getElem?_maskFrom, Nat.zero_add]
  dsimp only
  rw [hpoint]
  cases text.points[i]? with
  | none => simp
  | some p =>
    by_cases hmasked : p = lineBreak ∧ StartsInside spans (i + 1)
    · simp [hmasked]
    · simp [hmasked]

/-! ## Stretches -/

/-- The place of an offset in a text of `length` code points; an offset below zero counts back from the end. -/
def placeOf (length : Nat) (offset : Int) : Nat :=
  (if offset < 0 then length + offset else offset).toNat

/-- The part of a text from one offset up to, not including, another. -/
def between (t : Text) (start stop : Int) : Text :=
  (⟨placeOf t.length start, placeOf t.length stop⟩ : Span).of t

theorem map_unmask_maskFrom (spans : List Span) {marker : CodePoint} (pos : Nat) {ps : List CodePoint}
    (h : marker ∉ ps) : (maskFrom spans [marker] pos ps).map (unmask marker) = ps := by
  induction ps generalizing pos with
  | nil => rfl
  | cons p ps ih =>
    obtain ⟨hp, hps⟩ := not_or.mp (mt List.mem_cons.mpr h)
    have hpoint : unmask marker (if p = lineBreak ∧ StartsInside spans (pos + 1) then marker else p) = p := by
      split
      · next hmasked => rw [unmask, if_pos rfl, hmasked.1]
      · rw [unmask, if_neg (Ne.symm hp)]
    rw [maskFrom_cons, List.map_cons, hpoint, ih _ hps]

theorem restoreLineBreaks_between {text : Text} {marker : CodePoint} (h : marker ∉ text.points)
    (spans : List Span) (start stop : Int) :
    restoreLineBreaks ((maskLineBreaks text spans ⟨[marker]⟩).between start stop) ⟨[marker]⟩ =
      text.between start stop := by
  refine eq_of_points ?_
  rw [between, between, length_maskLineBreaks, Span.of, maskLineBreaks_points]
  show restorePoints [marker] (Span.slice _ (maskFrom spans [marker] 0 text.points)) = Span.slice _ text.points
  rw [restorePoints_singleton, Span.map_slice, map_unmask_maskFrom spans 0 h]

/-! ## Markers -/

/-- The private-use characters of the basic plane. -/
def IsPrivateUse (c : Char) : Prop :=
  0xE000 ≤ c.toNat ∧ c.toNat ≤ 0xF8FF

instance (c : Char) : Decidable (IsPrivateUse c) :=
  inferInstanceAs (Decidable (_ ∧ _))

theorem mem_markerCandidates {c : Char} : c ∈ markerCandidates ↔ IsPrivateUse c := by
  constructor
  · intro h
    have hbounds := Origin.toNat_bounds_of_marker h
    exact ⟨hbounds.1, by omega⟩
  · rintro ⟨hlow, hhigh⟩
    refine List.mem_map.mpr ⟨c.toNat, List.mem_range'_1.mpr ⟨hlow, by omega⟩, Char.ofNat_toNat c⟩

theorem pairwise_markerCandidates : markerCandidates.Pairwise fun c d => c.toNat < d.toNat := by
  have hvalue : ∀ n ∈ List.range' 0xE000 0x1900, (Char.ofNat n).toNat = n := by
    intro n hn
    have hn := List.mem_range'_1.mp hn
    exact CodePoint.toNat_ofNat_of_valid (.inr ⟨by omega, by omega⟩)
  refine List.pairwise_map.mpr (List.Pairwise.imp_of_mem ?_ List.pairwise_lt_range')
  intro m n hm hn hlt
  rwa [hvalue m hm, hvalue n hn]

theorem freeMarker?_eq_none_iff {text : Text} :
    freeMarker? text = none ↔ ∀ c, IsPrivateUse c → CodePoint.char c ∈ text.points := by
  simp [freeMarker?, mem_markerCandidates]

/-- The candidates are tried in ascending order, so the first that does not occur is the least. -/
theorem freeMarker?_eq_some_iff {text : Text} {c : Char} :
    freeMarker? text = some c ↔ IsPrivateUse c ∧ CodePoint.char c ∉ text.points ∧
      ∀ d, IsPrivateUse d → CodePoint.char d ∉ text.points → c.toNat ≤ d.toNat := by
  have hleast : ∀ {c : Char}, freeMarker? text = some c → IsPrivateUse c ∧ CodePoint.char c ∉ text.points ∧
      ∀ d, IsPrivateUse d → CodePoint.char d ∉ text.points → c.toNat ≤ d.toNat := by
    intro c h
    obtain ⟨hfree, before, after, hsplit, hbefore⟩ := List.find?_eq_some_iff_append.mp h
    have hmem : c ∈ markerCandidates := hsplit ▸ List.mem_append_right _ List.mem_cons_self
    refine ⟨mem_markerCandidates.mp hmem, by simpa using hfree, fun d hd hother => ?_⟩
    have hd : d ∈ before ++ c :: after := hsplit ▸ mem_markerCandidates.mpr hd
    rcases List.mem_append.mp hd with hd | hd
    · exact absurd (by simpa using hbefore d hd) hother
    · have horder := pairwise_markerCandidates
      rw [hsplit, List.pairwise_append, List.pairwise_cons] at horder
      rcases List.mem_cons.mp hd with rfl | hd
      · exact Nat.le_refl _
      · exact Nat.le_of_lt (horder.2.1.1 d hd)
  refine ⟨hleast, fun ⟨hprivate, hfree, hfirst⟩ => ?_⟩
  cases hfound : freeMarker? text with
  | none => exact absurd (freeMarker?_eq_none_iff.mp hfound c hprivate) hfree
  | some d =>
    obtain ⟨hd, hother, hd_first⟩ := hleast hfound
    have hle := hfirst d hd hother
    have hge := hd_first c hprivate hfree
    rw [Char.toNat_inj.mp (Nat.le_antisymm hge hle)]

end Text

/-! ## Nodes -/

/-- What stands in a script at the place of a node; nothing if the node has no place. -/
def Tree.excerptOf (t : Tree) (source : Text) : Text :=
  match t.span? with
  | some span => span.of source
  | none => ""

/-- The text of a node is what stands at its place, masked. -/
theorem Origin.restore_text {source : Text} {tokens : List Tree} {o : Origin}
    (h : Origin.of? source tokens = some o) (t : Tree) :
    o.restore (o.text t) = t.excerptOf source := by
  obtain ⟨f, hrestore, -, hmasks⟩ := masks_of? h
  refine Text.eq_of_points ?_
  rw [hrestore, text, Tree.excerptOf]
  cases t.span? with
  | none => rfl
  | some node => exact (hmasks.slice node).map_eq

open Text in
/-- **Masking is exact and can be undone.** Whatever the spans and whatever the marker, masking keeps the length
of a text. The marker stands exactly where a line break lay inside a span with more of the span after it, and
where it stood before; all other code points stay. If the marker does not occur in the text, unmasking any
stretch of the masked text gives that stretch of the text. The marker that is picked is the least private-use
character that does not occur, and none is picked exactly if all of them occur. So the unmasked text of a node is
what stands in the script at its place. -/
theorem masking_exact_and_undone (text : Text) :
    (∀ (spans : List Span) (marker : CodePoint),
      let masked := maskLineBreaks text spans ⟨[marker]⟩
      let breaks (pos : Nat) : Prop :=
        text.points[pos]? = some lineBreak ∧ ∃ span ∈ spans, span.start ≤ pos ∧ pos + 1 < span.stop
      masked.length = text.length ∧
      (∀ pos, masked.points[pos]? = some marker ↔ breaks pos ∨ text.points[pos]? = some marker) ∧
      (∀ pos, ¬ breaks pos → masked.points[pos]? = text.points[pos]?) ∧
      (marker ∉ text.points → ∀ start stop : Int,
        restoreLineBreaks (masked.between start stop) ⟨[marker]⟩ = text.between start stop)) ∧
    (∀ c, freeMarker? text = some c ↔ IsPrivateUse c ∧ CodePoint.char c ∉ text.points ∧
      ∀ d, IsPrivateUse d → CodePoint.char d ∉ text.points → c.toNat ≤ d.toNat) ∧
    (freeMarker? text = none ↔ ∀ c, IsPrivateUse c → CodePoint.char c ∈ text.points) ∧
    ∀ tokens o, Origin.of? text tokens = some o → ∀ t : Tree,
      restoreLineBreaks (o.text t) o.marker = t.excerptOf text := by
  refine ⟨fun spans marker => ⟨length_maskLineBreaks text spans marker, fun pos => ?_, fun pos => ?_,
    fun hfree start stop => restoreLineBreaks_between hfree spans start stop⟩,
    fun c => freeMarker?_eq_some_iff, freeMarker?_eq_none_iff, fun tokens o ho t => Origin.restore_text ho t⟩
  · simp only [← startsInside_succ]
    exact (getElem?_maskLineBreaks text spans marker pos).1
  · simp only [← startsInside_succ]
    exact (getElem?_maskLineBreaks text spans marker pos).2

open Text in
/-- Spans that overlap, an empty one, and one that goes on after the end of the text. The line break that ends a
span stays. -/
theorem masking_of_overlapping_spans :
    let text : Text := "a\nb\nc\n"
    let masked := maskLineBreaks text [⟨0, 4⟩, ⟨1, 3⟩, ⟨5, 5⟩, ⟨5, 9⟩] "|"
    masked = "a|b\nc|" ∧ masked.between (-4) 9 = "b\nc|" ∧ text.between (-4) 9 = "b\nc\n" ∧
      (∀ start stop, restoreLineBreaks (masked.between start stop) "|" = text.between start stop) ∧
      freeMarker? text = some (Char.ofNat 0xE000) := by
  intro text masked
  obtain ⟨hmask, hmarker, -, -⟩ := masking_exact_and_undone text
  have hundone := (hmask [⟨0, 4⟩, ⟨1, 3⟩, ⟨5, 5⟩, ⟨5, 9⟩] (.char '|')).2.2.2 (by decide)
  have hfree : freeMarker? text = some (Char.ofNat 0xE000) :=
    (hmarker _).mpr ⟨by decide, by decide, fun d hd _ => hd.1⟩
  exact ⟨by decide +kernel, by decide +kernel, by decide, hundone, hfree⟩

end ClassComponent
