import ClassComponent.Convert.Origin
import ClassComponent.Proofs.Text.Masking
import ClassComponent.Proofs.Text.Name

/-!
# Masked scripts

A script is set up with a marker if one of its strings or templates spans lines, and without one
otherwise. Either way its line breaks are masked as the laws of masked texts ask for, and putting them
back is pointwise (`masks_of?`). What stands for a line break is a private-use character, so plain names
are never mixed up (`restore_eq_restore_iff`).
-/

namespace ClassComponent

open Text

namespace Origin

/-! ## Markers -/

theorem toNat_bounds_of_marker {c : Char} (h : c ∈ markerCandidates) :
    0xE000 ≤ c.toNat ∧ c.toNat < 0xF900 := by
  simp only [markerCandidates, List.mem_map, List.mem_range'_1] at h
  obtain ⟨n, hn, rfl⟩ := h
  have hc := CodePoint.toNat_ofNat_of_valid (Or.inr (by omega) : n.isValidChar)
  omega

theorem le_toNat_of_marker {c : Char} (h : c ∈ markerCandidates) : 0xE000 ≤ c.toNat :=
  (toNat_bounds_of_marker h).1

theorem not_isBlankPoint_of_marker {c : Char} (h : c ∈ markerCandidates) :
    isBlankPoint (.char c) = false := by
  have hle := le_toNat_of_marker h
  have hb : isBlank c = false := by
    grind [isBlank]
  exact hb

/-- Whether `f` changes private-use characters only, and these to line breaks. -/
def Unmasks (f : CodePoint → CodePoint) : Prop :=
  ∀ p, f p = p ∨ f p = lineBreak ∧ ∃ c ∈ markerCandidates, p = .char c

theorem Unmasks.blank {f : CodePoint → CodePoint} (hf : Unmasks f) {p : CodePoint}
    (hp : isBlankPoint p) : f p = p := by
  rcases hf p with h | ⟨-, c, hc, rfl⟩
  · exact h
  · rw [not_isBlankPoint_of_marker hc] at hp
    cases hp

theorem Unmasks.below {f : CodePoint → CodePoint} (hf : Unmasks f) {p : CodePoint}
    (hp : p.toNat < 0xE000) : f p = p := by
  rcases hf p with h | ⟨-, c, hc, rfl⟩
  · exact h
  · exact absurd hp (Nat.not_lt.mpr (le_toNat_of_marker hc))

theorem Unmasks.plain {f : CodePoint → CodePoint} (hf : Unmasks f) {p : CodePoint}
    (hp : p.satisfies continuesIdentifier) : f p = p := by
  obtain ⟨c, rfl, hc⟩ := satisfies_iff.mp hp
  exact hf.below (Nat.lt_trans (toNat_lt_of_continuesIdentifier hc) (by decide))

/-- A point that becomes plain was plain. -/
theorem Unmasks.of_plain {f : CodePoint → CodePoint} (hf : Unmasks f) {p : CodePoint}
    (hp : (f p).satisfies continuesIdentifier) : f p = p := by
  rcases hf p with h | ⟨h, -⟩
  · exact h
  · rw [h] at hp
    cases hp

/-! ## Setting up a script -/

theorem not_startsInside_of_breaksLine {source : Text} {spans : List Span}
    (h : breaksLine source spans = false) {i : Nat} (hi : source.points[i]? = some lineBreak) :
    ¬ StartsInside spans (i + 1) := by
  rintro ⟨s, hs, h₁, h₂⟩
  have hmem : lineBreak ∈ s.slice source.points := by
    apply List.mem_iff_getElem?.mpr
    refine ⟨i - s.start, ?_⟩
    rw [Span.getElem?_slice, if_pos (by omega),
      show s.start + (i - s.start) = i by omega]
    exact hi
  have : breaksLine source spans = true :=
    List.any_eq_true.mpr ⟨s, hs, List.contains_iff_mem.mpr hmem⟩
  rw [h] at this
  cases this

/-- However a script is masked, unmasking is pointwise and undoes the mask. -/
theorem masks_of? {source : Text} {tokens : List Tree} {o : Origin}
    (h : of? source tokens = some o) :
    ∃ f : CodePoint → CodePoint, (∀ text, (o.restore text).points = text.points.map f) ∧
      Unmasks f ∧ Masks (verbatimSpans tokens) f 0 source.points o.masked.points := by
  unfold of? at h
  simp only at h
  split at h
  · obtain ⟨c, hc, rfl⟩ := Option.map_eq_some_iff.mp h
    have hmem : c ∈ markerCandidates := List.mem_of_find?_eq_some hc
    have hfree : CodePoint.char c ∉ source.points := by
      have := List.find?_some hc
      simpa using this
    refine ⟨unmask (.char c), fun text => restorePoints_singleton _ _, fun p => ?_, ?_⟩
    · by_cases hp : p = .char c
      · exact .inr ⟨by simp [unmask, hp], c, hmem, hp⟩
      · exact .inl (by simp [unmask, hp])
    · rw [masking, maskLineBreaks_points]
      exact masks_maskFrom _ (not_isBlankPoint_of_marker hmem) 0 hfree
  · rename_i hbreak
    cases h
    refine ⟨id, fun text => by simp [restore, restoreLineBreaks, restorePoints, Text.ofString, ofChars],
      fun _ => .inl rfl, masks_self fun i hi => ?_⟩
    rw [Nat.zero_add]
    exact not_startsInside_of_breaksLine (by simpa using hbreak) hi

/-- What is made of the code points of the script and of ones below all markers holds no mask. -/
theorem restore_eq_self {source : Text} {tokens : List Tree} {o : Origin}
    (ho : of? source tokens = some o) {text : Text}
    (htext : ∀ p ∈ text.points, p ∈ source.points ∨ p.toNat < 0xE000) :
    o.restore text = text := by
  obtain ⟨f, hrestore, hf, hmasks⟩ := masks_of? ho
  refine eq_of_points ?_
  rw [hrestore]
  refine (List.map_congr_left fun p hp => ?_).trans (List.map_id' _)
  rcases htext p hp with hsource | hbelow
  · exact hmasks.fixes (hf.blank isBlankPoint_lineBreak) p hsource
  · exact hf.below hbelow

theorem exists_of? {source : Text} {tokens : List Tree}
    (h : ∃ c ∈ markerCandidates, CodePoint.char c ∉ source.points) :
    ∃ o, of? source tokens = some o := by
  obtain ⟨c, hc, hfree⟩ := h
  have hsome : (freeMarker? source).isSome := by
    rw [freeMarker?, List.find?_isSome]
    exact ⟨c, hc, by simpa using hfree⟩
  obtain ⟨marker, hmarker⟩ := Option.isSome_iff_exists.mp hsome
  unfold of?
  simp only [hmarker, Option.map_some]
  split
  · exact ⟨_, rfl⟩
  · exact ⟨_, rfl⟩

/-- A plain name is told apart from any other text also when all line breaks are put back. -/
theorem restore_eq_restore_iff {source : Text} {tokens : List Tree} {o : Origin}
    (ho : of? source tokens = some o) {name text : Text} (hname : name.IsPlain) :
    o.restore name = o.restore text ↔ name = text := by
  refine ⟨fun h => ?_, fun h => by rw [h]⟩
  obtain ⟨f, hrestore, hf, -⟩ := masks_of? ho
  have hpoints : name.points = text.points.map f := by
    rw [← hrestore, ← h, hrestore, List.map_congr_left fun p hp => hf.plain (hname p hp), List.map_id']
  have hsame : text.points.map f = text.points := by
    refine (List.map_congr_left fun p hp => hf.of_plain ?_).trans (List.map_id' _)
    exact hname (f p) (hpoints ▸ List.mem_map_of_mem hp)
  exact eq_of_points (hpoints.trans hsame)

end Origin

end ClassComponent
