import ClassComponent.Convert.Script
import ClassComponent.Proofs.Convert.Alike
import ClassComponent.Proofs.Convert.Options
import ClassComponent.Proofs.Render.Alike

/-!
# What shows of the marker

Line breaks inside values are masked by a character that does not occur in the script. Which one it is should not
show. It may show, in two ways: a name that is quoted is written with an escape for the marker that it holds, and a
value that was written with escapes may hold the marker itself, which is then taken for a line break.

Two conversions with different markers are compared.

* **Pairings** (`Pairing.escapes`, `Pairing.hidden`): what may stand side by side in general, and where no marker
  shows.
* **Line breaks** (`restore_eq_iff`): the modules are the same if and only if one is the other with its marker replaced.
* **Conversions** (`marker_observable_iff`): both never end, or they give modules and reports that differ in these two
  ways only.
-/

namespace ClassComponent

open Text

/-! ## Conversions with a marker -/

/-- A script with `marker` in place of the line breaks inside values. -/
def Origin.marked (script : Text) (tree : Tree) (marker : Char) : Origin :=
  masking script (verbatimSpans (tree.get "tokens").items) ⟨[.char marker]⟩

/-- The conversion of a script in which `marker` stands for the line breaks inside values. -/
def convertMarked (style : Style) (script : Text) (tree : Tree) (file : Text) (marker : Char) :
    Except (NoResult ComponentFault) Conversion :=
  (Component.ofOrigin (.marked script tree marker) tree file style.keepsUnsupported).map
    (.ofReading style script tree file)

/-- The text of the module that `convertMarked` gives, before line breaks are put back; `none` if there is no class. -/
def maskedModule? (style : Style) (script : Text) (tree : Tree) (file : Text) (marker : Char) : Option Text :=
  match Component.ofOrigin (.marked script tree marker) tree file style.keepsUnsupported with
  | .error _ => none
  | .ok (c, _) => if c.isConverted then some (c.renderMasked tree script file style.fallbackName) else none

/-- A script is converted with the first private-use character that does not occur in it. -/
theorem convertTree_eq_convertMarked (style : Style) {script : Text} {tree : Tree} (file : Text) {m : Char}
    (hbreak : Origin.breaksLine script (Origin.verbatimSpans (tree.get "tokens").items))
    (hm : freeMarker? script = some m) :
    convertTree style script tree file = convertMarked style script tree file m := by
  have horigin : Origin.of? script (tree.get "tokens").items = some (.marked script tree m) := by
    rw [Origin.of?, if_pos hbreak, hm]
    rfl
  rw [convertTree, Component.ofScript_of_origin horigin, convertMarked]

section

variable {style : Style} {script : Text} {tree : Tree} {file : Text} {m : Char}

/-- A conversion without a result gives no module. -/
theorem maskedModule?_of_error {reason : NoResult ComponentFault}
    (h : convertMarked style script tree file m = .error reason) : maskedModule? style script tree file m = none := by
  unfold convertMarked at h
  unfold maskedModule?
  cases hread : Component.ofOrigin (.marked script tree m) tree file style.keepsUnsupported with
  | error reason => rfl
  | ok reading =>
    rw [hread] at h
    cases h

theorem convertMarked_of_rename_none
    (h : (Situation.gather ⟨.marked script tree m, file, style.keepsUnsupported⟩
      (scriptOptions (.marked script tree m) tree)).renameWatchers? Digest.short = none) :
    convertMarked style script tree file m = .error .endless := by
  rw [convertMarked, Component.ofOrigin_of_rename_none h]
  rfl

theorem convertMarked_of_rename_some {c : Component}
    (h : (Situation.gather ⟨.marked script tree m, file, style.keepsUnsupported⟩
      (scriptOptions (.marked script tree m) tree)).renameWatchers? Digest.short = some c) :
    ∃ r, convertMarked style script tree file m = .ok r ∧
      r.code = c.render tree script file style.fallbackName ∧ r.isConverted = c.isConverted ∧
      r.diagnostics = (scriptOptions (.marked script tree m) tree).flatMap
        (Situation.optionReports ⟨.marked script tree m, file, style.keepsUnsupported⟩) ∧
      maskedModule? style script tree file m =
        if c.isConverted then some (c.renderMasked tree script file style.fallbackName) else none := by
  obtain ⟨events, hread, hreports⟩ := Component.ofOrigin_of_rename_some h
  have hrender : diagnostics (c.renderEvents file style.fallbackName) = [] := by
    unfold Component.renderEvents
    split
    · rfl
    · rfl
  rw [convertMarked, maskedModule?, hread]
  refine ⟨_, rfl, rfl, rfl, ?_, rfl⟩
  rw [← hreports, Conversion.diagnostics, Conversion.ofReading, diagnostics_append, hrender, List.append_nil]

theorem marker_of_rename {c : Component}
    (h : (Situation.gather ⟨.marked script tree m, file, style.keepsUnsupported⟩
      (scriptOptions (.marked script tree m) tree)).renameWatchers? Digest.short = some c) :
    c.marker = ⟨[.char m]⟩ := by
  obtain ⟨watch, -, rfl⟩ := Component.renameWatchers?_eq_some h
  exact Component.marker_applyAll _ _

end

/-! ## Pairings -/

section Pairings

variable {m m' : Char} (hm : m ∈ markerCandidates) (hm' : m' ∈ markerCandidates)

/-- A marker stands beside the other; where a text is written, so do the digits of their escapes. -/
def Pairing.escapes : Pairing where
  read p p' := p = p' ∨ p = .char m ∧ p' = .char m'
  shown p p' := (p = p' ∨ p = .char m ∧ p' = .char m') ∨ p.IsDigit ∧ p'.IsDigit
  read_cases h := h.imp id fun ⟨hp, hp'⟩ => ⟨⟨m, hm, hp⟩, m', hm', hp'⟩
  shown_cases h := by
    rcases h with (hsame | ⟨hp, hp'⟩) | hdigits
    · exact .inl hsame
    · exact .inr (.inl ⟨⟨m, hm, hp⟩, m', hm', hp'⟩)
    · exact .inr (.inr hdigits)
  shown_of_read := .inl
  refl _ := .inl rfl

/-- A marker stands beside the other, and nowhere else. -/
def Pairing.hidden : Pairing where
  read p p' := p = p' ∧ p ≠ .char m ∧ p ≠ .char m' ∨ p = .char m ∧ p' = .char m'
  shown p p' := p = p' ∧ p ≠ .char m ∧ p ≠ .char m' ∨ p = .char m ∧ p' = .char m'
  read_cases h := h.imp And.left fun ⟨hp, hp'⟩ => ⟨⟨m, hm, hp⟩, m', hm', hp'⟩
  shown_cases h := h.imp And.left fun ⟨hp, hp'⟩ => .inl ⟨⟨m, hm, hp⟩, m', hm', hp'⟩
  shown_of_read := id
  refl hp := .inl ⟨rfl, CodePoint.ne_marker hp hm, CodePoint.ne_marker hp hm'⟩

/-- The same line breaks are masked. -/
theorem forall₂_maskFrom {R : CodePoint → CodePoint → Prop} (hmarker : R (.char m) (.char m'))
    (spans : List Span) (pos : Nat) {ps : List CodePoint} (hR : ∀ p ∈ ps, R p p) :
    List.Forall₂ R (maskFrom spans [.char m] pos ps) (maskFrom spans [.char m'] pos ps) := by
  induction ps generalizing pos with
  | nil => exact .nil
  | cons p ps ih =>
    rw [maskFrom, maskFrom, pieceAt, pieceAt]
    refine List.rel_append ?_ (ih (pos + 1) fun q hq => hR q (.tail _ hq))
    split
    · exact .cons hmarker .nil
    · exact .cons (hR p (.head _)) .nil

/-- The scripts with the one marker and with the other stand side by side. -/
theorem pointwise_marked {R : CodePoint → CodePoint → Prop} (hmarker : R (.char m) (.char m')) (tree : Tree)
    {script : Text} (hR : ∀ p ∈ script.points, R p p) :
    Pointwise R (Origin.marked script tree m).masked (Origin.marked script tree m').masked := by
  rw [Pointwise, Origin.marked, Origin.marked, Origin.masking, Origin.masking, maskLineBreaks_points,
    maskLineBreaks_points]
  exact forall₂_maskFrom hmarker _ 0 hR

/-- A marker is quoted as the escape of its number. -/
theorem escapePoint_of_marker {c : Char} (hc : c ∈ markerCandidates) :
    escapePoint (.char c) = escapeUnit c.toNat := by
  obtain ⟨hle, hlt⟩ := Origin.toNat_bounds_of_marker hc
  have hne : ∀ {d : Char}, d.toNat < 0xE000 → (c == d) = false := by
    intro d hd
    rw [beq_eq_false_iff_ne]
    rintro rfl
    omega
  have hnum : ∀ {n : Nat}, n < 0xE000 → (c.toNat == n) = false := by
    intro n hn
    rw [beq_eq_false_iff_ne]
    omega
  have hprintable : (decide (32 ≤ c.toNat) && decide (c.toNat < 127)) = false := by
    rw [Bool.and_eq_false_iff, decide_eq_false_iff_not]
    right
    rw [decide_eq_false_iff_not]
    omega
  simp only [escapePoint, escapeChar, hne (d := '"') (by decide), hne (d := '\\') (by decide),
    hne (d := '\n') (by decide), hne (d := '\r') (by decide), hne (d := '\t') (by decide),
    hnum (n := 8) (by decide), hnum (n := 12) (by decide), hprintable, Bool.false_eq_true, if_false]
  rw [if_pos (by omega)]

/-- Texts that differ in their markers are quoted with other digits, at the same places. -/
theorem quote_escapes {x x' : Text} (h : Pointwise (Pairing.escapes hm hm').read x x') :
    Pointwise (Pairing.escapes hm hm').shown (quote x) (quote x') := by
  have hself : ∀ cs : List Char, List.Forall₂ (Pairing.escapes hm hm').shown (cs.map .char) (cs.map .char) :=
    fun cs => List.forall₂_same.mpr fun _ _ => .inl (.inl rfl)
  have hdigit : ∀ n : Nat, (CodePoint.char (hexDigit (n % 16))).IsDigit := fun n =>
    satisfies_iff.mpr ⟨_, rfl, Digest.isHexDigit_hexDigit (Nat.mod_lt n (by decide))⟩
  have hunit : List.Forall₂ (Pairing.escapes hm hm').shown ((escapePoint (.char m)).map .char)
      ((escapePoint (.char m')).map .char) := by
    rw [escapePoint_of_marker hm, escapePoint_of_marker hm']
    refine .cons (.inl (.inl rfl)) (.cons (.inl (.inl rfl)) (.cons (.inr ?_) (.cons (.inr ?_) (.cons (.inr ?_)
      (.cons (.inr ?_) .nil)))))
    all_goals exact ⟨hdigit _, hdigit _⟩
  obtain ⟨ps⟩ := x
  obtain ⟨ps'⟩ := x'
  replace h : List.Forall₂ (Pairing.escapes hm hm').read ps ps' := h
  have hpoints : List.Forall₂ (Pairing.escapes hm hm').shown ((ps.flatMap escapePoint).map .char)
      ((ps'.flatMap escapePoint).map .char) := by
    induction h with
    | nil => exact .nil
    | cons hp _ ih =>
      rw [List.flatMap_cons, List.flatMap_cons, List.map_append, List.map_append]
      refine List.rel_append ?_ ih
      rcases hp with rfl | ⟨rfl, rfl⟩
      · exact hself _
      · exact hunit
  unfold Pointwise quote ofChars quotePoints
  simp only [List.map_cons, List.map_append]
  exact .cons (.inl (.inl rfl)) (List.rel_append hpoints (hself ['"']))

/-! ## Line breaks -/

/-- A text with one marker in place of another. -/
def Text.remarked (m m' : Char) (x : Text) : Text :=
  ⟨x.points.map fun p => if p = .char m then .char m' else p⟩

theorem restore_marked (script : Text) (tree : Tree) (m : Char) (x : Text) :
    ((Origin.marked script tree m).restore x).points = x.points.map (unmask (.char m)) :=
  restorePoints_singleton _ _

include hm in
theorem map_masked {script : Text} (tree : Tree) (hfree : .char m ∉ script.points) :
    (Origin.marked script tree m).masked.points.map (unmask (.char m)) = script.points := by
  rw [Origin.marked, Origin.masking, maskLineBreaks_points]
  exact (masks_maskFrom _ (Origin.not_isBlankPoint_of_marker hm) 0 hfree).map_eq

theorem unmask_of_ne {m : Char} {p : CodePoint} (h : p ≠ .char m) : unmask (.char m) p = p :=
  if_neg h

/-- Two code points become the same if and only if the one is the other with its marker replaced. -/
theorem unmask_eq_iff (hne : m ≠ m') {p p' : CodePoint} (h : (Pairing.escapes hm hm').shown p p') :
    unmask (.char m) p = unmask (.char m') p' ↔
      p ≠ .char m' ∧ p' = if p = .char m then .char m' else p := by
  have hbreak : ∀ {c : Char}, c ∈ markerCandidates → lineBreak ≠ .char c := fun hc hbreak =>
    absurd (Origin.not_isBlankPoint_of_marker hc) (by rw [← hbreak]; decide)
  have hpoint : CodePoint.char m ≠ .char m' := fun heq => hne (CodePoint.char.inj heq)
  rcases h with (rfl | ⟨rfl, rfl⟩) | ⟨hdigit, hdigit'⟩
  -- A code point that is the same in both texts is a line break in one of the modules if it is a marker.
  · by_cases hp : p = .char m
    · subst hp
      rw [unmask, if_pos rfl, unmask_of_ne hpoint, if_pos rfl]
      exact iff_of_false (hbreak hm) fun h => hpoint h.2
    · by_cases hp' : p = .char m'
      · subst hp'
        rw [unmask_of_ne hp, unmask, if_pos rfl]
        exact iff_of_false (fun h => hbreak hm' h.symm) fun h => h.1 rfl
      · rw [unmask_of_ne hp, unmask_of_ne hp', if_neg hp]
        exact iff_of_true rfl ⟨hp', rfl⟩
  · rw [unmask, if_pos rfl, unmask, if_pos rfl, if_pos rfl]
    exact iff_of_true rfl ⟨hpoint, rfl⟩
  · have hp := hdigit.ne_marker ⟨m, hm, rfl⟩
    rw [unmask_of_ne hp, unmask_of_ne (hdigit'.ne_marker ⟨m', hm', rfl⟩), if_neg hp]
    exact ⟨fun heq => ⟨hdigit.ne_marker ⟨m', hm', rfl⟩, heq.symm⟩, fun heq => heq.2.symm⟩

/-- Two texts become the same if and only if the one is the other with its marker replaced. -/
theorem restore_eq_iff (hne : m ≠ m') {x x' : Text} (h : Pointwise (Pairing.escapes hm hm').shown x x') :
    restoreLineBreaks x ⟨[.char m]⟩ = restoreLineBreaks x' ⟨[.char m']⟩ ↔
      .char m' ∉ x.points ∧ x' = x.remarked m m' := by
  obtain ⟨ps⟩ := x
  obtain ⟨ps'⟩ := x'
  replace h : List.Forall₂ (Pairing.escapes hm hm').shown ps ps' := h
  have hpoints : ps.map (unmask (.char m)) = ps'.map (unmask (.char m')) ↔
      .char m' ∉ ps ∧ ps' = ps.map fun p => if p = .char m then .char m' else p := by
    induction h with
    | nil => exact iff_of_true rfl ⟨nofun, rfl⟩
    | cons hp _ ih =>
      rw [List.map_cons, List.map_cons, List.cons.injEq, ih, unmask_eq_iff hm hm' hne hp, List.mem_cons, not_or,
        List.map_cons, List.cons.injEq, ne_comm, and_and_and_comm]
  simp only [restoreLineBreaks, restorePoints_singleton, remarked, Text.mk.injEq]
  exact hpoints

/-- The places at which two modules may differ: digits of an escape, and a marker that was taken for a line break. -/
def LeakedAs (m m' : Char) (p p' : CodePoint) : Prop :=
  p = p' ∨ p.IsDigit ∧ p'.IsDigit ∨ p = lineBreak ∧ p' = .char m ∨ p = .char m' ∧ p' = lineBreak

theorem restore_leakedAs {x x' : Text} (h : Pointwise (Pairing.escapes hm hm').shown x x') :
    Pointwise (LeakedAs m m') (restoreLineBreaks x ⟨[.char m]⟩) (restoreLineBreaks x' ⟨[.char m']⟩) := by
  unfold Pointwise restoreLineBreaks
  rw [restorePoints_singleton, restorePoints_singleton]
  refine List.forall₂_map_left_iff.mpr (List.forall₂_map_right_iff.mpr (List.Forall₂.imp ?_ h))
  rintro p p' ((rfl | ⟨rfl, rfl⟩) | ⟨hdigit, hdigit'⟩)
  · by_cases hp : p = .char m
    · by_cases hp' : p = .char m'
      · exact .inl (by rw [unmask, if_pos hp, unmask, if_pos hp'])
      · exact .inr (.inr (.inl ⟨if_pos hp, (unmask_of_ne hp').trans hp⟩))
    · by_cases hp' : p = .char m'
      · exact .inr (.inr (.inr ⟨(unmask_of_ne hp).trans hp', if_pos hp'⟩))
      · exact .inl ((unmask_of_ne hp).trans (unmask_of_ne hp').symm)
  · exact .inl (by rw [unmask, if_pos rfl, unmask, if_pos rfl])
  · rw [unmask_of_ne (hdigit.ne_marker ⟨m, hm, rfl⟩), unmask_of_ne (hdigit'.ne_marker ⟨m', hm', rfl⟩)]
    exact .inr (.inl ⟨hdigit, hdigit'⟩)

/-! ## Readings with two markers -/

/-- What keeps two markers hidden: texts of the tree and the fallback name do not hold them, and names that are
quoted hold no masked line break. -/
structure MarkersHidden (style : Style) (script : Text) (tree : Tree) (m m' : Char) : Prop where
  texts : ∀ x ∈ style.fallbackName :: tree.texts, .char m ∉ x.points ∧ .char m' ∉ x.points
  quoted : ∀ t ∈ tree.subtrees, ((Origin.marked script tree m).memberName t).isQuoted →
    .char m ∉ ((Origin.marked script tree m).memberName t).points
  watched : ∀ t ∈ watchEntries (.marked script tree m) tree,
    .char m ∉ ((Origin.marked script tree m).memberName t).points

theorem markersHidden_iff {style : Style} {script : Text} {tree : Tree} :
    MarkersHidden style script tree m m' ↔
      (∀ x ∈ style.fallbackName :: tree.texts, .char m ∉ x.points ∧ .char m' ∉ x.points) ∧
      (∀ t ∈ tree.subtrees, ((Origin.marked script tree m).memberName t).isQuoted →
        .char m ∉ ((Origin.marked script tree m).memberName t).points) ∧
      ∀ t ∈ watchEntries (.marked script tree m) tree,
        .char m ∉ ((Origin.marked script tree m).memberName t).points :=
  ⟨fun h => ⟨h.texts, h.quoted, h.watched⟩, fun ⟨htexts, hquoted, hwatched⟩ => ⟨htexts, hquoted, hwatched⟩⟩

instance (style : Style) (script : Text) (tree : Tree) (m m' : Char) :
    Decidable (MarkersHidden style script tree m m') :=
  decidable_of_iff _ markersHidden_iff.symm

variable {style : Style} {script : Text} {tree : Tree} (file : Text)
  (hfree : .char m ∉ script.points) (hfree' : .char m' ∉ script.points)

include hm hm' hfree hfree' in
/-- With both markers, putting line breaks back gives the script. -/
theorem restored_marked :
    ∃ f f' : CodePoint → CodePoint,
      (∀ x, ((Origin.marked script tree m).restore x).points = x.points.map f) ∧
      (∀ x, ((Origin.marked script tree m').restore x).points = x.points.map f') ∧
      (∀ p : CodePoint, p.toNat < 0xE000 → f p = p ∧ f' p = p) ∧
      (Origin.marked script tree m').masked.points.map f' =
        (Origin.marked script tree m).masked.points.map f := by
  refine ⟨unmask (.char m), unmask (.char m'), restore_marked _ _ _, restore_marked _ _ _, fun p hp => ?_, ?_⟩
  · exact ⟨unmask_of_ne (CodePoint.ne_marker hp hm), unmask_of_ne (CodePoint.ne_marker hp hm')⟩
  · rw [map_masked hm tree hfree, map_masked hm' tree hfree']

include hfree hfree' in
theorem readings_escapes (keepsUnsupported : Bool) :
    (Pairing.escapes hm hm').Readings ⟨.marked script tree m, file, keepsUnsupported⟩
      ⟨.marked script tree m', file, keepsUnsupported⟩ tree := by
  have horigins : (Pairing.escapes hm hm').Origins (.marked script tree m) (.marked script tree m') tree :=
    { masked := pointwise_marked (.inr ⟨rfl, rfl⟩) tree fun _ _ => .inl rfl
      texts := fun _ _ => List.forall₂_same.mpr fun _ _ => .inl rfl }
  exact
    { horigins with
      file := rfl
      keepsUnsupported := rfl
      source := rfl
      quoted := fun ht _ => quote_escapes hm hm' (horigins.memberName ht)
      watched := fun ht => quote_escapes hm hm' (horigins.memberName (watchEntry_part ht))
      restored := restored_marked hm hm' hfree hfree' }

/-- Where no marker shows, texts without markers are the same. -/
theorem eq_of_hidden {x x' : Text} (h : Pointwise (Pairing.hidden hm hm').read x x') (hx : .char m ∉ x.points) :
    x' = x := by
  obtain ⟨ps⟩ := x
  obtain ⟨ps'⟩ := x'
  replace h : List.Forall₂ (Pairing.hidden hm hm').read ps ps' := h
  refine eq_of_points ?_
  induction h with
  | nil => rfl
  | cons hp _ ih =>
    obtain ⟨hfirst, hrest⟩ := not_or.mp fun hmem => hx (List.mem_cons.mpr hmem)
    rcases hp with ⟨rfl, -⟩ | ⟨rfl, -⟩
    · exact congrArg (List.cons _) (ih hrest)
    · exact absurd rfl hfirst

/-- Where no marker shows, texts become the same. -/
theorem restore_eq_of_hidden {x x' : Text} (h : Pointwise (Pairing.hidden hm hm').shown x x') :
    restoreLineBreaks x ⟨[.char m]⟩ = restoreLineBreaks x' ⟨[.char m']⟩ := by
  obtain ⟨ps⟩ := x
  obtain ⟨ps'⟩ := x'
  replace h : List.Forall₂ (Pairing.hidden hm hm').shown ps ps' := h
  refine eq_of_points ?_
  simp only [restoreLineBreaks, restorePoints_singleton]
  induction h with
  | nil => rfl
  | cons hp _ ih =>
    rw [List.map_cons, List.map_cons, ih]
    rcases hp with ⟨rfl, hne, hne'⟩ | ⟨rfl, rfl⟩
    · rw [unmask_of_ne hne, unmask_of_ne hne']
    · rw [unmask, if_pos rfl, unmask, if_pos rfl]

/-- Texts that hold neither marker are paired with themselves. -/
theorem hidden_self {x : Text} (h : .char m ∉ x.points ∧ .char m' ∉ x.points) :
    Pointwise (Pairing.hidden hm hm').read x x := by
  refine List.forall₂_same.mpr fun p hp => .inl ⟨rfl, ?_, ?_⟩
  · rintro rfl
    exact h.1 hp
  · rintro rfl
    exact h.2 hp

include hfree hfree' in
theorem readings_hidden (hhidden : MarkersHidden style script tree m m') (keepsUnsupported : Bool) :
    (Pairing.hidden hm hm').Readings ⟨.marked script tree m, file, keepsUnsupported⟩
      ⟨.marked script tree m', file, keepsUnsupported⟩ tree := by
  have hscript := List.forall₂_same.mp (hidden_self hm hm' ⟨hfree, hfree'⟩)
  have horigins : (Pairing.hidden hm hm').Origins (.marked script tree m) (.marked script tree m') tree :=
    { masked := pointwise_marked (.inr ⟨rfl, rfl⟩) tree hscript
      texts := fun ht hx => hidden_self hm hm' (hhidden.texts _ (.tail _ (ht.mem_texts hx))) }
  have hname : ∀ {t : Tree}, tree.Part t → .char m ∉ ((Origin.marked script tree m).memberName t).points →
      Pointwise (Pairing.hidden hm hm').shown (quote ((Origin.marked script tree m).memberName t))
        (quote ((Origin.marked script tree m').memberName t)) := by
    intro t ht hfree
    rw [eq_of_hidden hm hm' (horigins.memberName ht) hfree]
    exact Pairing.quote_self _ _
  exact
    { horigins with
      file := rfl
      keepsUnsupported := rfl
      source := rfl
      quoted := fun {t} ht hquoted => hname ht <| by
        -- What is missing has no name at all.
        rcases ht.mem_subtrees with rfl | hmem
        · exact nofun
        · exact hhidden.quoted t hmem hquoted
      watched := fun {t} ht => hname (watchEntry_part ht) (hhidden.watched t ht)
      restored := restored_marked hm hm' hfree hfree' }

/-! ## Conversions with two markers -/

theorem escapes_self (x : Text) : Pointwise (Pairing.escapes hm hm').shown x x :=
  List.forall₂_same.mpr fun _ _ => .inl (.inl rfl)

section Rendering

variable {c c' : Component} (hmarker : c.marker = ⟨[.char m]⟩) (hmarker' : c'.marker = ⟨[.char m']⟩)
  (source : Text) (fallback : Text)
include hmarker hmarker'

/-- Modules of components that are alike differ only where a marker shows. -/
theorem render_leakedAs (halike : (Pairing.escapes hm hm').Alike c c') :
    Pointwise (LeakedAs m m') (c.render tree source file fallback) (c'.render tree source file fallback) := by
  have hmasked := halike.renderMasked (List.forall₂_same.mp (escapes_self hm hm' source)) tree file
    (escapes_self hm hm' fallback)
  unfold Component.render
  rw [halike.isConverted, hmarker, hmarker']
  split
  · exact restore_leakedAs hm hm' hmasked
  · exact List.forall₂_same.mpr fun _ _ => .inl rfl

theorem render_eq_iff (hne : m ≠ m') (halike : (Pairing.escapes hm hm').Alike c c') :
    c.render tree source file fallback = c'.render tree source file fallback ↔
      (c.isConverted → .char m' ∉ (c.renderMasked tree source file fallback).points ∧
        c'.renderMasked tree source file fallback = (c.renderMasked tree source file fallback).remarked m m') := by
  have hmasked := halike.renderMasked (List.forall₂_same.mp (escapes_self hm hm' source)) tree file
    (escapes_self hm hm' fallback)
  unfold Component.render
  rw [halike.isConverted, hmarker, hmarker']
  split
  · next hconverted =>
    rw [restore_eq_iff hm hm' hne hmasked]
    exact ⟨fun h _ => h, fun h => h hconverted⟩
  · next hconverted => exact iff_of_true rfl fun h => absurd h hconverted

theorem render_eq_of_hidden (halike : (Pairing.hidden hm hm').Alike c c')
    (hsource : .char m ∉ source.points ∧ .char m' ∉ source.points)
    (hfallback : .char m ∉ fallback.points ∧ .char m' ∉ fallback.points) :
    c.render tree source file fallback = c'.render tree source file fallback := by
  have hshown : Pointwise (Pairing.hidden hm hm').shown source source := hidden_self hm hm' hsource
  have hmasked := halike.renderMasked (List.forall₂_same.mp hshown) tree file (hidden_self hm hm' hfallback)
  unfold Component.render
  rw [halike.isConverted, hmarker, hmarker']
  split
  · exact restore_eq_of_hidden hm hm' hmasked
  · rfl

end Rendering

end Pairings

/-- **Where the marker shows.** Two conversions with different markers both never end, or they give modules that differ
only in digits of escapes and in markers that were taken for line breaks. The modules are the same if and only if, before
line breaks are put back, one is the other with its marker replaced. The reports are the same if and only if watchers
without a handler have names that become the same. Nothing differs if no value holds a marker, and no name that is
quoted holds a masked line break. -/
theorem marker_observable_iff (style : Style) {script : Text} (tree : Tree) (file : Text) {m m' : Char}
    (hm : m ∈ markerCandidates) (hm' : m' ∈ markerCandidates) (hne : m ≠ m')
    (hfree : .char m ∉ script.points) (hfree' : .char m' ∉ script.points) :
    let o := Origin.marked script tree m
    let o' := Origin.marked script tree m'
    (Origin.breaksLine script (Origin.verbatimSpans (tree.get "tokens").items) → freeMarker? script = some m →
      convertTree style script tree file = convertMarked style script tree file m) ∧
    (convertMarked style script tree file m = .error .endless ∧
        convertMarked style script tree file m' = .error .endless ∨
      ∃ r r', convertMarked style script tree file m = .ok r ∧ convertMarked style script tree file m' = .ok r' ∧
        r'.isConverted = r.isConverted ∧
        Pointwise (LeakedAs m m') r.code r'.code ∧
        (r.code = r'.code ↔ ∀ x x', maskedModule? style script tree file m = some x →
          maskedModule? style script tree file m' = some x' → .char m' ∉ x.points ∧ x' = x.remarked m m') ∧
        (r.diagnostics = r'.diagnostics ↔ ∀ entry ∈ watchEntries o tree,
          Situation.LacksHandler ⟨o, file, style.keepsUnsupported⟩ entry →
            o'.restore (o'.memberName entry) = o.restore (o.memberName entry)) ∧
        (MarkersHidden style script tree m m' → r.code = r'.code ∧ r.diagnostics = r'.diagnostics)) := by
  intro o o'
  refine ⟨fun hbreak hfirst => convertTree_eq_convertMarked style file hbreak hfirst, ?_⟩
  have hreadings : (Pairing.escapes hm hm').Readings ⟨o, file, style.keepsUnsupported⟩
      ⟨o', file, style.keepsUnsupported⟩ tree := readings_escapes hm hm' file hfree hfree' _
  -- Either both components get names for their watchers, or both have none left.
  have hrenamed := hreadings.gather.rel_renameWatchers? isPlain_short
  generalize hc : (Situation.gather ⟨o, file, style.keepsUnsupported⟩ (scriptOptions o tree)).renameWatchers?
    Digest.short = renamed at hrenamed
  generalize hc' : (Situation.gather ⟨o', file, style.keepsUnsupported⟩ (scriptOptions o' tree)).renameWatchers?
    Digest.short = renamed' at hrenamed
  cases hrenamed with
  | none => exact .inl ⟨convertMarked_of_rename_none hc, convertMarked_of_rename_none hc'⟩
  | @some c c' halike =>
    obtain ⟨r, hr, hcode, hconverted, hreports, hmodule⟩ := convertMarked_of_rename_some hc
    obtain ⟨r', hr', hcode', hconverted', hreports', hmodule'⟩ := convertMarked_of_rename_some hc'
    have hmarker := marker_of_rename hc
    have hmarker' := marker_of_rename hc'
    have hdiagnostics : r.diagnostics = r'.diagnostics ↔ ∀ entry ∈ watchEntries o tree,
        Situation.LacksHandler ⟨o, file, style.keepsUnsupported⟩ entry →
          o'.restore (o'.memberName entry) = o.restore (o.memberName entry) := by
      rw [hreports, hreports']
      exact hreadings.reports_iff
    refine .inr ⟨r, r', hr, hr', ?_, ?_, ?_, hdiagnostics, fun hhidden => ?_⟩
    · rw [hconverted, hconverted', halike.isConverted]
    · rw [hcode, hcode']
      exact render_leakedAs hm hm' file hmarker hmarker' script style.fallbackName halike
    · rw [hcode, hcode', render_eq_iff hm hm' file hmarker hmarker' script style.fallbackName hne halike, hmodule,
        hmodule', halike.isConverted]
      by_cases hclass : c.isConverted
      · simp only [hclass, if_true, Option.some.injEq]
        exact ⟨fun h x x' hx hx' => hx ▸ hx' ▸ h trivial, fun h _ => h _ _ rfl rfl⟩
      · simp [hclass]
    · -- The same two components, in a closer relation.
      have hreadings' : (Pairing.hidden hm hm').Readings ⟨o, file, style.keepsUnsupported⟩
          ⟨o', file, style.keepsUnsupported⟩ tree := readings_hidden hm hm' file hfree hfree' hhidden _
      have hrenamed := hreadings'.gather.rel_renameWatchers? isPlain_short
      rw [hc, hc'] at hrenamed
      cases hrenamed with
      | some halike' =>
        refine ⟨?_, hdiagnostics.mpr fun entry hentry _ => ?_⟩
        · rw [hcode, hcode']
          exact render_eq_of_hidden hm hm' file hmarker hmarker' script style.fallbackName halike'
            ⟨hfree, hfree'⟩ (hhidden.texts _ (.head _))
        · exact (restore_eq_of_hidden hm hm' (hreadings'.memberName (watchEntry_part hentry))).symm

/-- A script that watches a name with a line break in it. -/
def leakyScript : String :=
  "export default \x7b\n  watch: \x7b [`a\nb`]() \x7b\x7d \x7d,\n\x7d;\n"

/-- A script with a line break in a value. -/
def discreetScript : String :=
  "export default \x7b\n  data() \x7b return \x7b a: `a\nb` \x7d; \x7d,\n\x7d;\n"

/-- The module of the one script shows which marker was taken; the module of the other does not. -/
theorem marker_shows_in_leakyScript :
    (∃ tree r r', Script.parse leakyScript true = .ok tree ∧
      convertTree {} leakyScript tree "Demo.vue" = .ok r ∧
      convertMarked {} leakyScript tree "Demo.vue" (.ofNat 0xE001) = .ok r' ∧
      r.code ≠ r'.code) ∧
    ∃ tree r r', Script.parse discreetScript true = .ok tree ∧
      MarkersHidden {} discreetScript tree (.ofNat 0xE000) (.ofNat 0xE001) ∧
      convertTree {} discreetScript tree "Demo.vue" = .ok r ∧
      convertMarked {} discreetScript tree "Demo.vue" (.ofNat 0xE001) = .ok r' ∧
      r.code = r'.code ∧ r.diagnostics = r'.diagnostics := by
  have hm : Char.ofNat 0xE000 ∈ markerCandidates := by decide +kernel
  have hm' : Char.ofNat 0xE001 ∈ markerCandidates := by decide +kernel
  constructor
  · have hread : (Script.parse leakyScript true).toOption.any (fun tree =>
        Origin.breaksLine leakyScript (Origin.verbatimSpans (tree.get "tokens").items) &&
        (maskedModule? {} leakyScript tree "Demo.vue" (.ofNat 0xE000)).any fun x =>
          (maskedModule? {} leakyScript tree "Demo.vue" (.ofNat 0xE001)).any fun x' =>
            x' != x.remarked (.ofNat 0xE000) (.ofNat 0xE001)) = true := by
      decide +kernel
    obtain ⟨tree, htree, hvalues⟩ := (Option.any_eq_true _ _).mp hread
    simp only [Bool.and_eq_true, Option.any_eq_true, bne_iff_ne] at hvalues
    obtain ⟨hbreak, x, hx, x', hx', hdiffers⟩ := hvalues
    obtain ⟨hfirst, hresult⟩ := marker_observable_iff {} tree "Demo.vue" hm hm' (by decide)
      (by decide +kernel : _ ∉ (ofString leakyScript).points) (by decide +kernel)
    rcases hresult with ⟨herror, -⟩ | ⟨r, r', hr, hr', -, -, hcode, -⟩
    · rw [maskedModule?_of_error herror] at hx
      cases hx
    · refine ⟨tree, r, r', eq_ok_of_toOption htree, ?_, hr', fun hsame => ?_⟩
      · exact (hfirst hbreak (by decide +kernel)).trans hr
      · exact hdiffers (hcode.mp hsame x x' hx hx').2
  · have hread : (Script.parse discreetScript true).toOption.any (fun tree =>
        Origin.breaksLine discreetScript (Origin.verbatimSpans (tree.get "tokens").items) &&
        (maskedModule? {} discreetScript tree "Demo.vue" (.ofNat 0xE000)).isSome &&
        decide (MarkersHidden {} discreetScript tree (.ofNat 0xE000) (.ofNat 0xE001))) = true := by
      decide +kernel
    obtain ⟨tree, htree, hvalues⟩ := (Option.any_eq_true _ _).mp hread
    simp only [Bool.and_eq_true, decide_eq_true_eq] at hvalues
    obtain ⟨⟨hbreak, hmodule⟩, hhidden⟩ := hvalues
    obtain ⟨hfirst, hresult⟩ := marker_observable_iff {} tree "Demo.vue" hm hm' (by decide)
      (by decide +kernel : _ ∉ (ofString discreetScript).points) (by decide +kernel)
    rcases hresult with ⟨herror, -⟩ | ⟨r, r', hr, hr', -, -, -, -, hsame⟩
    · rw [maskedModule?_of_error herror] at hmodule
      cases hmodule
    · refine ⟨tree, r, r', eq_ok_of_toOption htree, hhidden, ?_, hr', hsame hhidden⟩
      exact (hfirst hbreak (by decide +kernel)).trans hr

end ClassComponent
