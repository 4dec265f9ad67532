import ClassComponent.Convert.Option
import ClassComponent.Convert.Walk
import ClassComponent.Proofs.Convert.Origin
import ClassComponent.Proofs.Text.Quoted

/-!
# Texts side by side

Two readings of one script that mask line breaks by different markers are compared point by point. A
`Pairing` says which code points may stand side by side: in texts that are read (`Pairing.read`), where only
markers may differ, and in texts that are written (`Pairing.shown`), where the digits of an escape may differ
too.

* **Layout** (`Pointwise.reindent`): markers and digits are no blanks, so both texts have the same lines.
* **Tests** (`Pairing.eq_or_marked`): two texts that are read are equal, or both hold a marker. A test that
  fails for every text with a marker gives the same answer for both: names, identifiers, words.
* **Names** (`Pairing.sameName_propertyName`): a name that is quoted holds no marker any more, but may show
  which one it held.
-/

namespace ClassComponent

open Text

/-! ## Code points -/

namespace CodePoint

/-- Whether a code point can stand for line breaks. -/
def IsMarker (p : CodePoint) : Prop :=
  ∃ c ∈ markerCandidates, p = .char c

/-- Whether a code point is a digit of an escape. -/
def IsDigit (p : CodePoint) : Prop :=
  p.satisfies Digest.isHexDigit

theorem IsMarker.le_toNat {p : CodePoint} (h : p.IsMarker) : 0xE000 ≤ p.toNat := by
  obtain ⟨c, hc, rfl⟩ := h
  exact Origin.le_toNat_of_marker hc

theorem IsMarker.ne_char {p : CodePoint} (h : p.IsMarker) {c : Char} (hc : c.toNat < 0xE000) :
    p ≠ .char c := by
  rintro rfl
  exact absurd h.le_toNat (Nat.not_le.mpr hc)

theorem ne_marker {p : CodePoint} (h : p.toNat < 0xE000) {c : Char} (hc : c ∈ markerCandidates) : p ≠ .char c := by
  rintro rfl
  exact absurd (Origin.le_toNat_of_marker hc) (Nat.not_le.mpr h)

theorem IsMarker.not_blank {p : CodePoint} (h : p.IsMarker) : isBlankPoint p = false := by
  obtain ⟨c, hc, rfl⟩ := h
  exact Origin.not_isBlankPoint_of_marker hc

theorem IsMarker.not_plain {p : CodePoint} (h : p.IsMarker) : p.satisfies continuesIdentifier = false := by
  rw [Bool.eq_false_iff]
  intro hplain
  obtain ⟨c, rfl, hc⟩ := satisfies_iff.mp hplain
  have hle := h.le_toNat
  have hlt := toNat_lt_of_continuesIdentifier hc
  exact absurd hlt (by simp only [toNat] at hle; omega)

theorem IsMarker.not_alnum {p : CodePoint} (h : p.IsMarker) : p.satisfies isAlnum = false := by
  rw [Bool.eq_false_iff]
  intro halnum
  obtain ⟨c, rfl, hc⟩ := satisfies_iff.mp halnum
  have hplain := h.not_plain
  rw [satisfies_iff.mpr ⟨c, rfl, continuesIdentifier_of_isAlnum hc⟩] at hplain
  cases hplain

theorem IsDigit.plain {p : CodePoint} (h : p.IsDigit) : p.satisfies continuesIdentifier := by
  obtain ⟨c, rfl, hc⟩ := satisfies_iff.mp h
  exact satisfies_iff.mpr ⟨c, rfl, continuesIdentifier_of_isHexDigit hc⟩

theorem IsDigit.ne_marker {p q : CodePoint} (h : p.IsDigit) (hq : q.IsMarker) : p ≠ q := by
  rintro rfl
  have hplain := h.plain
  rw [hq.not_plain] at hplain
  cases hplain

theorem not_blank_of_plain {p : CodePoint} (h : p.satisfies continuesIdentifier) : isBlankPoint p = false := by
  obtain ⟨c, rfl, hc⟩ := satisfies_iff.mp h
  have hlt := toNat_lt_of_continuesIdentifier hc
  have hall : ∀ n < 128, continuesIdentifier (Char.ofNat n) → isBlank (Char.ofNat n) = false := by decide
  have hchar : Char.ofNat c.toNat = c := Char.ofNat_toNat c
  exact hchar ▸ hall c.toNat hlt (hchar.symm ▸ hc)

end CodePoint

/-! ## Pointwise relations -/

section Lists

variable {α β : Type} {R : α → α → Prop}

theorem forall₂_map_same {g g' : β → α} {xs : List β} (h : ∀ x ∈ xs, R (g x) (g' x)) :
    List.Forall₂ R (xs.map g) (xs.map g') :=
  List.forall₂_map_left_iff.mpr (List.forall₂_map_right_iff.mpr (List.forall₂_same.mpr h))

theorem isEmpty_eq_of_forall₂ {xs xs' : List α} (h : List.Forall₂ R xs xs') : xs'.isEmpty = xs.isEmpty := by
  cases h with
  | nil => rfl
  | cons _ _ => rfl

end Lists

/-- Whether the code points of two texts are related one by one. -/
def Text.Pointwise (R : CodePoint → CodePoint → Prop) (x x' : Text) : Prop :=
  List.Forall₂ R x.points x'.points

namespace Text

variable {R : CodePoint → CodePoint → Prop} {x x' y y' : Text}

theorem Pointwise.mono {Q : CodePoint → CodePoint → Prop} (h : Pointwise R x x')
    (hRQ : ∀ {p p'}, R p p' → Q p p') : Pointwise Q x x' :=
  List.Forall₂.imp (fun _ _ => hRQ) h

theorem Pointwise.append (h : Pointwise R x x') (h' : Pointwise R y y') :
    Pointwise R (x ++ y) (x' ++ y') :=
  List.rel_append h h'

theorem Pointwise.of (h : Pointwise R x x') (s : Span) : Pointwise R (s.of x) (s.of x') :=
  List.forall₂_drop s.start (List.forall₂_take s.stop h)

theorem Pointwise.isEmpty_eq (h : Pointwise R x x') : x'.isEmpty = x.isEmpty :=
  isEmpty_eq_of_forall₂ h

theorem forall₂_intercalate {separator : List CodePoint} (hseparator : List.Forall₂ R separator separator)
    {xs xs' : List (List CodePoint)} (h : List.Forall₂ (List.Forall₂ R) xs xs') :
    List.Forall₂ R (separator.intercalate xs) (separator.intercalate xs') := by
  induction h with
  | nil => exact .nil
  | @cons a b as bs hfirst hrest ih =>
    cases hrest with
    | nil => simpa using hfirst
    | cons hnext hlater =>
      rw [List.intercalate_cons_cons, List.intercalate_cons_cons]
      exact List.rel_append (List.rel_append hfirst hseparator) ih

theorem Pointwise.intercalate {separator : Text} (hseparator : Pointwise R separator separator)
    {xs xs' : List Text} (h : List.Forall₂ (Pointwise R) xs xs') :
    Pointwise R (Text.intercalate separator xs) (Text.intercalate separator xs') :=
  forall₂_intercalate hseparator (List.forall₂_map_left_iff.mpr (List.forall₂_map_right_iff.mpr h))

theorem forall₂_splitAt {separator : CodePoint} (hR : ∀ {p p'}, R p p' → (p = separator ↔ p' = separator))
    {ps ps' : List CodePoint} (h : List.Forall₂ R ps ps') :
    List.Forall₂ (List.Forall₂ R) (splitAt separator ps) (splitAt separator ps') := by
  induction h with
  | nil => exact .cons .nil .nil
  | @cons p p' ps ps' hp _ ih =>
    simp only [splitAt, beq_iff_eq]
    by_cases hseparator : p = separator
    · rw [if_pos hseparator, if_pos ((hR hp).mp hseparator)]
      exact .cons .nil ih
    · rw [if_neg hseparator, if_neg fun h => hseparator ((hR hp).mpr h)]
      generalize splitAt separator ps = pieces at ih
      generalize splitAt separator ps' = pieces' at ih
      cases ih with
      | nil => exact .cons (.cons hp .nil) .nil
      | cons hfirst hrest => exact .cons (.cons hp hfirst) hrest

/-- Whether the name of a member is quoted. -/
def isQuoted (x : Text) : Bool :=
  !(isIdentifier x || isBracketed x)

/-! ## Layout -/

/-- What is asked of a relation for texts to be laid out alike: it keeps line breaks and blanks. -/
structure KeepsLayout (R : CodePoint → CodePoint → Prop) : Prop where
  lineBreak : ∀ {p p'}, R p p' → (p = Text.lineBreak ↔ p' = Text.lineBreak)
  blank : ∀ {p p'}, R p p' → isBlankPoint p' = isBlankPoint p

variable (hR : KeepsLayout R)
include hR

theorem KeepsLayout.allBlank_eq {ps ps' : List CodePoint} (h : List.Forall₂ R ps ps') :
    allBlank ps' = allBlank ps := by
  induction h with
  | nil => rfl
  | cons hp _ ih => exact congrArg₂ and (hR.blank hp) ih

theorem KeepsLayout.blankWidth_eq {ps ps' : List CodePoint} (h : List.Forall₂ R ps ps') :
    blankWidth ps' = blankWidth ps := by
  induction h with
  | nil => rfl
  | @cons p p' ps ps' hp _ ih =>
    simp only [blankWidth, List.takeWhile_cons, hR.blank hp]
    split
    · exact congrArg (· + 1) ih
    · rfl

theorem KeepsLayout.commonWidth_eq {lines lines' : List (List CodePoint)}
    (h : List.Forall₂ (List.Forall₂ R) lines lines') : commonWidth lines' = commonWidth lines := by
  have hwidths : (lines'.filter fun line => !allBlank line).map blankWidth =
      (lines.filter fun line => !allBlank line).map blankWidth := by
    induction h with
    | nil => rfl
    | cons hline _ ih =>
      simp only [List.filter_cons, hR.allBlank_eq hline]
      split
      · simp only [List.map_cons, hR.blankWidth_eq hline, ih]
      · exact ih
  rw [commonWidth, commonWidth, hwidths]

theorem KeepsLayout.moveLine {line line' indent : List CodePoint} (h : List.Forall₂ R line line')
    (hindent : List.Forall₂ R indent indent) (width : Nat) :
    List.Forall₂ R (Text.moveLine width indent line) (Text.moveLine width indent line') := by
  rw [Text.moveLine, Text.moveLine, hR.allBlank_eq h]
  split
  · exact .nil
  · exact List.rel_append hindent (List.forall₂_drop width h)

/-- Related texts are moved alike. -/
theorem Pointwise.reindent {indent : Text} (h : Pointwise R x x') (hindent : Pointwise R indent indent)
    (hbreak : R Text.lineBreak Text.lineBreak) :
    Pointwise R (Text.reindent x indent) (Text.reindent x' indent) := by
  have hlines := forall₂_splitAt hR.lineBreak h
  unfold Pointwise Text.reindent reindentPoints splitLines
  dsimp only
  generalize splitAt Text.lineBreak x.points = lines at hlines
  generalize splitAt Text.lineBreak x'.points = lines' at hlines
  cases hlines with
  | nil => exact h
  | cons hfirst hrest =>
    cases hrest with
    | nil => exact h
    | cons hnext hlater =>
      have hmoved := hR.commonWidth_eq (.cons hnext hlater)
      refine forall₂_intercalate (.cons hbreak .nil) (.cons hfirst ?_)
      rw [hmoved]
      refine List.forall₂_map_left_iff.mpr (List.forall₂_map_right_iff.mpr ?_)
      exact List.Forall₂.imp (fun _ _ hline => hR.moveLine hline hindent _) (.cons hnext hlater)

end Text

/-! ## Pairings -/

/-- Which code points may stand side by side: where texts are read, and where they are written. -/
structure Pairing where
  read : CodePoint → CodePoint → Prop
  shown : CodePoint → CodePoint → Prop
  read_cases : ∀ {p p'}, read p p' → p = p' ∨ p.IsMarker ∧ p'.IsMarker
  shown_cases : ∀ {p p'}, shown p p' → p = p' ∨ p.IsMarker ∧ p'.IsMarker ∨ p.IsDigit ∧ p'.IsDigit
  shown_of_read : ∀ {p p'}, read p p' → shown p p'
  /-- All but private-use characters may stay the same. -/
  refl : ∀ {p : CodePoint}, p.toNat < 0xE000 → read p p

namespace Pairing

variable (P : Pairing) {x x' y : Text}

theorem keepsLayout_shown : KeepsLayout P.shown where
  lineBreak h := by
    rcases P.shown_cases h with rfl | ⟨hp, hp'⟩ | ⟨hp, hp'⟩
    · exact Iff.rfl
    · exact iff_of_false (ne_lineBreak hp.not_blank) (ne_lineBreak hp'.not_blank)
    · exact iff_of_false (ne_lineBreak (CodePoint.not_blank_of_plain hp.plain))
        (ne_lineBreak (CodePoint.not_blank_of_plain hp'.plain))
  blank h := by
    rcases P.shown_cases h with rfl | ⟨hp, hp'⟩ | ⟨hp, hp'⟩
    · rfl
    · rw [hp.not_blank, hp'.not_blank]
    · rw [CodePoint.not_blank_of_plain hp.plain, CodePoint.not_blank_of_plain hp'.plain]

theorem keepsLayout_read : KeepsLayout P.read where
  lineBreak h := P.keepsLayout_shown.lineBreak (P.shown_of_read h)
  blank h := P.keepsLayout_shown.blank (P.shown_of_read h)

/-- Texts that are written out stay the same. -/
theorem literal {cs : List Char} (h : cs.all (·.toNat < 0xE000) = true) :
    Pointwise P.read (ofString (String.ofList cs)) (ofString (String.ofList cs)) := by
  unfold Pointwise ofString ofChars
  rw [String.toList_ofList, List.forall₂_same]
  intro p hp
  obtain ⟨c, hc, rfl⟩ := List.mem_map.mp hp
  exact P.refl (of_decide_eq_true (List.all_eq_true.mp h c hc))

theorem literal_shown {cs : List Char} (h : cs.all (·.toNat < 0xE000) = true) :
    Pointwise P.shown (ofString (String.ofList cs)) (ofString (String.ofList cs)) :=
  (P.literal h).mono P.shown_of_read

variable {P}

theorem reindent_read {indent : Text} (h : Pointwise P.read x x') (hindent : Pointwise P.read indent indent) :
    Pointwise P.read (reindent x indent) (reindent x' indent) :=
  h.reindent P.keepsLayout_read hindent (P.refl (by decide))

theorem reindent_shown {indent : Text} (h : Pointwise P.shown x x')
    (hindent : Pointwise P.shown indent indent) :
    Pointwise P.shown (reindent x indent) (reindent x' indent) :=
  h.reindent P.keepsLayout_shown hindent (P.shown_of_read (P.refl (by decide)))

/-! ## Tests of texts that are read -/

/-- Whether a text holds a marker. -/
def Marked (x : Text) : Prop :=
  ∃ p ∈ x.points, p.IsMarker

/-- Texts that differ both hold a marker. -/
theorem eq_or_marked (h : Pointwise P.read x x') : x' = x ∨ Marked x ∧ Marked x' := by
  obtain ⟨ps⟩ := x
  obtain ⟨ps'⟩ := x'
  replace h : List.Forall₂ P.read ps ps' := h
  have hpoints : ps' = ps ∨ (∃ p ∈ ps, p.IsMarker) ∧ ∃ p ∈ ps', p.IsMarker := by
    induction h with
    | nil => exact .inl rfl
    | cons hp _ ih =>
      rcases P.read_cases hp with rfl | ⟨hmarker, hmarker'⟩
      · rcases ih with rfl | ⟨⟨q, hq, hmarked⟩, q', hq', hmarked'⟩
        · exact .inl rfl
        · exact .inr ⟨⟨q, .tail _ hq, hmarked⟩, q', .tail _ hq', hmarked'⟩
      · exact .inr ⟨⟨_, .head _, hmarker⟩, _, .head _, hmarker'⟩
  exact hpoints.imp (congrArg Text.mk) id

theorem Marked.isEmpty (h : Marked y) : y.isEmpty = false := by
  obtain ⟨p, hp, -⟩ := h
  exact List.isEmpty_eq_false_iff_exists_mem.mpr ⟨p, hp⟩

/-- A test that fails for every text with a marker has one answer. -/
theorem test_eq {α : Type} {f : Text → α} (a : α) (h : Pointwise P.read x x')
    (hf : ∀ {t : Text}, Marked t → f t = a) : f x' = f x := by
  rcases eq_or_marked h with rfl | ⟨hx, hx'⟩
  · rfl
  · rw [hf hx, hf hx']

theorem not_marked_of_isPlain (h : y.IsPlain) : ¬ Marked y := by
  rintro ⟨p, hp, hmarker⟩
  exact absurd (h p hp) (by simp [hmarker.not_plain])

theorem not_marked_literal {cs : List Char} (h : cs.all (·.toNat < 0xE000) = true) :
    ¬ Marked (ofString (String.ofList cs)) := by
  rintro ⟨p, hp, hmarker⟩
  unfold ofString ofChars at hp
  rw [String.toList_ofList] at hp
  obtain ⟨c, hc, rfl⟩ := List.mem_map.mp hp
  have hlt := of_decide_eq_true (List.all_eq_true.mp h c hc)
  exact absurd hmarker.le_toNat (Nat.not_le.mpr hlt)

theorem beq_eq_false {t : Text} (ht : Marked t) (hy : ¬ Marked y) : (t == y) = false := by
  rw [beq_eq_false_iff_ne]
  rintro rfl
  exact hy ht

/-- Plain texts stay the same. -/
theorem plain_self (P : Pairing) (h : y.IsPlain) : Pointwise P.read y y := by
  refine List.forall₂_same.mpr fun p hp => ?_
  obtain ⟨c, rfl, hc⟩ := satisfies_iff.mp (h p hp)
  exact P.refl (Nat.lt_trans (toNat_lt_of_continuesIdentifier hc) (by decide))

/-- Equality with a text without markers is such a test. -/
theorem eq_iff (h : Pointwise P.read x x') (hy : ¬ Marked y) : x' = y ↔ x = y := by
  rcases eq_or_marked h with rfl | ⟨hx, hx'⟩
  · exact Iff.rfl
  · exact iff_of_false (fun h => hy (h ▸ hx')) fun h => hy (h ▸ hx)

theorem beq_eq (h : Pointwise P.read x x') (hy : ¬ Marked y) : (x' == y) = (x == y) :=
  test_eq false h fun ht => beq_eq_false ht hy

theorem isIdentifier_eq_false {t : Text} (h : Marked t) : isIdentifier t = false := by
  obtain ⟨p, hp, hmarker⟩ := h
  rw [Bool.eq_false_iff]
  intro hidentifier
  have hlt := toNat_lt_of_isIdentifier hidentifier hp
  have hle := hmarker.le_toNat
  omega

theorem isIdentifier_eq (h : Pointwise P.read x x') : isIdentifier x' = isIdentifier x :=
  test_eq false h isIdentifier_eq_false

theorem head?_beq_eq {ps ps' : List CodePoint} (h : List.Forall₂ P.read ps ps') {c : Char}
    (hc : c.toNat < 0xE000) : (ps'.head? == some (.char c)) = (ps.head? == some (.char c)) := by
  cases h with
  | nil => rfl
  | cons hp _ =>
    rcases P.read_cases hp with rfl | ⟨hmarker, hmarker'⟩
    · rfl
    · have hne : ∀ {q : CodePoint}, q.IsMarker → (some q == some (.char c)) = false := by
        intro q hq
        rw [beq_eq_false_iff_ne]
        exact fun heq => hq.ne_char hc (Option.some.inj heq)
      rw [List.head?_cons, List.head?_cons, hne hmarker, hne hmarker']

theorem isBracketed_eq (h : Pointwise P.read x x') : isBracketed x' = isBracketed x := by
  unfold isBracketed
  rw [head?_beq_eq h (by decide), ← List.head?_reverse, ← List.head?_reverse,
    head?_beq_eq (List.forall₂_reverse_iff.mpr h) (by decide)]

theorem ofHelper?_eq (h : Pointwise P.read x x') : StoreTool.ofHelper? x' = StoreTool.ofHelper? x := by
  unfold StoreTool.ofHelper? StoreTool.namespaceHelper
  rw [beq_eq h (not_marked_literal rfl), beq_eq h (not_marked_literal rfl), beq_eq h (not_marked_literal rfl),
    beq_eq h (not_marked_literal rfl), beq_eq h (not_marked_literal rfl)]

theorem isMapHelper_eq (h : Pointwise P.read x x') : StoreTool.isMapHelper x' = StoreTool.isMapHelper x := by
  unfold StoreTool.isMapHelper StoreTool.namespaceHelper
  rw [ofHelper?_eq h, bne, bne, beq_eq h (not_marked_literal rfl)]

theorem ofWord?_eq (h : Pointwise P.read x x') : Accessor.ofWord? x' = Accessor.ofWord? x := by
  unfold Accessor.ofWord?
  rw [beq_eq h (not_marked_literal rfl), beq_eq h (not_marked_literal rfl)]

/-! ## Names of members -/

/-- Whether two names of members are written alike, and are the same plain names. -/
structure SameName (P : Pairing) (x x' : Text) : Prop where
  shown : Pointwise P.shown x x'
  plain : ∀ {y : Text}, y.IsPlain → (x' = y ↔ x = y)

theorem sameName_of_read (h : Pointwise P.read x x') : P.SameName x x' where
  shown := h.mono P.shown_of_read
  plain hy := eq_iff h (not_marked_of_isPlain hy)

theorem ne_quote_of_isPlain (hy : y.IsPlain) (t : Text) : quote t ≠ y := by
  rintro rfl
  have hquote := hy (.char '"') (List.mem_map_of_mem (List.mem_cons_self ..))
  cases hquote

theorem sameName_quote (h : Pointwise P.shown (quote x) (quote x')) : P.SameName (quote x) (quote x') where
  shown := h
  plain hy := iff_of_false (ne_quote_of_isPlain hy x') (ne_quote_of_isPlain hy x)

theorem quote_self (P : Pairing) (x : Text) : Pointwise P.shown (quote x) (quote x) := by
  refine List.forall₂_same.mpr fun p hp => P.shown_of_read (P.refl ?_)
  have hlt := (bounds_of_mem_quote hp).2
  obtain ⟨c, hc, rfl⟩ := List.mem_map.mp hp
  exact Nat.lt_trans hlt (by decide)

theorem sameName_propertyName (h : Pointwise P.read x x')
    (hquote : x.isQuoted → Pointwise P.shown (quote x) (quote x')) :
    P.SameName (propertyName x) (propertyName x') := by
  unfold propertyName
  rw [isIdentifier_eq h, isBracketed_eq h]
  split
  · exact sameName_of_read h
  · next hquoted => exact sameName_quote (hquote (by simpa [isQuoted] using hquoted))

/-! ## Names that are made of letters and digits -/

theorem filter_isAlnum_eq {ps ps' : List CodePoint} (h : List.Forall₂ P.read ps ps') :
    ps'.filter (·.satisfies isAlnum) = ps.filter (·.satisfies isAlnum) := by
  induction h with
  | nil => rfl
  | cons hp _ ih =>
    rcases P.read_cases hp with rfl | ⟨hmarker, hmarker'⟩
    · simp only [List.filter_cons, ih]
    · simp only [List.filter_cons, hmarker.not_alnum, hmarker'.not_alnum, ih]
      rfl

theorem pascalFrom_eq {ps ps' : List CodePoint} (h : List.Forall₂ P.read ps ps') (inWord : Bool) :
    pascalFrom inWord ps' = pascalFrom inWord ps := by
  induction h generalizing inWord with
  | nil => rfl
  | cons hp _ ih =>
    rcases P.read_cases hp with rfl | ⟨hmarker, hmarker'⟩
    · simp only [pascalFrom, ih]
    · simp only [pascalFrom, hmarker.not_alnum, hmarker'.not_alnum, ih]
      rfl

theorem watcherName_eq (h : Pointwise P.read x x') : watcherName x' = watcherName x := by
  have hdot : ∀ {p p'}, P.read p p' → (p = .char '.' ↔ p' = .char '.') := by
    intro p p' hp
    rcases P.read_cases hp with rfl | ⟨hmarker, hmarker'⟩
    · exact Iff.rfl
    · exact iff_of_false (hmarker.ne_char (by decide)) (hmarker'.ne_char (by decide))
  have hsteps := forall₂_splitAt hdot h
  unfold watcherName
  generalize splitAt (.char '.') x.points = steps at hsteps
  generalize splitAt (.char '.') x'.points = steps' at hsteps
  have heq : steps'.map (fun step => capitalize (alnumOnly ⟨step⟩)) =
      steps.map (fun step => capitalize (alnumOnly ⟨step⟩)) := by
    induction hsteps with
    | nil => rfl
    | cons hstep _ ih =>
      rw [List.map_cons, List.map_cons, ih, alnumOnly, alnumOnly, filter_isAlnum_eq hstep]
  rw [heq]

/-! ## The factory -/

/-- Private-use characters have no case. -/
theorem lowerChar_of_marker {c : Char} (h : c ∈ markerCandidates) : LetterCase.lowerChar c = c := by
  obtain ⟨hle, hlt⟩ := Origin.toNat_bounds_of_marker h
  have hnone : LetterCase.lowerStretches.findSome? (·.image? c.toNat) = none := by
    have hall : ∀ stretch ∈ LetterCase.lowerStretches, stretch.last < 0xE000 ∨ 0xF900 ≤ stretch.first := by
      decide +kernel
    rw [List.findSome?_eq_none_iff]
    intro stretch hstretch
    refine if_neg ?_
    have := hall stretch hstretch
    simp only [Bool.and_eq_true, decide_eq_true_eq]
    omega
  rw [LetterCase.lowerChar, if_neg (by omega), hnone]
  rfl

theorem mem_lowerFrom {c : Char} (hc : c ∈ markerCandidates) {cs : List Char} (h : c ∈ cs) (b : Bool) :
    c ∈ LetterCase.lowerFrom b cs := by
  induction cs generalizing b with
  | nil => cases h
  | cons first rest ih =>
    rw [LetterCase.lowerFrom]
    rcases List.mem_cons.mp h with rfl | h
    · have hle := Origin.le_toNat_of_marker hc
      have hsigma : c ≠ 'Σ' := by
        rintro rfl
        exact absurd hle (by decide)
      have hdotted : c ≠ 'İ' := by
        rintro rfl
        exact absurd hle (by decide)
      refine List.mem_append_left _ ?_
      simp [hsigma, hdotted, lowerChar_of_marker hc]
    · exact List.mem_append_right _ (ih h _)

theorem isFactory_eq (h : Pointwise P.read x x') :
    x'.toString?.any (LetterCase.lower · == Tree.factory) =
      x.toString?.any (LetterCase.lower · == Tree.factory) := by
  refine test_eq (f := fun t => t.toString?.any (LetterCase.lower · == Tree.factory)) false h fun {t} ht => ?_
  obtain ⟨p, hp, c, hc, rfl⟩ := ht
  rw [Bool.eq_false_iff, Ne, Option.any_eq_true]
  rintro ⟨word, hword, hlower⟩
  rw [toString?_eq_some_iff.mp hword] at hp
  obtain ⟨c', hmem, hc'⟩ := List.mem_map.mp hp
  cases hc'
  have hchars : LetterCase.lowerFrom false word.toList = Tree.factory.toList := by
    rw [← beq_iff_eq.mp hlower, LetterCase.lower, String.toList_ofList]
  have hfactory : Tree.factory.toList.all (·.toNat < 0xE000) = true := by decide +kernel
  have hle := Origin.le_toNat_of_marker hc
  have hlt := of_decide_eq_true (List.all_eq_true.mp hfactory c (hchars ▸ mem_lowerFrom hc hmem false))
  omega

end Pairing

end ClassComponent
