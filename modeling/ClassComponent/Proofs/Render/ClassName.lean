import ClassComponent.Proofs.Text.Key
import ClassComponent.Render.Module

/-!
# The name of the class

A class is named after its component, or else after its file. A name that is no identifier is put into Pascal case,
which keeps its ASCII letters and digits only; where nothing is left, the fallback is used.

* **Pascal case** (`isName_pascalCase_iff`): what is kept is an identifier exactly if it starts with a letter. Nothing
  keeps a digit from coming first.
* **Classes** (`className_legal_iff`): the name of a class is no identifier in two cases. The text that it is made from
  has a digit before all its letters, or is an identifier with a line break after it, which the test for identifiers
  lets through.
-/

namespace ClassComponent

namespace Text

/-! ## Identifiers -/

theorem isEmpty_of_isName {t : Text} (h : t.isName) : t.isEmpty = false := by
  obtain ⟨c, hhead, -⟩ := isName_head? h
  cases hpoints : t.points with
  | nil => simp [hpoints] at hhead
  | cons p ps => simp [isEmpty, hpoints]

theorem not_isPlain_lineBreak (word : Text) : ¬ (word ++ "\n").IsPlain := by
  intro hplain
  have hbreak := hplain lineBreak (List.mem_append_right _ (List.mem_singleton_self _))
  rw [lineBreak_not_continues] at hbreak
  cases hbreak

/-! ## Pascal case -/

/-- The first ASCII letter or digit of a text. -/
def firstAlnum? (t : Text) : Option CodePoint :=
  t.points.find? (·.satisfies isAlnum)

theorem isDigit_toUpper {c : Char} (h : isAlnum c) : c.toUpper.isDigit = c.isDigit :=
  forall_ascii (fun c => c.toUpper.isDigit = c.isDigit) (by decide) (toNat_lt_of_isAlnum h)

theorem isAlnum_of_firstAlnum? {t : Text} {p : CodePoint} (h : t.firstAlnum? = some p) :
    ∃ c, p = .char c ∧ isAlnum c := by
  have hfind : t.points.find? (·.satisfies isAlnum) = some p := h
  have halnum := List.find?_some hfind
  exact satisfies_iff.mp halnum

/-- Pascal case starts with the first letter or digit, in upper case. -/
theorem head?_pascalCase (t : Text) : (pascalCase t).points.head? = t.firstAlnum?.bind (upperPoint · |>.head?) := by
  obtain ⟨ps⟩ := t
  simp only [pascalCase, firstAlnum?]
  induction ps with
  | nil => rfl
  | cons p ps ih =>
    rw [pascalFrom, List.find?_cons]
    by_cases halnum : p.satisfies isAlnum
    · obtain ⟨c, rfl, hc⟩ := satisfies_iff.mp halnum
      simp [halnum, upperPoint_of_isAlnum hc]
    · simpa [halnum] using ih

/-- What Pascal case keeps is an identifier exactly if it starts with a letter. -/
theorem isName_pascalCase_iff {t : Text} :
    (pascalCase t).isName ↔ ∃ p, t.firstAlnum? = some p ∧ ¬ p.satisfies Char.isDigit := by
  rw [isName_iff, and_iff_right (isPlain_pascalCase t), head?_pascalCase]
  cases hfirst : t.firstAlnum? with
  | none => simp
  | some p =>
    obtain ⟨c, rfl, hc⟩ := isAlnum_of_firstAlnum? hfirst
    have hdigit : (CodePoint.char c.toUpper).satisfies Char.isDigit = (CodePoint.char c).satisfies Char.isDigit :=
      isDigit_toUpper hc
    simp [upperPoint_of_isAlnum hc, hdigit]

theorem pascalCase_isEmpty_iff {t : Text} : (pascalCase t).isEmpty ↔ t.firstAlnum? = none := by
  rw [isEmpty, List.isEmpty_iff, ← List.head?_eq_none_iff, head?_pascalCase]
  cases hfirst : t.firstAlnum? with
  | none => simp
  | some p =>
    obtain ⟨c, rfl, hc⟩ := isAlnum_of_firstAlnum? hfirst
    simp [upperPoint_of_isAlnum hc]

end Text

/-! ## Classes -/

/-- The text that the name of a class is made from: the name of the component, or else that of its file. -/
def Component.givenName (c : Component) (file : Text) : Text :=
  if c.name.isEmpty && !file.isEmpty then Text.capitalize (Path.stem file) else c.name

/-- The four sources of the name of a class. -/
theorem Component.className_cases (c : Component) (file fallback : Text) :
    c.className file fallback =
      if (c.givenName file).isIdentifier then c.givenName file
      else if (Text.pascalCase (c.givenName file)).isEmpty then fallback
      else Text.pascalCase (c.givenName file) := by
  show (let given := c.givenName file
    let name := if !given.isEmpty && !given.isIdentifier then Text.pascalCase given else given
    if name.isEmpty then fallback else name) = _
  generalize c.givenName file = given
  by_cases hempty : given.isEmpty
  · obtain ⟨ps⟩ := given
    cases List.isEmpty_iff.mp hempty
    rfl
  · by_cases hidentifier : given.isIdentifier
    · simp [hempty, hidentifier]
    · simp [hempty, hidentifier]

/-- **When the name of a class is an identifier.** The name of a class is never empty. It is an identifier unless the
name that is given is none and has a digit before all its letters, or it is an identifier with a line break after it;
and but for this line break it is made of ASCII letters, digits, low lines and dollar signs. -/
theorem className_legal_iff (c : Component) (file fallback : Text) (hfallback : fallback.isName) :
    let given := c.givenName file
    let name := c.className file fallback
    name.isEmpty = false ∧
      (name.isName ↔ ¬ (∃ word : Text, word.isName ∧ given = word ++ "\n") ∧
        (given.isName ∨ ∀ p, given.firstAlnum? = some p → ¬ p.satisfies Char.isDigit)) ∧
      (name.IsPlain ↔ ¬ ∃ word : Text, word.isName ∧ given = word ++ "\n") := by
  simp only [Component.className_cases]
  generalize c.givenName file = given
  by_cases hidentifier : given.isIdentifier
  · -- An identifier is taken as it is, with the line break that may follow it.
    simp only [hidentifier, if_true]
    rcases Text.isIdentifier_iff.mp hidentifier with hname | hbreak
    · have hplain : given.IsPlain := (Text.isName_iff.mp hname).1
      have hbreak : ¬ ∃ word : Text, word.isName ∧ given = word ++ "\n" := by
        rintro ⟨word, -, rfl⟩
        exact Text.not_isPlain_lineBreak word hplain
      exact ⟨Text.isEmpty_of_isName hname, by simp [hname, hbreak], by simp [hplain, hbreak]⟩
    · obtain ⟨word, hword, rfl⟩ := hbreak
      have hplain := Text.not_isPlain_lineBreak word
      have hname : ¬ (word ++ "\n").isName := fun h => hplain (Text.isName_iff.mp h).1
      refine ⟨?_, iff_of_false hname fun h => h.1 ⟨word, hword, rfl⟩,
        iff_of_false hplain fun h => h ⟨word, hword, rfl⟩⟩
      rw [Text.isEmpty, List.isEmpty_eq_false_iff]
      exact List.append_ne_nil_of_right_ne_nil _ (List.cons_ne_nil _ _)
  · have hname : ¬ given.isName := fun h => hidentifier (Text.isIdentifier_iff.mpr (.inl h))
    have hbreak : ¬ ∃ word : Text, word.isName ∧ given = word ++ "\n" :=
      fun h => hidentifier (Text.isIdentifier_iff.mpr (.inr h))
    simp only [hidentifier, hname, hbreak, not_false_eq_true, true_and, iff_true]
    by_cases hempty : (Text.pascalCase given).isEmpty
    · have hfirst := Text.pascalCase_isEmpty_iff.mp hempty
      simp [hempty, hfirst, hfallback, Text.isEmpty_of_isName hfallback, (Text.isName_iff.mp hfallback).1]
    · obtain ⟨p, hfirst⟩ := Option.ne_none_iff_exists'.mp (mt Text.pascalCase_isEmpty_iff.mpr hempty)
      simp [hempty, Text.isName_pascalCase_iff, hfirst, Text.isPlain_pascalCase]

/-- Pascal case brings a digit to the front, and a line break at the end is let through. -/
theorem className_of_digit_and_lineBreak :
    Text.isName "Component" ∧
      Component.className { name := "1-step" } "Demo.vue" "Component" = "1Step" ∧
      ¬ (Component.className { name := "1-step" } "Demo.vue" "Component").isName ∧
      ¬ (Component.className { name := "Step\n" } "Demo.vue" "Component").isName ∧
      (Component.className {} "a/my-step.vue" "Component").isName := by
  have hdigit := (className_legal_iff { name := "1-step" } "Demo.vue" "Component" (by decide)).2.1
  have hbreak := (className_legal_iff { name := "Step\n" } "Demo.vue" "Component" (by decide)).2.1
  have hlegal := (className_legal_iff {} "a/my-step.vue" "Component" (by decide)).2.1
  refine ⟨by decide, by decide +kernel, fun h => ?_, fun h => ?_, hlegal.mpr ⟨?_, .inr ?_⟩⟩
  · rcases (hdigit.mp h).2 with hname | hfirst
    · exact absurd hname (by decide)
    · exact hfirst (.char '1') (by decide) (by decide)
  · exact (hbreak.mp h).1 ⟨"Step", by decide, by decide⟩
  · rintro ⟨word, -, hword⟩
    have hlast : (Component.givenName {} "a/my-step.vue").points.getLast? = some (.char 'p') := by decide
    have hbreak : (word ++ "\n").points.getLast? = some Text.lineBreak := List.getLast?_concat
    rw [← hword, hlast] at hbreak
    exact absurd hbreak (by decide)
  · intro p hp
    cases hp
    decide

end ClassComponent
