import ClassComponent.Proofs.Text.Key
import ClassComponent.Script.Lexeme

/-!
# Names in scripts

A name in a script is made of letters, digits and the like, far beyond ASCII, and any of its characters may be
written as an escape. `Spells` relates what stands in the script to the name that is read from it.

* **Escapes** (`Spells.cases`): a name that is written without escapes stands for itself, and one with escapes is
  longer than what it stands for.
* **Member names** (`Spells.propertyName_eq_iff`): the member name of a name is what stands in the script exactly if
  this is an identifier of ASCII characters.
-/

namespace ClassComponent.Script

open Text

/-! ## Seeking -/

variable {text : Array Char} {stop : Char → Bool} {pos : Nat}

theorem le_seek : pos ≤ seek text stop pos := by
  fun_induction seek text stop pos with
  | case1 => omega
  | case2 pos hpos hstop ih => omega
  | case3 => omega

theorem stop_eq_false_of_lt_seek {i : Nat} (hpos : pos ≤ i) (hi : i < seek text stop pos) {c : Char}
    (hc : text[i]? = some c) : stop c = false := by
  fun_induction seek text stop pos with
  | case1 => omega
  | case2 pos hlt hstop ih =>
    by_cases heq : i = pos
    · subst heq
      rw [Array.getElem?_eq_getElem hlt] at hc
      cases hc
      simpa using hstop
    · exact ih (by omega) hi
  | case3 => omega

/-! ## Escapes -/

theorem hexDigits?_next {count value v next : Nat} (h : hexDigits? text count pos value = some (v, next)) :
    next = pos + count := by
  induction count generalizing pos value with
  | zero =>
    cases h
    rfl
  | succ count ih =>
    rw [hexDigits?] at h
    split at h
    · have hnext := ih h
      omega
    · cases h

theorem lt_unicodeEscape? {v next : Nat} (h : unicodeEscape? text pos = some (v, next)) : pos < next := by
  unfold unicodeEscape? at h
  split at h
  · simp only [bracedCodePoint?] at h
    split at h
    · cases h
      have hle : pos + 1 ≤ seek text (fun c => (hexValue? c).isNone) (pos + 1) := le_seek
      omega
    · cases h
  · have hnext := hexDigits?_next h
    omega

theorem lt_nameEscape? {fits : Char → Bool} {p : CodePoint} {next : Nat}
    (h : nameEscape? text fits pos = some (p, next)) : pos + 1 < next := by
  simp only [nameEscape?] at h
  split at h
  · cases h
  · split at h
    · cases h
    · next hescape =>
      split at h
      · cases h
        exact lt_unicodeEscape? hescape
      · cases h

/-- Reading on adds at most one code point for each character, and fewer if there is an escape. -/
theorem length_escapedName? {fuel next : Nat} {done : List CodePoint} {name : Text}
    (h : escapedName? text fuel pos done = some (name, next)) :
    name.length + pos ≤ done.length + next ∧
      ∀ i, pos ≤ i → i < next → text[i]? = some '\\' → name.length + pos < done.length + next := by
  induction fuel generalizing pos done with
  | zero => cases h
  | succ fuel ih =>
    have hdone : some ((⟨done.reverse⟩ : Text), pos) = some (name, next) →
        name.length + pos ≤ done.length + next ∧
          ∀ i, pos ≤ i → i < next → text[i]? = some '\\' → name.length + pos < done.length + next := by
      intro h
      cases h
      refine ⟨by simp [Text.length], fun i hi hlt => ?_⟩
      omega
    rw [escapedName?] at h
    split at h
    · exact hdone h
    · next c hc =>
      split at h
      · split at h
        · cases h
        · next escaped after hescape =>
          have hlt := lt_nameEscape? hescape
          have hle := (ih h).1
          rw [List.length_cons] at hle
          exact ⟨by omega, fun i _ _ _ => by omega⟩
      · next hplain =>
        split at h
        · obtain ⟨hle, hstrict⟩ := ih h
          rw [List.length_cons] at hle hstrict
          refine ⟨by omega, fun i hi hlt hi' => ?_⟩
          have hne : i ≠ pos := by
            rintro rfl
            rw [hc] at hi'
            cases hi'
            simp at hplain
          have hless := hstrict i (by omega) hlt hi'
          omega
        · exact hdone h

/-! ## Names -/

/-- Whether characters of a script are read as a name, to the last of them. -/
def Spells (written : List Char) (name : Text) : Prop :=
  name? written.toArray 0 = some (name, written.length)

instance (written : List Char) (name : Text) : Decidable (Spells written name) :=
  inferInstanceAs (Decidable (_ = _))

namespace Spells

variable {written : List Char} {name : Text}

/-- A name without escapes stands for itself, and one with escapes is longer than what it stands for. -/
theorem cases (h : Spells written name) :
    name = ofChars written ∧ (∀ c ∈ written, continuesName c) ∨
      name.length < written.length ∧ '\\' ∈ written ∧ ∃ c, written.head? = some c ∧ continuesName c := by
  simp only [Spells, name?] at h
  generalize hplain : seek written.toArray (fun c => c == '\\' || !continuesName c) 0 = plain at h
  have hbefore {i : Nat} (hi : i < plain) {c : Char} (hc : written[i]? = some c) : c ≠ '\\' ∧ continuesName c := by
    have hgoes := stop_eq_false_of_lt_seek (Nat.zero_le i) (hplain ▸ hi) (by simpa using hc)
    simpa using hgoes
  by_cases hescape : written[plain]? = some '\\'
  · right
    have hlt : plain < written.length := (List.getElem?_eq_some_iff.mp hescape).1
    obtain ⟨first, hfirst⟩ : ∃ first, written[0]? = some first :=
      ⟨written[0], List.getElem?_eq_getElem (by omega)⟩
    have hhead : continuesName first := by
      by_cases hzero : plain = 0
      · rw [hzero, hfirst] at hescape
        cases hescape
        decide
      · exact (hbefore (by omega) hfirst).2
    refine ⟨?_, List.mem_of_getElem? hescape, first, by rwa [List.head?_eq_getElem?], hhead⟩
    rw [if_neg (by simpa using hescape)] at h
    split at h
    · -- An escape stands first. It is longer than the code point that it gives.
      split at h
      · cases h
      · next hfirst =>
        have hlong := lt_nameEscape? hfirst
        have hle := (length_escapedName? h).1
        rw [List.length_singleton] at hle
        omega
    · have hless := (length_escapedName? h).2 plain (Nat.zero_le _) hlt (by simpa using hescape)
      simpa using hless
  · left
    rw [if_pos (by simpa using hescape)] at h
    obtain ⟨hname, hall⟩ := Prod.mk.inj (Option.some.inj h)
    refine ⟨?_, fun c hc => ?_⟩
    · rw [← hname, hall, ofString, excerpt, String.toList_ofList]
      simp
    · obtain ⟨i, hi⟩ := List.mem_iff_getElem?.mp hc
      have hlt := (List.getElem?_eq_some_iff.mp hi).1
      exact (hbefore (by omega) hi).2

/-- The first character is one of a name, also if it starts an escape. -/
theorem head?_ne (h : Spells written name) {c : Char} (hc : continuesName c = false) :
    (ofChars written).points.head? ≠ some (.char c) := by
  intro hpoint
  have hwritten : written.head? = some c := by simpa [ofChars] using hpoint
  have hname : continuesName c = true := by
    rcases h.cases with ⟨-, hall⟩ | ⟨-, -, first, hfirst, hhead⟩
    · exact hall c (List.mem_of_head? hwritten)
    · rw [hwritten] at hfirst
      cases hfirst
      exact hhead
  rw [hc] at hname
  cases hname

theorem continuesName_of_mem (h : Spells written (ofChars written)) {c : Char} (hc : c ∈ written) :
    continuesName c := by
  rcases h.cases with ⟨-, hall⟩ | ⟨hshort, -⟩
  · exact hall c hc
  · simp [ofChars, Text.length] at hshort

/-- The member name of a name is what stands in the script exactly if this is an identifier of ASCII characters. -/
theorem propertyName_eq_iff (h : Spells written name) :
    propertyName name = ofChars written ↔ (ofChars written).isName := by
  constructor
  · intro hsame
    by_cases hkept : name.isIdentifier || name.isBracketed
    · rw [propertyName, if_pos hkept] at hsame
      subst hsame
      rcases Bool.or_eq_true_iff.mp hkept with hidentifier | hbracketed
      · rcases isIdentifier_iff.mp hidentifier with hname | ⟨word, -, hword⟩
        · exact hname
        · have hbreak : '\n' ∈ written := by
            have hmem : CodePoint.char '\n' ∈ (ofChars written).points := by
              rw [hword]
              exact List.mem_append_right _ (List.mem_singleton_self _)
            simpa [ofChars] using hmem
          exact absurd (h.continuesName_of_mem hbreak) (by decide)
      · exact absurd (beq_iff_eq.mp (Bool.and_eq_true_iff.mp hbracketed).1) (h.head?_ne (by decide))
    · rw [propertyName, if_neg hkept] at hsame
      have hhead := head?_quote name
      rw [hsame] at hhead
      exact absurd hhead (h.head?_ne (by decide))
  · intro hname
    have hplain : '\\' ∉ written := by
      intro hescape
      have hmem : CodePoint.char '\\' ∈ (ofChars written).points := List.mem_map_of_mem hescape
      exact absurd ((Text.isName_iff.mp hname).1 _ hmem) (by decide)
    rcases h.cases with ⟨rfl, -⟩ | ⟨-, hescape, -⟩
    · rw [propertyName, if_pos (by rw [isIdentifier_iff.mpr (.inl hname), Bool.true_or])]
    · exact absurd hescape hplain

end Spells

end ClassComponent.Script
