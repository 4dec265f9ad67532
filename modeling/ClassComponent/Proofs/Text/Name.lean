import ClassComponent.Text.Digest
import ClassComponent.Text.Name
import Mathlib.Data.List.Basic

/-!
# Plain names

A text is plain if it is made of ASCII letters, digits, low lines and dollar signs only. The names of
watchers are plain, whatever they watch, and so are the digits of a digest: such a name holds no line
break and nothing that could stand for one. `Digest.IsDigest` says what is asked of a digest, and
`Digest.isDigest_digits` that the one in use is such a digest.
-/

namespace ClassComponent

theorem CodePoint.toNat_ofNat_of_valid {n : Nat} (h : n.isValidChar) : (Char.ofNat n).toNat = n := by
  rw [Char.ofNat, dif_pos h]
  rfl

namespace Text

/-! ## Texts -/

theorem eq_of_points {s t : Text} (h : s.points = t.points) : s = t := by
  cases s
  cases t
  exact congrArg mk h

theorem append_assoc (s t u : Text) : s ++ t ++ u = s ++ (t ++ u) :=
  eq_of_points (List.append_assoc s.points t.points u.points)

theorem ofString_injective {s t : String} (h : ofString s = ofString t) : s = t := by
  have hchars : s.toList.map CodePoint.char = t.toList.map CodePoint.char := congrArg points h
  exact String.toList_inj.mp (List.map_injective_iff.mpr (fun _ _ => CodePoint.char.inj) hchars)

theorem ofString_append (s t : String) : ofString (s ++ t) = ofString s ++ ofString t := by
  refine eq_of_points ?_
  have hchars : (s ++ t).toList = s.toList ++ t.toList := String.toList_append
  exact (congrArg (List.map CodePoint.char) hchars).trans List.map_append

theorem mapM_char?_eq_some_iff {ps : List CodePoint} {cs : List Char} :
    ps.mapM CodePoint.char? = some cs ↔ ps = cs.map .char := by
  induction ps generalizing cs with
  | nil => simp [eq_comm]
  | cons p ps ih =>
    simp only [List.mapM_cons, Option.bind_eq_bind, Option.bind_eq_some_iff, Option.pure_def, ih,
      Option.some.injEq]
    constructor
    · rintro ⟨c, hc, rest, rfl, rfl⟩
      cases p with
      | char _ =>
        cases hc
        rfl
      | half _ => cases hc
    · intro h
      obtain ⟨c, rest, rfl, rfl, rfl⟩ := List.map_eq_cons_iff.mp h.symm
      exact ⟨c, rfl, rest, rfl, rfl⟩

/-- Only a text without halves has characters, and these make it up. -/
theorem toString?_eq_some_iff {t : Text} {s : String} : t.toString? = some s ↔ t = ofString s := by
  simp only [toString?, Option.map_eq_some_iff, mapM_char?_eq_some_iff]
  constructor
  · rintro ⟨cs, hcs, rfl⟩
    refine eq_of_points (hcs.trans ?_)
    rw [ofString, ofChars, String.toList_ofList]
  · rintro rfl
    exact ⟨s.toList, rfl, String.ofList_toList⟩

theorem toString?_ofString (s : String) : (ofString s).toString? = some s :=
  toString?_eq_some_iff.mpr rfl

/-- A text without halves has characters. -/
theorem exists_eq_ofString {t : Text} (h : t.hasHalf = false) : ∃ s, t = ofString s := by
  have hchars : ∀ ps : List CodePoint, ps.any (fun p => p.char?.isNone) = false →
      ∃ cs : List Char, ps = cs.map .char := by
    intro ps
    induction ps with
    | nil => exact fun _ => ⟨[], rfl⟩
    | cons p ps ih =>
      intro hall
      rw [List.any_cons, Bool.or_eq_false_iff] at hall
      obtain ⟨cs, rfl⟩ := ih hall.2
      cases p with
      | char c => exact ⟨c :: cs, rfl⟩
      | half offset => cases hall.1
  obtain ⟨cs, hcs⟩ := hchars t.points h
  refine ⟨String.ofList cs, eq_of_points ?_⟩
  rw [hcs, ofString, ofChars, String.toList_ofList]

/-! ## Plain texts -/

/-- Whether a text is made of characters that identifiers go on with. -/
def IsPlain (t : Text) : Prop :=
  ∀ p ∈ t.points, p.satisfies continuesIdentifier

instance (t : Text) : Decidable t.IsPlain :=
  inferInstanceAs (Decidable (∀ p ∈ t.points, p.satisfies continuesIdentifier))

theorem IsPlain.append {s t : Text} (hs : s.IsPlain) (ht : t.IsPlain) : (s ++ t).IsPlain := by
  intro p hp
  rcases List.mem_append.mp hp with hp | hp
  · exact hs p hp
  · exact ht p hp

/-! ## Characters -/

theorem satisfies_iff {p : CodePoint} {property : Char → Bool} :
    p.satisfies property ↔ ∃ c, p = .char c ∧ property c := by
  cases p with
  | char c => simp [CodePoint.satisfies, CodePoint.char?]
  | half offset => simp [CodePoint.satisfies, CodePoint.char?]

theorem toNat_lt_of_isAlnum {c : Char} (h : isAlnum c) : c.toNat < 128 := by
  have hcases : (c.isUpper || c.isLower || c.isDigit) = true := h
  simp only [Bool.or_eq_true] at hcases
  rcases hcases with (hupper | hlower) | hdigit
  · have hle : c.toNat ≤ 90 := (of_decide_eq_true hupper).2
    omega
  · have hle : c.toNat ≤ 122 := of_decide_eq_true (Bool.and_eq_true_iff.mp hlower).2
    omega
  · have hle : c.toNat ≤ 57 := (Char.isDigit_iff_toNat.mp hdigit).2
    omega

theorem toNat_lt_of_continuesIdentifier {c : Char} (h : continuesIdentifier c) : c.toNat < 128 := by
  simp only [continuesIdentifier, Bool.or_eq_true, beq_iff_eq] at h
  rcases h with (h | rfl) | rfl
  · exact toNat_lt_of_isAlnum h
  · decide
  · decide

theorem continuesIdentifier_of_isAlnum {c : Char} (h : isAlnum c) : continuesIdentifier c := by
  simp only [isAlnum] at h
  simp [continuesIdentifier, h]

theorem continuesIdentifier_of_starts {c : Char} (h : startsIdentifier c) : continuesIdentifier c := by
  simp only [startsIdentifier, Bool.or_eq_true] at h
  simp only [continuesIdentifier, Char.isAlphanum, Bool.or_eq_true]
  exact h.imp (Or.imp .inl id) id

/-- What holds of each ASCII character by number holds of all of them. -/
theorem forall_ascii (property : Char → Prop) (h : ∀ n < 128, property (Char.ofNat n)) {c : Char}
    (hc : c.toNat < 128) : property c := by
  have hchar := h c.toNat hc
  rwa [Char.ofNat_toNat] at hchar

theorem continuesIdentifier_toUpper {c : Char} (h : isAlnum c) : continuesIdentifier c.toUpper :=
  forall_ascii (fun c => isAlnum c → continuesIdentifier c.toUpper) (by decide) (toNat_lt_of_isAlnum h) h

theorem upperPoint_of_isAlnum {c : Char} (h : isAlnum c) : upperPoint (.char c) = [.char c.toUpper] := by
  rw [upperPoint, LetterCase.upper, if_pos (toNat_lt_of_isAlnum h)]
  rfl

/-! ## Names -/

/-- An identifier is in ASCII. So is the line break that is let through after it. -/
theorem toNat_lt_of_isIdentifier {t : Text} (h : isIdentifier t) {p : CodePoint} (hp : p ∈ t.points) :
    p.toNat < 128 := by
  have hplain : ∀ {q : CodePoint}, q.satisfies continuesIdentifier → q.toNat < 128 := by
    intro q hq
    obtain ⟨c, rfl, hc⟩ := satisfies_iff.mp hq
    exact toNat_lt_of_continuesIdentifier hc
  obtain ⟨ps⟩ := t
  cases ps with
  | nil => cases hp
  | cons first rest =>
    obtain ⟨hfirst, hrest⟩ := Bool.and_eq_true_iff.mp h
    rcases List.mem_cons.mp hp with rfl | hp
    · obtain ⟨c, rfl, hc⟩ := satisfies_iff.mp hfirst
      exact toNat_lt_of_continuesIdentifier (continuesIdentifier_of_starts hc)
    · rw [← List.takeWhile_append_dropWhile (p := (·.satisfies continuesIdentifier)) (l := rest)] at hp
      rcases List.mem_append.mp hp with hp | hp
      · exact hplain (List.all_eq_true.mp List.all_takeWhile p hp)
      · rcases Bool.or_eq_true_iff.mp hrest with hempty | hbreak
        · rw [List.isEmpty_iff.mp hempty] at hp
          cases hp
        · rw [beq_iff_eq.mp hbreak] at hp
          rw [List.mem_singleton.mp hp]
          decide

theorem isPlain_capitalize_alnumOnly (t : Text) : (capitalize (alnumOnly t)).IsPlain := by
  have halnum : ∀ p ∈ (alnumOnly t).points, ∃ c, p = .char c ∧ isAlnum c := fun p hp =>
    satisfies_iff.mp (List.mem_filter.mp hp).2
  intro p hp
  unfold capitalize at hp
  cases hpoints : (alnumOnly t).points with
  | nil =>
    rw [hpoints] at hp
    cases hp
  | cons first rest =>
    rw [hpoints] at hp halnum
    obtain ⟨c, rfl, hc⟩ := halnum first List.mem_cons_self
    rw [capitalizePoints, upperPoint_of_isAlnum hc] at hp
    rcases List.mem_cons.mp hp with rfl | hp
    · exact satisfies_iff.mpr ⟨_, rfl, continuesIdentifier_toUpper hc⟩
    · obtain ⟨d, rfl, hd⟩ := halnum p (List.mem_cons_of_mem _ hp)
      exact satisfies_iff.mpr ⟨d, rfl, continuesIdentifier_of_isAlnum hd⟩

theorem isPlain_pascalCase (t : Text) : (pascalCase t).IsPlain := by
  have hpoints : ∀ (ps : List CodePoint) (inWord : Bool), ∀ p ∈ pascalFrom inWord ps,
      p.satisfies continuesIdentifier := by
    intro ps
    induction ps with
    | nil => exact fun _ _ hp => nomatch hp
    | cons first rest ih =>
      intro inWord p hp
      rw [pascalFrom] at hp
      split at hp
      · next halnum =>
        obtain ⟨c, rfl, hc⟩ := satisfies_iff.mp halnum
        rw [upperPoint_of_isAlnum hc] at hp
        rcases List.mem_append.mp hp with hp | hp
        · split at hp
          · rw [List.mem_singleton.mp hp]
            exact satisfies_iff.mpr ⟨c, rfl, continuesIdentifier_of_isAlnum hc⟩
          · rw [List.mem_singleton.mp hp]
            exact satisfies_iff.mpr ⟨_, rfl, continuesIdentifier_toUpper hc⟩
        · exact ih _ p hp
      · exact ih _ p hp
  exact hpoints t.points false

theorem isPlain_watcherName (path : Text) : (watcherName path).IsPlain := by
  have hsteps : ∀ steps : List (List CodePoint),
      (concat (steps.map fun step => capitalize (alnumOnly ⟨step⟩))).IsPlain := by
    intro steps p hp
    obtain ⟨part, hpart, hp⟩ := List.mem_flatMap.mp hp
    obtain ⟨step, -, rfl⟩ := List.mem_map.mp hpart
    exact isPlain_capitalize_alnumOnly ⟨step⟩ p hp
  exact (IsPlain.append (by decide) (hsteps _)).append (by decide)

end Text

/-! ## Digests -/

namespace Digest

/-- Hexadecimal digits in lower case. -/
def isHexDigit (c : Char) : Bool :=
  c.isDigit || ('a' ≤ c && c ≤ 'f')

/-- What is asked of a digest: 32 hexadecimal digits for every text. -/
structure IsDigest (digits : Text → List Char) : Prop where
  length (t : Text) : (digits t).length = 32
  hex (t : Text) : ∀ c ∈ digits t, isHexDigit c

/-- The first four digits of a text's digest. -/
def leading (digits : Text → List Char) (t : Text) : Text :=
  .ofChars ((digits t).take 4)

theorem short_eq_leading : short = leading digits :=
  rfl

theorem length_lowBytes (n value : Nat) : (lowBytes n value).length = n := by
  induction n generalizing value with
  | zero => rfl
  | succ n ih => rw [lowBytes, List.length_cons, ih]

theorem length_ofBytes (message : List UInt8) : (ofBytes message).length = 16 := by
  simp [ofBytes, length_lowBytes]

theorem isHexDigit_hexDigit {n : Nat} (h : n < 16) : isHexDigit (Text.hexDigit n) := by
  have hall : ∀ k < 16, isHexDigit (Text.hexDigit k) := by decide
  exact hall n h

theorem isDigest_digits : IsDigest digits where
  length t := by
    have htwo : ∀ bytes : List UInt8, (bytes.flatMap byteDigits).length = 2 * bytes.length := by
      intro bytes
      simp [List.length_flatMap, byteDigits, Nat.mul_comm]
    rw [digits, htwo, length_ofBytes]
  hex t c hc := by
    obtain ⟨byte, -, hbyte⟩ := List.mem_flatMap.mp hc
    have hlt := byte.toNat_lt
    simp only [byteDigits, List.mem_cons, List.not_mem_nil, or_false] at hbyte
    rcases hbyte with rfl | rfl
    · exact isHexDigit_hexDigit (by omega)
    · exact isHexDigit_hexDigit (by omega)

end Digest

namespace Text

theorem continuesIdentifier_of_isHexDigit {c : Char} (h : Digest.isHexDigit c) :
    continuesIdentifier c := by
  refine continuesIdentifier_of_isAlnum ?_
  simp only [Digest.isHexDigit, Bool.or_eq_true, Bool.and_eq_true, decide_eq_true_eq] at h
  rcases h with hdigit | ⟨hle, hle'⟩
  · exact Bool.or_eq_true_iff.mpr (.inr hdigit)
  · have hlower : c.isLower :=
      Bool.and_eq_true_iff.mpr ⟨decide_eq_true hle, decide_eq_true (Char.le_trans hle' (by decide))⟩
    exact Bool.or_eq_true_iff.mpr (.inl (Bool.or_eq_true_iff.mpr (.inr hlower)))

theorem isPlain_short (t : Text) : (Digest.short t).IsPlain := by
  intro p hp
  rw [Digest.short_eq_leading] at hp
  obtain ⟨c, hc, rfl⟩ := List.mem_map.mp hp
  have hhex := Digest.isDigest_digits.hex t c (List.mem_of_mem_take hc)
  exact satisfies_iff.mpr ⟨c, rfl, continuesIdentifier_of_isHexDigit hhex⟩

end Text

end ClassComponent
