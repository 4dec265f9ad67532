import ClassComponent.Proofs.Text.Quoted
import Mathlib.Data.List.TakeWhile

/-!
# Property keys

A member of a class is named by an identifier, by a string in quotes or by an expression in brackets. The first two
have a key that can be read off the name (`Text.denoted?`).

* **Names and keys** (`denotes_propertyName_iff`): the member name of a text denotes it, unless the text is taken
  for what it is not (`Text.IsMisread`): one in brackets for an expression, and an identifier with a line break
  after it for an identifier.
* **Numbers** (`Binary64.key`): the key of a number is its shortest decimal. It is never misread, and no other
  text has its units (`Binary64.eq_key_of_units`).
-/

namespace ClassComponent

namespace Text

/-! ## Identifiers -/

/-- Whether a text is an identifier made of ASCII characters. -/
def isName (t : Text) : Bool :=
  match t.points with
  | [] => false
  | p :: ps => p.satisfies startsIdentifier && ps.all (·.satisfies continuesIdentifier)

/-- Whether the member name of a text does not denote it: it stands in brackets, or is an identifier with a
line break after it. -/
def IsMisread (t : Text) : Prop :=
  t.isBracketed ∨ ∃ name : Text, name.isName ∧ t = name ++ "\n"

theorem startsIdentifier_iff {c : Char} : startsIdentifier c ↔ continuesIdentifier c ∧ ¬ c.isDigit := by
  have hascii (h : c.toNat < 128) : startsIdentifier c ↔ continuesIdentifier c ∧ ¬ c.isDigit :=
    forall_ascii (fun c => startsIdentifier c ↔ continuesIdentifier c ∧ ¬ c.isDigit) (by decide) h
  constructor
  · intro h
    exact (hascii (toNat_lt_of_continuesIdentifier (continuesIdentifier_of_starts h))).mp h
  · intro h
    exact (hascii (toNat_lt_of_continuesIdentifier h.1)).mpr h

/-- A plain text is an identifier unless it is empty or starts with a digit. -/
theorem isName_iff {t : Text} :
    t.isName ↔ t.IsPlain ∧ ∃ p, t.points.head? = some p ∧ ¬ p.satisfies Char.isDigit := by
  obtain ⟨ps⟩ := t
  cases ps with
  | nil => simp [isName]
  | cons p ps =>
    have hstarts : p.satisfies startsIdentifier ↔
        p.satisfies continuesIdentifier ∧ ¬ p.satisfies Char.isDigit := by
      cases p with
      | char c => exact startsIdentifier_iff
      | half offset => simp [CodePoint.satisfies, CodePoint.char?]
    simp only [isName, IsPlain, Bool.and_eq_true, hstarts, List.all_eq_true, List.forall_mem_cons,
      List.head?_cons, Option.some.injEq, exists_eq_left']
    tauto

theorem lineBreak_not_continues : lineBreak.satisfies continuesIdentifier = false := by
  decide

theorem dropWhile_eq_lineBreak_iff {ps : List CodePoint} :
    ps.dropWhile (·.satisfies continuesIdentifier) = [lineBreak] ↔
      ∃ qs, ps = qs ++ [lineBreak] ∧ qs.all (·.satisfies continuesIdentifier) := by
  constructor
  · intro h
    refine ⟨ps.takeWhile (·.satisfies continuesIdentifier), ?_, List.all_takeWhile⟩
    rw [← h, List.takeWhile_append_dropWhile]
  · rintro ⟨qs, rfl, hqs⟩
    rw [List.dropWhile_append_of_pos (fun p hp => List.all_eq_true.mp hqs p hp)]
    simp [lineBreak_not_continues]

/-- A line break after an identifier is let through. -/
theorem isIdentifier_iff {t : Text} :
    t.isIdentifier ↔ t.isName ∨ ∃ name : Text, name.isName ∧ t = name ++ "\n" := by
  obtain ⟨ps⟩ := t
  cases ps with
  | nil =>
    refine iff_of_false (by simp [isIdentifier, identifierPoints]) ?_
    rintro (h | ⟨name, -, h⟩)
    · cases h
    · have hpoints : [] = name.points ++ [lineBreak] := congrArg points h
      simp at hpoints
  | cons p ps =>
    have hrest : (ps.dropWhile (·.satisfies continuesIdentifier)).isEmpty ↔
        ps.all (·.satisfies continuesIdentifier) := by
      rw [List.isEmpty_iff, List.dropWhile_eq_nil_iff, List.all_eq_true]
    simp only [isIdentifier, identifierPoints, Bool.and_eq_true, Bool.or_eq_true, beq_iff_eq, hrest,
      dropWhile_eq_lineBreak_iff]
    constructor
    · rintro ⟨hp, hall | ⟨qs, rfl, hqs⟩⟩
      · exact .inl (by simp only [isName, hp, hall]; rfl)
      · exact .inr ⟨⟨p :: qs⟩, by simp only [isName, hp, hqs]; rfl, rfl⟩
    · rintro (h | ⟨⟨qs⟩, hname, h⟩)
      · obtain ⟨hp, hall⟩ := Bool.and_eq_true_iff.mp h
        exact ⟨hp, .inl hall⟩
      · have hpoints : p :: ps = qs ++ [lineBreak] := congrArg points h
        cases qs with
        | nil => cases hname
        | cons q qs =>
          obtain ⟨rfl, rfl⟩ := List.cons.inj hpoints
          obtain ⟨hp, hall⟩ := Bool.and_eq_true_iff.mp hname
          exact ⟨hp, .inr ⟨qs, rfl, hall⟩⟩

/-! ## Keys of names -/

/-- The key of a member name: an identifier is its own key, a string literal stands for its key. -/
def denoted? (name : Text) : Option Text :=
  if name.isName then some name else name.unquote?

/-- Whether a member called `name` has the key `key`. -/
def Denotes (name key : Text) : Prop :=
  ∃ k, name.denoted? = some k ∧ k.units = key.units

theorem isName_head? {t : Text} (h : t.isName) :
    ∃ c, t.points.head? = some (.char c) ∧ startsIdentifier c := by
  obtain ⟨ps⟩ := t
  cases ps with
  | nil => cases h
  | cons p ps =>
    obtain ⟨c, rfl, hc⟩ := satisfies_iff.mp (Bool.and_eq_true_iff.mp h).1
    exact ⟨c, rfl, hc⟩

theorem isIdentifier_head? {t : Text} (h : t.isIdentifier) :
    ∃ c, t.points.head? = some (.char c) ∧ startsIdentifier c := by
  obtain ⟨ps⟩ := t
  cases ps with
  | nil => cases h
  | cons p ps =>
    obtain ⟨c, rfl, hc⟩ := satisfies_iff.mp (Bool.and_eq_true_iff.mp h).1
    exact ⟨c, rfl, hc⟩

theorem head?_quote (t : Text) : (quote t).points.head? = some (.char '"') := rfl

/-- A name is put in quotes exactly if it is neither taken for an identifier nor for an expression in brackets. -/
theorem propertyName_quoted_iff {name : Text} :
    (∃ t, propertyName name = quote t) ↔ name.isIdentifier = false ∧ name.isBracketed = false := by
  by_cases hkept : name.isIdentifier || name.isBracketed
  · rw [propertyName, if_pos hkept]
    refine iff_of_false ?_ fun h => by simp [h.1, h.2] at hkept
    rintro ⟨t, rfl⟩
    rcases Bool.or_eq_true_iff.mp hkept with hidentifier | hbracketed
    · obtain ⟨c, hhead, hstarts⟩ := isIdentifier_head? hidentifier
      rw [head?_quote] at hhead
      cases hhead
      exact absurd hstarts (by decide)
    · have hhead := beq_iff_eq.mp (Bool.and_eq_true_iff.mp hbracketed).1
      rw [head?_quote] at hhead
      exact absurd hhead (by decide)
  · rw [propertyName, if_neg hkept]
    exact iff_of_true ⟨name, rfl⟩ (by simpa using hkept)

/-- A name in brackets has no key that could be read off it. -/
theorem denoted?_of_isBracketed {t : Text} (h : t.isBracketed) : t.denoted? = none := by
  have hhead : t.points.head? = some (.char '[') := beq_iff_eq.mp (Bool.and_eq_true_iff.mp h).1
  have hname : ¬ t.isName := by
    intro hname
    obtain ⟨c, hc, hstarts⟩ := isName_head? hname
    rw [hhead] at hc
    cases hc
    exact absurd hstarts (by decide)
  rw [denoted?, if_neg hname]
  exact unquote?_of_head hhead (by decide) fun _ => rfl

/-- An identifier with a line break after it is neither an identifier nor a string literal. -/
theorem denoted?_of_lineBreak {name : Text} (h : name.isName) : (name ++ "\n").denoted? = none := by
  obtain ⟨c, hhead, hstarts⟩ := isName_head? h
  have hname : ¬ (name ++ "\n").isName := by
    obtain ⟨ps⟩ := name
    cases ps with
    | nil => cases h
    | cons p ps =>
      intro hname
      have hall := (Bool.and_eq_true_iff.mp hname).2
      have hbreak := List.all_eq_true.mp hall lineBreak (List.mem_append_right ps (List.mem_singleton_self _))
      rw [lineBreak_not_continues] at hbreak
      cases hbreak
  have hspace : (c == ' ' || c == '\t' || c == '\n' || c == '\r') = false := by
    rw [Bool.eq_false_iff]
    simp only [Bool.or_eq_true, beq_iff_eq, ne_eq]
    rintro (((rfl | rfl) | rfl) | rfl)
    all_goals exact absurd hstarts (by decide)
  rw [denoted?, if_neg hname]
  refine unquote?_of_head (c := c) ?_ ?_ fun cs => ?_
  · have hpoints : (name ++ "\n").points = name.points ++ [lineBreak] := rfl
    rw [hpoints, List.head?_append, hhead]
    rfl
  · rintro rfl
    exact absurd hstarts (by decide)
  · rw [Value.skipSpace, List.dropWhile_cons, hspace]
    rfl

theorem denoted?_quote (t : Text) : (quote t).denoted? = some ⟨pairHalves t.points⟩ := by
  have hname : ¬ (quote t).isName := by
    intro hname
    obtain ⟨c, hhead, hstarts⟩ := isName_head? hname
    cases hhead
    exact absurd hstarts (by decide)
  rw [denoted?, if_neg hname, unquote?_quote]

/-- The member name of a text denotes it, unless it is misread. -/
theorem denotes_propertyName_iff {t key : Text} :
    Denotes (propertyName t) key ↔ ¬ t.IsMisread ∧ t.units = key.units := by
  by_cases hmisread : t.IsMisread
  -- A misread text is its own member name, and no key can be read off it.
  · have hnone : (propertyName t).denoted? = none := by
      rcases hmisread with hbracketed | ⟨name, hname, rfl⟩
      · rw [propertyName, if_pos (by rw [hbracketed, Bool.or_true])]
        exact denoted?_of_isBracketed hbracketed
      · rw [propertyName, if_pos (by rw [isIdentifier_iff.mpr (.inr ⟨name, hname, rfl⟩), Bool.true_or])]
        exact denoted?_of_lineBreak hname
    refine iff_of_false ?_ fun h => h.1 hmisread
    rintro ⟨k, hk, -⟩
    rw [hnone] at hk
    cases hk
  · obtain ⟨k, hk, hunits⟩ : ∃ k, (propertyName t).denoted? = some k ∧ k.units = t.units := by
      by_cases hname : t.isName
      · rw [propertyName, if_pos (by rw [isIdentifier_iff.mpr (.inl hname), Bool.true_or])]
        exact ⟨t, if_pos hname, rfl⟩
      · have hquoted : ¬ (t.isIdentifier || t.isBracketed) := by
          rw [Bool.or_eq_true, isIdentifier_iff]
          rintro ((h | h) | h)
          · exact hname h
          · exact hmisread (.inr h)
          · exact hmisread (.inl h)
        rw [propertyName, if_neg hquoted]
        exact ⟨_, denoted?_quote t, units_pairHalves t.points⟩
    simp only [Denotes, hk, Option.some.injEq, exists_eq_left', hunits, hmisread, not_false_eq_true, true_and]

/-- Only a text that stands in brackets becomes a computed name. -/
theorem isBracketed_propertyName (t : Text) : (propertyName t).isBracketed = t.isBracketed := by
  unfold propertyName
  split
  · rfl
  · next h =>
    rw [Bool.or_eq_true, not_or, Bool.not_eq_true, Bool.not_eq_true] at h
    rw [h.2]
    rfl

end Text

/-! ## Numbers -/

/-- A positive decimal number as a script writes it: the digits after a point, times a power of ten. -/
def pointedKey (digits : List Char) (point : Int) : List Char :=
  if digits.length ≤ point ∧ point ≤ 21 then digits ++ List.replicate (point - digits.length).toNat '0'
  else if 0 < point ∧ point ≤ 21 then digits.take point.toNat ++ '.' :: digits.drop point.toNat
  else if -6 < point ∧ point ≤ 0 then '0' :: '.' :: (List.replicate (-point).toNat '0' ++ digits)
  else
    digits.take 1 ++ (if digits.length = 1 then [] else '.' :: digits.drop 1) ++
      'e' :: (if point < 1 then '-' else '+') :: Nat.toDigits 10 (point - 1).natAbs

/-- The number `mantissa * 10 ^ exponent`, if it is positive, as a script writes it. -/
def decimalKey (mantissa : Nat) (exponent : Int) : List Char :=
  let (digits, zeros) := Value.trimZeros (Nat.toDigits 10 mantissa)
  pointedKey digits (digits.length + zeros + exponent)

/-- The characters of the key of a number. -/
def Binary64.keyChars : Binary64 → List Char
  | .finite isNegative mantissa exponent =>
    if mantissa = 0 then ['0']
    else
      let decimal := shortest mantissa exponent
      (if isNegative then ['-'] else []) ++ decimalKey decimal.1 decimal.2
  | .infinity isNegative =>
    (if isNegative then ['-'] else []) ++ ['I', 'n', 'f', 'i', 'n', 'i', 't', 'y']
  | .undefined => ['N', 'a', 'N']

/-- The key of a number: what a script makes of it where a text is needed. -/
def Binary64.key (x : Binary64) : Text :=
  .ofChars x.keyChars

/-- The characters that keys of numbers are made of. -/
def isKeyChar (c : Char) : Bool :=
  c.isAlphanum || c == '.' || c == '+' || c == '-'

theorem isKeyChar_of_mem_toDigits {n : Nat} {c : Char} (h : c ∈ Nat.toDigits 10 n) : isKeyChar c := by
  have hdigit : c.isDigit := Nat.isDigit_of_mem_toDigits (by decide) (by decide) h
  simp [isKeyChar, Char.isAlphanum, hdigit]

theorem isKeyChar_of_mem_pointedKey {digits : List Char} (hdigits : ∀ d ∈ digits, isKeyChar d) {point : Int}
    {c : Char} (h : c ∈ pointedKey digits point) : isKeyChar c := by
  have hzeros {n : Nat} (hc : c ∈ List.replicate n '0') : isKeyChar c := by
    rw [List.eq_of_mem_replicate hc]
    decide
  unfold pointedKey at h
  split at h
  · rcases List.mem_append.mp h with h | h
    · exact hdigits c h
    · exact hzeros h
  · split at h
    · rcases List.mem_append.mp h with h | h
      · exact hdigits c (List.mem_of_mem_take h)
      · rcases List.mem_cons.mp h with rfl | h
        · decide
        · exact hdigits c (List.mem_of_mem_drop h)
    · split at h
      · rcases List.mem_cons.mp h with rfl | h
        · decide
        · rcases List.mem_cons.mp h with rfl | h
          · decide
          · rcases List.mem_append.mp h with h | h
            · exact hzeros h
            · exact hdigits c h
      · rcases List.mem_append.mp h with h | h
        · rcases List.mem_append.mp h with h | h
          · exact hdigits c (List.mem_of_mem_take h)
          · split at h
            · cases h
            · rcases List.mem_cons.mp h with rfl | h
              · decide
              · exact hdigits c (List.mem_of_mem_drop h)
        · rcases List.mem_cons.mp h with rfl | h
          · decide
          · rcases List.mem_cons.mp h with rfl | h
            · split <;> decide
            · exact isKeyChar_of_mem_toDigits h

theorem isKeyChar_of_mem_decimalKey {mantissa : Nat} {exponent : Int} {c : Char}
    (h : c ∈ decimalKey mantissa exponent) : isKeyChar c := by
  refine isKeyChar_of_mem_pointedKey (fun d hd => ?_) h
  have hkept := (List.dropWhile_sublist _).subset (List.mem_reverse.mp hd)
  exact isKeyChar_of_mem_toDigits (List.mem_reverse.mp hkept)

theorem Binary64.isKeyChar_of_mem_keyChars {x : Binary64} {c : Char} (h : c ∈ x.keyChars) : isKeyChar c := by
  have hsign {isNegative : Bool} (hc : c ∈ if isNegative then ['-'] else []) : isKeyChar c := by
    split at hc
    · rw [List.mem_singleton.mp hc]
      decide
    · cases hc
  have hword {word : List Char} (hall : word.all isKeyChar = true) (hc : c ∈ word) : isKeyChar c :=
    List.all_eq_true.mp hall c hc
  cases x with
  | finite isNegative mantissa exponent =>
    simp only [keyChars] at h
    generalize shortest mantissa exponent = decimal at h
    split at h
    · rw [List.mem_singleton.mp h]
      decide
    · rcases List.mem_append.mp h with h | h
      · exact hsign h
      · exact isKeyChar_of_mem_decimalKey h
  | infinity isNegative =>
    rcases List.mem_append.mp h with h | h
    · exact hsign h
    · exact hword (by decide) h
  | undefined => exact hword (by decide) h

theorem toNat_lt_of_isKeyChar {c : Char} (h : isKeyChar c) : c.toNat < 128 := by
  simp only [isKeyChar, Bool.or_eq_true, beq_iff_eq] at h
  rcases h with ((h | rfl) | rfl) | rfl
  · exact Text.toNat_lt_of_isAlnum h
  all_goals decide

/-- The key of a number is not misread. -/
theorem Binary64.not_isMisread_key (x : Binary64) : ¬ x.key.IsMisread := by
  have hmem {c : Char} (h : CodePoint.char c ∈ x.key.points) : isKeyChar c := by
    obtain ⟨d, hd, hsame⟩ := List.mem_map.mp h
    cases hsame
    exact isKeyChar_of_mem_keyChars hd
  rintro (hbracketed | ⟨name, -, hname⟩)
  · have hlast := beq_iff_eq.mp (Bool.and_eq_true_iff.mp hbracketed).2
    exact absurd (hmem (List.mem_of_getLast? hlast)) (by decide)
  · have hpoints : x.key.points = name.points ++ [Text.lineBreak] := congrArg Text.points hname
    have hbreak : Text.lineBreak ∈ x.key.points := by
      rw [hpoints]
      exact List.mem_append_right _ (List.mem_singleton_self _)
    exact absurd (hmem hbreak) (by decide)

/-- A text of ASCII characters is known by its units. -/
theorem Text.eq_of_units_eq {s t : Text} (ht : ∀ p ∈ t.points, p.toNat < 128) (h : s.units = t.units) :
    s = t := by
  obtain ⟨ps⟩ := s
  obtain ⟨qs⟩ := t
  refine congrArg Text.mk ?_
  simp only [units] at ht h
  induction qs generalizing ps with
  | nil =>
    cases ps with
    | nil => rfl
    | cons p ps =>
      have hnil := (List.append_eq_nil_iff.mp h).1
      unfold CodePoint.units at hnil
      split at hnil
      · cases hnil
      · cases hnil
  | cons q qs ih =>
    have hq : q.toNat < 128 := ht q List.mem_cons_self
    have hunits : q.units = [q.toNat] := if_pos (by omega)
    rw [List.flatMap_cons, hunits] at h
    cases ps with
    | nil => cases h
    | cons p ps =>
      rw [List.flatMap_cons] at h
      by_cases hp : p.toNat < 0x10000
      · rw [CodePoint.units, if_pos hp] at h
        obtain ⟨hhead, htail⟩ := List.cons.inj h
        have hsame : p = q := by rw [← CodePoint.ofNat_toNat p, hhead, CodePoint.ofNat_toNat]
        rw [hsame, ih ps (fun r hr => ht r (List.mem_cons_of_mem q hr)) htail]
      · rw [CodePoint.units, if_neg hp] at h
        have hhead := (List.cons.inj h).1
        omega

theorem Binary64.eq_key_of_units {x : Binary64} {t : Text} (h : t.units = x.key.units) : t = x.key := by
  refine Text.eq_of_units_eq (fun p hp => ?_) h
  obtain ⟨c, hc, rfl⟩ := List.mem_map.mp hp
  exact toNat_lt_of_isKeyChar (isKeyChar_of_mem_keyChars hc)

end ClassComponent
