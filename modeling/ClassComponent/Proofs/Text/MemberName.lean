import ClassComponent.Proofs.Text.Key

/-!
# Literals and member names

A text that is quoted can be told from every other text, and so can the name of a member.

* **Between the quotes** (`LiteralBody`): a backslash goes together with the character after it, and no quote stands
  there without one. So the backslashes before a quote are odd in number, and those at the end even
  (`LiteralBody.escapesNext`).
* **Reading back** (`unquote?_quote_ofString`): a string is what its literal is read as.
* **Units** (`quote_eq_iff`): a literal is written unit by unit, so that texts have one literal exactly if they have
  the same units. A pair of halves has the units of the character that it makes.
* **Member names** (`propertyName_eq_iff`): an identifier, a name in brackets and a literal start with different
  characters, so that two texts with one member name are the same or have the same literal.
-/

namespace ClassComponent.Text

/-! ## Between the quotes -/

/-- What stands between the quotes of a literal. -/
inductive LiteralBody : List Char → Prop
  | nil : LiteralBody []
  | char {c : Char} {cs : List Char} (hquote : c ≠ '"') (hbackslash : c ≠ '\\') (h : LiteralBody cs) :
    LiteralBody (c :: cs)
  | escape (e : Char) {cs : List Char} (h : LiteralBody cs) : LiteralBody ('\\' :: e :: cs)

theorem LiteralBody.hexDigit_cons {n : Nat} {cs : List Char} (h : LiteralBody cs) :
    LiteralBody (hexDigit (n % 16) :: cs) := by
  have hdigit : ∀ k < 16, hexDigit k ≠ '"' ∧ hexDigit k ≠ '\\' := by decide
  obtain ⟨hquote, hbackslash⟩ := hdigit (n % 16) (Nat.mod_lt n (by decide))
  exact .char hquote hbackslash h

theorem LiteralBody.escapeUnit_append (n : Nat) {cs : List Char} (h : LiteralBody cs) :
    LiteralBody (escapeUnit n ++ cs) :=
  .escape 'u' h.hexDigit_cons.hexDigit_cons.hexDigit_cons.hexDigit_cons

theorem LiteralBody.escapePoint_append (p : CodePoint) {cs : List Char} (h : LiteralBody cs) :
    LiteralBody (escapePoint p ++ cs) := by
  cases p with
  | half offset => exact h.escapeUnit_append _
  | char c =>
    have hescaped := escapedAs c
    rw [escapePoint]
    generalize escapeChar c = written at hescaped
    cases hescaped with
    | itself _ hquote hbackslash => exact .char hquote hbackslash h
    | letter _ _ => exact .escape _ h
    | unit _ => exact h.escapeUnit_append _
    | pair _ =>
      rw [List.append_assoc]
      exact (h.escapeUnit_append _).escapeUnit_append _

theorem literalBody_flatMap (ps : List CodePoint) : LiteralBody (ps.flatMap escapePoint) := by
  induction ps with
  | nil => exact .nil
  | cons p ps ih => exact ih.escapePoint_append p

/-- Whether a character that comes next is escaped: an odd number of backslashes stands right before it. -/
def EscapesNext (cs : List Char) : Prop :=
  (cs.reverse.takeWhile (· == '\\')).length % 2 = 1

instance (cs : List Char) : Decidable (EscapesNext cs) :=
  inferInstanceAs (Decidable (_ = _))

theorem escapesNext_concat {cs : List Char} {c : Char} :
    EscapesNext (cs ++ [c]) ↔ c = '\\' ∧ ¬ EscapesNext cs := by
  by_cases hc : c = '\\'
  · simp only [EscapesNext, hc, List.reverse_append, List.reverse_singleton, List.singleton_append,
      List.takeWhile_cons, beq_self_eq_true, if_true, List.length_cons, true_and]
    omega
  · simp [EscapesNext, hc]

/-- A backslash in a literal escapes one character. Behind what escapes nothing, the same holds of a literal's body,
and all quotes in it are escaped. -/
theorem LiteralBody.escapesNext {cs : List Char} (h : LiteralBody cs) {lead : List Char}
    (hlead : ¬ EscapesNext lead) :
    ¬ EscapesNext (lead ++ cs) ∧
      ∀ before after, cs = before ++ '"' :: after → EscapesNext (lead ++ before) := by
  induction h generalizing lead with
  | nil =>
    rw [List.append_nil]
    exact ⟨hlead, fun before after h => by simp at h⟩
  | @char c cs hquote hbackslash _ ih =>
    have hnext : ¬ EscapesNext (lead ++ [c]) := fun h => hbackslash (escapesNext_concat.mp h).1
    obtain ⟨hend, hinner⟩ := ih hnext
    rw [List.append_assoc] at hend
    refine ⟨hend, fun before after hsplit => ?_⟩
    cases before with
    | nil => exact absurd (List.cons.inj hsplit).1 hquote
    | cons d before =>
      simp only [List.cons_append, List.cons.injEq] at hsplit
      obtain ⟨rfl, hsplit⟩ := hsplit
      have hquoted := hinner before after hsplit
      rwa [List.append_assoc] at hquoted
  | @escape e cs _ ih =>
    have hopen : EscapesNext (lead ++ ['\\']) := escapesNext_concat.mpr ⟨rfl, hlead⟩
    have hnext : ¬ EscapesNext (lead ++ ['\\'] ++ [e]) := fun h => (escapesNext_concat.mp h).2 hopen
    obtain ⟨hend, hinner⟩ := ih hnext
    rw [List.append_assoc, List.append_assoc] at hend
    refine ⟨hend, fun before after hsplit => ?_⟩
    match before with
    | [] => exact absurd (List.cons.inj hsplit).1 (by decide)
    | [d] =>
      obtain ⟨rfl, -⟩ := List.cons.inj hsplit
      exact hopen
    | d :: d' :: before =>
      simp only [List.cons_append, List.cons.injEq] at hsplit
      obtain ⟨rfl, rfl, hsplit⟩ := hsplit
      have hquoted := hinner before after hsplit
      rwa [List.append_assoc, List.append_assoc] at hquoted

/-! ## Reading back -/

theorem pairHalves_map_char (cs : List Char) : pairHalves (cs.map .char) = cs.map .char := by
  induction cs with
  | nil => rfl
  | cons c cs ih =>
    cases cs with
    | nil => rfl
    | cons d cs =>
      rw [List.map_cons] at ih ⊢
      exact congrArg (CodePoint.char c :: ·) ih

theorem unquote?_quote_ofString (s : String) : unquote? (quote s) = some (ofString s) := by
  rw [unquote?_quote]
  exact congrArg (fun ps => some (mk ps)) (pairHalves_map_char s.toList)

theorem units_eq_of_quote_eq {s t : Text} (h : quote s = quote t) : s.units = t.units := by
  have hread := congrArg unquote? h
  rw [unquote?_quote, unquote?_quote, Option.some.injEq, mk.injEq] at hread
  calc s.units = (pairHalves s.points).flatMap CodePoint.units := (units_pairHalves s.points).symm
    _ = (pairHalves t.points).flatMap CodePoint.units := by rw [hread]
    _ = t.units := units_pairHalves t.points

/-! ## Units -/

/-- What is written between quotes for a unit. -/
def escapedUnit (n : Nat) : List Char :=
  if 0xD800 ≤ n ∧ n < 0xE000 then escapeUnit n else escapeChar (Char.ofNat n)

theorem escapeChar_of_le {c : Char} (h : 0x10000 ≤ c.toNat) :
    escapeChar c = escapeUnit (0xD800 + (c.toNat - 0x10000) / 0x400) ++
      escapeUnit (0xDC00 + (c.toNat - 0x10000) % 0x400) := by
  have hne : ∀ {d : Char}, d.toNat < 0x10000 → (c == d) = false := by
    intro d hd
    refine beq_false_of_ne fun heq => ?_
    rw [heq] at h
    omega
  unfold escapeChar
  rw [hne (by decide), hne (by decide), hne (by decide), hne (by decide), hne (by decide)]
  simp only [Bool.false_eq_true, if_false]
  rw [if_neg (by simp; omega), if_neg (by simp; omega), if_neg (by simp; omega), if_neg (by omega)]

/-- A code point is written unit by unit. -/
theorem escapePoint_eq (p : CodePoint) : escapePoint p = p.units.flatMap escapedUnit := by
  cases p with
  | half offset =>
    have hoffset := offset.isLt
    rw [CodePoint.units_half, List.flatMap_singleton, escapedUnit, if_pos (by omega)]
    rfl
  | char c =>
    have hc := CodePoint.toNat_lt_or_of_char c
    unfold CodePoint.units
    split
    · next hone =>
      have hsame : Char.ofNat (CodePoint.char c).toNat = c := Char.ofNat_toNat c
      rw [List.flatMap_singleton, escapedUnit, hsame, if_neg (by simp only [CodePoint.toNat]; omega)]
      rfl
    · next htwo =>
      simp only [CodePoint.toNat] at htwo ⊢
      rw [escapePoint, escapeChar_of_le (by omega), List.flatMap_cons, List.flatMap_singleton, escapedUnit,
        escapedUnit, if_pos (by omega), if_pos (by omega)]

/-- Texts have one literal exactly if they have the same units. -/
theorem quote_eq_iff {s t : Text} : quote s = quote t ↔ s.units = t.units := by
  refine ⟨units_eq_of_quote_eq, fun h => ?_⟩
  have hbody : ∀ text : Text, text.points.flatMap escapePoint = text.units.flatMap escapedUnit := by
    intro text
    rw [units, List.flatMap_assoc]
    exact congrArg (fun f => text.points.flatMap f) (funext escapePoint_eq)
  rw [quote, quote, quotePoints, quotePoints, hbody, hbody, h]

theorem units_char {c : Char} (hc : c.toNat < 0xD800) : (CodePoint.char c).units = [c.toNat] :=
  if_pos (Nat.lt_trans hc (by decide))

theorem units_ne_nil (p : CodePoint) : p.units ≠ [] := by
  unfold CodePoint.units
  split <;> simp

/-- No other code point has the unit of a character below the halves. -/
theorem eq_char_of_mem_units {p : CodePoint} {c : Char} (hc : c.toNat < 0xD800) (h : c.toNat ∈ p.units) :
    p = .char c := by
  have hsame : p.toNat = c.toNat := by
    unfold CodePoint.units at h
    split at h
    · exact (List.mem_singleton.mp h).symm
    · rcases List.mem_pair.mp h with h | h <;> omega
  rw [← CodePoint.ofNat_toNat p, hsame]
  exact CodePoint.ofNat_toNat (.char c)

theorem head?_units {t : Text} {c : Char} (hc : c.toNat < 0xD800) :
    t.units.head? = some c.toNat ↔ t.points.head? = some (.char c) := by
  obtain ⟨ps⟩ := t
  cases ps with
  | nil => simp [units]
  | cons p ps =>
    rw [units, List.flatMap_cons, List.head?_append_of_ne_nil _ (units_ne_nil p), List.head?_cons, Option.some.injEq]
    constructor
    · exact fun h => eq_char_of_mem_units hc (List.mem_of_head? h)
    · rintro rfl
      rw [units_char hc, List.head?_cons]

theorem getLast?_units {t : Text} {c : Char} (hc : c.toNat < 0xD800) :
    t.units.getLast? = some c.toNat ↔ t.points.getLast? = some (.char c) := by
  obtain ⟨ps⟩ := t
  rcases List.eq_nil_or_concat ps with rfl | ⟨ps, p, rfl⟩
  · simp [units]
  · rw [units, List.concat_eq_append, List.flatMap_append, List.flatMap_singleton,
      List.getLast?_append_of_ne_nil _ (units_ne_nil p), List.getLast?_concat, Option.some.injEq]
    constructor
    · exact fun h => eq_char_of_mem_units hc (List.mem_of_getLast? h)
    · rintro rfl
      rw [units_char hc, List.getLast?_singleton]

/-- The units of a text tell whether it is in brackets. -/
theorem isBracketed_eq_of_units_eq {s t : Text} (h : s.units = t.units) : isBracketed s = isBracketed t := by
  rw [Bool.eq_iff_iff]
  simp only [isBracketed, Bool.and_eq_true, beq_iff_eq, ← head?_units (show '['.toNat < 0xD800 by decide),
    ← getLast?_units (show ']'.toNat < 0xD800 by decide), h]

/-! ## Member names -/

/-- **Texts have one member name** exactly if they have the same units, and are the same if they are in brackets. -/
theorem propertyName_eq_iff {s t : Text} :
    propertyName s = propertyName t ↔ s.units = t.units ∧ (isBracketed s → s = t) := by
  have hkept : ∀ {name : Text}, ¬ (∃ t, propertyName name = quote t) → propertyName name = name := by
    intro name hname
    rw [propertyName]
    split
    · rfl
    · next hquoted => exact absurd ⟨name, if_neg hquoted⟩ hname
  have hquoted : ∀ {name : Text}, (∃ t, propertyName name = quote t) → propertyName name = quote name := by
    intro name hname
    obtain ⟨hidentifier, hbracketed⟩ := propertyName_quoted_iff.mp hname
    rw [propertyName, hidentifier, hbracketed]
    rfl
  constructor
  · intro h
    by_cases hs : ∃ u, propertyName s = quote u
    · refine ⟨quote_eq_iff.mp ((hquoted hs).symm.trans (h.trans (hquoted (h ▸ hs)))), fun hbracketed => ?_⟩
      rw [(propertyName_quoted_iff.mp hs).2] at hbracketed
      cases hbracketed
    · have hsame : s = t := (hkept hs).symm.trans (h.trans (hkept (h ▸ hs)))
      exact ⟨hsame ▸ rfl, fun _ => hsame⟩
  · rintro ⟨hunits, hsame⟩
    by_cases hs : isIdentifier s
    · rw [eq_of_units_eq (fun _ => toNat_lt_of_isIdentifier hs) hunits.symm]
    by_cases ht : isIdentifier t
    · rw [eq_of_units_eq (fun _ => toNat_lt_of_isIdentifier ht) hunits]
    by_cases hbracketed : isBracketed s
    · rw [hsame hbracketed]
    have hbracketed' : ¬ isBracketed t := isBracketed_eq_of_units_eq hunits ▸ hbracketed
    rw [propertyName, propertyName, if_neg (by simp [hs, hbracketed]), if_neg (by simp [ht, hbracketed']),
      quote_eq_iff.mpr hunits]

/-- **Literals can be read back, and member names merge by units only.** The literal of a string stands in double
quotes. Between them are ASCII characters that are printed; every quote among them is escaped, and the closing quote
is not. Read back, the literal is the string. Different strings have different member names. Texts with halves of
surrogate pairs have one member name exactly if they have the same units, and are the same if they are in brackets. -/
theorem literals_read_back_and_names_apart :
    (∀ s : String, ∃ inner : List Char,
      quote s = ofChars ('"' :: (inner ++ ['"'])) ∧
      (∀ c ∈ inner, 0x20 ≤ c.toNat ∧ c.toNat < 0x7F) ∧
      (∀ before after, inner = before ++ '"' :: after → EscapesNext before) ∧
      ¬ EscapesNext inner ∧
      unquote? (quote s) = some (ofString s)) ∧
    (Function.Injective fun s : String => propertyName s) ∧
    ∀ s t : Text, propertyName s = propertyName t ↔ s.units = t.units ∧ (isBracketed s → s = t) := by
  refine ⟨fun s => ?_, fun s t h => ?_, fun s t => propertyName_eq_iff⟩
  · have hstart : ¬ EscapesNext [] := by decide
    obtain ⟨hend, hinner⟩ := (literalBody_flatMap (ofString s).points).escapesNext hstart
    refine ⟨(ofString s).points.flatMap escapePoint, rfl, fun c hc => ?_, hinner, hend, unquote?_quote_ofString s⟩
    obtain ⟨p, -, hp⟩ := List.mem_flatMap.mp hc
    exact bounds_of_mem_escapePoint hp
  · have hread := congrArg unquote? (quote_eq_iff.mpr (propertyName_eq_iff.mp h).1)
    rw [unquote?_quote_ofString, unquote?_quote_ofString] at hread
    exact ofString_injective (Option.some.inj hread)

/-- A string with a quote, a backslash, control characters and characters of one and of two units; and a string that
is the literal of another one. -/
theorem literal_of_mixed_string :
    let s := "a\"\\\n\u0001é😀"
    quote s = "\"a\\\"\\\\\\n\\u0001\\u00e9\\ud83d\\ude00\"" ∧ unquote? (quote s) = some (ofString s) ∧
      propertyName "b-c" = "\"b-c\"" ∧ propertyName "\"b-c\"" ≠ propertyName "b-c" := by
  intro s
  obtain ⟨hliterals, hnames, -⟩ := literals_read_back_and_names_apart
  obtain ⟨-, -, -, -, -, hread⟩ := hliterals s
  exact ⟨by decide +kernel, hread, by decide +kernel, hnames.ne (by decide)⟩

/-- The two halves of a pair, and the character that they make, are two texts with one member name. -/
theorem propertyName_of_halves :
    let halves : Text := ⟨[.half 0x3D, .half 0x600]⟩
    halves ≠ "😀" ∧ propertyName halves = "\"\\ud83d\\ude00\"" ∧ propertyName "😀" = propertyName halves := by
  decide +kernel

end ClassComponent.Text
