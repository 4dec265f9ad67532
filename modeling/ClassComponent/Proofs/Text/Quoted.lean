import ClassComponent.Proofs.Text.Name
import ClassComponent.Settings.Reader

/-!
# Reading quoted texts

What `Text.quote` writes can be read back. A text is compared with another by its UTF-16 units, which is what a
script does: two halves that stand side by side are the same as the character that they make.

* **Escapes** (`EscapedAs`): the four ways in which a character is written between quotes, all of them in ASCII
  characters that are printed (`bounds_of_mem_quote`).
* **Reading back** (`unquote?_quote`): a quoted text reads as the text with its pairs of halves joined, which has
  the same units (`units_pairHalves`).
* **Other texts** (`unquote?_of_head`): only what starts with a quote, white space before it aside, reads as a
  text.
-/

namespace ClassComponent

/-! ## Units -/

/-- The UTF-16 units of a code point. -/
def CodePoint.units (p : CodePoint) : List Nat :=
  if p.toNat < 0x10000 then [p.toNat]
  else [0xD800 + (p.toNat - 0x10000) / 0x400, 0xDC00 + (p.toNat - 0x10000) % 0x400]

/-- The UTF-16 units of a text. -/
def Text.units (t : Text) : List Nat :=
  t.points.flatMap CodePoint.units

namespace CodePoint

theorem toNat_lt_or_of_char (c : Char) : c.toNat < 0xD800 ∨ 0xE000 ≤ c.toNat ∧ c.toNat < 0x110000 := by
  rcases c.valid with h | h
  · exact .inl h
  · have hlow : 0xDFFF < c.toNat := h.1
    have hhigh : c.toNat < 0x110000 := h.2
    exact .inr ⟨by omega, hhigh⟩

theorem ofNat_toNat (p : CodePoint) : ofNat p.toNat = p := by
  cases p with
  | char c =>
    have hc := toNat_lt_or_of_char c
    rw [ofNat, toNat, dif_neg (by simp only [firstHalf]; omega), Char.ofNat_toNat]
  | half offset =>
    have hoffset := offset.isLt
    have hbounds : firstHalf ≤ (half offset).toNat ∧ (half offset).toNat < firstHalf + 2048 := by
      simp only [toNat]
      omega
    rw [ofNat, dif_pos hbounds]
    exact congrArg half (Fin.ext (Nat.add_sub_cancel_left firstHalf offset.val))

theorem units_half (offset : Fin 2048) : (half offset).units = [0xD800 + offset.val] := by
  have hoffset := offset.isLt
  have hunit : (half offset).toNat < 0x10000 := by
    simp only [toNat, firstHalf]
    omega
  rw [units, if_pos hunit]
  rfl

/-- Two halves that make a character have its units. -/
theorem units_of_pair? {p q : CodePoint} {c : Char} (h : pair? p q = some c) :
    (CodePoint.char c).units = p.units ++ q.units := by
  unfold pair? at h
  split at h
  · next high low =>
    split at h
    · next hpair =>
      simp only [Bool.and_eq_true, decide_eq_true_eq] at hpair
      have hlow := low.isLt
      have hvalue : (char c).toNat = 0x10000 + 0x400 * high.val + (low.val - 0x400) := by
        rw [← Option.some.inj h]
        exact toNat_ofNat_of_valid (.inr ⟨by omega, by omega⟩)
      rw [units_half, units_half, units, if_neg (by omega), hvalue]
      simp only [List.cons_append, List.nil_append, List.cons.injEq, and_true]
      omega
    · cases h
  · cases h

theorem toNat_of_pair? {p q : CodePoint} {c : Char} (h : pair? p q = some c) :
    0xDC00 ≤ q.toNat ∧ q.toNat ≤ 0xDFFF := by
  unfold pair? at h
  split at h
  · next high low =>
    split at h
    · next hpair =>
      simp only [Bool.and_eq_true, decide_eq_true_eq] at hpair
      have hlow := low.isLt
      simp only [toNat, firstHalf]
      omega
    · cases h
  · cases h

/-- A character of two units is the pair of two halves. -/
theorem exists_pair? {c : Char} (h : 0x10000 ≤ c.toNat) :
    ∃ high low : Fin 2048, pair? (half high) (half low) = some c ∧
      (half high).toNat = 0xD800 + (c.toNat - 0x10000) / 0x400 ∧
      (half low).toNat = 0xDC00 + (c.toNat - 0x10000) % 0x400 := by
  have hc := toNat_lt_or_of_char c
  refine ⟨⟨(c.toNat - 0x10000) / 0x400, by omega⟩, ⟨0x400 + (c.toNat - 0x10000) % 0x400, by omega⟩, ?_, rfl,
    ?_⟩
  · have hvalue : 0x10000 + 0x400 * ((c.toNat - 0x10000) / 0x400) +
        (0x400 + (c.toNat - 0x10000) % 0x400 - 0x400) = c.toNat := by
      omega
    simp only [pair?, hvalue, Char.ofNat_toNat]
    rw [if_pos]
    simp only [Bool.and_eq_true, decide_eq_true_eq]
    omega
  · simp only [toNat, firstHalf]
    omega

end CodePoint

namespace Text

/-- A sequence of code points with its pairs of halves joined. -/
def pairHalves : List CodePoint → List CodePoint
  | [] => []
  | [p] => [p]
  | p :: q :: rest =>
    match CodePoint.pair? p q with
    | some c => .char c :: pairHalves rest
    | none => p :: pairHalves (q :: rest)

theorem units_pairHalves (ps : List CodePoint) :
    (pairHalves ps).flatMap CodePoint.units = ps.flatMap CodePoint.units := by
  fun_induction pairHalves ps with
  | case1 => rfl
  | case2 p => rfl
  | case3 p q rest c hpair ih =>
    rw [List.flatMap_cons, ih, CodePoint.units_of_pair? hpair, List.flatMap_cons, List.flatMap_cons,
      List.append_assoc]
  | case4 p q rest hpair ih =>
    rw [List.flatMap_cons, ih]
    rfl

/-! ## Escapes -/

/-- How a character is written between quotes. -/
inductive EscapedAs (c : Char) : List Char → Prop
  | itself (hprinted : 32 ≤ c.toNat) (hquote : c ≠ '"') (hbackslash : c ≠ '\\') : EscapedAs c [c]
  | letter {e : Char} (hother : e ≠ 'u') (h : Value.escaped? e = some c) : EscapedAs c ['\\', e]
  | unit (hunit : c.toNat < 0x10000) : EscapedAs c (escapeUnit c.toNat)
  | pair (hpair : 0x10000 ≤ c.toNat) :
    EscapedAs c (escapeUnit (0xD800 + (c.toNat - 0x10000) / 0x400) ++
      escapeUnit (0xDC00 + (c.toNat - 0x10000) % 0x400))

theorem escapedAs (c : Char) : EscapedAs c (escapeChar c) := by
  unfold escapeChar
  split
  · next h =>
    cases beq_iff_eq.mp h
    exact .letter (by decide) rfl
  · next hquote =>
    split
    · next h =>
      cases beq_iff_eq.mp h
      exact .letter (by decide) rfl
    · next hbackslash =>
      split
      · next h =>
        cases beq_iff_eq.mp h
        exact .letter (by decide) rfl
      · split
        · next h =>
          cases beq_iff_eq.mp h
          exact .letter (by decide) rfl
        · split
          · next h =>
            cases beq_iff_eq.mp h
            exact .letter (by decide) rfl
          · split
            · next h =>
              have hc : c = Char.ofNat 8 := by rw [← beq_iff_eq.mp h, Char.ofNat_toNat]
              exact .letter (by decide) (hc ▸ rfl)
            · split
              · next h =>
                have hc : c = Char.ofNat 12 := by rw [← beq_iff_eq.mp h, Char.ofNat_toNat]
                exact .letter (by decide) (hc ▸ rfl)
              · split
                · next h =>
                  simp only [Bool.and_eq_true, decide_eq_true_eq] at h
                  exact .itself h.1 (by simpa using hquote) (by simpa using hbackslash)
                · split
                  · next h => exact .unit h
                  · next h => exact .pair (by omega)

theorem bounds_of_mem_escapeUnit {n : Nat} {c : Char} (h : c ∈ escapeUnit n) : 32 ≤ c.toNat ∧ c.toNat < 127 := by
  have hdigit : ∀ k < 16, 32 ≤ (hexDigit k).toNat ∧ (hexDigit k).toNat < 127 := by decide
  simp only [escapeUnit, fourDigits, List.mem_cons, List.not_mem_nil, or_false] at h
  rcases h with rfl | rfl | rfl | rfl | rfl | rfl
  · decide
  · decide
  all_goals exact hdigit _ (Nat.mod_lt _ (by decide))

theorem bounds_of_mem_escapePoint {p : CodePoint} {c : Char} (h : c ∈ escapePoint p) :
    32 ≤ c.toNat ∧ c.toNat < 127 := by
  cases p with
  | half offset => exact bounds_of_mem_escapeUnit h
  | char d =>
    simp only [escapePoint, escapeChar] at h
    have hpair : ∀ e : Char, 32 ≤ e.toNat ∧ e.toNat < 127 → c ∈ ['\\', e] → 32 ≤ c.toNat ∧ c.toNat < 127 := by
      intro e he hc
      rcases List.mem_pair.mp hc with rfl | rfl
      · decide
      · exact he
    iterate 7
      split at h
      · exact hpair _ (by decide) h
    split at h
    · next hd =>
      rw [List.mem_singleton.mp h]
      simpa only [Bool.and_eq_true, decide_eq_true_eq] using hd
    · split at h
      · exact bounds_of_mem_escapeUnit h
      · rcases List.mem_append.mp h with h | h
        · exact bounds_of_mem_escapeUnit h
        · exact bounds_of_mem_escapeUnit h

/-- A quoted text is made of the ASCII characters that are printed. -/
theorem bounds_of_mem_quote {t : Text} {p : CodePoint} (h : p ∈ (quote t).points) :
    32 ≤ p.toNat ∧ p.toNat < 127 := by
  obtain ⟨c, hc, rfl⟩ := List.mem_map.mp h
  rw [quotePoints, List.mem_cons, List.mem_append, List.mem_flatMap, List.mem_singleton] at hc
  rcases hc with rfl | ⟨p, -, hc⟩ | rfl
  · decide
  · exact bounds_of_mem_escapePoint hc
  · decide

theorem escapePoint_ne_nil (p : CodePoint) : escapePoint p ≠ [] := by
  cases p with
  | half offset => exact List.cons_ne_nil _ _
  | char c =>
    have hescaped := escapedAs c
    rw [escapePoint]
    generalize escapeChar c = written at hescaped
    cases hescaped with
    | _ => exact List.cons_ne_nil _ _

end Text

namespace Value

open Text

/-! ## Reading units -/

theorem hexValue?_hexDigit : ∀ n < 16, Script.hexValue? (hexDigit n) = some n := by
  decide

theorem unit?_fourDigits {n : Nat} (h : n < 0x10000) (cs : List Char) :
    unit? (fourDigits n ++ cs) = some (n, cs) := by
  have hdigit (m : Nat) : Script.hexValue? (hexDigit (m % 16)) = some (m % 16) :=
    hexValue?_hexDigit _ (Nat.mod_lt _ (by decide))
  simp only [fourDigits, List.cons_append, List.nil_append, unit?, hdigit, Option.bind_eq_bind, Option.bind_some,
    Option.pure_def, Option.some.injEq, Prod.mk.injEq, and_true]
  omega

/-- A second half can only be read where one was written. -/
theorem lowUnit?_escapeUnit {n : Nat} (h : n < 0x10000) (cs : List Char) :
    lowUnit? (escapeUnit n ++ cs) = if 0xDC00 ≤ n ∧ n ≤ 0xDFFF then some (n, cs) else none := by
  simp only [escapeUnit, List.cons_append, lowUnit?, unit?_fourDigits h, Bool.and_eq_true, decide_eq_true_eq]

theorem lowUnit?_escapePoint (p : CodePoint) (cs : List Char) :
    lowUnit? (escapePoint p ++ cs) =
      if 0xDC00 ≤ p.toNat ∧ p.toNat ≤ 0xDFFF then some (p.toNat, cs) else none := by
  cases p with
  | half offset =>
    have hoffset := offset.isLt
    exact lowUnit?_escapeUnit (by simp only [CodePoint.toNat, CodePoint.firstHalf]; omega) cs
  | char c =>
    have hc := CodePoint.toNat_lt_or_of_char c
    rw [if_neg (by simp only [CodePoint.toNat]; omega), escapePoint]
    have hescaped := escapedAs c
    generalize escapeChar c = written at hescaped
    cases hescaped with
    | itself _ _ hbackslash =>
      rw [lowUnit?.eq_def]
      split
      · next heq =>
        cases heq
        exact absurd rfl hbackslash
      · rfl
    | letter hother =>
      rw [lowUnit?.eq_def]
      split
      · next heq =>
        cases heq
        exact absurd rfl hother
      · rfl
    | unit hunit => rw [lowUnit?_escapeUnit hunit, if_neg (by omega)]
    | pair hpair => rw [List.append_assoc, lowUnit?_escapeUnit (by omega), if_neg (by omega)]

/-- A unit is read together with the unit after it if the two make a pair. -/
theorem unitPoint_escapePoint (p q : CodePoint) (cs : List Char) :
    unitPoint p.toNat (escapePoint q ++ cs) =
      match CodePoint.pair? p q with
      | some c => (.char c, cs)
      | none => (p, escapePoint q ++ cs) := by
  simp only [unitPoint, CodePoint.ofNat_toNat, lowUnit?_escapePoint]
  cases hpair : CodePoint.pair? p q with
  | none =>
    by_cases hrange : 0xDC00 ≤ q.toNat ∧ q.toNat ≤ 0xDFFF
    · simp only [if_pos hrange, CodePoint.ofNat_toNat, hpair]
    · simp only [if_neg hrange]
  | some c => simp only [if_pos (CodePoint.toNat_of_pair? hpair), CodePoint.ofNat_toNat, hpair]

/-! ## Reading texts -/

variable {fuel : Nat} {done : List CodePoint}

theorem textRest?_escapeUnit {n : Nat} (h : n < 0x10000) (cs : List Char) :
    textRest? (fuel + 1) done (escapeUnit n ++ cs) =
      textRest? fuel ((unitPoint n cs).1 :: done) (unitPoint n cs).2 := by
  simp only [escapeUnit, List.cons_append, textRest?, unit?_fourDigits h]
  rfl

/-- A code point that does not make a pair with what follows is read as it was written. -/
theorem textRest?_escapePoint {p : CodePoint} {cs : List Char} (h : unitPoint p.toNat cs = (p, cs)) :
    textRest? (fuel + 1) done (escapePoint p ++ cs) = textRest? fuel (p :: done) cs := by
  cases p with
  | half offset =>
    have hoffset := offset.isLt
    rw [escapePoint, textRest?_escapeUnit (by simp only [CodePoint.toNat, CodePoint.firstHalf]; omega), h]
  | char c =>
    have hescaped := escapedAs c
    rw [escapePoint]
    generalize escapeChar c = written at hescaped
    cases hescaped with
    | itself hprinted hquote hbackslash =>
      rw [List.singleton_append, textRest?.eq_def]
      simp only [beq_iff_eq, if_neg hquote, if_neg hbackslash]
      rw [if_neg (by omega)]
    | letter hother hletter =>
      simp only [List.cons_append, List.nil_append, textRest?]
      rw [if_neg (by decide), if_neg (by decide), if_pos (by decide), hletter]
    | unit hunit =>
      rw [textRest?_escapeUnit hunit]
      rw [show c.toNat = (CodePoint.char c).toNat from rfl, h]
    | pair hpair =>
      have hc := CodePoint.toNat_lt_or_of_char c
      obtain ⟨high, low, hhalves, hhigh, hlow⟩ := CodePoint.exists_pair? hpair
      have hread : unitPoint (CodePoint.half high).toNat (escapePoint (.half low) ++ cs) = (.char c, cs) := by
        rw [unitPoint_escapePoint, hhalves]
      rw [escapePoint, hhigh, hlow] at hread
      rw [List.append_assoc, textRest?_escapeUnit (by omega), hread]

/-- Two halves that make a pair are read as their character. -/
theorem textRest?_pair {p q : CodePoint} {c : Char} (h : CodePoint.pair? p q = some c) (cs : List Char) :
    textRest? (fuel + 1) done (escapePoint p ++ (escapePoint q ++ cs)) =
      textRest? fuel (.char c :: done) cs := by
  cases p with
  | char c => cases q <;> cases h
  | half offset =>
    have hoffset := offset.isLt
    have hread : unitPoint (CodePoint.half offset).toNat (escapePoint q ++ cs) = (.char c, cs) := by
      rw [unitPoint_escapePoint, h]
    rw [escapePoint, textRest?_escapeUnit (by simp only [CodePoint.toNat, CodePoint.firstHalf]; omega), hread]

/-- A quoted text is read up to its closing quote. -/
theorem textRest?_quoted (ps : List CodePoint) (cs : List Char) (done : List CodePoint) {fuel : Nat}
    (hfuel : (ps.flatMap escapePoint ++ '"' :: cs).length ≤ fuel) :
    textRest? fuel done (ps.flatMap escapePoint ++ '"' :: cs) =
      some (⟨done.reverse ++ pairHalves ps⟩, cs) := by
  have hpositive (p : CodePoint) : 0 < (escapePoint p).length := List.length_pos_iff.mpr (escapePoint_ne_nil p)
  have hclose (fuel : Nat) (done : List CodePoint) :
      textRest? (fuel + 1) done ('"' :: cs) = some (⟨done.reverse⟩, cs) := rfl
  -- The reader looks ahead in the way in which halves are joined, so that each case is one step of it.
  fun_induction pairHalves ps generalizing done fuel with
  | case1 =>
    obtain ⟨fuel, rfl⟩ : ∃ n, fuel = n + 1 := ⟨fuel - 1, by simp at hfuel; omega⟩
    rw [List.append_nil]
    exact hclose fuel done
  | case2 p =>
    have hp := hpositive p
    obtain ⟨fuel, rfl⟩ : ∃ n, fuel = n + 2 := ⟨fuel - 2, by simp at hfuel; omega⟩
    have halone : unitPoint p.toNat ('"' :: cs) = (p, '"' :: cs) := by
      simp [unitPoint, lowUnit?, CodePoint.ofNat_toNat]
    rw [List.flatMap_singleton, textRest?_escapePoint halone, hclose, List.reverse_cons]
  | case3 p q rest c hpair ih =>
    have hp := hpositive p
    have hq := hpositive q
    simp only [List.flatMap_cons, List.append_assoc, List.length_append] at hfuel ih ⊢
    obtain ⟨fuel, rfl⟩ : ∃ n, fuel = n + 1 := ⟨fuel - 1, by omega⟩
    rw [textRest?_pair hpair, ih _ (by omega)]
    simp
  | case4 p q rest hpair ih =>
    have hp := hpositive p
    simp only [List.flatMap_cons, List.append_assoc, List.length_append] at hfuel ih ⊢
    obtain ⟨fuel, rfl⟩ : ∃ n, fuel = n + 1 := ⟨fuel - 1, by omega⟩
    have halone : unitPoint p.toNat (escapePoint q ++ (rest.flatMap escapePoint ++ '"' :: cs)) =
        (p, escapePoint q ++ (rest.flatMap escapePoint ++ '"' :: cs)) := by
      rw [unitPoint_escapePoint, hpair]
    rw [textRest?_escapePoint halone, ih _ (by omega)]
    simp

theorem parse?_quotePoints (ps : List CodePoint) :
    parse? (String.ofList (quotePoints ps)) = some (.text ⟨pairHalves ps⟩) := by
  have hread := textRest?_quoted ps [] [] (Nat.le_succ (ps.flatMap escapePoint ++ ['"']).length)
  have hskip : skipSpace (quotePoints ps) = quotePoints ps := rfl
  simp only [parse?, String.toList_ofList, hskip]
  simp only [quotePoints, value?, hread]
  rfl

/-! ## Other values -/

theorem itemsRest?_text? {fuel : Nat} {done : List Value} {cs rest : List Char} {v : Value}
    (h : itemsRest? fuel done cs = some (v, rest)) : v.text? = none := by
  induction fuel generalizing done cs with
  | zero => cases h
  | succ fuel ih =>
    rw [itemsRest?] at h
    split at h
    · cases h
    · split at h
      · exact ih h
      · cases h
        rfl
      · cases h

theorem entriesRest?_text? {fuel : Nat} {done : List (Text × Value)} {cs rest : List Char} {v : Value}
    (h : entriesRest? fuel done cs = some (v, rest)) : v.text? = none := by
  induction fuel generalizing done cs with
  | zero => cases h
  | succ fuel ih =>
    rw [entriesRest?.eq_def] at h
    simp only at h
    split at h
    · split at h
      · cases h
      · split at h
        · split at h
          · cases h
          · split at h
            · exact ih h
            · cases h
              rfl
            · cases h
        · cases h
    · cases h

theorem number?_text? {isNegative : Bool} {cs rest : List Char} {v : Value}
    (h : number? isNegative cs = some (v, rest)) : v.text? = none := by
  unfold number? at h
  simp only at h
  split at h
  · cases h
  · split at h
    · cases h
      rfl
    · split at h
      · cases h
        rfl
      · split at h
        · cases h
        · cases h
          rfl

theorem word?_text? {cs rest : List Char} {v : Value} (h : word? cs = some (v, rest)) : v.text? = none := by
  unfold word? at h
  simp only at h
  split at h
  · next found hfound =>
    cases h
    obtain ⟨⟨word, value⟩, hmem, hafter⟩ := List.exists_of_findSome?_eq_some hfound
    obtain ⟨after, -, hsame⟩ := Option.map_eq_some_iff.mp hafter
    cases hsame
    simp only [List.mem_cons, List.not_mem_nil, or_false, Prod.mk.injEq] at hmem
    rcases hmem with ⟨-, rfl⟩ | ⟨-, rfl⟩ | ⟨-, rfl⟩ | ⟨-, rfl⟩ | ⟨-, rfl⟩ | ⟨-, rfl⟩
    all_goals rfl
  · split at h
    · exact number?_text? h
    · exact number?_text? h

/-- A value that does not start with a quote is no text. -/
theorem value?_text? {fuel : Nat} {c : Char} {cs rest : List Char} {v : Value} (hc : c ≠ '"')
    (h : value? fuel (c :: cs) = some (v, rest)) : v.text? = none := by
  cases fuel with
  | zero => cases h
  | succ fuel =>
    rw [value?.eq_def] at h
    simp only at h
    split at h
    · next heq =>
      cases heq
      exact absurd rfl hc
    · split at h
      · cases h
        rfl
      · exact itemsRest?_text? h
    · split at h
      · cases h
        rfl
      · exact entriesRest?_text? h
    · exact word?_text? h

end Value

namespace Text

/-- The text that a string literal in double quotes stands for. -/
def unquote? (t : Text) : Option Text :=
  (t.toString?.bind Value.parse?).bind Value.text?

theorem unquote?_quote (t : Text) : unquote? (quote t) = some ⟨pairHalves t.points⟩ := by
  have hstring : (quote t).toString? = some (String.ofList (quotePoints t.points)) := by
    rw [toString?_eq_some_iff, quote, ofString, String.toList_ofList]
  rw [unquote?, hstring, Option.bind_some, Value.parse?_quotePoints]
  rfl

/-- Only what starts with a quote, white space before it aside, is read as a text. -/
theorem unquote?_of_head {t : Text} {c : Char} (hhead : t.points.head? = some (.char c)) (hquote : c ≠ '"')
    (hspace : ∀ cs, Value.skipSpace (c :: cs) = c :: cs) : unquote? t = none := by
  unfold unquote?
  cases hstring : t.toString? with
  | none => rfl
  | some s =>
    obtain ⟨cs, hcs⟩ : ∃ cs, s.toList = c :: cs := by
      rw [toString?_eq_some_iff.mp hstring] at hhead
      cases hlist : s.toList with
      | nil => simp [ofString, ofChars, hlist] at hhead
      | cons d ds =>
        simp only [ofString, ofChars, hlist, List.map_cons, List.head?_cons, Option.some.injEq,
          CodePoint.char.injEq] at hhead
        exact ⟨ds, by rw [hhead]⟩
    simp only [Option.bind_some, Value.parse?, hcs, hspace]
    split
    · next v rest hvalue =>
      split
      · exact Value.value?_text? hquote hvalue
      · rfl
    · rfl

end Text

end ClassComponent
