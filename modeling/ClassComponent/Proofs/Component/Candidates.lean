import ClassComponent.Proofs.Component.Naming
import Mathlib.Data.Finset.Card

/-!
# The search for a free name

A name that is taken is tried again with a digest put after it, until a candidate is free (`Settles`). Each candidate
depends on nothing but the one before it (`candidateAt`).

* **Candidates** (`exists_candidateAt_le`): there are 65536 digests, so of 65537 names with a digest two are equal.
  From there on the candidates repeat, and every candidate is one of the first 65537.
* **The search** (`settles_iff`): it ends with the first candidate that is free, if there is one.
* **Looking at some candidates only** (`freeCandidate?_of_isFirstFree`, `freeCandidate?_eq_none`): this finds the
  first free one if it is among them, and nothing otherwise.

* **Several names** (`renameAll?_eq_none_iff`): renaming watchers never ends exactly if it comes to one all of whose
  candidates are taken. This is shown for given names by a set of names that the candidates never leave
  (`candidateAt_mem`).

So the search ends exactly if one of the first 65537 candidates is free (`free_name_among_candidates`).
-/

namespace ClassComponent

/-- What is asked of the digests that are put after names: four hexadecimal digits for every text. -/
def Digest.IsShort (digest : Text → Text) : Prop :=
  ∀ t, ∃ ds : List Char, ds.length = 4 ∧ (∀ d ∈ ds, Digest.isHexDigit d) ∧ digest t = Text.ofChars ds

theorem Digest.isShort_short : Digest.IsShort Digest.short := by
  intro t
  refine ⟨(Digest.digits t).take 4, ?_, ?_, rfl⟩
  · simp [Digest.isDigest_digits.length]
  · exact fun d hd => Digest.isDigest_digits.hex t d (List.mem_of_mem_take hd)

section

variable {digest : Text → Text} {taken : List Text} {name : Text}

/-! ## Candidates -/

/-- The candidates for a name, one after the other; the first one is the name itself. -/
def candidateAt (digest : Text → Text) (name : Text) : Nat → Text
  | 0 => name
  | k + 1 => nextCandidate digest name (candidateAt digest name k)

/-- Equal candidates are followed by equal ones. -/
theorem candidateAt_add_eq {i j : Nat} (h : candidateAt digest name i = candidateAt digest name j) (n : Nat) :
    candidateAt digest name (i + n) = candidateAt digest name (j + n) := by
  induction n with
  | zero => exact h
  | succ n ih => rw [← Nat.add_assoc, ← Nat.add_assoc, candidateAt, candidateAt, ih]

theorem exists_eq_hexDigit {c : Char} (h : Digest.isHexDigit c) : ∃ n < 16, c = Text.hexDigit n := by
  have hall : ∀ n < 128, Digest.isHexDigit (Char.ofNat n) → ∃ m < 16, Char.ofNat n = Text.hexDigit m := by
    decide
  have hc : c.toNat < 128 := Text.toNat_lt_of_continuesIdentifier (Text.continuesIdentifier_of_isHexDigit h)
  exact Text.forall_ascii (fun c => Digest.isHexDigit c → ∃ n < 16, c = Text.hexDigit n) hall hc h

/-- Four hexadecimal digits are those of a number. -/
theorem exists_eq_fourDigits {ds : List Char} (hlength : ds.length = 4) (hhex : ∀ d ∈ ds, Digest.isHexDigit d) :
    ∃ n < 65536, ds = Text.fourDigits n := by
  obtain ⟨a, b, c, d, rfl⟩ := List.length_eq_four.mp hlength
  obtain ⟨a, ha, rfl⟩ := exists_eq_hexDigit (hhex a (by simp))
  obtain ⟨b, hb, rfl⟩ := exists_eq_hexDigit (hhex b (by simp))
  obtain ⟨c, hc, rfl⟩ := exists_eq_hexDigit (hhex c (by simp))
  obtain ⟨d, hd, rfl⟩ := exists_eq_hexDigit (hhex d (by simp))
  refine ⟨4096 * a + 256 * b + 16 * c + d, by omega, ?_⟩
  have h₁ : (4096 * a + 256 * b + 16 * c + d) / 4096 % 16 = a := by omega
  have h₂ : (4096 * a + 256 * b + 16 * c + d) / 256 % 16 = b := by omega
  have h₃ : (4096 * a + 256 * b + 16 * c + d) / 16 % 16 = c := by omega
  have h₄ : (4096 * a + 256 * b + 16 * c + d) % 16 = d := by omega
  rw [Text.fourDigits, h₁, h₂, h₃, h₄]

/-- Two of the first 65537 candidates with a digest are equal. -/
theorem exists_candidateAt_eq (hdigest : Digest.IsShort digest) (name : Text) :
    ∃ i j, i < j ∧ j ≤ 65536 ∧ candidateAt digest name (i + 1) = candidateAt digest name (j + 1) := by
  let variants : Finset Text :=
    (Finset.range 65536).image fun n => name ++ "_" ++ Text.ofChars (Text.fourDigits n)
  have hmem : ∀ k, candidateAt digest name (k + 1) ∈ variants := by
    intro k
    obtain ⟨ds, hlength, hhex, hds⟩ := hdigest (candidateAt digest name k)
    obtain ⟨n, hn, rfl⟩ := exists_eq_fourDigits hlength hhex
    rw [candidateAt, nextCandidate, hds]
    exact Finset.mem_image_of_mem _ (Finset.mem_range.mpr hn)
  have hcard : variants.card < (Finset.range 65537).card := by
    have hle : variants.card ≤ (Finset.range 65536).card := Finset.card_image_le
    rw [Finset.card_range] at hle ⊢
    omega
  obtain ⟨i, hi, j, hj, hne, heq⟩ :=
    Finset.exists_ne_map_eq_of_card_lt_of_maps_to hcard fun k _ => hmem k
  rw [Finset.mem_range] at hi hj
  rcases Nat.lt_or_gt_of_ne hne with hlt | hlt
  · exact ⟨i, j, hlt, by omega, heq⟩
  · exact ⟨j, i, hlt, by omega, heq.symm⟩

/-- Every candidate is one of the first 65537. -/
theorem exists_candidateAt_le (hdigest : Digest.IsShort digest) (name : Text) (k : Nat) :
    ∃ m ≤ 65536, candidateAt digest name k = candidateAt digest name m := by
  obtain ⟨i, j, hij, hj, heq⟩ := exists_candidateAt_eq hdigest name
  -- A candidate from `j + 1` on is also one that stands `j - i` places earlier.
  induction k using Nat.strong_induction_on with
  | _ k ih =>
    by_cases hk : k ≤ 65536
    · exact ⟨k, hk, rfl⟩
    · have hback := candidateAt_add_eq heq (k - (j + 1))
      rw [Nat.add_sub_cancel' (by omega : j + 1 ≤ k)] at hback
      obtain ⟨m, hm, hsame⟩ := ih (i + 1 + (k - (j + 1))) (by omega)
      exact ⟨m, hm, hback.symm.trans hsame⟩

/-! ## The search -/

/-- The search for a free name, from a candidate on and with no limit: a candidate that is free is the answer, and
one that is taken gives way to the next one. -/
inductive Settles (digest : Text → Text) (taken : List Text) (name : Text) : Text → Text → Prop
  | free {candidate : Text} (h : candidate ∉ taken) : Settles digest taken name candidate candidate
  | next {candidate fresh : Text} (h : candidate ∈ taken)
      (hnext : Settles digest taken name (nextCandidate digest name candidate) fresh) :
      Settles digest taken name candidate fresh

/-- Candidate `k` is the first one that is free. -/
structure IsFirstFree (digest : Text → Text) (taken : List Text) (name : Text) (k : Nat) : Prop where
  free : candidateAt digest name k ∉ taken
  before : ∀ j < k, candidateAt digest name j ∈ taken

theorem exists_isFirstFree {k : Nat} (h : candidateAt digest name k ∉ taken) :
    ∃ m ≤ k, IsFirstFree digest taken name m := by
  induction k using Nat.strong_induction_on with
  | _ k ih =>
    by_cases hbefore : ∀ j < k, candidateAt digest name j ∈ taken
    · exact ⟨k, Nat.le_refl k, h, hbefore⟩
    · simp only [not_forall] at hbefore
      obtain ⟨j, hj, hfree⟩ := hbefore
      obtain ⟨m, hm, hfirst⟩ := ih j hj hfree
      exact ⟨m, by omega, hfirst⟩

theorem Settles.exists_isFirstFree {candidate fresh : Text} (h : Settles digest taken name candidate fresh) {k : Nat}
    (hk : candidate = candidateAt digest name k) (hbefore : ∀ j < k, candidateAt digest name j ∈ taken) :
    ∃ m, IsFirstFree digest taken name m ∧ fresh = candidateAt digest name m := by
  induction h generalizing k with
  | free hfree => exact ⟨k, ⟨hk ▸ hfree, hbefore⟩, hk⟩
  | next htaken _ ih =>
    refine ih (k := k + 1) (congrArg (nextCandidate digest name) hk) fun j hj => ?_
    rcases Nat.lt_succ_iff_lt_or_eq.mp hj with hj | rfl
    · exact hbefore j hj
    · exact hk ▸ htaken

/-- From each candidate up to the first free one, the search ends there. -/
theorem IsFirstFree.settles {m k : Nat} (h : IsFirstFree digest taken name m) (hk : k ≤ m) :
    Settles digest taken name (candidateAt digest name k) (candidateAt digest name m) := by
  induction hk using Nat.decreasingInduction with
  | self => exact .free h.free
  | of_succ k hk ih => exact .next (h.before k hk) ih

/-- The search for a name ends with the first candidate that is free. -/
theorem settles_iff {fresh : Text} : Settles digest taken name name fresh ↔
    ∃ k, IsFirstFree digest taken name k ∧ fresh = candidateAt digest name k := by
  constructor
  · intro h
    exact h.exists_isFirstFree (k := 0) rfl fun j hj => absurd hj (Nat.not_lt_zero j)
  · rintro ⟨k, hfirst, rfl⟩
    exact hfirst.settles (Nat.zero_le k)

/-! ## Looking at some candidates only -/

theorem freeCandidate?_of_isFirstFree {m k count : Nat} (h : IsFirstFree digest taken name m) (hk : k ≤ m)
    (hcount : m < k + count) :
    freeCandidate? digest taken name count (candidateAt digest name k) = some (candidateAt digest name m) := by
  induction count generalizing k with
  | zero => omega
  | succ count ih =>
    rw [freeCandidate?]
    rcases Nat.lt_or_eq_of_le hk with hlt | rfl
    · rw [if_pos (List.contains_iff_mem.mpr (h.before k hlt))]
      exact ih (k := k + 1) hlt (by omega)
    · rw [if_neg (mt List.contains_iff_mem.mp h.free)]

theorem freeCandidate?_eq_none (h : ∀ k, candidateAt digest name k ∈ taken) (count k : Nat) :
    freeCandidate? digest taken name count (candidateAt digest name k) = none := by
  induction count generalizing k with
  | zero => rfl
  | succ count ih =>
    rw [freeCandidate?, if_pos (List.contains_iff_mem.mpr (h k))]
    exact ih (k + 1)

/-- The first free candidate is one of the first 65537, if there is one. -/
theorem IsFirstFree.le (hdigest : Digest.IsShort digest) {k : Nat} (h : IsFirstFree digest taken name k) :
    k ≤ 65536 := by
  obtain ⟨m, hm, heq⟩ := exists_candidateAt_le hdigest name k
  have hfree : candidateAt digest name m ∉ taken := heq ▸ h.free
  have hle : k ≤ m := Nat.le_of_not_lt fun hlt => hfree (h.before m hlt)
  exact Nat.le_trans hle hm

theorem IsFirstFree.uniqueName?_eq (hdigest : Digest.IsShort digest) {k : Nat}
    (h : IsFirstFree digest taken name k) :
    uniqueName? digest taken name = some (candidateAt digest name k) := by
  have hk := h.le hdigest
  exact freeCandidate?_of_isFirstFree (k := 0) h (Nat.zero_le k) (by rw [candidateCount]; omega)

theorem uniqueName?_eq_none_iff (hdigest : Digest.IsShort digest) :
    uniqueName? digest taken name = none ↔ ∀ k, candidateAt digest name k ∈ taken := by
  constructor
  · intro h k
    by_contra hfree
    obtain ⟨m, -, hfirst⟩ := exists_isFirstFree hfree
    rw [hfirst.uniqueName?_eq hdigest] at h
    cases h
  · exact fun h => freeCandidate?_eq_none h candidateCount 0

/-- Candidates never leave a set of names that holds the first one and, with each candidate, the next. -/
theorem candidateAt_mem {names : List Text} (hname : name ∈ names)
    (hnext : ∀ candidate ∈ names, nextCandidate digest name candidate ∈ names) (k : Nat) :
    candidateAt digest name k ∈ names := by
  induction k with
  | zero => exact hname
  | succ k ih => exact hnext _ ih

/-! ## Names of several methods -/

/-- Renaming never ends exactly if it reaches a method all of whose candidates are taken by then. -/
theorem renameAll?_eq_none_iff (hdigest : Digest.IsShort digest) {ms : List Method} :
    renameAll? digest taken ms = none ↔ ∃ before m after renamed, ms = before ++ m :: after ∧
      renameAll? digest taken before = some renamed ∧
      ∀ k, candidateAt digest m.name k ∈ renamed.map (·.name) ++ taken := by
  induction ms generalizing taken with
  | nil => simp [renameAll?]
  | cons m ms ih =>
    have hunnamed : uniqueName? digest taken m.name = none ↔ ∀ k, candidateAt digest m.name k ∈ taken :=
      uniqueName?_eq_none_iff hdigest
    cases hname : uniqueName? digest taken m.name with
    | none =>
      rw [renameAll?, hname]
      exact iff_of_true rfl ⟨[], m, ms, [], rfl, rfl, hunnamed.mp hname⟩
    | some name =>
      have hrest : renameAll? digest taken (m :: ms) = none ↔ renameAll? digest (name :: taken) ms = none := by
        rw [renameAll?, hname]
        cases h : renameAll? digest (name :: taken) ms with
        | none => simp [h]
        | some rest => simp [h]
      rw [hrest, ih]
      constructor
      · rintro ⟨before, m', after, renamed, rfl, hbefore, htaken⟩
        refine ⟨m :: before, m', after, { m with name } :: renamed, rfl, ?_, fun k => ?_⟩
        · rw [renameAll?, hname]
          simp [hbefore]
        · simpa [or_left_comm] using htaken k
      · rintro ⟨before, m', after, renamed, hsplit, hbefore, htaken⟩
        cases before with
        | nil =>
          cases hsplit
          cases hbefore
          rw [hunnamed.mpr htaken] at hname
          cases hname
        | cons first before =>
          cases hsplit
          obtain ⟨name', rest, hname', hrest', rfl⟩ := renameAll?_cons hbefore
          cases hname.symm.trans hname'
          refine ⟨before, m', after, rest, rfl, hrest', fun k => ?_⟩
          simpa [or_left_comm] using htaken k

/-- There is a watcher whose candidates are all taken: by other members, or by watchers before it. -/
def Component.LacksName (digest : Text → Text) (c : Component) : Prop :=
  ∃ before m after renamed, c.watch = before ++ m :: after ∧
    renameAll? digest c.memberNames before = some renamed ∧
    ∀ k, candidateAt digest m.name k ∈ renamed.map (·.name) ++ c.memberNames

theorem Component.renameWatchers?_eq_none_iff (hdigest : Digest.IsShort digest) {c : Component} :
    c.renameWatchers? digest = none ↔ c.LacksName digest := by
  rw [LacksName, ← renameAll?_eq_none_iff hdigest, renameWatchers?]
  cases renameAll? digest c.memberNames c.watch with
  | none => simp
  | some watch => simp

/-! ## The first 65537 candidates -/

/-- **A free name is among the first 65537 candidates, or there is none.** Whatever the digest, the search for a name
that is not taken ends exactly if one of these candidates is free. It ends with the first one that is, which is what
looking at 65537 candidates finds. If all of them are taken, then so are all later ones, and the search finds
nothing however long it goes on. -/
theorem free_name_among_candidates (hdigest : Digest.IsShort digest) (taken : List Text) (name : Text) :
    ((∃ fresh, Settles digest taken name name fresh) ↔ ∃ k ≤ 65536, candidateAt digest name k ∉ taken) ∧
      (∀ fresh, Settles digest taken name name fresh ↔
        ∃ k ≤ 65536, fresh = candidateAt digest name k ∧ candidateAt digest name k ∉ taken ∧
          ∀ j < k, candidateAt digest name j ∈ taken) ∧
      (∀ fresh, uniqueName? digest taken name = some fresh ↔ Settles digest taken name name fresh) ∧
      ((∀ k ≤ 65536, candidateAt digest name k ∈ taken) →
        (∀ k, candidateAt digest name k ∈ taken) ∧
          ∀ count, freeCandidate? digest taken name count name = none) := by
  have hall : (∀ k ≤ 65536, candidateAt digest name k ∈ taken) → ∀ k, candidateAt digest name k ∈ taken := by
    intro h k
    obtain ⟨m, hm, heq⟩ := exists_candidateAt_le hdigest name k
    exact heq ▸ h m hm
  have hnone : (∀ k ≤ 65536, candidateAt digest name k ∈ taken) →
      ∀ count, freeCandidate? digest taken name count name = none :=
    fun h count => freeCandidate?_eq_none (hall h) count 0
  refine ⟨⟨?_, ?_⟩, fun fresh => ⟨?_, ?_⟩, fun fresh => ⟨fun h => ?_, ?_⟩, fun h => ⟨hall h, hnone h⟩⟩
  · rintro ⟨fresh, h⟩
    obtain ⟨k, hfirst, -⟩ := settles_iff.mp h
    exact ⟨k, hfirst.le hdigest, hfirst.free⟩
  · rintro ⟨k, -, hfree⟩
    obtain ⟨m, -, hfirst⟩ := exists_isFirstFree hfree
    exact ⟨_, settles_iff.mpr ⟨m, hfirst, rfl⟩⟩
  · intro h
    obtain ⟨k, hfirst, heq⟩ := settles_iff.mp h
    exact ⟨k, hfirst.le hdigest, heq, hfirst.free, hfirst.before⟩
  · rintro ⟨k, -, heq, hfree, hbefore⟩
    exact settles_iff.mpr ⟨k, ⟨hfree, hbefore⟩, heq⟩
  · by_cases htaken : ∀ k ≤ 65536, candidateAt digest name k ∈ taken
    · rw [uniqueName?, hnone htaken] at h
      cases h
    · simp only [not_forall] at htaken
      obtain ⟨k, -, hfree⟩ := htaken
      obtain ⟨m, -, hfirst⟩ := exists_isFirstFree hfree
      rw [hfirst.uniqueName?_eq hdigest, Option.some.injEq] at h
      exact settles_iff.mpr ⟨m, hfirst, h.symm⟩
  · intro h
    obtain ⟨k, hfirst, rfl⟩ := settles_iff.mp h
    exact hfirst.uniqueName?_eq hdigest

end

/-- A digest that is the same for all texts. -/
def constantDigest (_ : Text) : Text := "0000"

/-- With the digest in use a clash is resolved at the second candidate. With a digest that never changes, the second
candidate is the last one that is new, and if it is taken too the search goes on for ever. -/
theorem free_name_or_none :
    (Digest.IsShort Digest.short ∧
      Settles Digest.short ["onAChange"] "onAChange" "onAChange" "onAChange_8452") ∧
      Digest.IsShort constantDigest ∧ ¬∃ fresh, Settles constantDigest ["a", "a_0000"] "a" "a" fresh := by
  have hconstant : Digest.IsShort constantDigest := fun _ =>
    ⟨List.replicate 4 '0', rfl, fun _ hd => List.eq_of_mem_replicate hd ▸ rfl, rfl⟩
  obtain ⟨-, -, hfound, -⟩ := free_name_among_candidates Digest.isShort_short ["onAChange"] "onAChange"
  obtain ⟨hends, -, -, -⟩ := free_name_among_candidates hconstant ["a", "a_0000"] "a"
  refine ⟨⟨Digest.isShort_short, (hfound _).mp ?_⟩, hconstant, fun h => ?_⟩
  · decide +kernel
  · obtain ⟨k, -, hfree⟩ := hends.mp h
    cases k with
    | zero => exact hfree (by decide)
    | succ k =>
      have hsame : candidateAt constantDigest "a" (k + 1) = "a" ++ "_" ++ "0000" := rfl
      rw [hsame] at hfree
      exact hfree (by decide)

end ClassComponent
