import ClassComponent.Document.ScriptBlock
import ClassComponent.Span
import Mathlib.Data.List.Forall2
import Mathlib.Data.List.TakeWhile
import Mathlib.Order.WellFounded

/-!
# Scanning a document for its script

What `scriptBlock?` finds, said without the functions that search for it.

* **Tags** (`IsOpenTag`, `IsCloseTag`): how tags are spelled, and which attributes mark a block (`MarksSetup`).
  The readers of tags accept exactly these (`openTag?_eq_some_iff`, `closeTag?_eq_some_iff`,
  `hasSetup_iff`).
* **Blocks** (`IsNextBlock`): the next opening tag from an offset on, and the next closing tag after it. A tag
  stands at one place with one end only, so there is at most one next block.
* **Scans** (`Scan`): the blocks that are met one after the other, each from the end of the one before it.
  Passing over marked blocks changes nothing in what is found (`blockFrom?_of_scan`).
* **The end of a scan** (`exists_scan`): passing over marked blocks ends, at a block that is not marked or at a
  place from where no block follows.
-/

namespace ClassComponent.Document

open Text (isBlank sameLetter dropCaseless? wordEdge)

/-! ## Tags -/

/-- The characters of `word` are the lower-case letters `letters`, each of them in any case. -/
def Spelled (letters word : List Char) : Prop :=
  List.Forall₂ (fun letter c => sameLetter letter c) letters word

/-- `tag` is an opening tag with `attributes`, which are empty or start with a blank. -/
def IsOpenTag (attributes tag : List Char) : Prop :=
  ∃ word, Spelled "<script".toList word ∧ tag = word ++ (attributes ++ ['>']) ∧
    (attributes = [] ∨ ∃ blank rest, attributes = blank :: rest ∧ isBlank blank ∧ '>' ∉ rest)

/-- `tag` is a closing tag. -/
def IsCloseTag (tag : List Char) : Prop :=
  ∃ word blanks, Spelled "</script".toList word ∧ tag = word ++ (blanks ++ ['>']) ∧
    ∀ blank ∈ blanks, isBlank blank

/-- The word `setup` stands in `attributes`, in any case, between two edges of words. -/
def MarksSetup (attributes : List Char) : Prop :=
  ∃ before word after, attributes = before ++ (word ++ after) ∧ Spelled "setup".toList word ∧
    wordEdge before.getLast? word.head? ∧ wordEdge word.getLast? after.head?

theorem dropCaseless?_eq_some_iff {letters cs rest : List Char} :
    dropCaseless? letters cs = some rest ↔ ∃ word, Spelled letters word ∧ cs = word ++ rest := by
  induction letters generalizing cs with
  | nil =>
    constructor
    · intro h
      cases h
      exact ⟨[], .nil, rfl⟩
    · rintro ⟨word, hword, rfl⟩
      cases hword
      rfl
  | cons letter letters ih =>
    constructor
    · intro h
      cases cs with
      | nil => cases h
      | cons c cs =>
        rw [dropCaseless?] at h
        split at h
        · next hc =>
          obtain ⟨word, hword, rfl⟩ := ih.mp h
          exact ⟨c :: word, .cons hc hword, rfl⟩
        · cases h
    · rintro ⟨word, hword, rfl⟩
      cases hword with
      | cons hc hword =>
        rw [List.cons_append, dropCaseless?, if_pos hc]
        exact ih.mpr ⟨_, hword, rfl⟩

theorem not_isBlank_bracket : isBlank '>' = false := by
  decide

theorem openTag?_eq_some_iff {cs attributes rest : List Char} :
    openTag? cs = some (attributes, rest) ↔ ∃ tag, IsOpenTag attributes tag ∧ cs = tag ++ rest := by
  constructor
  · intro h
    unfold openTag? at h
    split at h
    · next c inner hword =>
      obtain ⟨word, hspelled, rfl⟩ := dropCaseless?_eq_some_iff.mp hword
      split at h
      · next hc =>
        cases h
        have hc : c = '>' := by simpa using hc
        exact ⟨word ++ ['>'], ⟨word, hspelled, by simp, .inl rfl⟩, by simp [hc]⟩
      · split at h
        · next hblank =>
          split at h
          · next c' after hafter =>
            cases h
            -- The first character that is no attribute is the bracket.
            have hc' : c' = '>' := by
              have := List.head?_dropWhile_not (fun d : Char => d != '>') inner
              simpa [hafter] using this
            have hinner := List.takeWhile_append_dropWhile (p := fun d : Char => d != '>') (l := inner)
            rw [hafter, hc'] at hinner
            refine ⟨word ++ (c :: inner.takeWhile (· != '>') ++ ['>']), ⟨word, hspelled, rfl, .inr ⟨c, _, rfl,
              hblank, ?_⟩⟩, ?_⟩
            · intro hmem
              simpa using List.mem_takeWhile_imp hmem
            · simp only [List.append_assoc, List.cons_append, List.nil_append, hinner]
          · cases h
        · cases h
    · cases h
  · rintro ⟨tag, ⟨word, hspelled, rfl, hattributes⟩, rfl⟩
    have hword : dropCaseless? "<script".toList (word ++ (attributes ++ ['>'] ++ rest)) =
        some (attributes ++ ['>'] ++ rest) := dropCaseless?_eq_some_iff.mpr ⟨word, hspelled, rfl⟩
    rw [openTag?, List.append_assoc, hword]
    rcases hattributes with rfl | ⟨blank, inner, rfl, hblank, hinner⟩
    · simp
    · have hne : blank ≠ '>' := by
        rintro rfl
        rw [not_isBlank_bracket] at hblank
        cases hblank
      have hall : ∀ d ∈ inner, (d != '>') = true := by
        intro d hd
        simp only [bne_iff_ne]
        rintro rfl
        exact hinner hd
      simp [hne, hblank, List.dropWhile_append_of_pos hall, List.takeWhile_append_of_pos hall]

theorem closeTag?_eq_some_iff {cs rest : List Char} :
    closeTag? cs = some rest ↔ ∃ tag, IsCloseTag tag ∧ cs = tag ++ rest := by
  constructor
  · intro h
    unfold closeTag? at h
    split at h
    · next inner hword =>
      obtain ⟨word, hspelled, rfl⟩ := dropCaseless?_eq_some_iff.mp hword
      split at h
      · next c after hafter =>
        split at h
        · next hc =>
          cases h
          have hc : c = '>' := by simpa using hc
          have hinner := List.takeWhile_append_dropWhile (p := isBlank) (l := inner)
          rw [hafter, hc] at hinner
          refine ⟨word ++ (inner.takeWhile isBlank ++ ['>']), ⟨word, _, hspelled, rfl, ?_⟩, ?_⟩
          · exact fun blank hmem => List.mem_takeWhile_imp hmem
          · simp only [List.append_assoc, List.cons_append, List.nil_append, hinner]
        · cases h
      · cases h
    · cases h
  · rintro ⟨tag, ⟨word, blanks, hspelled, rfl, hblanks⟩, rfl⟩
    have hword : dropCaseless? "</script".toList (word ++ (blanks ++ ['>'] ++ rest)) =
        some (blanks ++ ['>'] ++ rest) := dropCaseless?_eq_some_iff.mpr ⟨word, hspelled, rfl⟩
    rw [closeTag?, List.append_assoc, hword]
    simp [List.dropWhile_append_of_pos hblanks, not_isBlank_bracket]

theorem IsOpenTag.ne_nil {attributes tag : List Char} (h : IsOpenTag attributes tag) : tag ≠ [] := by
  obtain ⟨word, -, rfl, -⟩ := h
  simp

theorem IsCloseTag.ne_nil {tag : List Char} (h : IsCloseTag tag) : tag ≠ [] := by
  obtain ⟨word, blanks, -, rfl, -⟩ := h
  simp

/-! ## Marked attributes -/

/-- The last letter of the word is part of a word in either case. -/
theorem wordEdge_getLast?_setup {word : List Char} (h : Spelled "setup".toList word) (after : Option Char) :
    wordEdge word.getLast? after = wordEdge (some 'p') after := by
  obtain ⟨init, c, rfl, hc⟩ : ∃ init c, word = init ++ [c] ∧ sameLetter 'p' c := by
    have hletters : "setup".toList = ['s', 'e', 't', 'u', 'p'] := rfl
    rw [hletters] at h
    obtain _ | ⟨-, h⟩ := h
    obtain _ | ⟨-, h⟩ := h
    obtain _ | ⟨-, h⟩ := h
    obtain _ | ⟨-, h⟩ := h
    obtain _ | ⟨hc, h⟩ := h
    cases h
    exact ⟨[_, _, _, _], _, rfl, hc⟩
  have hcase : c = 'p' ∨ c = 'P' := by
    simpa [sameLetter] using hc
  have hword : Text.isWord 'P' = Text.isWord 'p' := by decide
  rcases hcase with rfl | rfl
  · simp
  · simp [wordEdge, hword]

/-- The word stands at the start of `cs`, with `before` before it. -/
def SetupHere (before : Option Char) (cs : List Char) : Prop :=
  ∃ word after, cs = word ++ after ∧ Spelled "setup".toList word ∧ wordEdge before word.head? ∧
    wordEdge word.getLast? after.head?

theorem hasSetupFrom_cons {before : Option Char} {c : Char} {cs : List Char} :
    hasSetupFrom before (c :: cs) ↔ SetupHere before (c :: cs) ∨ hasSetupFrom (some c) cs := by
  have hhead : ∀ word after : List Char, Spelled "setup".toList word → c :: cs = word ++ after →
      word.head? = some c := by
    intro word after hspelled h
    cases word with
    | nil => cases hspelled
    | cons d word => rw [(List.cons.inj h).1, List.head?_cons]
  rw [hasSetupFrom, Bool.or_eq_true]
  refine or_congr_left ?_
  constructor
  · intro h
    split at h
    · next rest hword =>
      obtain ⟨word, hspelled, heq⟩ := dropCaseless?_eq_some_iff.mp hword
      rw [Bool.and_eq_true] at h
      refine ⟨word, rest, heq, hspelled, ?_, ?_⟩
      · rw [hhead word rest hspelled heq]
        exact h.1
      · rw [wordEdge_getLast?_setup hspelled]
        exact h.2
    · cases h
  · rintro ⟨word, after, heq, hspelled, hbefore, hafter⟩
    have hword := dropCaseless?_eq_some_iff.mpr ⟨word, hspelled, heq⟩
    rw [hhead word after hspelled heq] at hbefore
    rw [wordEdge_getLast?_setup hspelled] at hafter
    simp only [hword, hbefore, hafter, Bool.and_self]

theorem hasSetupFrom_iff {before : Option Char} {cs : List Char} :
    hasSetupFrom before cs ↔ ∃ lead rest, cs = lead ++ rest ∧ SetupHere (lead.getLast?.or before) rest := by
  induction cs generalizing before with
  | nil =>
    constructor
    · intro h
      cases h
    · rintro ⟨lead, rest, h, word, after, rfl, hspelled, -⟩
      obtain ⟨-, h⟩ := List.append_eq_nil_iff.mp h.symm
      obtain ⟨rfl, -⟩ := List.append_eq_nil_iff.mp h
      cases hspelled
  | cons c cs ih =>
    rw [hasSetupFrom_cons, ih]
    -- The character before what follows `c` is the last one that was passed, or else `c` itself.
    have hlast : ∀ lead : List Char, (c :: lead).getLast?.or before = lead.getLast?.or (some c) := by
      intro lead
      rw [List.getLast?_cons, Option.or_some, Option.some_or]
    constructor
    · rintro (h | ⟨lead, rest, rfl, h⟩)
      · exact ⟨[], c :: cs, rfl, h⟩
      · exact ⟨c :: lead, rest, rfl, by rwa [hlast]⟩
    · rintro ⟨lead, rest, heq, h⟩
      cases lead with
      | nil =>
        rw [List.nil_append] at heq
        exact .inl (heq ▸ h)
      | cons d lead =>
        obtain ⟨rfl, rfl⟩ := List.cons.inj heq
        exact .inr ⟨lead, rest, rfl, by rwa [← hlast]⟩

theorem hasSetup_iff {attributes : List Char} : hasSetup attributes ↔ MarksSetup attributes := by
  rw [hasSetup, hasSetupFrom_iff]
  constructor
  · rintro ⟨lead, rest, rfl, word, after, rfl, hspelled, hbefore, hafter⟩
    exact ⟨lead, word, after, rfl, hspelled, by rwa [Option.or_none] at hbefore, hafter⟩
  · rintro ⟨lead, word, after, rfl, hspelled, hbefore, hafter⟩
    exact ⟨lead, word ++ after, rfl, word, after, rfl, hspelled, by rwa [Option.or_none], hafter⟩

/-! ## Places of tags -/

/-- An opening tag stands in `cs` at `span`. -/
def OpensAt (cs : List Char) (span : Span) : Prop :=
  span.stop ≤ cs.length ∧ ∃ attributes, IsOpenTag attributes (span.slice cs)

/-- A closing tag stands in `cs` at `span`. -/
def ClosesAt (cs : List Char) (span : Span) : Prop :=
  span.stop ≤ cs.length ∧ IsCloseTag (span.slice cs)

/-- `span` is the first one from offset `pos` on that `Stands` holds of. -/
structure IsNext (Stands : Span → Prop) (pos : Nat) (span : Span) : Prop where
  stands : Stands span
  after : pos ≤ span.start
  first : ∀ other, Stands other → pos ≤ other.start → span.start ≤ other.start

theorem exists_isNext_or (Stands : Span → Prop) (pos : Nat) :
    (∃ span, IsNext Stands pos span) ∨ ∀ span, Stands span → span.start < pos := by
  by_cases h : ∃ span, Stands span ∧ pos ≤ span.start
  · -- Of all spans that stand here, take one that starts first.
    obtain ⟨span, ⟨hspan, hpos⟩, hfirst⟩ :=
      WellFounded.has_min (measure Span.start).wf { span | Stands span ∧ pos ≤ span.start } h
    refine .inl ⟨span, hspan, hpos, fun other hother hle => ?_⟩
    exact Nat.le_of_not_lt (hfirst other ⟨hother, hle⟩)
  · refine .inr fun span hspan => ?_
    exact Nat.lt_of_not_le fun hle => h ⟨span, hspan, hle⟩

/-- What follows the start of a span is what it cuts and what follows its end. -/
theorem drop_start_eq {span : Span} (h : span.start ≤ span.stop) (cs : List Char) :
    cs.drop span.start = span.slice cs ++ cs.drop span.stop := by
  have hdrop : cs.drop span.stop = (cs.drop span.start).drop (span.stop - span.start) := by
    rw [List.drop_drop]
    congr 1
    omega
  rw [Span.slice, List.drop_take, hdrop, List.take_append_drop]

theorem start_lt_of_slice_ne_nil {span : Span} {cs : List Char} (h : span.slice cs ≠ []) :
    span.start < span.stop :=
  Nat.lt_of_not_le fun hle => h (Span.slice_eq_nil hle cs)

/-- What stands after an offset is cut by the span of its length. -/
theorem slice_of_drop_eq {cs tag rest : List Char} {start : Nat} (h : cs.drop start = tag ++ rest)
    (hne : tag ≠ []) :
    (⟨start, start + tag.length⟩ : Span).slice cs = tag ∧ start + tag.length ≤ cs.length := by
  have hpos := List.length_pos_of_ne_nil hne
  have hlength := congrArg List.length h
  rw [List.length_drop, List.length_append] at hlength
  refine ⟨?_, by omega⟩
  rw [Span.slice, List.drop_take, h]
  simp

theorem openTag?_of_slice {cs attributes : List Char} {span : Span}
    (h : IsOpenTag attributes (span.slice cs)) :
    openTag? (cs.drop span.start) = some (attributes, cs.drop span.stop) :=
  openTag?_eq_some_iff.mpr ⟨_, h, drop_start_eq (start_lt_of_slice_ne_nil h.ne_nil).le cs⟩

theorem closeTag?_of_slice {cs : List Char} {span : Span} (h : IsCloseTag (span.slice cs)) :
    closeTag? (cs.drop span.start) = some (cs.drop span.stop) :=
  closeTag?_eq_some_iff.mpr ⟨_, h, drop_start_eq (start_lt_of_slice_ne_nil h.ne_nil).le cs⟩

/-- Where no opening tag stands, none is read. -/
theorem openTag?_eq_none {cs : List Char} {start : Nat} (h : ∀ span, OpensAt cs span → span.start ≠ start) :
    openTag? (cs.drop start) = none := by
  cases hread : openTag? (cs.drop start) with
  | none => rfl
  | some found =>
    obtain ⟨attributes, rest⟩ := found
    obtain ⟨tag, htag, hdrop⟩ := openTag?_eq_some_iff.mp hread
    obtain ⟨hslice, hlength⟩ := slice_of_drop_eq hdrop htag.ne_nil
    exact absurd rfl (h ⟨start, start + tag.length⟩ ⟨hlength, attributes, by rwa [hslice]⟩)

/-- Where no closing tag stands, none is read. -/
theorem closeTag?_eq_none {cs : List Char} {start : Nat} (h : ∀ span, ClosesAt cs span → span.start ≠ start) :
    closeTag? (cs.drop start) = none := by
  cases hread : closeTag? (cs.drop start) with
  | none => rfl
  | some rest =>
    obtain ⟨tag, htag, hdrop⟩ := closeTag?_eq_some_iff.mp hread
    obtain ⟨hslice, hlength⟩ := slice_of_drop_eq hdrop htag.ne_nil
    exact absurd rfl (h ⟨start, start + tag.length⟩ ⟨hlength, by rwa [hslice]⟩)

/-! ## The next tag -/

/-- Characters with which no opening tag starts are passed over. -/
theorem findOpen?_skip {cs : List Char} {count : Nat} (h : ∀ k < count, openTag? (cs.drop k) = none) :
    findOpen? cs = findOpen? (cs.drop count) := by
  induction count generalizing cs with
  | zero => rfl
  | succ count ih =>
    cases cs with
    | nil => rfl
    | cons c cs =>
      have hhere : openTag? (c :: cs) = none := h 0 (Nat.succ_pos count)
      rw [findOpen?, hhere, List.drop_succ_cons]
      exact ih fun k hk => h (k + 1) (Nat.succ_lt_succ hk)

/-- Characters with which no closing tag starts are content. -/
theorem findClose?_skip {cs : List Char} {count : Nat} (h : ∀ k < count, closeTag? (cs.drop k) = none) :
    findClose? cs =
      (findClose? (cs.drop count)).map fun (content, after) => (cs.take count ++ content, after) := by
  induction count generalizing cs with
  | zero => simp
  | succ count ih =>
    cases cs with
    | nil => rfl
    | cons c cs =>
      have hhere : closeTag? (c :: cs) = none := h 0 (Nat.succ_pos count)
      rw [findClose?, hhere, List.drop_succ_cons]
      simp only
      rw [ih fun k hk => h (k + 1) (Nat.succ_lt_succ hk), Option.map_map]
      rfl

/-- From offset `pos` on nothing is found before `limit` if no opening tag starts there. -/
theorem findOpen?_between {cs : List Char} {pos limit : Nat} (hle : pos ≤ limit)
    (h : ∀ span, OpensAt cs span → pos ≤ span.start → limit ≤ span.start) :
    findOpen? (cs.drop pos) = findOpen? (cs.drop limit) := by
  have hskip : ∀ k < limit - pos, openTag? ((cs.drop pos).drop k) = none := by
    intro k hk
    rw [List.drop_drop]
    apply openTag?_eq_none
    intro span hspan heq
    have := h span hspan (by omega)
    omega
  rw [findOpen?_skip hskip, List.drop_drop, Nat.add_sub_cancel' hle]

/-- From offset `pos` on all is content up to `limit` if no closing tag starts there. -/
theorem findClose?_between {cs : List Char} {pos limit : Nat} (hle : pos ≤ limit)
    (h : ∀ span, ClosesAt cs span → pos ≤ span.start → limit ≤ span.start) :
    findClose? (cs.drop pos) = (findClose? (cs.drop limit)).map fun (content, after) =>
      ((⟨pos, limit⟩ : Span).slice cs ++ content, after) := by
  have hskip : ∀ k < limit - pos, closeTag? ((cs.drop pos).drop k) = none := by
    intro k hk
    rw [List.drop_drop]
    apply closeTag?_eq_none
    intro span hspan heq
    have := h span hspan (by omega)
    omega
  rw [findClose?_skip hskip, List.drop_drop, Nat.add_sub_cancel' hle, Span.slice, List.drop_take]

theorem findOpen?_of_isNext {cs attributes : List Char} {pos : Nat} {span : Span}
    (h : IsNext (OpensAt cs) pos span) (hattributes : IsOpenTag attributes (span.slice cs)) :
    findOpen? (cs.drop pos) = some (attributes, cs.drop span.stop) := by
  have hread := openTag?_of_slice hattributes
  rw [findOpen?_between h.after h.first]
  cases hcs : cs.drop span.start with
  | nil =>
    rw [hcs] at hread
    cases hread
  | cons c rest => rw [findOpen?, ← hcs, hread]

theorem findClose?_of_isNext {cs : List Char} {pos : Nat} {span : Span}
    (h : IsNext (ClosesAt cs) pos span) :
    findClose? (cs.drop pos) = some ((⟨pos, span.start⟩ : Span).slice cs, cs.drop span.stop) := by
  have hread := closeTag?_of_slice h.stands.2
  rw [findClose?_between h.after h.first]
  cases hcs : cs.drop span.start with
  | nil =>
    rw [hcs] at hread
    cases hread
  | cons c rest =>
    rw [findClose?, ← hcs, hread]
    simp

theorem drop_length_add (cs : List Char) (pos : Nat) : cs.drop (pos + cs.length) = [] :=
  List.drop_eq_nil_of_le (Nat.le_add_left _ _)

theorem findOpen?_eq_none {cs : List Char} {pos : Nat} (h : ∀ span, OpensAt cs span → span.start < pos) :
    findOpen? (cs.drop pos) = none := by
  have hnone : ∀ span, OpensAt cs span → pos ≤ span.start → pos + cs.length ≤ span.start :=
    fun span hspan hle => absurd hle (Nat.not_le_of_lt (h span hspan))
  rw [findOpen?_between (Nat.le_add_right _ _) hnone, drop_length_add]
  rfl

theorem findClose?_eq_none {cs : List Char} {pos : Nat} (h : ∀ span, ClosesAt cs span → span.start < pos) :
    findClose? (cs.drop pos) = none := by
  have hnone : ∀ span, ClosesAt cs span → pos ≤ span.start → pos + cs.length ≤ span.start :=
    fun span hspan hle => absurd hle (Nat.not_le_of_lt (h span hspan))
  rw [findClose?_between (Nat.le_add_right _ _) hnone, drop_length_add]
  rfl

/-! ## Blocks -/

/-- A block of a document: the attributes of its opening tag, and where its two tags stand. -/
structure Block where
  attributes : List Char
  opening : Span
  closing : Span

/-- `block` is the next block from offset `pos` on: from there on its opening tag comes first, and after that
its closing tag. -/
structure IsNextBlock (cs : List Char) (pos : Nat) (block : Block) : Prop where
  opens : IsNext (OpensAt cs) pos block.opening
  attributes : IsOpenTag block.attributes (block.opening.slice cs)
  closes : IsNext (ClosesAt cs) block.opening.stop block.closing

/-- No block follows from offset `pos` on: there is no opening tag, or no closing tag after the next one. -/
def NoBlock (cs : List Char) (pos : Nat) : Prop :=
  (∀ span, OpensAt cs span → span.start < pos) ∨
    ∃ opening, IsNext (OpensAt cs) pos opening ∧ ∀ span, ClosesAt cs span → span.start < opening.stop

theorem exists_isNextBlock_or (cs : List Char) (pos : Nat) :
    (∃ block, IsNextBlock cs pos block) ∨ NoBlock cs pos := by
  rcases exists_isNext_or (OpensAt cs) pos with ⟨opening, hopening⟩ | hnone
  · obtain ⟨attributes, hattributes⟩ := hopening.stands.2
    rcases exists_isNext_or (ClosesAt cs) opening.stop with ⟨closing, hclosing⟩ | hnone
    · exact .inl ⟨⟨attributes, opening, closing⟩, hopening, hattributes, hclosing⟩
    · exact .inr (.inr ⟨opening, hopening, hnone⟩)
  · exact .inr (.inl hnone)

/-- One turn of the search. -/
theorem blockFrom?_eq (size : Nat) (cs : List Char) :
    blockFrom? size cs = (findOpen? cs).bind fun (attributes, inner) =>
      (findClose? inner).bind fun (content, after) =>
        if hasSetup attributes then blockFrom? size after
        else some ⟨String.ofList content, lang attributes, size - inner.length,
          size - inner.length + content.length⟩ := by
  rw [blockFrom?]
  split
  · next hopen => rw [hopen, Option.bind_none]
  · next attributes inner hopen =>
    simp only [hopen, Option.bind_some]
    split
    · next hclose => simp only [hclose, Option.bind_none]
    · next content after hclose => simp only [hclose, Option.bind_some]

theorem NoBlock.blockFrom?_eq_none {cs : List Char} {pos : Nat} (h : NoBlock cs pos) (size : Nat) :
    blockFrom? size (cs.drop pos) = none := by
  rcases h with hnone | ⟨opening, hopening, hnone⟩
  · rw [blockFrom?_eq, findOpen?_eq_none hnone, Option.bind_none]
  · obtain ⟨attributes, hattributes⟩ := hopening.stands.2
    rw [blockFrom?_eq, findOpen?_of_isNext hopening hattributes]
    simp only [Option.bind_some, findClose?_eq_none hnone, Option.bind_none]

namespace IsNextBlock

variable {cs : List Char} {pos : Nat} {block : Block}

/-- The content of a block lies between its tags. -/
theorem opening_le_closing (h : IsNextBlock cs pos block) : block.opening.stop ≤ block.closing.start :=
  h.closes.after

theorem lt_closing (h : IsNextBlock cs pos block) : pos < block.closing.stop := by
  have hopening := start_lt_of_slice_ne_nil h.attributes.ne_nil
  have hclosing := start_lt_of_slice_ne_nil h.closes.stands.2.ne_nil
  have := h.opens.after
  have := h.opening_le_closing
  omega

/-- A marked block is passed over. -/
theorem blockFrom?_of_marked (h : IsNextBlock cs pos block) (hmarked : MarksSetup block.attributes)
    (size : Nat) : blockFrom? size (cs.drop pos) = blockFrom? size (cs.drop block.closing.stop) := by
  rw [blockFrom?_eq, findOpen?_of_isNext h.opens h.attributes]
  simp only [Option.bind_some, findClose?_of_isNext h.closes, if_pos (hasSetup_iff.mpr hmarked)]

/-- The script in a block. -/
theorem blockFrom?_of_unmarked (h : IsNextBlock cs pos block) (hmarked : ¬MarksSetup block.attributes) :
    blockFrom? cs.length (cs.drop pos) =
      some ⟨String.ofList ((⟨block.opening.stop, block.closing.start⟩ : Span).slice cs), lang block.attributes,
        block.opening.stop, block.closing.start⟩ := by
  have hopening := h.opens.stands.1
  have hclosing := h.closes.stands.1
  have hlt := start_lt_of_slice_ne_nil h.closes.stands.2.ne_nil
  have hle := h.opening_le_closing
  have hstart : cs.length - (cs.drop block.opening.stop).length = block.opening.stop := by
    rw [List.length_drop]
    omega
  have hstop : block.opening.stop + ((⟨block.opening.stop, block.closing.start⟩ : Span).slice cs).length =
      block.closing.start := by
    simp only [Span.length_slice]
    omega
  rw [blockFrom?_eq, findOpen?_of_isNext h.opens h.attributes]
  simp only [Option.bind_some, findClose?_of_isNext h.closes, if_neg (mt hasSetup_iff.mp hmarked), hstart, hstop]

end IsNextBlock

/-! ## Scans -/

/-- From offset `pos` on, the blocks `passed` come one after the other, up to offset `stop`: each is the next
one from the end of the one before it. -/
inductive Scan (cs : List Char) : (pos : Nat) → (passed : List Block) → (stop : Nat) → Prop
  | done (pos : Nat) : Scan cs pos [] pos
  | pass {pos stop : Nat} {block : Block} {passed : List Block} (hnext : IsNextBlock cs pos block)
      (h : Scan cs block.closing.stop passed stop) : Scan cs pos (block :: passed) stop

/-- Passing over marked blocks changes nothing in what is found. -/
theorem blockFrom?_of_scan {cs : List Char} {pos stop : Nat} {passed : List Block}
    (h : Scan cs pos passed stop) (hmarked : ∀ block ∈ passed, MarksSetup block.attributes) (size : Nat) :
    blockFrom? size (cs.drop pos) = blockFrom? size (cs.drop stop) := by
  induction h with
  | done pos => rfl
  | pass hnext _ ih =>
    rw [hnext.blockFrom?_of_marked (hmarked _ List.mem_cons_self) size]
    exact ih fun block hblock => hmarked block (List.mem_cons_of_mem _ hblock)

/-- Passing over marked blocks ends, because each of them takes at least one character. -/
theorem exists_scan (cs : List Char) (pos : Nat) :
    ∃ passed stop, Scan cs pos passed stop ∧ (∀ block ∈ passed, MarksSetup block.attributes) ∧
      (NoBlock cs stop ∨ ∃ block, IsNextBlock cs stop block ∧ ¬MarksSetup block.attributes) := by
  induction hrest : cs.length - pos using Nat.strong_induction_on generalizing pos with
  | _ rest ih =>
    rcases exists_isNextBlock_or cs pos with ⟨block, hblock⟩ | hnone
    · by_cases hmarked : MarksSetup block.attributes
      · have hlt := hblock.lt_closing
        have hstop := hblock.closes.stands.1
        obtain ⟨passed, stop, hscan, hpassed, hend⟩ :=
          ih (cs.length - block.closing.stop) (by omega) block.closing.stop rfl
        refine ⟨block :: passed, stop, .pass hblock hscan, ?_, hend⟩
        intro b hb
        rcases List.mem_cons.mp hb with rfl | hb
        · exact hmarked
        · exact hpassed b hb
      · exact ⟨[], pos, .done pos, by simp, .inr ⟨block, hblock, hmarked⟩⟩
    · exact ⟨[], pos, .done pos, by simp, .inl hnone⟩

/-- **The script is the first complete block that is not marked.** Scanning a document from its start, block
after block, ends. A script is found exactly if the scan passes over marked blocks only and then meets a
complete block that is not marked: it stands between the two tags of that block, no closing tag starts
inside it, and its content is the text between them. No script is found exactly if the scan passes over
marked blocks only and then stands where no opening tag follows, or no closing tag after the next opening
one. -/
theorem script_is_first_unmarked (document : String) :
    (∀ found, scriptBlock? document = some found ↔
      ∃ passed pos block, Scan document.toList 0 passed pos ∧
        (∀ b ∈ passed, MarksSetup b.attributes) ∧ IsNextBlock document.toList pos block ∧
        ¬MarksSetup block.attributes ∧ found.start = block.opening.stop ∧ found.stop = block.closing.start ∧
        found.start ≤ found.stop ∧
        found.content = String.ofList ((⟨found.start, found.stop⟩ : Span).slice document.toList) ∧
        found.lang = lang block.attributes) ∧
    (scriptBlock? document = none ↔
      ∃ passed pos, Scan document.toList 0 passed pos ∧ (∀ b ∈ passed, MarksSetup b.attributes) ∧
        NoBlock document.toList pos) := by
  have hfrom : ∀ {passed pos}, Scan document.toList 0 passed pos → (∀ b ∈ passed, MarksSetup b.attributes) →
      scriptBlock? document = blockFrom? document.toList.length (document.toList.drop pos) :=
    fun hscan hpassed => blockFrom?_of_scan hscan hpassed _
  obtain ⟨passed, pos, hscan, hpassed, hend⟩ := exists_scan document.toList 0
  constructor
  · intro found
    constructor
    · intro h
      rw [hfrom hscan hpassed] at h
      rcases hend with hnone | ⟨block, hblock, hmarked⟩
      · rw [hnone.blockFrom?_eq_none] at h
        cases h
      · rw [hblock.blockFrom?_of_unmarked hmarked] at h
        cases h
        exact ⟨passed, pos, block, hscan, hpassed, hblock, hmarked, rfl, rfl, hblock.opening_le_closing, rfl, rfl⟩
    · rintro ⟨passed, pos, block, hscan, hpassed, hblock, hmarked, hstart, hstop, -, hcontent, hlang⟩
      rw [hfrom hscan hpassed, hblock.blockFrom?_of_unmarked hmarked]
      rw [← hstart, ← hstop, ← hcontent, ← hlang]
  · constructor
    · intro h
      rcases hend with hnone | ⟨block, hblock, hmarked⟩
      · exact ⟨passed, pos, hscan, hpassed, hnone⟩
      · rw [hfrom hscan hpassed, hblock.blockFrom?_of_unmarked hmarked] at h
        cases h
    · rintro ⟨passed, pos, hscan, hpassed, hnone⟩
      rw [hfrom hscan hpassed, hnone.blockFrom?_eq_none]

end ClassComponent.Document
