import ClassComponent.Proofs.Text.Pieces
import ClassComponent.Render.Comment
import ClassComponent.Script.Module
import Mathlib.Data.List.Pairwise

/-!
# Comments and the statements they go with

The comments between two statements are looked at twice: those that trail the first one are counted from
its end on, each from the end of the one before (`trailingStop`), and those that lead the second one from
the end of the first statement on (`leadingStart`).

* **No comment is left out** (`comments_all_attached`): the first comment that does not trail the
  statement before it starts on a later line, and so it leads the next one.
* **When a comment goes with two statements** (`neighbours_apart_iff`): a comment that spans lines ends
  on another line than it starts on. One that follows it there trails the statement before, and also leads
  the next one. This is the only way for the bounds of two statements to overlap.
-/

namespace ClassComponent

open Text

/-- Whether a span lies inside another. -/
def Span.Within (s t : Span) : Prop :=
  t.start ≤ s.start ∧ s.stop ≤ t.stop

/-- The spans of the statements of a script. -/
def statementSpans (tree : Tree) : List Span :=
  (statements tree).map statementSpan

/-- What the spans of the statements of a script are like: they lie inside the script, one after the
other. -/
structure StatementsLaid (tree : Tree) (source : Text) : Prop where
  inside : ∀ s ∈ statementSpans tree, s.start ≤ s.stop ∧ s.stop ≤ source.length
  ordered : (statementSpans tree).Pairwise fun s t => s.stop ≤ t.start

/-- What the spans of the comments of a script are like: they lie inside the script, and apart from each
other. -/
structure CommentsLaid (tree : Tree) (source : Text) : Prop where
  inside : ∀ c ∈ commentSpans tree, c.start ≤ c.stop ∧ c.stop ≤ source.length
  apart : (commentSpans tree).Pairwise Span.Apart

theorem CommentsLaid.follow {tree : Tree} {source : Text} (h : CommentsLaid tree source) :
    (commentSpans tree).Pairwise fun c d => c.stop ≤ d.start :=
  Span.pairwise_follow (fun c hc => (h.inside c hc).1) (Span.pairwise_before_mergeSort _) h.apart

/-- A line ends between two offsets if a line break stands there. -/
theorem breaksBetween_iff {source : List CodePoint} {start stop : Nat} :
    breaksBetween source start stop ↔
      ∃ i, start ≤ i ∧ i < stop ∧ source[i]? = some lineBreak := by
  rw [breaksBetween, List.contains_iff_mem, List.mem_iff_getElem?]
  simp only [Span.getElem?_slice]
  constructor
  · rintro ⟨i, hi⟩
    split at hi
    · exact ⟨start + i, by omega, by omega, hi⟩
    · cases hi
  · rintro ⟨i, hstart, hstop, hi⟩
    refine ⟨i - start, ?_⟩
    rw [if_pos (by omega), show start + (i - start) = i by omega]
    exact hi

theorem breaksBetween_mono {source : List CodePoint} {start stop start' stop' : Nat}
    (hstart : start' ≤ start) (hstop : stop ≤ stop') (h : breaksBetween source start stop) :
    breaksBetween source start' stop' := by
  obtain ⟨i, h₁, h₂, hi⟩ := breaksBetween_iff.mp h
  exact breaksBetween_iff.mpr ⟨i, by omega, by omega, hi⟩

/-! ## Comments that trail a statement -/

section

variable {comments : List Span} {source : List CodePoint} {limit : Nat} {span c d : Span}

/-- Whether a comment goes on with what ends at `stop`. -/
def GoesOn (source : List CodePoint) (limit stop : Nat) (c : Span) : Prop :=
  stop ≤ c.start ∧ c.stop ≤ limit ∧ breaksBetween source stop c.start = false

theorem trailingStop_cons_of_goesOn (h : GoesOn source limit span.stop c) :
    trailingStop (c :: comments) source limit span =
      trailingStop comments source limit ⟨span.start, c.stop⟩ := by
  simp only [trailingStop, List.foldl_cons, h.1, h.2.1, h.2.2, decide_true, Bool.not_false, Bool.and_self,
    if_true]

theorem trailingStop_cons_of_not_goesOn (h : ¬ GoesOn source limit span.stop c) :
    trailingStop (c :: comments) source limit span = trailingStop comments source limit span := by
  rw [trailingStop, List.foldl_cons, if_neg, trailingStop]
  simpa [GoesOn, and_assoc] using h

/-- A statement reaches up to its own end, or up to the end of a comment before the next one. -/
theorem trailingStop_eq_or (comments : List Span) (source : List CodePoint) (limit : Nat) (span : Span)
    (hin : ∀ c ∈ comments, c.start ≤ c.stop) :
    trailingStop comments source limit span = span.stop ∨
      ∃ c ∈ comments, span.stop ≤ c.start ∧ c.stop ≤ limit ∧
        trailingStop comments source limit span = c.stop := by
  induction comments generalizing span with
  | nil => exact .inl rfl
  | cons c comments ih =>
    have hc := hin c (by simp)
    have hrest := fun d hd => hin d (List.mem_cons_of_mem c hd)
    by_cases h : GoesOn source limit span.stop c
    · rw [trailingStop_cons_of_goesOn h]
      rcases ih ⟨span.start, c.stop⟩ hrest with heq | ⟨d, hd, hstart, hstop, heq⟩
      · exact .inr ⟨c, by simp, h.1, h.2.1, heq⟩
      · exact .inr ⟨d, by simp [hd], Nat.le_trans h.1 (Nat.le_trans hc hstart), hstop, heq⟩
    · rw [trailingStop_cons_of_not_goesOn h]
      rcases ih span hrest with heq | ⟨d, hd, hd'⟩
      · exact .inl heq
      · exact .inr ⟨d, by simp [hd], hd'⟩

theorem le_trailingStop (hin : ∀ c ∈ comments, c.start ≤ c.stop) :
    span.stop ≤ trailingStop comments source limit span := by
  rcases trailingStop_eq_or comments source limit span hin with heq | ⟨c, hc, hstart, -, heq⟩
  · exact Nat.le_of_eq heq.symm
  · have := hin c hc
    omega

theorem trailingStop_le (hin : ∀ c ∈ comments, c.start ≤ c.stop) (hlimit : span.stop ≤ limit) :
    trailingStop comments source limit span ≤ limit := by
  rcases trailingStop_eq_or comments source limit span hin with heq | ⟨c, -, -, hstop, heq⟩
  · rw [heq]
    exact hlimit
  · rw [heq]
    exact hstop

/-- Between a statement and the end of what trails it, lines end inside comments only. -/
theorem exists_comment_of_break (hin : ∀ c ∈ comments, c.start ≤ c.stop) {i : Nat}
    (hi : source[i]? = some lineBreak) (hstart : span.stop ≤ i)
    (hstop : i < trailingStop comments source limit span) :
    ∃ c ∈ comments, span.stop ≤ c.start ∧ c.start ≤ i ∧ i < c.stop := by
  induction comments generalizing span with
  | nil => exact absurd hstop (Nat.not_lt.mpr hstart)
  | cons c comments ih =>
    have hc := hin c (by simp)
    have hrest := fun d hd => hin d (List.mem_cons_of_mem c hd)
    by_cases h : GoesOn source limit span.stop c
    · rw [trailingStop_cons_of_goesOn h] at hstop
      have hbefore : c.start ≤ i := by
        by_contra hlt
        have hbreak : breaksBetween source span.stop c.start :=
          breaksBetween_iff.mpr ⟨i, hstart, by omega, hi⟩
        rw [h.2.2] at hbreak
        cases hbreak
      by_cases hinside : i < c.stop
      · exact ⟨c, by simp, h.1, hbefore, hinside⟩
      · obtain ⟨d, hd, h₁, h₂⟩ := ih hrest (Nat.not_lt.mp hinside) hstop
        exact ⟨d, by simp [hd], Nat.le_trans h.1 (Nat.le_trans hc h₁), h₂⟩
    · rw [trailingStop_cons_of_not_goesOn h] at hstop
      obtain ⟨d, hd, hd'⟩ := ih hrest hstart hstop
      exact ⟨d, by simp [hd], hd'⟩

/-- A comment before the next statement trails the statement, or starts on a later line. -/
theorem trails_or_breaks (hin : ∀ c ∈ comments, c.start ≤ c.stop)
    (hfollow : comments.Pairwise fun c d => c.stop ≤ d.start) (hd : d ∈ comments)
    (hstart : span.stop ≤ d.start) (hstop : d.stop ≤ limit) :
    d.stop ≤ trailingStop comments source limit span ∨ breaksBetween source span.stop d.start := by
  induction comments generalizing span with
  | nil => cases hd
  | cons c comments ih =>
    have hc := hin c (by simp)
    have hrest := fun d hd => hin d (List.mem_cons_of_mem c hd)
    rw [List.pairwise_cons] at hfollow
    by_cases h : GoesOn source limit span.stop c
    · rw [trailingStop_cons_of_goesOn h]
      rcases List.mem_cons.mp hd with rfl | hd
      · exact .inl (le_trailingStop hrest)
      · refine (ih hrest hfollow.2 hd (hfollow.1 d hd)).imp_right ?_
        exact breaksBetween_mono (Nat.le_trans h.1 hc) (Nat.le_refl _)
    · rw [trailingStop_cons_of_not_goesOn h]
      rcases List.mem_cons.mp hd with rfl | hd
      · refine .inr ?_
        by_contra hbreak
        exact h ⟨hstart, hstop, by simpa using hbreak⟩
      · exact ih hrest hfollow.2 hd hstart

/-! ## Comments that lead a statement -/

/-- Whether a comment stands between two statements and starts on a later line than the first one
ends on. -/
def Leads (source : List CodePoint) (before span c : Span) : Prop :=
  before.stop ≤ c.start ∧ c.stop ≤ span.start ∧ breaksBetween source before.stop c.start

theorem leads_iff {before : Span} :
    (before.stop ≤ c.start && c.stop ≤ span.start && breaksBetween source before.stop c.start) = true ↔
      Leads source before span c := by
  simp [Leads, and_assoc]

/-- A statement starts with the first comment that leads it, or on its own. -/
theorem leadingStart_eq_or (comments : List Span) (source : List CodePoint) (before span : Span) :
    (leadingStart comments source (some before) span = span.start ∧
        ∀ c ∈ comments, ¬ Leads source before span c) ∨
      ∃ c ∈ comments, Leads source before span c ∧
        leadingStart comments source (some before) span = c.start := by
  rw [leadingStart]
  split
  · rename_i c hc
    have hleads := List.find?_some hc
    exact .inr ⟨c, List.mem_of_find?_eq_some hc, leads_iff.mp hleads, rfl⟩
  · rename_i hnone
    refine .inl ⟨rfl, fun c hc hleads => ?_⟩
    exact List.find?_eq_none.mp hnone c hc (leads_iff.mpr hleads)

theorem leadingStart_le {before? : Option Span} (hin : ∀ c ∈ comments, c.start ≤ c.stop) :
    leadingStart comments source before? span ≤ span.start := by
  cases before? with
  | none => exact Nat.le_refl _
  | some before =>
    rcases leadingStart_eq_or comments source before span with ⟨heq, -⟩ | ⟨c, hc, hleads, heq⟩
    · exact Nat.le_of_eq heq
    · have := hin c hc
      have := hleads.2.1
      omega

theorem le_leadingStart {before : Span} (h : before.stop ≤ span.start) :
    before.stop ≤ leadingStart comments source (some before) span := by
  rcases leadingStart_eq_or comments source before span with ⟨heq, -⟩ | ⟨c, -, hleads, heq⟩
  · rw [heq]
    exact h
  · rw [heq]
    exact hleads.1

/-- All comments that lead a statement go with it. -/
theorem leadingStart_le_of_leads {before : Span} (hin : ∀ c ∈ comments, c.start ≤ c.stop)
    (hfollow : comments.Pairwise fun c d => c.stop ≤ d.start) (hc : c ∈ comments)
    (h : Leads source before span c) : leadingStart comments source (some before) span ≤ c.start := by
  rw [leadingStart]
  split
  · rename_i first hfirst
    obtain ⟨-, earlier, later, rfl, hearlier⟩ := List.find?_eq_some_iff_append.mp hfirst
    rw [List.pairwise_append, List.pairwise_cons] at hfollow
    rcases List.mem_append.mp hc with hc | hc
    · have hnot := hearlier c hc
      rw [leads_iff.mpr h] at hnot
      cases hnot
    · rcases List.mem_cons.mp hc with rfl | hc
      · exact Nat.le_refl _
      · exact Nat.le_trans (hin first (by simp)) (hfollow.2.1.1 c hc)
  · rename_i hnone
    exact absurd (leads_iff.mpr h) (List.find?_eq_none.mp hnone c hc)

/-- Comments that lead a statement reach into those that trail the one before if, of two comments after
that one, the first spans lines and the second still trails it. -/
theorem leadingStart_lt_iff {before : Span} (hin : ∀ c ∈ comments, c.start ≤ c.stop)
    (hfollow : comments.Pairwise fun c d => c.stop ≤ d.start) (hbefore : before.stop ≤ span.start) :
    leadingStart comments source (some before) span < trailingStop comments source span.start before ↔
      ∃ c ∈ comments, ∃ d ∈ comments, before.stop ≤ c.start ∧ breaksBetween source c.start c.stop ∧
        c.stop ≤ d.start ∧ d.start < trailingStop comments source span.start before := by
  have hapart : ∀ c ∈ comments, ∀ d ∈ comments, c ≠ d → c.Apart d := fun c hc d hd hne =>
    (hfollow.imp (S := Span.Apart) Or.inl).forall hc hd hne
  constructor
  · intro hlt
    rcases leadingStart_eq_or comments source before span with ⟨heq, -⟩ | ⟨d, hd, hleads, heq⟩
    · have hle : trailingStop comments source span.start before ≤ span.start :=
        trailingStop_le hin hbefore
      omega
    · -- The line that ends before `d` ends inside a comment, since `d` starts before `trailingStop`.
      obtain ⟨i, hstart, hstop, hi⟩ := breaksBetween_iff.mp hleads.2.2
      have htrails : i < trailingStop comments source span.start before := by omega
      obtain ⟨c, hc, hbefore', h₁, h₂⟩ := exists_comment_of_break hin hi hstart htrails
      have hcd : c.Apart d := hapart c hc d hd (by rintro rfl; omega)
      have := hin d hd
      refine ⟨c, hc, d, hd, hbefore', breaksBetween_iff.mpr ⟨i, h₁, h₂, hi⟩, ?_, heq ▸ hlt⟩
      rw [Span.Apart] at hcd
      omega
  · rintro ⟨c, hc, d, hd, hstart, hbreak, hcd, hlt⟩
    refine Nat.lt_of_le_of_lt (leadingStart_le_of_leads hin hfollow hd ⟨?_, ?_, ?_⟩) hlt
    · have := hin c hc
      omega
    · rcases trailingStop_eq_or comments source span.start before hin with heq | ⟨e, he, h₁, h₂, heq⟩
      · have := hin c hc
        omega
      · by_cases hde : d = e
        · rw [hde]
          exact h₂
        · have := hapart d hd e he hde
          have := hin e he
          rw [Span.Apart] at *
          omega
    · exact breaksBetween_mono hstart hcd hbreak

end

/-! ## Bounds of statements -/

section

variable {comments : List Span} {source : List CodePoint} {before? : Option Span} {ts : List Tree}

theorem map_span_placeFrom :
    (placeFrom comments source before? ts).map (·.span) = ts.map statementSpan := by
  induction ts generalizing before? with
  | nil => rfl
  | cons t ts ih =>
    rw [List.map_cons, ← ih]
    rfl

/-- How far two statements in a row reach towards each other. -/
theorem bounds_of_neighbours {i : Nat} {p q : Placed}
    (hp : (placeFrom comments source before? ts)[i]? = some p)
    (hq : (placeFrom comments source before? ts)[i + 1]? = some q) :
    p.bounds.stop = trailingStop comments source q.span.start p.span ∧
      q.bounds.start = leadingStart comments source (some p.span) q.span := by
  induction ts generalizing before? i with
  | nil => cases hp
  | cons t ts ih =>
    cases i with
    | succ i => exact ih hp hq
    | zero =>
      cases ts with
      | nil => cases hq
      | cons u us =>
        cases hp
        cases hq
        exact ⟨rfl, rfl⟩

/-- A statement lies within its bounds. -/
theorem span_within_bounds (hin : ∀ c ∈ comments, c.start ≤ c.stop) {p : Placed}
    (hp : p ∈ placeFrom comments source before? ts) : p.span.Within p.bounds := by
  induction ts generalizing before? with
  | nil => cases hp
  | cons t ts ih =>
    rcases List.mem_cons.mp hp with rfl | hp
    · exact ⟨leadingStart_le hin, le_trailingStop hin⟩
    · exact ih hp

/-- Bounds do not reach below the end of the statement before. -/
theorem le_bounds_start {low : Nat} (hbefore : ∀ b ∈ before?, low ≤ b.stop)
    (hlow : ∀ s ∈ ts.map statementSpan, low ≤ s.start ∧ s.start ≤ s.stop)
    (hordered : (before?.toList ++ ts.map statementSpan).Pairwise fun s t => s.stop ≤ t.start)
    {p : Placed} (hp : p ∈ placeFrom comments source before? ts) : low ≤ p.bounds.start := by
  induction ts generalizing before? with
  | nil => cases hp
  | cons t ts ih =>
    obtain ⟨hstart, hspan⟩ := hlow (statementSpan t) (by simp)
    have hrest := (List.pairwise_append.mp hordered).2.1
    rcases List.mem_cons.mp hp with rfl | hp
    · cases before? with
      | none => exact hstart
      | some b =>
        have hnext : b.stop ≤ (statementSpan t).start :=
          (List.pairwise_cons.mp hordered).1 _ (by simp)
        exact Nat.le_trans (hbefore b rfl) (le_leadingStart hnext)
    · have hstop : ∀ b ∈ some (statementSpan t), low ≤ b.stop := by
        rintro b ⟨⟩
        exact Nat.le_trans hstart hspan
      exact ih hstop (fun s hs => hlow s (List.mem_cons_of_mem _ hs)) hrest hp

end

section

variable {tree : Tree} {source : Text} {i : Nat} {p q : Placed}

theorem map_span_placedStatements (tree : Tree) (source : Text) :
    (placedStatements tree source).map (·.span) = statementSpans tree :=
  map_span_placeFrom

theorem StatementsLaid.neighbours_ordered (h : StatementsLaid tree source)
    (hp : (placedStatements tree source)[i]? = some p)
    (hq : (placedStatements tree source)[i + 1]? = some q) : p.span.stop ≤ q.span.start := by
  have hspans := h.ordered
  rw [← map_span_placedStatements tree source, List.pairwise_map, List.pairwise_iff_getElem] at hspans
  obtain ⟨hi, rfl⟩ := List.getElem?_eq_some_iff.mp hp
  obtain ⟨hi', rfl⟩ := List.getElem?_eq_some_iff.mp hq
  exact hspans i (i + 1) hi hi' (Nat.lt_succ_self i)

theorem StatementsLaid.span_inside (h : StatementsLaid tree source)
    (hp : p ∈ placedStatements tree source) :
    p.span.start ≤ p.span.stop ∧ p.span.stop ≤ source.length :=
  h.inside p.span (map_span_placedStatements tree source ▸ List.mem_map_of_mem hp)

/-! ## The header -/

/-- Where the first statement starts. -/
def headerLimit (tree : Tree) (source : Text) : Nat :=
  match statements tree with
  | [] => source.length
  | first :: _ => (statementSpan first).start

/-- The span from the first to the last comment before the first statement. -/
def headerSpan? (tree : Tree) (source : Text) : Option Span :=
  let header := (commentSpans tree).filter (·.stop ≤ headerLimit tree source)
  match header.head?, header.getLast? with
  | some first, some last => some ⟨first.start, last.stop⟩
  | _, _ => none

theorem headerComments?_eq (tree : Tree) (source : Text) :
    headerComments? tree source = (headerSpan? tree source).map (·.of source) := by
  let header := (commentSpans tree).filter (·.stop ≤ headerLimit tree source)
  change (match header.head?, header.getLast? with
      | some first, some last => some ((⟨first.start, last.stop⟩ : Span).of source)
      | _, _ => none) =
    (match header.head?, header.getLast? with
      | some first, some last => some (⟨first.start, last.stop⟩ : Span)
      | _, _ => none).map fun s : Span => s.of source
  cases header.head? <;> cases header.getLast? <;> rfl

theorem headerSpan?_stop_le {header : Span} (h : headerSpan? tree source = some header) :
    header.stop ≤ headerLimit tree source := by
  simp only [headerSpan?] at h
  split at h
  · rename_i first last _ hlast
    cases h
    simpa using List.of_mem_filter (List.mem_of_getLast? hlast)
  · cases h

/-- Every comment before the first statement lies within the header. -/
theorem CommentsLaid.within_header (h : CommentsLaid tree source) {c : Span}
    (hc : c ∈ commentSpans tree) (hlimit : c.stop ≤ headerLimit tree source) :
    ∃ header, headerSpan? tree source = some header ∧ c.Within header := by
  have hmem : c ∈ (commentSpans tree).filter (·.stop ≤ headerLimit tree source) :=
    List.mem_filter.mpr ⟨hc, by simpa using hlimit⟩
  have hin : ∀ d ∈ (commentSpans tree).filter (·.stop ≤ headerLimit tree source), d.start ≤ d.stop :=
    fun d hd => (h.inside d (List.mem_of_mem_filter hd)).1
  have hfollow := h.follow.filter (·.stop ≤ headerLimit tree source)
  rw [headerSpan?]
  generalize (commentSpans tree).filter (·.stop ≤ headerLimit tree source) = header at *
  obtain ⟨first, hfirst⟩ : ∃ first, header.head? = some first :=
    ⟨_, List.head?_eq_some_head (List.ne_nil_of_mem hmem)⟩
  obtain ⟨last, hlast⟩ : ∃ last, header.getLast? = some last :=
    ⟨_, List.getLast?_eq_some_getLast (List.ne_nil_of_mem hmem)⟩
  simp only [hfirst, hlast]
  refine ⟨_, rfl, ?_, ?_⟩
  · obtain ⟨rest, rfl⟩ := List.head?_eq_some_iff.mp hfirst
    rw [List.pairwise_cons] at hfollow
    rcases List.mem_cons.mp hmem with rfl | hmem
    · exact Nat.le_refl _
    · exact Nat.le_trans (hin first (by simp)) (hfollow.1 c hmem)
  · obtain ⟨rest, rfl⟩ := List.getLast?_eq_some_iff.mp hlast
    rw [List.pairwise_append] at hfollow
    rcases List.mem_append.mp hmem with hmem | hmem
    · exact Nat.le_trans (hfollow.2.2 c hmem last (by simp)) (hin last (by simp))
    · obtain rfl := List.mem_singleton.mp hmem
      exact Nat.le_refl _

theorem StatementsLaid.headerLimit_le (h : StatementsLaid tree source)
    (hp : p ∈ placedStatements tree source) : headerLimit tree source ≤ p.bounds.start := by
  have hinside := h.inside
  have hordered := h.ordered
  rw [placedStatements] at hp
  rw [statementSpans] at hinside hordered
  rw [headerLimit]
  generalize statements tree = ts at *
  cases ts with
  | nil => cases hp
  | cons t ts =>
    have hnone : ∀ b ∈ (none : Option Span), (statementSpan t).start ≤ b.stop := by simp
    refine le_bounds_start hnone (fun s hs => ⟨?_, (hinside s hs).1⟩) hordered hp
    rcases List.mem_cons.mp hs with rfl | hs
    · exact Nat.le_refl _
    · exact Nat.le_trans (hinside _ (by simp)).1 ((List.pairwise_cons.mp hordered).1 s hs)

end

/-! ## Comments between statements -/

/-- Comments that are in order are not moved. -/
theorem commentSpans_eq {tree : Tree} {spans : List Span}
    (h : (tree.get "comments").items.filterMap Tree.span? = spans)
    (hsorted : spans.Pairwise fun c d => c.before d) : commentSpans tree = spans := by
  rw [commentSpans, h, List.mergeSort_of_pairwise hsorted]

/-- A script with a header, and with two comments after a statement, the first of which spans lines. -/
def remarkedScript : String :=
  "// h\na; /* x\n */ /* y */\nb;\n"

theorem remarkedScript_laid :
    ∃ tree p q, Script.parse remarkedScript true = .ok tree ∧
      StatementsLaid tree remarkedScript ∧ CommentsLaid tree remarkedScript ∧
      headerLimit tree remarkedScript = 5 ∧ commentSpans tree = [⟨0, 4⟩, ⟨8, 16⟩, ⟨17, 24⟩] ∧
      placedStatements tree remarkedScript = [p, q] ∧
      (p.span, p.bounds) = (⟨5, 7⟩, ⟨5, 24⟩) ∧ (q.span, q.bounds) = (⟨25, 27⟩, ⟨17, 27⟩) := by
  -- Sorting is not evaluated: the comments stand in order in the tree already.
  have hread : (Script.parse remarkedScript true).toOption.map (fun t =>
      (headerLimit t remarkedScript, (t.get "comments").items.filterMap Tree.span?,
        (placeFrom [⟨0, 4⟩, ⟨8, 16⟩, ⟨17, 24⟩] (Text.ofString remarkedScript).points none
          (statements t)).map fun p => (p.span, p.bounds))) =
      some (5, [⟨0, 4⟩, ⟨8, 16⟩, ⟨17, 24⟩], [(⟨5, 7⟩, ⟨5, 24⟩), (⟨25, 27⟩, ⟨17, 27⟩)]) := by
    decide +kernel
  cases hparse : Script.parse remarkedScript true with
  | error fault =>
    rw [hparse] at hread
    cases hread
  | ok tree =>
    rw [hparse] at hread
    obtain ⟨hlimit, hvalue⟩ := Prod.mk.inj (Option.some.inj hread)
    obtain ⟨hraw, hplaced⟩ := Prod.mk.inj hvalue
    have hcomments : commentSpans tree = [⟨0, 4⟩, ⟨8, 16⟩, ⟨17, 24⟩] :=
      commentSpans_eq hraw (by simp [Span.before])
    rw [← hcomments] at hplaced
    have hspans : statementSpans tree = [⟨5, 7⟩, ⟨25, 27⟩] := by
      have hfirst := congrArg (List.map Prod.fst) hplaced
      rw [List.map_map] at hfirst
      exact map_span_placeFrom.symm.trans hfirst
    obtain ⟨p, _, hp, hbounds, hrest⟩ := List.map_eq_cons_iff.mp hplaced
    obtain ⟨q, _, rfl, hbounds', hnil⟩ := List.map_eq_cons_iff.mp hrest
    cases List.map_eq_nil_iff.mp hnil
    refine ⟨tree, p, q, rfl, ⟨?_, ?_⟩, ⟨?_, ?_⟩, hlimit, hcomments, hp, hbounds, hbounds'⟩
    · rw [hspans]
      decide
    · rw [hspans]
      decide
    · rw [hcomments]
      decide
    · rw [hcomments]
      simp [Span.Apart]

/-- **No comment between statements is left out.** A comment before the first statement lies within the
header. A comment between two statements in a row lies within the bounds of the first, or between the
start of the bounds of the second and that statement. -/
theorem comments_all_attached {tree : Tree} {source : Text} (hs : StatementsLaid tree source)
    (hc : CommentsLaid tree source) :
    (∀ c ∈ commentSpans tree, c.stop ≤ headerLimit tree source →
      ∃ header, headerComments? tree source = some (header.of source) ∧ c.Within header) ∧
    ∀ (i : Nat) (p q : Placed), (placedStatements tree source)[i]? = some p →
      (placedStatements tree source)[i + 1]? = some q →
      ∀ c ∈ commentSpans tree, p.span.stop ≤ c.start → c.stop ≤ q.span.start →
        c.Within p.bounds ∨ c.Within ⟨q.bounds.start, q.span.start⟩ := by
  have hin : ∀ c ∈ commentSpans tree, c.start ≤ c.stop := fun c h => (hc.inside c h).1
  refine ⟨fun c hmem hlimit => ?_, fun i p q hp hq c hmem hstart hstop => ?_⟩
  · obtain ⟨header, hheader, hwithin⟩ := hc.within_header hmem hlimit
    exact ⟨header, by rw [headerComments?_eq, hheader, Option.map_some], hwithin⟩
  · obtain ⟨hpstop, hqstart⟩ := bounds_of_neighbours hp hq
    have hspan := span_within_bounds hin (List.mem_of_getElem? hp)
    have hordered := (hs.span_inside (List.mem_of_getElem? hp)).1
    rcases trails_or_breaks hin hc.follow hmem hstart hstop with htrails | hbreaks
    · left
      exact ⟨Nat.le_trans hspan.1 (Nat.le_trans hordered hstart), hpstop ▸ htrails⟩
    · right
      refine ⟨?_, hstop⟩
      rw [hqstart]
      exact leadingStart_le_of_leads hin hc.follow hmem ⟨hstart, hstop, hbreaks⟩

/-- The comments of a script all find their place: one in the header, and two after a statement. -/
theorem comments_of_remarkedScript :
    ∃ tree p q, Script.parse remarkedScript true = .ok tree ∧
      StatementsLaid tree remarkedScript ∧ CommentsLaid tree remarkedScript ∧
      placedStatements tree remarkedScript = [p, q] ∧
      (∃ header, headerComments? tree remarkedScript = some (header.of remarkedScript) ∧
        (⟨0, 4⟩ : Span).Within header) ∧
      ∀ c ∈ ([⟨8, 16⟩, ⟨17, 24⟩] : List Span),
        c.Within p.bounds ∨ c.Within ⟨q.bounds.start, q.span.start⟩ := by
  obtain ⟨tree, p, q, hparse, hs, hc, hlimit, hcomments, hplaced, hp, hq⟩ := remarkedScript_laid
  obtain ⟨hheader, hbetween⟩ := comments_all_attached hs hc
  refine ⟨tree, p, q, hparse, hs, hc, hplaced, hheader ⟨0, 4⟩ (by simp [hcomments]) ?_, ?_⟩
  · rw [hlimit]
    decide
  · intro c hmem
    refine hbetween 0 p q (by rw [hplaced]; rfl) (by rw [hplaced]; rfl) c ?_ ?_ ?_
    · rw [hcomments]
      exact List.mem_cons_of_mem _ hmem
    · rw [(Prod.mk.inj hp).1]
      revert c
      decide
    · rw [(Prod.mk.inj hq).1]
      revert c
      decide

/-- **When a comment goes with two statements.** The bounds of two statements in a row lie apart exactly
if no comment that trails the first one comes after a comment that spans lines. The header lies before all
bounds. -/
theorem neighbours_apart_iff {tree : Tree} {source : Text} (hs : StatementsLaid tree source)
    (hc : CommentsLaid tree source) :
    (∀ (i : Nat) (p q : Placed), (placedStatements tree source)[i]? = some p →
      (placedStatements tree source)[i + 1]? = some q →
      (p.bounds.stop ≤ q.bounds.start ↔
        ∀ c ∈ commentSpans tree, ∀ d ∈ commentSpans tree, p.span.stop ≤ c.start → c.stop ≤ d.start →
          d.start < p.bounds.stop → breaksBetween source.points c.start c.stop = false)) ∧
    ∀ header, headerSpan? tree source = some header →
      headerComments? tree source = some (header.of source) ∧
        ∀ p ∈ placedStatements tree source, header.stop ≤ p.bounds.start := by
  have hin : ∀ c ∈ commentSpans tree, c.start ≤ c.stop := fun c h => (hc.inside c h).1
  refine ⟨fun i p q hp hq => ?_, fun header hheader => ⟨?_, fun p hp => ?_⟩⟩
  · obtain ⟨hpstop, hqstart⟩ := bounds_of_neighbours hp hq
    rw [hpstop, hqstart, ← Nat.not_lt,
      leadingStart_lt_iff hin hc.follow (hs.neighbours_ordered hp hq)]
    simp only [not_exists, not_and, ← Bool.not_eq_true]
    constructor
    · intro h c hc d hd hstart hcd hlt hbreak
      exact h c hc d hd hstart hbreak hcd hlt
    · intro h c hc d hd hstart hbreak hcd hlt
      exact h c hc d hd hstart hcd hlt hbreak
  · rw [headerComments?_eq, hheader, Option.map_some]
  · exact Nat.le_trans (headerSpan?_stop_le hheader) (hs.headerLimit_le hp)

/-- The comment that follows one that spans lines goes with the statement before and with the one
after. -/
theorem comment_of_two_statements :
    ∃ tree p q, Script.parse remarkedScript true = .ok tree ∧
      StatementsLaid tree remarkedScript ∧ CommentsLaid tree remarkedScript ∧
      placedStatements tree remarkedScript = [p, q] ∧ ¬ p.bounds.stop ≤ q.bounds.start ∧
      (⟨17, 24⟩ : Span).Within p.bounds ∧ (⟨17, 24⟩ : Span).Within q.bounds := by
  obtain ⟨tree, p, q, hparse, hs, hc, -, hcomments, hplaced, hp, hq⟩ := remarkedScript_laid
  obtain ⟨hpspan, hpbounds⟩ := Prod.mk.inj hp
  have hiff := (neighbours_apart_iff hs hc).1 0 p q (by rw [hplaced]; rfl) (by rw [hplaced]; rfl)
  refine ⟨tree, p, q, hparse, hs, hc, hplaced, fun happart => ?_, ?_, ?_⟩
  · have hbreak := hiff.mp happart ⟨8, 16⟩ (by simp [hcomments]) ⟨17, 24⟩ (by simp [hcomments])
      (by simp [hpspan]) (by decide) (by simp [hpbounds])
    exact absurd hbreak (by decide)
  · rw [hpbounds]
    exact ⟨by decide, by decide⟩
  · rw [(Prod.mk.inj hq).2]
    exact ⟨by decide, by decide⟩

end ClassComponent
