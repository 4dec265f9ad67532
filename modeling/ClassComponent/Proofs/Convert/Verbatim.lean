import ClassComponent.Proofs.Convert.Origin

/-!
# Strings and templates survive every move

The text of a node is masked, moved any number of times and unmasked at the very end
(`Origin.movedText`). `movedText_keeps_verbatim` says what that does to the script's text of the node:

* the first line stays, and so does every line that starts inside a string or template;
* any other line may get other blanks before it, and is emptied if it is blank;
* every string and template of the node stands in the result, unchanged and in order.

A script masks its line breaks in a way that unmasking undoes point by point (`Origin.masks_of?`); all
else follows from the laws of masked texts.
-/

namespace ClassComponent

open Text

/-- What the spans of the strings and templates of a script are like: they lie inside the script and
apart from each other, and none of them starts with a blank. -/
structure TokenSpans (source : List CodePoint) (spans : List Span) : Prop where
  inside : ∀ s ∈ spans, s.start < s.stop ∧ s.stop ≤ source.length
  apart : spans.Pairwise fun s t => s.stop ≤ t.start ∨ t.stop ≤ s.start
  opens : ∀ s ∈ spans, ∀ p, source[s.start]? = some p → isBlankPoint p = false

theorem Span.getElem?_of_slice {α : Type} {s : Span} {xs : List α} {i : Nat} {x : α}
    (h : (s.slice xs)[i]? = some x) : xs[s.start + i]? = some x := by
  rw [getElem?_slice] at h
  split at h
  · exact h
  · cases h

namespace Origin

/-! ## Moving the text of a node -/

/-- The text of a node, moved to each of `indents` in turn, with all line breaks put back. -/
def movedText (o : Origin) (t : Tree) (indents : List Text) : Text :=
  o.restore (indents.foldl Text.reindent (o.text t))

/-- The spans that lie inside `node`, in the order of the script. -/
def innerSpans (spans : List Span) (node : Span) : List Span :=
  (spans.filter fun s => node.start ≤ s.start && s.stop ≤ node.stop).mergeSort Span.before

theorem mem_innerSpans {spans : List Span} {node s : Span} :
    s ∈ innerSpans spans node ↔ s ∈ spans ∧ node.start ≤ s.start ∧ s.stop ≤ node.stop := by
  simp [innerSpans]

theorem pairwise_innerSpans {source : List CodePoint} {spans : List Span}
    (h : TokenSpans source spans) (node : Span) :
    (innerSpans spans node).Pairwise fun s t => s.stop ≤ t.start := by
  refine Span.pairwise_follow_mergeSort (fun s hs => ?_) (h.apart.filter _)
  exact Nat.le_of_lt (h.inside s (List.mem_of_mem_filter hs)).1

section

variable {source : Text} {tokens : List Tree} {o : Origin} {t : Tree} {node : Span}
  {indents : List Text}

theorem text_points (hn : t.span? = some node) : (o.text t).points = node.slice o.masked.points := by
  simp [text, hn, Span.of]

/-- The lines of a node's text before and after it is moved, still masked. -/
theorem splitLines_foldl (text : Text) (hi : ∀ i ∈ indents, IsIndent i.points) :
    ∃ first rest rest', splitLines text.points = first :: rest ∧
      splitLines (indents.foldl Text.reindent text).points = first :: rest' ∧
      (indents = [] → rest' = rest) ∧ (indents ≠ [] → List.Forall₂ Moved rest rest') := by
  cases indents with
  | nil =>
    obtain ⟨first, rest, h⟩ := List.exists_cons_of_ne_nil (splitLines_ne_nil text.points)
    exact ⟨first, rest, rest, h, h, fun _ => rfl, fun hne => absurd rfl hne⟩
  | cons indent indents =>
    obtain ⟨first, rest, rest', h, h', hm⟩ := reindented_foldl indent indents hi text
    exact ⟨first, rest, rest', h, h', by simp, fun _ => hm⟩

theorem opens_slice (ht : TokenSpans source.points (verbatimSpans tokens)) (node : Span) :
    Masks.Opens (verbatimSpans tokens) node.start (node.slice source.points) := by
  intro s hs hpos p hp
  have := Span.getElem?_of_slice hp
  rw [show node.start + (s.start - node.start) = s.start by omega] at this
  exact ht.opens s hs p this

/-- The lines of the script's text of a node are moved; lines that start inside a string or template
are parts of other lines. -/
theorem movedText_lines (ho : of? source tokens = some o)
    (ht : TokenSpans source.points (verbatimSpans tokens)) (hn : t.span? = some node)
    (hi : ∀ i ∈ indents, IsIndent i.points) :
    ∃ first rest rest',
      outerLines (verbatimSpans tokens) node.start (node.slice source.points) = first :: rest ∧
      node.slice source.points = joinLines (first :: rest) ∧
      (o.movedText t indents).points = joinLines (first :: rest') ∧
      (indents = [] → rest' = rest) ∧ (indents ≠ [] → List.Forall₂ Moved rest rest') := by
  obtain ⟨f, hrestore, hf, hmasks⟩ := masks_of? ho
  have hblank : ∀ p, isBlankPoint p → f p = p := fun _ => hf.blank
  obtain ⟨first, rest, rest', h, h', hnone, hsome⟩ := splitLines_foldl (o.text t) hi
  rw [text_points hn] at h
  have hslice := hmasks.slice node
  have houter : outerLines (verbatimSpans tokens) node.start (node.slice source.points) =
      first.map f :: rest.map (List.map f) := by
    rw [← hslice.splitLines, h, List.map_cons]
  refine ⟨first.map f, rest.map (List.map f), rest'.map (List.map f), houter, ?_, ?_, ?_, ?_⟩
  · rw [← houter, joinLines_outerLines]
  · rw [movedText, hrestore, ← joinLines_splitLines (indents.foldl Text.reindent (o.text t)).points,
      h', map_joinLines (hblank _ isBlankPoint_lineBreak), List.map_cons]
  · exact fun hne => by rw [hnone hne]
  · exact fun hne =>
      forall₂_moved_map hblank (hslice.allBlank_lines (opens_slice ht node) h).1 (hsome hne)

/-- Strings and templates stand in the moved text, unchanged and in order. -/
theorem movedText_pieces (ho : of? source tokens = some o)
    (ht : TokenSpans source.points (verbatimSpans tokens)) (hn : t.span? = some node)
    (hi : ∀ i ∈ indents, IsIndent i.points) :
    InOrder ((innerSpans (verbatimSpans tokens) node).map (·.slice source.points))
      (o.movedText t indents).points := by
  obtain ⟨f, hrestore, -, hmasks⟩ := masks_of? ho
  have hsolid : ∀ piece ∈ (innerSpans (verbatimSpans tokens) node).map (·.slice o.masked.points),
      Solid piece := by
    intro piece hpiece
    obtain ⟨s, hs, rfl⟩ := List.mem_map.mp hpiece
    have hmem := (mem_innerSpans.mp hs).1
    obtain ⟨hstart, hstop⟩ := ht.inside s hmem
    have hp := List.getElem?_eq_getElem (Nat.lt_of_lt_of_le hstart hstop)
    exact hmasks.solid hmem hstart hp (ht.opens s hmem _ hp)
  have hpieces : InOrder ((innerSpans (verbatimSpans tokens) node).map (·.slice o.masked.points))
      (o.text t).points := by
    rw [text_points hn]
    refine inOrder_slices o.masked.points (fun s hs => ?_) (pairwise_innerSpans ht node)
    obtain ⟨hmem, h₁, h₂⟩ := mem_innerSpans.mp hs
    exact ⟨h₁, Nat.le_of_lt (ht.inside s hmem).1, h₂⟩
  have hmoved := (InOrder.foldl_reindent hsolid hi hpieces).map f
  rw [← hrestore, List.map_map] at hmoved
  have hback : (innerSpans (verbatimSpans tokens) node).map (·.slice source.points) =
      (innerSpans (verbatimSpans tokens) node).map (List.map f ∘ (·.slice o.masked.points)) :=
    List.map_congr_left fun s _ => (hmasks.slice s).map_eq.symm
  rw [hback]
  exact hmoved

end

end Origin

/-- **Strings and templates survive every move.** A script can be masked unless every private-use
character occurs in it. Let then the text of a node be moved to any indentations, one after the other.
Cut the text at the line breaks before lines that start outside every string and template: the first
line stays as it is in the script, and any other line at most gets other blanks before it; a move also
empties the blank ones. Every string and template of the node stands in the result, unchanged and in
order. -/
theorem movedText_keeps_verbatim {source : Text} {tokens : List Tree}
    (ht : TokenSpans source.points (Origin.verbatimSpans tokens)) :
    ((∃ c ∈ markerCandidates, CodePoint.char c ∉ source.points) →
      ∃ o, Origin.of? source tokens = some o) ∧
    ∀ o, Origin.of? source tokens = some o → ∀ (t : Tree) (node : Span), t.span? = some node →
      ∀ indents : List Text, (∀ i ∈ indents, IsIndent i.points) →
        (∃ first rest rest',
          outerLines (Origin.verbatimSpans tokens) node.start (node.slice source.points) =
            first :: rest ∧
          node.slice source.points = joinLines (first :: rest) ∧
          (o.movedText t indents).points = joinLines (first :: rest') ∧
          (indents = [] → rest' = rest) ∧ (indents ≠ [] → List.Forall₂ Moved rest rest')) ∧
        InOrder ((Origin.innerSpans (Origin.verbatimSpans tokens) node).map (·.slice source.points))
          (o.movedText t indents).points := by
  refine ⟨Origin.exists_of?, ?_⟩
  intro o ho t node hn indents hi
  exact ⟨Origin.movedText_lines ho ht hn hi, Origin.movedText_pieces ho ht hn hi⟩

/-- A block with a template of two lines in it is moved to the right, and then back. -/
theorem movedText_keeps_template :
    TokenSpans (Text.ofString "\x7b\n  a = `x\n y`\n \n\x7d").points [⟨8, 14⟩] ∧
    ∃ o, Origin.of? "\x7b\n  a = `x\n y`\n \n\x7d" [Tree.make "Template" ⟨8, 14⟩ []] = some o ∧
      o.movedText (Tree.make "BlockStatement" ⟨0, 18⟩ []) ["        ", "    "] =
        "\x7b\n      a = `x\n y`\n\n    \x7d" ∧
      InOrder [(Text.ofString "`x\n y`").points]
        (o.movedText (Tree.make "BlockStatement" ⟨0, 18⟩ []) ["        ", "    "]).points := by
  have ht : TokenSpans (Text.ofString "\x7b\n  a = `x\n y`\n \n\x7d").points
      (Origin.verbatimSpans [Tree.make "Template" ⟨8, 14⟩ []]) :=
    ⟨by decide, by decide, by decide⟩
  have hfree : ∃ c ∈ markerCandidates,
      CodePoint.char c ∉ (Text.ofString "\x7b\n  a = `x\n y`\n \n\x7d").points :=
    ⟨Char.ofNat 0xE000, List.mem_map_of_mem (by simp), by decide⟩
  obtain ⟨o, ho⟩ := (movedText_keeps_verbatim ht).1 hfree
  have hkept := (movedText_keeps_verbatim ht).2 o ho (Tree.make "BlockStatement" ⟨0, 18⟩ []) ⟨0, 18⟩
    (by decide) ["        ", "    "] (by decide)
  have hspans : Origin.verbatimSpans [Tree.make "Template" ⟨8, 14⟩ []] = [⟨8, 14⟩] := by decide
  have hinner : Origin.innerSpans [⟨8, 14⟩] ⟨0, 18⟩ = [⟨8, 14⟩] := by simp [Origin.innerSpans]
  rw [hspans] at ht hkept
  rw [hinner] at hkept
  refine ⟨ht, o, ho, ?_, hkept.2⟩
  cases ho
  decide +kernel

end ClassComponent
