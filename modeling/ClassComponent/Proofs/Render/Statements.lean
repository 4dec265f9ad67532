import ClassComponent.Proofs.Convert.Options
import ClassComponent.Proofs.Convert.Origin
import ClassComponent.Proofs.Render.Comments
import ClassComponent.Proofs.Render.ImportLines
import ClassComponent.Render.Module

/-!
# Statements that stay outside the class

Statements of the script stand in the module once, and as they stand in the script, with their comments: first
the imports that are kept, then the other ones (`statements_kept_verbatim`). Above them are the comments before
the first statement and the imports that the class needs, below them the statements of the data function and
the class (`Component.renderMasked_eq`).

* **Replaced callees** (`replaceCallees_points`): callees are replaced from the last to the first, so that
  offsets stay valid. If they lie apart, that is the same as replacing all of them at once (`respelled`).
* **Line breaks** (`Origin.restore_intercalate`): the last step puts masked line breaks back, everywhere.
  What masks them does not occur in the script, so the statements of the script are not touched.
-/

namespace ClassComponent

open Text

/-! ## Replaced callees -/

/-- The name that takes the place of a callee. -/
def replacement : List CodePoint :=
  (Text.ofString StoreTool.scope.name).points

/-- `text`, which begins at offset `pos`, with another name in the place of each of `callees`, which
follow each other. -/
def respelled : Nat → List CodePoint → List Span → List CodePoint
  | _, text, [] => text
  | pos, text, c :: callees =>
    text.take (c.start - pos) ++ replacement ++ respelled c.stop (text.drop (c.stop - pos)) callees

theorem points_spliceCallee (start : Nat) (text : Text) (c : Span) :
    (spliceCallee start text c).points =
      text.points.take (c.start - start) ++ replacement ++ text.points.drop (c.stop - start) :=
  rfl

/-- Nothing is replaced before the first callee. -/
theorem respelled_eq_append {pos next : Nat} {callees : List Span} (text : List CodePoint)
    (hpos : pos ≤ next) (hcallees : ∀ c ∈ callees, next ≤ c.start ∧ c.start ≤ c.stop) :
    respelled pos text callees =
      text.take (next - pos) ++ respelled next (text.drop (next - pos)) callees := by
  cases callees with
  | nil => exact (List.take_append_drop _ _).symm
  | cons c callees =>
    obtain ⟨hstart, hstop⟩ := hcallees c (by simp)
    have htake : c.start - pos = (next - pos) + (c.start - next) := by omega
    have hdrop : c.stop - pos = (next - pos) + (c.stop - next) := by omega
    simp only [respelled, htake, hdrop, List.take_add, List.drop_drop, List.append_assoc]

/-- Callees that follow each other can be replaced one after the other, from the last to the first. -/
theorem points_foldr_spliceCallee {pos : Nat} {text : Text} {callees : List Span}
    (hin : ∀ c ∈ callees, pos ≤ c.start ∧ c.start ≤ c.stop ∧ c.stop ≤ pos + text.length)
    (hfollow : callees.Pairwise fun c d => c.stop ≤ d.start) :
    (callees.foldr (fun c t => spliceCallee pos t c) text).points =
      respelled pos text.points callees := by
  induction callees with
  | nil => rfl
  | cons c callees ih =>
    obtain ⟨hpos, hstart, hstop⟩ := hin c (by simp)
    rw [List.pairwise_cons] at hfollow
    have hlater : ∀ d ∈ callees, c.stop ≤ d.start ∧ d.start ≤ d.stop := fun d hd =>
      ⟨hfollow.1 d hd, (hin d (by simp [hd])).2.1⟩
    have hrest := ih (fun d hd => hin d (by simp [hd])) hfollow.2
    have hlength : c.stop - pos ≤ text.points.length := by
      have : c.stop ≤ pos + text.points.length := hstop
      omega
    -- The later callees leave everything up to the end of `c` as it is.
    have hbefore := respelled_eq_append text.points (Nat.le_trans hpos hstart) hlater
    have hpiece : (text.points.take (c.stop - pos)).length = c.stop - pos :=
      List.length_take_of_le hlength
    rw [List.foldr_cons, points_spliceCallee, hrest, hbefore, respelled]
    congr 1
    · rw [List.take_append_of_le_length (by omega), List.take_take, Nat.min_eq_left (by omega)]
    · rw [List.drop_append_of_le_length (by omega), List.drop_of_length_le (by omega), List.nil_append]

/-- **Callees are replaced all at once**, if they lie apart from each other inside the text. -/
theorem replaceCallees_points {start : Nat} {text : Text} {callees : List Span}
    (hin : ∀ c ∈ callees, start ≤ c.start ∧ c.start ≤ c.stop ∧ c.stop ≤ start + text.length)
    (hapart : callees.Pairwise Span.Apart) :
    (replaceCallees start text callees).points =
      respelled start text.points (callees.mergeSort Span.before) := by
  have hin' : ∀ c ∈ callees.mergeSort Span.before,
      start ≤ c.start ∧ c.start ≤ c.stop ∧ c.stop ≤ start + text.length :=
    fun c hc => hin c (List.mem_mergeSort.mp hc)
  rw [replaceCallees, List.foldl_reverse]
  exact points_foldr_spliceCallee hin' (Span.pairwise_follow_mergeSort (fun c hc => (hin c hc).2.1) hapart)

/-! ## Code points of statements -/

theorem mem_of_mem_of {p : CodePoint} {s : Span} {source : Text} (hp : p ∈ (s.of source).points) :
    p ∈ source.points :=
  List.mem_of_mem_take (List.mem_of_mem_drop hp)

/-- A statement holds code points of the script, and of the name that takes the place of callees. -/
theorem mem_replaceCallees {p : CodePoint} {start : Nat} {text : Text} {callees : List Span}
    (hp : p ∈ (replaceCallees start text callees).points) : p ∈ text.points ∨ p ∈ replacement := by
  rw [replaceCallees] at hp
  generalize (callees.mergeSort Span.before).reverse = spans at hp
  induction spans generalizing text with
  | nil => exact .inl hp
  | cons c spans ih =>
    rcases ih hp with h | h
    · rw [points_spliceCallee, List.mem_append, List.mem_append] at h
      rcases h with (h | h) | h
      · exact .inl (List.mem_of_mem_take h)
      · exact .inr h
      · exact .inl (List.mem_of_mem_drop h)
    · exact .inr h

/-- The comments before the first statement are a part of the script. -/
theorem span_of_headerComments? {tree : Tree} {source header : Text}
    (h : headerComments? tree source = some header) : ∃ s : Span, header = s.of source := by
  unfold headerComments? at h
  dsimp only at h
  split at h
  · cases h
    exact ⟨_, rfl⟩
  · cases h

/-! ## Line breaks that are put back -/

namespace Origin

variable {source : Text} {tokens : List Tree} {o : Origin}

/-- Line breaks are put back line by line. -/
theorem restore_intercalate (ho : of? source tokens = some o) (texts : List Text) :
    o.restore (Text.intercalate "\n" texts ++ "\n") =
      Text.intercalate "\n" (texts.map o.restore) ++ "\n" := by
  obtain ⟨f, hrestore, hf, -⟩ := masks_of? ho
  have hbreak : f lineBreak = lineBreak := hf.blank isBlankPoint_lineBreak
  refine eq_of_points ?_
  have hlines : (texts.map o.restore).map points = (texts.map points).map (List.map f) := by
    rw [List.map_map, List.map_map]
    exact List.map_congr_left fun text _ => hrestore text
  calc (o.restore (Text.intercalate "\n" texts ++ "\n")).points
      = (joinLines (texts.map points) ++ [lineBreak]).map f := hrestore _
    _ = joinLines ((texts.map points).map (List.map f)) ++ [lineBreak] := by
      rw [List.map_append, map_joinLines hbreak, List.map_singleton, hbreak]
    _ = (Text.intercalate "\n" (texts.map o.restore) ++ "\n").points := by
      rw [← hlines]
      rfl

theorem restore_of_span (ho : of? source tokens = some o) (s : Span) :
    o.restore (s.of source) = s.of source :=
  restore_eq_self ho fun _ hp => .inl (mem_of_mem_of hp)

theorem restore_renderStatement (ho : of? source tokens = some o) (p : Placed) :
    o.restore (renderStatement source p) = renderStatement source p := by
  have hbelow : ∀ q ∈ replacement, q.toNat < 0xE000 := by decide
  exact restore_eq_self ho fun q hq => (mem_replaceCallees hq).imp mem_of_mem_of (hbelow q)

theorem restore_neededLine (ho : of? source tokens = some o) {c : Component} {line : String}
    (hline : line ∈ c.neededLines) : o.restore line = line := by
  refine restore_eq_self ho fun p hp => .inr ?_
  obtain ⟨d, hd, rfl⟩ := List.mem_map.mp hp
  exact Nat.lt_trans (Component.toNat_lt_of_mem_neededLines hline hd) (by decide)

end Origin

/-! ## Statements that are kept -/

theorem map_node_placeFrom {comments : List Span} {source : List CodePoint} {before? : Option Span}
    {ts : List Tree} : (placeFrom comments source before? ts).map (·.node) = ts := by
  induction ts generalizing before? with
  | nil => rfl
  | cons t ts ih => exact congrArg (t :: ·) ih

theorem node_of_mem_placeFrom {comments : List Span} {source : List CodePoint} {before? : Option Span}
    {ts : List Tree} {p : Placed} (hp : p ∈ placeFrom comments source before? ts) :
    p.node ∈ ts ∧ p.span = statementSpan p.node := by
  induction ts generalizing before? with
  | nil => cases hp
  | cons t ts ih =>
    rcases List.mem_cons.mp hp with rfl | hp
    · exact ⟨List.mem_cons_self, rfl⟩
    · exact (ih hp).imp_left (List.mem_cons_of_mem t)

theorem isKeptImport_iff {t : Tree} :
    isKeptImport t ↔ t.kind = "ImportDeclaration" ∧
      ∀ name : String, importedModule t = name →
        LetterCase.lower name ≠ "vue" ∧ LetterCase.lower name ≠ "vuex" := by
  rw [isKeptImport, Bool.and_eq_true, beq_iff_eq]
  refine and_congr_right fun _ => ?_
  cases hname : (importedModule t).toString? with
  | none =>
    refine ⟨fun _ name h => ?_, fun _ => rfl⟩
    rw [toString?_eq_some_iff.mpr h] at hname
    cases hname
  | some name =>
    rw [toString?_eq_some_iff] at hname
    have hother : ∀ other : String, importedModule t = other ↔ other = name := fun other =>
      ⟨fun h => ofString_injective (h.symm.trans hname), fun h => h ▸ hname⟩
    simp [hother, frameworkModules]

theorem isOuterStatement_iff {t : Tree} :
    isOuterStatement t ↔ t.kind ≠ "ImportDeclaration" ∧ t.kind ≠ "ExportDefaultDeclaration" := by
  simp [isOuterStatement]

/-- The texts of those statements that are kept: imports, and then the other ones. -/
def keptTexts (source : Text) (placed : List Placed) : List Text :=
  (placed.filter fun p => isKeptImport p.node).map (·.bounds.of source) ++
    (placed.filter fun p => isOuterStatement p.node).map (renderStatement source)

theorem Origin.restore_keptTexts {source : Text} {tokens : List Tree} {o : Origin}
    (ho : of? source tokens = some o) (placed : List Placed) :
    (keptTexts source placed).map o.restore = keptTexts source placed := by
  rw [keptTexts, List.map_append, List.map_map, List.map_map]
  refine congrArg₂ _ ?_ ?_
  · exact List.map_congr_left fun p _ => restore_of_span ho p.bounds
  · exact List.map_congr_left fun p _ => restore_renderStatement ho p

namespace Component

/-- What stands in the module above these texts: the comments before the first statement, and the imports
that the class needs. -/
def textsAbove (c : Component) (tree : Tree) (source : Text) : List Text :=
  ((headerComments? tree source).filter (!·.isEmpty)).toList ++ c.neededLines.map Text.ofString

/-- What stands below them, before line breaks are put back: the statements of the data function, and the
class with its comments. -/
def textsBelow (c : Component) (tree : Tree) (source file fallback : Text) : List Text :=
  c.hoisted.map (Text.reindent · "") ++ [classComments tree source ++ c.renderClass (c.className file fallback)]

theorem renderMasked_eq (c : Component) (tree : Tree) (source file fallback : Text) :
    c.renderMasked tree source file fallback =
      Text.intercalate "\n" (c.textsAbove tree source ++ keptTexts source (placedStatements tree source) ++
        c.textsBelow tree source file fallback) ++ "\n" := by
  simp only [renderMasked, importLines, textsAbove, textsBelow, keptTexts, keptImports, outerStatements,
    List.append_assoc]

theorem restore_textsAbove {source : Text} {tokens : List Tree} {o : Origin}
    (ho : Origin.of? source tokens = some o) (c : Component) (tree : Tree) :
    (c.textsAbove tree source).map o.restore = c.textsAbove tree source := by
  refine (List.map_congr_left fun text htext => ?_).trans (List.map_id' _)
  rcases List.mem_append.mp htext with htext | htext
  · obtain ⟨span, rfl⟩ := span_of_headerComments?
      (Option.mem_filter_iff.mp (Option.mem_toList.mp htext)).1
    exact Origin.restore_of_span ho span
  · obtain ⟨line, hline, rfl⟩ := List.mem_map.mp htext
    exact Origin.restore_neededLine ho hline

/-- Putting line breaks back changes the module below the statements that are kept only. -/
theorem ReadFrom.render_eq {s : Situation} {tree : Tree} {c : Component} (h : c.ReadFrom s tree)
    {source : Text} {tokens : List Tree} (ho : Origin.of? source tokens = some s.origin)
    (hc : c.isConverted) (file fallback : Text) :
    c.render tree source file fallback =
      Text.intercalate "\n" (c.textsAbove tree source ++ keptTexts source (placedStatements tree source) ++
        (c.textsBelow tree source file fallback).map (Text.restoreLineBreaks · c.marker)) ++ "\n" := by
  rw [render, if_pos hc, renderMasked_eq, h.marker]
  refine (Origin.restore_intercalate ho _).trans ?_
  rw [List.map_append, List.map_append, restore_textsAbove ho, Origin.restore_keptTexts ho]
  rfl

end Component

/-- The text of a statement is that of the script within its bounds, with all callees replaced, if these
lie apart from each other inside the statement. -/
theorem StatementsLaid.points_renderStatement {tree : Tree} {source : Text}
    (h : StatementsLaid tree source) (hcomments : ∀ c ∈ commentSpans tree, c.start ≤ c.stop)
    {p : Placed} (hp : p ∈ placedStatements tree source)
    (hin : ∀ c ∈ namespaceCallees p.node, c.start ≤ c.stop ∧ c.Within p.span)
    (hapart : (namespaceCallees p.node).Pairwise Span.Apart) :
    (renderStatement source p).points =
      respelled p.bounds.start (p.bounds.of source).points
        ((namespaceCallees p.node).mergeSort Span.before) := by
  have hbounds := span_within_bounds hcomments hp
  have hspan := h.span_inside hp
  refine replaceCallees_points (fun c hc => ?_) hapart
  obtain ⟨hforward, hwithin⟩ := hin c hc
  have hlength : (p.bounds.of source).length = min p.bounds.stop source.length - p.bounds.start :=
    Span.length_slice p.bounds source.points
  rw [Span.Within] at *
  omega

/-- **Statements are kept verbatim.** Let a script give a class. The module is made of the comments before
the first statement, the imports that the class needs, the statements of the script that are kept, the
statements of the data function, and the class. The statements that are kept are first the imports that name
no module of the framework, then all that are neither imports nor default exports, each group in the order of
the script. An import stands there as in the script, within its bounds, and so does any other statement,
except that callees in it are replaced. Putting masked line breaks back leaves all of them as they are. -/
theorem statements_kept_verbatim {script : Text} {tree : Tree} {file : Text} {keepsUnsupported : Bool}
    {c : Component} {events : List Event}
    (h : Component.ofScript script tree file keepsUnsupported = .ok (c, events)) (hc : c.isConverted)
    (hs : StatementsLaid tree script) (hcomments : ∀ s ∈ commentSpans tree, s.start ≤ s.stop)
    (hcallees : ∀ t ∈ statements tree, ∀ s ∈ namespaceCallees t,
      s.start ≤ s.stop ∧ s.Within (statementSpan t))
    (fallback : Text) :
    let placed := placedStatements tree script
    let imports := placed.filter fun p => isKeptImport p.node
    let others := placed.filter fun p => isOuterStatement p.node
    let kept := imports.map (·.bounds.of script) ++ others.map (renderStatement script)
    placed.map (·.node) = statements tree ∧
    (∀ p ∈ placed, p ∈ imports ↔ p.node.kind = "ImportDeclaration" ∧
      ∀ name : String, importedModule p.node = name →
        LetterCase.lower name ≠ "vue" ∧ LetterCase.lower name ≠ "vuex") ∧
    (∀ p ∈ placed, p ∈ others ↔
      p.node.kind ≠ "ImportDeclaration" ∧ p.node.kind ≠ "ExportDefaultDeclaration") ∧
    (∀ p ∈ others, (namespaceCallees p.node).Pairwise Span.Apart →
      (renderStatement script p).points =
        respelled p.bounds.start (p.bounds.of script).points
          ((namespaceCallees p.node).mergeSort Span.before)) ∧
    c.renderMasked tree script file fallback =
      Text.intercalate "\n" (c.textsAbove tree script ++ kept ++ c.textsBelow tree script file fallback) ++
        "\n" ∧
    c.render tree script file fallback =
      Text.intercalate "\n" (c.textsAbove tree script ++ kept ++
        (c.textsBelow tree script file fallback).map (Text.restoreLineBreaks · c.marker)) ++ "\n" := by
  intro placed imports others kept
  obtain ⟨origin, ho, hread⟩ := Component.ofScript_readFrom h
  refine ⟨map_node_placeFrom, fun p hp => ?_, fun p hp => ?_, fun p hp hapart => ?_,
    c.renderMasked_eq tree script file fallback, hread.render_eq ho hc file fallback⟩
  · rw [List.mem_filter, and_iff_right hp, isKeptImport_iff]
  · rw [List.mem_filter, and_iff_right hp, isOuterStatement_iff]
  · have hp : p ∈ placed := List.mem_of_mem_filter hp
    obtain ⟨hnode, hspan⟩ := node_of_mem_placeFrom hp
    exact hs.points_renderStatement hcomments hp (hspan ▸ hcallees p.node hnode) hapart

/-- A script with an import that is kept and one that is not, a callee that is replaced, and a template
that spans lines. -/
def keptScript : String :=
  "import a from \"b\"; // c\nimport Vue from \"vue\";\nconst d = createNamespacedHelpers(\"e\");\n" ++
    "export default \x7b data() \x7b return \x7b f: `g\nh` \x7d; \x7d \x7d;\n"

/-- The class of that script. -/
def keptClass : String :=
  "@Component\nexport default class Component extends Vue \x7b\n" ++
    "    public _tsx!: tsx.DeclareProps<tsx.AutoProps<this>> & tsx.DeclareOnEvents<ComEvents>;\n" ++
    "    private f = `g\nh`;\n\x7d"

/-- The import, with its comment, and the declaration stand in the module in a row, between the imports that
the class needs and the class. -/
theorem statements_of_keptScript :
    ∃ tree c events, Script.parse keptScript true = .ok tree ∧
      Component.ofScript keptScript tree "" true = .ok (c, events) ∧ c.isConverted ∧
      StatementsLaid tree keptScript ∧ commentSpans tree = [⟨19, 23⟩] ∧
      (statements tree).map (fun t => (statementSpan t, namespaceCallees t)) =
        [(⟨0, 18⟩, []), (⟨24, 46⟩, []), (⟨47, 86⟩, [⟨57, 80⟩]), (⟨87, 138⟩, [])] ∧
      c.render tree keptScript "" "Component" =
        Text.intercalate "\n"
          ([Text.ofString "import * as tsx from \"vue-tsx-support\";",
              Text.ofString "import \x7b Component, Vue \x7d from \"vue-property-decorator\";"] ++
            [Text.ofString "import a from \"b\"; // c", Text.ofString "const d = namespace(\"e\");"] ++
            [Text.ofString keptClass]) ++ "\n" := by
  have hread : (((readScript? keptScript).filter (·.2.isConverted)).map fun r =>
      (commentSpans r.1, (statements r.1).map (fun t => (statementSpan t, namespaceCallees t)),
        [r.2.textsAbove r.1 keptScript, keptTexts keptScript (placedStatements r.1 keptScript),
          (r.2.textsBelow r.1 keptScript "" "Component").map (Text.restoreLineBreaks · r.2.marker)])) =
      some ([⟨19, 23⟩],
        [(⟨0, 18⟩, []), (⟨24, 46⟩, []), (⟨47, 86⟩, [⟨57, 80⟩]), (⟨87, 138⟩, [])],
        [[Text.ofString "import * as tsx from \"vue-tsx-support\";",
            Text.ofString "import \x7b Component, Vue \x7d from \"vue-property-decorator\";"],
          [Text.ofString "import a from \"b\"; // c", Text.ofString "const d = namespace(\"e\");"],
          [Text.ofString keptClass]]) := by
    decide +kernel
  obtain ⟨⟨tree, c⟩, hfilter, hvalue⟩ := Option.map_eq_some_iff.mp hread
  obtain ⟨hscript, hconverted⟩ := Option.filter_eq_some_iff.mp hfilter
  simp only [Prod.mk.injEq, List.cons.injEq, and_true] at hvalue
  obtain ⟨hcomments, hstatements, habove, hkept, hbelow⟩ := hvalue
  obtain ⟨hparse, events, hok⟩ := ofScript_of_readScript? hscript
  have hspans : statementSpans tree = [⟨0, 18⟩, ⟨24, 46⟩, ⟨47, 86⟩, ⟨87, 138⟩] := by
    have hfirst := congrArg (List.map Prod.fst) hstatements
    rw [List.map_map] at hfirst
    exact hfirst
  have hs : StatementsLaid tree keptScript :=
    ⟨by rw [hspans]; decide +kernel, by rw [hspans]; decide⟩
  have hcallees : ∀ t ∈ statements tree, ∀ s ∈ namespaceCallees t,
      s.start ≤ s.stop ∧ s.Within (statementSpan t) := by
    intro t ht
    have hmem := List.mem_map_of_mem (f := fun t => (statementSpan t, namespaceCallees t)) ht
    rw [hstatements] at hmem
    generalize statementSpan t = span at hmem ⊢
    generalize namespaceCallees t = callees at hmem ⊢
    simp only [List.mem_cons, Prod.mk.injEq, List.not_mem_nil, or_false] at hmem
    rcases hmem with ⟨rfl, rfl⟩ | ⟨rfl, rfl⟩ | ⟨rfl, rfl⟩ | ⟨rfl, rfl⟩ <;> simp [Span.Within]
  obtain ⟨-, -, -, -, -, hrender⟩ := statements_kept_verbatim hok hconverted hs
    (by simp [hcomments]) hcallees "Component"
  refine ⟨tree, c, events, hparse, hok, hconverted, hs, hcomments, hstatements, ?_⟩
  rw [← habove, ← hkept, ← hbelow]
  exact hrender

end ClassComponent
