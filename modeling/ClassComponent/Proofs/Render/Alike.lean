import ClassComponent.Proofs.Component.Matching
import ClassComponent.Proofs.Render.Statements
import ClassComponent.Render.Module

/-!
# Classes side by side

Components that are alike (`Pairing.Alike`) are written alike: their modules have the same layout, and code points
that stand side by side in them are paired (`Alike.renderMasked`). What is not written for the component is a part of
the script, the name of its file or the fallback name, and the same in both.
-/

namespace ClassComponent

open Text

namespace Pairing

variable {P : Pairing}

/-! ## Members -/

theorem map_shown {α : Type} {R : α → α → Prop} {g : α → Text} (hg : ∀ a a', R a a' → Pointwise P.shown (g a) (g a'))
    {xs xs' : List α} (h : List.Forall₂ R xs xs') : P.ShownAll (xs.map g) (xs'.map g) :=
  List.forall₂_map_left_iff.mpr (List.forall₂_map_right_iff.mpr (h.imp hg))

theorem indented_shown {x x' : Text} (h : Pointwise P.shown x x') :
    Pointwise P.shown (indented x) (indented x') :=
  (P.literal_shown rfl).append (reindent_shown h (P.literal_shown rfl))

theorem map_indented_shown {xs xs' : List Text} (h : P.ShownAll xs xs') :
    P.ShownAll (xs.map indented) (xs'.map indented) :=
  map_shown (fun _ _ hx => indented_shown hx) h

theorem FieldsMatch.render {f f' : Field} (h : P.FieldsMatch f f') : Pointwise P.shown f.render f'.render := by
  have hwords := List.rel_append h.modifiers (.cons h.name.shown .nil)
  have hvalue := h.initializer?
  unfold Field.render
  dsimp only
  refine .intercalate (P.literal_shown rfl) (List.rel_append (map_indented_shown h.decorators) (.cons ?_ .nil))
  refine Pointwise.append (.append ((P.literal_shown rfl).append
    (.intercalate (P.literal_shown rfl) hwords)) ?_) (P.literal_shown rfl)
  generalize f.initializer? = value at hvalue
  generalize f'.initializer? = value' at hvalue
  cases hvalue with
  | none => exact P.literal_shown rfl
  | some htext =>
    dsimp only
    rw [htext.isEmpty_eq]
    split
    · exact P.literal_shown rfl
    · exact (P.literal_shown rfl).append (reindent_shown htext (P.literal_shown rfl))

theorem MethodsMatch.render {m m' : Method} (h : P.MethodsMatch m m') :
    Pointwise P.shown m.render m'.render := by
  unfold Method.render
  dsimp only
  rw [h.accessor?, h.isGenerator]
  have hwords : P.ShownAll (m.accessor?.map fun a => ofString a.word).toList
      (m.accessor?.map fun a => ofString a.word).toList := by
    cases m.accessor? with
    | none => exact .nil
    | some a =>
      cases a with
      | get => exact .cons (P.literal_shown rfl) .nil
      | set => exact .cons (P.literal_shown rfl) .nil
  have hstar : Pointwise P.shown (ofString (if m.isGenerator then "*" else ""))
      (ofString (if m.isGenerator then "*" else "")) := by
    split
    · exact P.literal_shown rfl
    · exact P.literal_shown rfl
  have hparams := Pointwise.intercalate
    (P.literal_shown rfl : Pointwise P.shown (ofString ", ") (ofString ", ")) h.params
  have hcall := (((hstar.append h.name.shown).append
    (P.literal_shown rfl : Pointwise P.shown (ofString "(") (ofString "("))).append hparams).append
    (P.literal_shown rfl : Pointwise P.shown (ofString ")") (ofString ")"))
  refine .intercalate (P.literal_shown rfl) (List.rel_append (map_indented_shown h.decorators) (.cons ?_ .nil))
  refine (Pointwise.append (.append (P.literal_shown rfl) (.intercalate (P.literal_shown rfl) ?_))
    (P.literal_shown rfl)).append (reindent_shown h.body (P.literal_shown rfl))
  exact List.rel_append (List.rel_append h.modifiers hwords) (.cons hcall .nil)

theorem MembersMatch.render {m m' : Member} (h : P.MembersMatch m m') :
    Pointwise P.shown m.render m'.render := by
  cases h with
  | field hf => exact hf.render
  | method hm => exact hm.render

theorem tool_self (P : Pairing) (tool : StoreTool) :
    Pointwise P.shown (ofString tool.name) (ofString tool.name) := by
  cases tool with
  | state => exact P.literal_shown rfl
  | mutation => exact P.literal_shown rfl
  | getter => exact P.literal_shown rfl
  | action => exact P.literal_shown rfl
  | scope => exact P.literal_shown rfl

theorem BindingsMatch.toField {b b' : StoreBinding} (h : P.BindingsMatch b b') :
    P.FieldsMatch b.toField b'.toField where
  name := h.name
  modifiers := .cons (P.literal_shown rfl) .nil
  initializer? := .none
  decorators := by
    have hscope := h.scope?
    have htool := P.tool_self b.tool
    have hwhole := (P.literal_shown rfl : Pointwise P.shown (ofString "@") (ofString "@")).append htool
    refine .cons (((Pointwise.append ?_ (P.literal_shown rfl)).append h.getter).append (P.literal_shown rfl)) .nil
    rw [h.tool]
    generalize b.scope? = scope at hscope
    generalize b'.scope? = scope' at hscope
    cases hscope with
    | none => exact hwhole
    | some hpart =>
      dsimp only
      rw [hpart.isEmpty_eq]
      split
      · exact hwhole
      · exact (((P.literal_shown rfl).append hpart).append (P.literal_shown rfl)).append htool

/-! ## Classes -/

namespace Alike

variable {c c' : Component} (h : P.Alike c c')
include h

theorem decoratorOptions : P.ShownAll c.decoratorOptions c'.decoratorOptions := by
  have hfilter : ∀ x? x?' : Option Text, Option.Rel (Pointwise P.shown) x? x?' →
      Option.Rel (Pointwise P.shown) (x?.filter (!·.isEmpty)) (x?'.filter (!·.isEmpty)) := by
    intro x? x?' hx
    cases hx with
    | none => exact .none
    | some htext =>
      simp only [Option.filter, htext.isEmpty_eq]
      split
      · exact .some htext
      · exact .none
  refine List.rel_append (List.rel_filterMap hfilter (.cons ?_ (.cons ?_ (.cons ?_ .nil))))
    (h.values (.list .unsupportedOptions))
  · exact h.values (.registry .components)
  · exact h.values (.registry .filters)
  · exact h.values (.registry .directives)

theorem renderDecorator : Pointwise P.shown c.renderDecorator c'.renderDecorator := by
  have hoptions := h.decoratorOptions
  unfold Component.renderDecorator
  generalize c.decoratorOptions = options at hoptions
  generalize c'.decoratorOptions = options' at hoptions
  cases hoptions with
  | nil => exact P.literal_shown rfl
  | cons hfirst hrest =>
    exact ((P.literal_shown rfl).append (.intercalate (P.literal_shown rfl)
      (map_indented_shown (.cons hfirst hrest)))).append (P.literal_shown rfl)

theorem renderMembers : P.ShownAll c.renderMembers c'.renderMembers := by
  have hstores := h.values (.list .stores)
  refine .cons (P.literal_shown rfl |>.append (P.literal_shown rfl)) ?_
  refine List.rel_append (List.rel_append (List.rel_append (List.rel_append (List.rel_append
    (List.rel_append ?_ ?_) ?_) ?_) ?_) ?_) ?_
  · exact map_shown (fun _ _ hb => hb.toField.render) hstores
  · exact map_shown (fun _ _ hf => hf.render) h.data
  · exact map_shown (fun _ _ hm => hm.render) h.computed
  · exact map_shown (fun _ _ hf => hf.render) h.props
  · exact map_shown (fun _ _ hm => hm.toMethodsMatch.render) h.watch
  · exact map_shown (fun _ _ hm => hm.render) h.methods
  · exact map_shown (fun _ _ hm => hm.render) h.lifecycleHooks

theorem renderClass {name : Text} (hname : Pointwise P.shown name name) :
    Pointwise P.shown (c.renderClass name) (c'.renderClass name) := by
  unfold Component.renderClass
  refine Pointwise.append (.append (.append (.append (.append (.append (.append h.renderDecorator ?_) hname) ?_)
    ?_) ?_) (.intercalate ?_ h.renderMembers)) ?_
  all_goals exact P.literal_shown rfl

/-! ## The name of the class -/

/-- A name that holds a marker is no identifier, and its letters and digits are all that counts. -/
theorem className (file fallback : Text) : c'.className file fallback = c.className file fallback := by
  rcases eq_or_marked h.name with hsame | ⟨hmarked, hmarked'⟩
  · rw [Component.className, Component.className, hsame]
  · have hpascal : pascalCase c'.name = pascalCase c.name :=
      congrArg Text.mk (pascalFrom_eq h.name false)
    simp only [Component.className, hmarked.isEmpty, hmarked'.isEmpty, isIdentifier_eq_false hmarked,
      isIdentifier_eq_false hmarked', hpascal, Bool.false_and, Bool.not_false, Bool.and_self, if_true,
      Bool.false_eq_true, if_false]

end Alike

theorem className_self (P : Pairing) (c : Component) (file : Text) {fallback : Text}
    (hfallback : Pointwise P.shown fallback fallback) :
    Pointwise P.shown (c.className file fallback) (c.className file fallback) := by
  have hidentifier : ∀ {x : Text}, isIdentifier x → Pointwise P.read x x := by
    exact fun hx => List.forall₂_same.mpr fun p hp =>
      P.refl (Nat.lt_trans (toNat_lt_of_isIdentifier hx hp) (by decide))
  unfold Component.className
  generalize (if c.name.isEmpty && !file.isEmpty then capitalize (Path.stem file) else c.name) = name
  dsimp only
  split
  · split
    · exact hfallback
    · exact (P.plain_self (isPlain_pascalCase name)).mono P.shown_of_read
  · next hname =>
    split
    · exact hfallback
    · next hempty =>
      simp only [hempty, Bool.not_false, Bool.true_and, Bool.not_eq_true', Bool.not_eq_false] at hname
      exact (hidentifier hname).mono P.shown_of_read

/-! ## Imports and statements -/

theorem BindingsMatch.isNamespaced {b b' : StoreBinding} (h : P.BindingsMatch b b') :
    b'.isNamespaced = b.isNamespaced := by
  have hscope := h.scope?
  unfold StoreBinding.isNamespaced
  generalize b.scope? = scope at hscope
  generalize b'.scope? = scope' at hscope
  cases hscope with
  | none => rfl
  | some hpart => exact congrArg not hpart.isEmpty_eq

/-- The names imported for store bindings depend on their tools, and on whether they go through a part. -/
theorem storeNames_eq_of_match {bs bs' : List StoreBinding} (h : List.Forall₂ P.BindingsMatch bs bs') :
    storeNames bs' = storeNames bs := by
  have hsame : (bs'.filter (!·.isNamespaced)).map (·.tool.name) =
      (bs.filter (!·.isNamespaced)).map (·.tool.name) ∧
      bs'.any (·.isNamespaced) = bs.any (·.isNamespaced) := by
    induction h with
    | nil => exact ⟨rfl, rfl⟩
    | cons hb _ ih =>
      obtain ⟨htools, hany⟩ := ih
      simp only [List.filter_cons, List.any_cons, hb.isNamespaced, hany, and_true]
      split
      · rw [List.map_cons, List.map_cons, htools, hb.tool]
      · exact htools
  rw [storeNames, storeNames, hsame.1, hsame.2]

theorem Alike.importLines {c c' : Component} (h : P.Alike c c') (tree : Tree) (source : Text) :
    importLines tree source c' = importLines tree source c := by
  have hstores : List.Forall₂ P.BindingsMatch c.stores c'.stores := h.values (.list .stores)
  have hnames : c'.decoratorNames = c.decoratorNames := by
    rw [Component.decoratorNames, Component.decoratorNames, isEmpty_eq_of_forall₂ h.props,
      isEmpty_eq_of_forall₂ h.watch]
  rw [ClassComponent.importLines, ClassComponent.importLines, Component.neededLines, Component.neededLines,
    Component.storeLines, Component.storeLines, hnames, isEmpty_eq_of_forall₂ hstores,
    storeNames_eq_of_match hstores]

section Source

variable {source : Text} (hsource : ∀ p ∈ source.points, P.shown p p)
include hsource

theorem span_self (s : Span) : Pointwise P.shown (s.of source) (s.of source) :=
  List.forall₂_same.mpr fun p hp => hsource p (mem_of_mem_of hp)

theorem importLines_self (tree : Tree) (c : Component) :
    P.ShownAll (importLines tree source c) (importLines tree source c) := by
  refine List.forall₂_same.mpr fun x hx => ?_
  rcases List.mem_append.mp hx with hx | hx
  · obtain ⟨line, hline, rfl⟩ := List.mem_map.mp hx
    refine List.forall₂_same.mpr fun p hp => ?_
    obtain ⟨d, hd, rfl⟩ := List.mem_map.mp hp
    exact P.shown_of_read
      (P.refl (Nat.lt_trans (Component.toNat_lt_of_mem_neededLines hline hd) (by decide)))
  · obtain ⟨placed, -, rfl⟩ := List.mem_map.mp hx
    exact span_self hsource _

theorem outerStatements_self (tree : Tree) :
    P.ShownAll (outerStatements tree source) (outerStatements tree source) := by
  refine List.forall₂_same.mpr fun x hx => List.forall₂_same.mpr fun p hp => ?_
  obtain ⟨placed, -, rfl⟩ := List.mem_map.mp hx
  rcases mem_replaceCallees hp with hp | hp
  · exact hsource p (mem_of_mem_of hp)
  · exact List.forall₂_same.mp (P.tool_self .scope) p hp

theorem headerComments_self (tree : Tree) :
    P.ShownAll ((headerComments? tree source).filter (!·.isEmpty)).toList
      ((headerComments? tree source).filter (!·.isEmpty)).toList := by
  refine List.forall₂_same.mpr fun x hx => ?_
  obtain ⟨span, rfl⟩ := span_of_headerComments? (Option.mem_filter_iff.mp (Option.mem_toList.mp hx)).1
  exact span_self hsource span

theorem classComments_self (tree : Tree) :
    Pointwise P.shown (classComments tree source) (classComments tree source) := by
  unfold classComments
  split
  · exact P.literal_shown rfl
  · dsimp only
    split
    · exact P.literal_shown rfl
    · refine Pointwise.append (List.forall₂_same.mpr fun p hp => ?_) (P.literal_shown rfl)
      rw [trimEnd, List.mem_reverse] at hp
      exact hsource p (mem_of_mem_of (List.mem_reverse.mp ((List.dropWhile_sublist _).subset hp)))

/-! ## Modules -/

/-- Components that are alike are written alike. -/
theorem Alike.renderMasked {c c' : Component} (h : P.Alike c c') (tree : Tree) (file : Text) {fallback : Text}
    (hfallback : Pointwise P.shown fallback fallback) :
    Pointwise P.shown (c.renderMasked tree source file fallback) (c'.renderMasked tree source file fallback) := by
  have hclass := h.renderClass (P.className_self c file hfallback)
  have hhoisted : P.ShownAll (c.hoisted.map (reindent · "")) (c'.hoisted.map (reindent · "")) :=
    map_shown (fun _ _ hx => reindent_shown hx (P.literal_shown rfl)) (h.values (.list .hoisted))
  unfold Component.renderMasked
  dsimp only
  rw [h.importLines, h.className]
  refine Pointwise.append (.intercalate (P.literal_shown rfl) ?_) (P.literal_shown rfl)
  refine List.rel_append (List.rel_append (List.rel_append (List.rel_append ?_ ?_) ?_) hhoisted) (.cons ?_ .nil)
  · exact headerComments_self hsource tree
  · exact importLines_self hsource tree c
  · exact outerStatements_self hsource tree
  · exact (classComments_self hsource tree).append hclass

end Source

end Pairing

end ClassComponent
