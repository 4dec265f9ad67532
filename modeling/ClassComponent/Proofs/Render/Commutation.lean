import ClassComponent.Proofs.Convert.Independence
import ClassComponent.Render.Module

/-!
# Classes of scripts with exchanged members

Of the tree of a script, the module of the class shows comments and statements, and a statement that holds
the component object shows in its kind and its span only (`Tree.LooksLike`, `Tree.SameFrame`). Exchanging
members of the object keeps these, so the text of the module depends on their order through the component
alone (`Component.render_of_sameFrame`); and this is the same for independent options
(`independent_options_commute`).
-/

namespace ClassComponent

/-! ## What is seen of statements -/

namespace Tree

/-- Whether two statements look the same: nothing else of them is seen by the writer of the module. -/
structure LooksLike (t t' : Tree) : Prop where
  kind : t'.kind = t.kind
  span? : t'.span? = t.span?
  isKeptImport : isKeptImport t' = isKeptImport t
  callees : namespaceCallees t' = namespaceCallees t

theorem LooksLike.refl (t : Tree) : t.LooksLike t :=
  ⟨rfl, rfl, rfl, rfl⟩

theorem LooksLike.statementSpan_eq {t t' : Tree} (h : t.LooksLike t') :
    statementSpan t' = statementSpan t := by
  rw [statementSpan, statementSpan, h.span?]

/-- Whether the statements of two scripts look the same, with the same comments around them. -/
structure SameFrame (tree tree' : Tree) : Prop where
  comments : commentSpans tree' = commentSpans tree
  statements : List.Forall₂ LooksLike (statements tree) (statements tree')

variable {a b t t' : Tree}

/-- Nodes in which members are exchanged neither import nor declare anything. -/
theorem unseen_of_exchangeParts (h : t.kind ∈ exchangeParts.map (·.1)) :
    isKeptImport t = false ∧ namespaceCallees t = [] := by
  have hkinds : ∀ kind ∈ exchangeParts.map (·.1), (kind == "ImportDeclaration") = false ∧
      (kind == "ExportNamedDeclaration") = false ∧ (kind == "VariableDeclaration") = false := by
    decide
  obtain ⟨himport, hexport, hvariable⟩ := hkinds t.kind h
  constructor
  · rw [isKeptImport, himport, Bool.false_and]
  · simp only [namespaceCallees, declarationOf, hexport, hvariable, Bool.false_eq_true, if_false]

theorem Exchanged.looksLike (h : Exchanged a b t t') : t.LooksLike t' := by
  obtain ⟨himport, hcallees⟩ := unseen_of_exchangeParts h.kind_mem
  obtain ⟨himport', hcallees'⟩ := unseen_of_exchangeParts (h.kind_eq ▸ h.kind_mem)
  exact ⟨h.kind_eq, h.span?_eq, himport'.trans himport.symm, hcallees'.trans hcallees.symm⟩

theorem Exchanged.forall₂_statements (h : Exchanged a b t t') :
    List.Forall₂ LooksLike (statements t) (statements t') := by
  have hsame : ∀ ts : List Tree, List.Forall₂ LooksLike ts ts :=
    fun ts => List.forall₂_same.mpr fun u _ => .refl u
  cases h with
  | members _ _ =>
    rw [statements, statements, get_set_of_ne _ _ (by decide)]
    exact hsame _
  | @part _ u u' name before after _ hget hu =>
    by_cases hname : "body" = name
    · subst hname
      rw [statements, statements, get_set_self (by rw [hget]; exact nofun), hget]
      exact List.rel_append (hsame before) (.cons hu.looksLike (hsame after))
    · rw [statements, statements, get_set_of_ne _ _ hname]
      exact hsame _
  | declaration _ _ =>
    rw [statements, statements, get_set_of_ne _ _ (by decide)]
    exact hsame _

theorem Exchanged.sameFrame (h : Exchanged a b t t') : t.SameFrame t' := by
  refine ⟨?_, h.forall₂_statements⟩
  rw [commentSpans, commentSpans, h.get_eq (by decide)]

end Tree

/-! ## Placed statements -/

namespace Placed

/-- Whether statements that look the same stand in the same place. -/
structure LooksLike (p p' : Placed) : Prop where
  node : p.node.LooksLike p'.node
  span : p'.span = p.span
  bounds : p'.bounds = p.bounds

end Placed

theorem forall₂_placeFrom {ts ts' : List Tree} (h : List.Forall₂ Tree.LooksLike ts ts')
    (comments : List Span) (source : List CodePoint) (before? : Option Span) :
    List.Forall₂ Placed.LooksLike (placeFrom comments source before? ts)
      (placeFrom comments source before? ts') := by
  induction h generalizing before? with
  | nil => exact .nil
  | @cons t t' ts ts' ht hts ih =>
    simp only [placeFrom, ht.statementSpan_eq]
    refine .cons ⟨ht, rfl, ?_⟩ (ih _)
    cases hts with
    | nil => rfl
    | cons hnext _ => simp only [hnext.statementSpan_eq]

section

variable {ps ps' : List Placed} {seen : Placed → Bool}

/-- What is made of those statements that are selected. -/
theorem map_filter_of_looksLike {α : Type} {made : Placed → α}
    (hseen : ∀ p p' : Placed, p.LooksLike p' → seen p' = seen p)
    (hmade : ∀ p p' : Placed, p.LooksLike p' → made p' = made p)
    (h : List.Forall₂ Placed.LooksLike ps ps') :
    (ps'.filter seen).map made = (ps.filter seen).map made := by
  induction h with
  | nil => rfl
  | @cons p p' ps ps' hp _ ih =>
    rw [List.filter_cons, List.filter_cons, hseen p p' hp]
    split
    · rw [List.map_cons, List.map_cons, hmade p p' hp, ih]
    · exact ih

theorem rel_find?_of_looksLike (hseen : ∀ p p' : Placed, p.LooksLike p' → seen p' = seen p)
    (h : List.Forall₂ Placed.LooksLike ps ps') :
    Option.Rel Placed.LooksLike (ps.find? seen) (ps'.find? seen) := by
  induction h with
  | nil => exact .none
  | @cons p p' ps ps' hp _ ih =>
    rw [List.find?_cons, List.find?_cons, hseen p p' hp]
    split
    · exact .some hp
    · exact ih

end

namespace Tree.SameFrame

variable {tree tree' : Tree}

theorem forall₂_placed (h : tree.SameFrame tree') (source : Text) :
    List.Forall₂ Placed.LooksLike (placedStatements tree source) (placedStatements tree' source) := by
  rw [placedStatements, placedStatements, h.comments]
  exact forall₂_placeFrom h.statements _ _ _

theorem headerComments?_eq (h : tree.SameFrame tree') (source : Text) :
    headerComments? tree' source = headerComments? tree source := by
  have hstatements := h.statements
  simp only [headerComments?, h.comments]
  generalize ClassComponent.statements tree = ts at hstatements ⊢
  generalize ClassComponent.statements tree' = ts' at hstatements ⊢
  cases hstatements with
  | nil => rfl
  | cons hfirst _ => simp only [hfirst.statementSpan_eq]

theorem keptImports_eq (h : tree.SameFrame tree') (source : Text) :
    keptImports tree' source = keptImports tree source :=
  map_filter_of_looksLike (fun _ _ hp => hp.node.isKeptImport)
    (fun _ _ hp => by rw [hp.bounds]) (h.forall₂_placed source)

theorem outerStatements_eq (h : tree.SameFrame tree') (source : Text) :
    outerStatements tree' source = outerStatements tree source := by
  refine map_filter_of_looksLike (fun p p' hp => ?_) (fun p p' hp => ?_) (h.forall₂_placed source)
  · rw [isOuterStatement, isOuterStatement, hp.node.kind]
  · rw [renderStatement, renderStatement, hp.bounds, hp.node.callees]

theorem classComments_eq (h : tree.SameFrame tree') (source : Text) :
    classComments tree' source = classComments tree source := by
  have hexport : ∀ p p' : Placed, p.LooksLike p' →
      (p'.node.kind == "ExportDefaultDeclaration") = (p.node.kind == "ExportDefaultDeclaration") := by
    intro p p' hp
    rw [hp.node.kind]
  have hfind := rel_find?_of_looksLike hexport (h.forall₂_placed source)
  rw [classComments, classComments]
  generalize (placedStatements tree source).find? _ = x at hfind ⊢
  generalize (placedStatements tree' source).find? _ = y at hfind ⊢
  cases hfind with
  | none => rfl
  | some hp => simp only [hp.bounds, hp.span]

end Tree.SameFrame

namespace Component

theorem render_of_sameFrame {tree tree' : Tree} (h : tree.SameFrame tree') (c : Component)
    (source file fallback : Text) :
    c.render tree' source file fallback = c.render tree source file fallback := by
  simp only [render, renderMasked, importLines, h.headerComments?_eq, h.keptImports_eq,
    h.outerStatements_eq, h.classComments_eq]

/-- The order of registered names does not show in the class. -/
theorem Alike.render_eq {c c' : Component} (h : c.Alike c') (tree : Tree) (source file fallback : Text) :
    c'.render tree source file fallback = c.render tree source file fallback := by
  obtain ⟨names, -, rfl⟩ := h
  rfl

end Component

/-- **Independent options commute.** If independent options that stand next to each other in an object
trade places, then reading the script fails alike or gives a component that is equal but for the order of
registered names, with the same reports in some order; and the class is written as the same text. -/
theorem independent_options_commute {a b tree tree' : Tree} (h : Tree.Exchanged a b tree tree')
    (hab : a.Independent b) (script file : Text) (keepsUnsupported : Bool) :
    (∀ fault, Component.ofScript script tree file keepsUnsupported = .error fault →
      Component.ofScript script tree' file keepsUnsupported = .error fault) ∧
    ∀ c events, Component.ofScript script tree file keepsUnsupported = .ok (c, events) →
      ∃ c' events', Component.ofScript script tree' file keepsUnsupported = .ok (c', events') ∧
        c.Alike c' ∧ (diagnostics events').Perm (diagnostics events) ∧
        ∀ fallback, c'.render tree' script file fallback = c.render tree script file fallback := by
  have hoptions : ∀ origin, OptionsDiffer a b (scriptOptions origin tree) (scriptOptions origin tree') :=
    fun origin => scriptOptions_exchanged h hab.differ
  have htokens : tree'.get "tokens" = tree.get "tokens" := h.get_eq (by decide)
  obtain ⟨hfaults, hcomponents⟩ := Component.ofScript_related htokens
    fun origin (_ : Origin.of? script _ = _) =>
      ((Situation.gather_alike (s := ⟨origin, file, keepsUnsupported⟩) (hoptions origin)
        hab).rel_renameWatchers? Digest.short)
  refine ⟨hfaults, fun c events hok => ?_⟩
  obtain ⟨origin, c', events', -, hok', halike, hevents, hevents'⟩ := hcomponents c events hok
  refine ⟨c', events', hok', halike, ?_, fun fallback => ?_⟩
  · rw [hevents, hevents']
    exact (hoptions origin).perm.flatMap_right _
  · rw [Component.render_of_sameFrame h.sameFrame, halike.render_eq]

/-! ## Two registrations -/

/-- A script that registers a component and a directive. -/
def registeringScript : String :=
  "export default \x7b components: \x7b B \x7d, directives: \x7b c \x7d \x7d;\n"

/-- A member that registers `name` under `key`, written from the offset `start` on. -/
def registration (start : Nat) (key name : String) : Tree :=
  let value := start + key.length + 2
  let stop := value + name.length + 4
  let registered : Span := ⟨value + 2, value + 2 + name.length⟩
  .make "Property" ⟨start, stop⟩
    [("key", .make "Identifier" ⟨start, start + key.length⟩ [("name", .text key)]),
     ("value", .make "ObjectExpression" ⟨value, stop⟩
       [("properties", .list [.make "Property" registered
         [("key", .make "Identifier" registered [("name", .text name)])]])])]

def componentsMember : Tree := registration 17 "components" "B"

def directivesMember : Tree := registration 36 "directives" "c"

def registeringObject (members : List Tree) : Tree :=
  .make "ObjectExpression" ⟨15, 55⟩ [("properties", .list members)]

def registeringExport (members : List Tree) : Tree :=
  .make "ExportDefaultDeclaration" ⟨0, 56⟩ [("declaration", registeringObject members)]

/-- The tree of that script, if the object has the given members. -/
def registeringTree (members : List Tree) : Tree :=
  .make "Program" ⟨0, 57⟩ [("body", .list [registeringExport members])]

theorem exchanged_registeringTree (a b : Tree) :
    Tree.Exchanged a b (registeringTree [a, b]) (registeringTree [b, a]) := by
  have hmembers : (registeringObject [a, b]).get "properties" = .list ([] ++ a :: b :: []) := rfl
  have hobject : Tree.Exchanged a b (registeringObject [a, b]) (registeringObject [b, a]) :=
    .members rfl hmembers
  have hexport : Tree.Exchanged a b (registeringExport [a, b]) (registeringExport [b, a]) :=
    .declaration rfl hobject
  have hbody : (registeringTree [a, b]).get "body" = .list ([] ++ registeringExport [a, b] :: []) := rfl
  exact .part List.mem_cons_self hbody hexport

/-- The registrations of that script are independent: exchanged, they give the same class, although the
names are found in another order. -/
theorem registrations_commute :
    ∃ c c' events events', componentsMember.Independent directivesMember ∧
      Component.ofScript registeringScript (registeringTree [componentsMember, directivesMember]) "" true =
        .ok (c, events) ∧
      Component.ofScript registeringScript (registeringTree [directivesMember, componentsMember]) "" true =
        .ok (c', events') ∧
      c.registeredNames = [Text.ofString "B", Text.ofString "c"] ∧
      c'.registeredNames = [Text.ofString "c", Text.ofString "B"] ∧ c.Alike c' ∧
      ∀ fallback,
        c'.render (registeringTree [directivesMember, componentsMember]) registeringScript "" fallback =
          c.render (registeringTree [componentsMember, directivesMember]) registeringScript "" fallback := by
  have ha : componentsMember.optionKind? = some .components := by decide +kernel
  have hb : directivesMember.optionKind? = some .directives := by decide +kernel
  have hindependent : componentsMember.Independent directivesMember := by
    refine ⟨by rw [ha, hb]; decide, fun k l hk hl => ?_⟩
    cases ha.symm.trans hk
    cases hb.symm.trans hl
    decide
  have hfirst : (Component.ofScript registeringScript
      (registeringTree [componentsMember, directivesMember]) "" true).toOption.map
        (·.1.registeredNames) = some [Text.ofString "B", Text.ofString "c"] := by
    decide +kernel
  have hsecond : (Component.ofScript registeringScript
      (registeringTree [directivesMember, componentsMember]) "" true).toOption.map
        (·.1.registeredNames) = some [Text.ofString "c", Text.ofString "B"] := by
    decide +kernel
  obtain ⟨-, hcommute⟩ := independent_options_commute
    (exchanged_registeringTree componentsMember directivesMember) hindependent registeringScript "" true
  cases hok : Component.ofScript registeringScript
      (registeringTree [componentsMember, directivesMember]) "" true with
  | error fault =>
    rw [hok] at hfirst
    cases hfirst
  | ok result =>
    obtain ⟨c, events⟩ := result
    obtain ⟨c', events', hok', halike, -, hrender⟩ := hcommute c events hok
    rw [hok] at hfirst
    rw [hok'] at hsecond
    exact ⟨c, c', events, events', hindependent, rfl, hok', Option.some.inj hfirst,
      Option.some.inj hsecond, halike, hrender⟩

end ClassComponent
