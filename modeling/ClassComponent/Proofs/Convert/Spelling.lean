import ClassComponent.Proofs.Convert.Entries
import ClassComponent.Proofs.Convert.Exchange
import Mathlib.Logic.Relation

/-!
# Spellings of functions

A member of an object can hold a function in three spellings: as a method, after the word `function`, or with an
arrow.

* **Functions** (`Respelled.exists_form`): two members with the same key, parameters, body and modifiers hold the same
  function, whatever their spellings.
* **Entries**: options look at their entries before they look for functions in them. `MembersAlike`, `ComputedAlike`
  and `Situation.WatchersAlike` say where in an entry of `methods`, `computed` or `watch` functions are respelled, and
  the entries are read alike.
* **Options** (`spelling_never_matters`): options in which functions are respelled are of the same kind, and give the
  same component.
-/

namespace ClassComponent

/-- How a member of an object that holds a function is written. -/
inductive Spelling where
  /-- `key(params) {…}` -/
  | method
  /-- `key: function (params) {…}` -/
  | function
  /-- `key: (params) => {…}` -/
  | arrow
deriving DecidableEq, Repr

/-- The kind of node that the value of the member is. -/
def Spelling.valueKind : Spelling → String
  | .method | .function => "FunctionExpression"
  | .arrow => "ArrowFunctionExpression"

/-- What is written in a member that holds a function, apart from its spelling. -/
structure FunctionParts where
  key : Tree
  isComputed : Bool
  params : List Tree
  body : Tree
  isAsync : Bool
  isGenerator : Bool

namespace Tree

variable {t t' : Tree}

/-- Whether a member is written in a spelling. -/
def isSpelled (t : Tree) (spelling : Spelling) : Bool :=
  t.kind == "Property" && t.isInit && !t.has "shorthand" && t.has "method" == (spelling == .method) &&
    (t.get "value").kind == spelling.valueKind

/-- The parts of a member that holds a function. -/
def functionParts (t : Tree) : FunctionParts where
  key := t.get "key"
  isComputed := t.has "computed"
  params := ((t.get "value").get "params").items
  body := (t.get "value").get "body"
  isAsync := (t.get "value").has "isAsync" || (t.get "value").has "async"
  isGenerator := (t.get "value").has "generator"

theorem isSpelled_iff {spelling : Spelling} :
    t.isSpelled spelling ↔ t.kind = "Property" ∧ t.isInit ∧ t.has "shorthand" = false ∧
      t.has "method" = (spelling == .method) ∧ (t.get "value").kind = spelling.valueKind := by
  simp [isSpelled, and_assoc]

theorem isAccessor_of_isInit (h : t.isInit) : t.isAccessor = false := by
  unfold isInit at h
  unfold isAccessor get
  cases hkind : t.get? "kind" with
  | none => rfl
  | some kind =>
    rw [hkind] at h
    have hinit : kind.text? = some (Text.ofString "init") := beq_iff_eq.mp h
    simp only [Option.getD_some, isWord, hinit]
    decide

theorem holdsFunction_of_isSpelled {spelling : Spelling} (h : t.isSpelled spelling) : t.holdsFunction := by
  obtain ⟨hkind, hinit, -, -, hvalue⟩ := isSpelled_iff.mp h
  have hfunction : (t.get "value").isFunction := by
    rw [isFunction, hvalue]
    cases spelling <;> rfl
  simp [holdsFunction, hkind, isAccessor_of_isInit hinit, hfunction]

end Tree

/-! ## Respelled functions -/

/-- Whether two members hold one function, each in a spelling of its own. -/
structure Respelled (t t' : Tree) : Prop where
  left : ∃ spelling, t.isSpelled spelling
  right : ∃ spelling, t'.isSpelled spelling
  parts : t.functionParts = t'.functionParts

/-- Whether two members are the same but for their values. -/
structure SameMember (t t' : Tree) : Prop where
  kind : t.kind = t'.kind
  key : t.get "key" = t'.get "key"
  computed : t.has "computed" = t'.has "computed"
  method : t.has "method" = t'.has "method"
  shorthand : t.has "shorthand" = t'.has "shorthand"
  isInit : t.isInit = t'.isInit

theorem Origin.memberName_congr {t t' : Tree} (o : Origin) (hkey : t.get "key" = t'.get "key")
    (hcomputed : t.has "computed" = t'.has "computed") : o.memberName t = o.memberName t' := by
  simp only [memberName, memberName?, hkey, hcomputed]

theorem Tree.optionKey?_congr {t t' : Tree} (hkey : t.get "key" = t'.get "key")
    (hcomputed : t.has "computed" = t'.has "computed") : t.optionKey? = t'.optionKey? := by
  rw [optionKey?, optionKey?, hkey, hcomputed]

theorem SameMember.optionKind? {t t' : Tree} (h : SameMember t t') : t.optionKind? = t'.optionKind? := by
  have hplain : t.isPlainProperty = t'.isPlainProperty := by
    rw [Tree.isPlainProperty, Tree.isPlainProperty, h.kind, h.method, h.shorthand, h.isInit]
  rw [Tree.optionKind?, Tree.optionKind?, h.kind, Tree.optionKey?_congr h.key h.computed, hplain, h.method, h.isInit]

/-- No option that needs a value of its own is a data function or a hook. -/
theorem OptionKind.ofValueKey?_ne {key : Text} {kind : OptionKind} (h : ofValueKey? key = some kind) :
    kind ≠ .data ∧ kind ≠ .lifecycleHook := by
  have hmem := List.mem_of_find?_eq_some h
  constructor
  · rintro rfl
    exact absurd hmem (by decide)
  · rintro rfl
    exact absurd hmem (by decide)

/-- Which option a function is goes by its key. The spelling is looked at only where a value is needed. -/
theorem Tree.optionKind?_of_isSpelled {t : Tree} {spelling : Spelling} (h : t.isSpelled spelling) :
    t.optionKind? = some (match t.optionKey? with
      | none => .unrecognized
      | some key =>
        match OptionKind.ofValueKey? key with
        | some kind => if spelling = .method then .unrecognized else kind
        | none =>
          if key == "data" then .data else if isLifecycleHook key then .lifecycleHook else .unrecognized) := by
  obtain ⟨hproperty, hinit, hshort, hmethod, -⟩ := isSpelled_iff.mp h
  have hplain : t.isPlainProperty = !(spelling == .method) := by
    simp [isPlainProperty, hproperty, hinit, hshort, hmethod]
  rw [optionKind?, hproperty]
  cases t.optionKey? with
  | none => rfl
  | some key =>
    cases hvalue : OptionKind.ofValueKey? key with
    | some kind => cases spelling <;> simp [hvalue, hplain]
    | none =>
      by_cases hdata : key == "data"
      · cases spelling <;> simp [hvalue, hdata, hplain, hmethod]
      · simp [hvalue, hdata, hinit]

namespace Respelled

variable {t t' : Tree}

theorem symm (h : Respelled t t') : Respelled t' t :=
  ⟨h.right, h.left, h.parts.symm⟩

theorem key (h : Respelled t t') : t.get "key" = t'.get "key" :=
  congrArg FunctionParts.key h.parts

theorem computed (h : Respelled t t') : t.has "computed" = t'.has "computed" :=
  congrArg FunctionParts.isComputed h.parts

theorem kind (h : Respelled t t') : t.kind = "Property" := by
  obtain ⟨spelling, hspelled⟩ := h.left
  exact (Tree.isSpelled_iff.mp hspelled).1

theorem memberName (h : Respelled t t') (o : Origin) : o.memberName t = o.memberName t' :=
  o.memberName_congr h.key h.computed

/-- The value is no object, so that it is not taken for settings or accessors. -/
theorem value_ne_object (h : Respelled t t') : (t.get "value").kind ≠ "ObjectExpression" := by
  obtain ⟨spelling, hspelled⟩ := h.left
  rw [(Tree.isSpelled_iff.mp hspelled).2.2.2.2]
  cases spelling <;> decide

/-- The two members hold the same function. -/
theorem exists_form (h : Respelled t t') (o : Origin) :
    ∃ f, FunctionForm.ofMember? o t = some f ∧ FunctionForm.ofMember? o t' = some f := by
  obtain ⟨spelling, hspelled⟩ := h.left
  obtain ⟨spelling', hspelled'⟩ := h.right
  refine ⟨.ofNode (o.memberName t) (t.get "value"), ?_, ?_⟩
  · exact FunctionForm.ofMember?_eq_some_iff.mpr ⟨Tree.holdsFunction_of_isSpelled hspelled, rfl⟩
  · refine FunctionForm.ofMember?_eq_some_iff.mpr ⟨Tree.holdsFunction_of_isSpelled hspelled', ?_⟩
    have hparts := h.parts
    simp only [Tree.functionParts, FunctionParts.mk.injEq] at hparts
    obtain ⟨-, -, hparams, hbody, hasync, hgenerator⟩ := hparts
    simp only [FunctionForm.ofNode, h.memberName o, hparams, hbody, hasync, hgenerator]

/-- A data function or a hook is one in every spelling. Other options must have a value of their own. -/
theorem optionKind? (h : Respelled t t') {kind : OptionKind} (hkind : t.optionKind? = some kind)
    (hfunction : kind = .data ∨ kind = .lifecycleHook) : t'.optionKind? = some kind := by
  obtain ⟨spelling, hspelled⟩ := h.left
  obtain ⟨spelling', hspelled'⟩ := h.right
  rw [Tree.optionKind?_of_isSpelled hspelled] at hkind
  rw [Tree.optionKind?_of_isSpelled hspelled', ← Tree.optionKey?_congr h.key h.computed]
  cases hkey : t.optionKey? with
  | none => simpa [hkey] using hkind
  | some key =>
    cases hvalue : OptionKind.ofValueKey? key with
    | none => simpa [hkey, hvalue] using hkind
    | some value =>
      have hne := OptionKind.ofValueKey?_ne hvalue
      simp only [hkey, hvalue, Option.some.injEq] at hkind
      split at hkind
      · subst hkind
        simp at hfunction
      · subst hkind
        exact absurd hfunction (by simp [hne.1, hne.2])

end Respelled

/-- The member with these parts in a spelling. -/
def FunctionParts.write (p : FunctionParts) (spelling : Spelling) : Tree :=
  .node [("type", .text "Property"), ("key", p.key), ("computed", .flag p.isComputed),
    ("value", .node [("type", .text (Text.ofString spelling.valueKind)), ("params", .list p.params), ("body", p.body),
      ("async", .flag p.isAsync), ("generator", .flag p.isGenerator)]),
    ("kind", .text "init"), ("method", .flag (spelling == .method)), ("shorthand", .flag false)]

theorem FunctionParts.isSpelled_write (p : FunctionParts) (spelling : Spelling) :
    (p.write spelling).isSpelled spelling := by
  cases spelling <;> rfl

/-- A function can be written in every spelling. -/
theorem respelled_write {t : Tree} {spelling : Spelling} (h : t.isSpelled spelling) (other : Spelling) :
    Respelled t (t.functionParts.write other) :=
  ⟨⟨spelling, h⟩, ⟨other, t.functionParts.isSpelled_write other⟩, rfl⟩

/-! ## Entries with respelled functions -/

/-- Whether two nodes are objects whose members are the same, or related by `R`, one after the other. -/
structure ObjectsAlike (R : Tree → Tree → Prop) (t t' : Tree) : Prop where
  left : t.kind = "ObjectExpression"
  right : t'.kind = "ObjectExpression"
  members : List.Forall₂ (Relation.ReflGen R) (t.get "properties").items (t'.get "properties").items

/-- Whether two spreads call one helper, with an object in which functions are respelled. -/
structure SpreadsAlike (t t' : Tree) : Prop where
  left : t.kind = "SpreadElement"
  right : t'.kind = "SpreadElement"
  call : (t.get "argument").kind = (t'.get "argument").kind
  callee : (t.get "argument").get "callee" = (t'.get "argument").get "callee"
  arguments : ObjectsAlike Respelled (Situation.helperArgument t) (Situation.helperArgument t')

/-- Whether two entries are one function or one helper, respelled. -/
inductive MembersAlike (t t' : Tree) : Prop
  | function (h : Respelled t t')
  | spread (h : SpreadsAlike t t')

/-- Whether two entries of `computed` are one function, one helper or one pair of accessors, respelled. -/
inductive ComputedAlike (t t' : Tree) : Prop
  | member (h : MembersAlike t t')
  | pair (hkind : t.kind = "Property") (hsame : SameMember t t')
    (hparts : ObjectsAlike MembersAlike (t.get "value") (t'.get "value"))

namespace Situation

/-- Whether two entries of `watch` are one function, or one object of settings with its handler respelled. -/
inductive WatchersAlike (s : Situation) (t t' : Tree) : Prop
  | function (h : Respelled t t')
  | settings {before after : List Tree} {handler handler' : Tree} (hkind : t.kind = "Property")
    (hmethod : t.has "method" = false) (hsame : SameMember t t')
    (hobject : (t.get "value").kind = "ObjectExpression") (hobject' : (t'.get "value").kind = "ObjectExpression")
    (hmembers : ((t.get "value").get "properties").items = before ++ handler :: after)
    (hmembers' : ((t'.get "value").get "properties").items = before ++ handler' :: after)
    (hbefore : ∀ member ∈ before, s.isHandler member = false) (hhandler : s.isHandler handler)
    (h : Respelled handler handler')

/-- Whether two options of a kind are the same but for the spellings of functions in them. -/
inductive OptionsAlike (s : Situation) : OptionKind → Tree → Tree → Prop
  | data {t t' : Tree} (hkind : t.optionKind? = some .data) (h : Respelled t t') : s.OptionsAlike .data t t'
  | hook {t t' : Tree} (hkind : t.optionKind? = some .lifecycleHook) (h : Respelled t t') :
    s.OptionsAlike .lifecycleHook t t'
  | computed {t t' : Tree} (hkind : t.optionKind? = some .computed) (hsame : SameMember t t')
    (h : ObjectsAlike ComputedAlike (t.get "value") (t'.get "value")) : s.OptionsAlike .computed t t'
  | methods {t t' : Tree} (hkind : t.optionKind? = some .methods) (hsame : SameMember t t')
    (h : ObjectsAlike MembersAlike (t.get "value") (t'.get "value")) : s.OptionsAlike .methods t t'
  | watch {t t' : Tree} (hkind : t.optionKind? = some .watch) (hsame : SameMember t t')
    (h : ObjectsAlike s.WatchersAlike (t.get "value") (t'.get "value")) : s.OptionsAlike .watch t t'

end Situation

/-- What is read from members one by one is the same, if it is for members that differ. -/
theorem ObjectsAlike.map_eq {α : Type} {R : Tree → Tree → Prop} {t t' : Tree} (h : ObjectsAlike R t t')
    {read : Tree → α} (hread : ∀ {u u' : Tree}, R u u' → read u = read u') :
    (t.get "properties").items.map read = (t'.get "properties").items.map read := by
  obtain ⟨-, -, hmembers⟩ := h
  generalize (t.get "properties").items = members at hmembers ⊢
  generalize (t'.get "properties").items = members' at hmembers ⊢
  induction hmembers with
  | nil => rfl
  | cons hmember _ ih =>
    rw [List.map_cons, List.map_cons, ih]
    cases hmember with
    | refl => rfl
    | single h => rw [hread h]

theorem ObjectsAlike.concat_updates {R : Tree → Tree → Prop} {t t' : Tree} (h : ObjectsAlike R t t')
    {read : Tree → Finding} (hread : ∀ {u u' : Tree}, R u u' → (read u).updates = (read u').updates) :
    (Finding.concat ((t.get "properties").items.map read)).updates =
      (Finding.concat ((t'.get "properties").items.map read)).updates := by
  have hupdates := h.map_eq hread
  rw [Finding.updates_concat, Finding.updates_concat, List.flatMap_map, List.flatMap_map, List.flatMap_def,
    List.flatMap_def, hupdates]

namespace Situation

variable {s : Situation} {t t' : Tree}

theorem storeEntry_respelled (h : Respelled t t') (tool : StoreTool) (scope? : Option Text) :
    s.storeEntry tool scope? t = s.storeEntry tool scope? t' := by
  obtain ⟨f, hform, hform'⟩ := h.exists_form s.origin
  simp only [storeEntry, hform, hform']

/-- Helpers are read alike, though refusals show how they are written. -/
theorem storeBindings_alike (h : SpreadsAlike t t') : (s.storeBindings t).1 = (s.storeBindings t').1 := by
  have hentries (tool : StoreTool) (scope? : Option Text) :
      s.storeEntries? tool scope? (helperArgument t) = s.storeEntries? tool scope? (helperArgument t') := by
    simp only [storeEntries?, h.arguments.left, h.arguments.right, beq_self_eq_true, if_true]
    rw [h.arguments.map_eq fun hentry => storeEntry_respelled hentry tool scope?]
  unfold helperArgument at hentries
  simp only [storeBindings, h.call, h.callee]
  by_cases hcall : (t'.get "argument").kind != "CallExpression"
  · simp only [hcall, if_true]
  · simp only [hcall, Bool.false_eq_true, if_false]
    split
    · rfl
    · next tool _ =>
      simp only [hentries]
      split
      · rfl
      · rfl

theorem storeSpread_alike (h : SpreadsAlike t t') : (s.storeSpread t).updates = (s.storeSpread t').updates := by
  simp only [storeSpread, storeBindings_alike h]

theorem readAccessorPart_alike (h : MembersAlike t t') (name : Text) :
    (s.readAccessorPart name t).updates = (s.readAccessorPart name t').updates := by
  cases h with
  | function h =>
    obtain ⟨f, hform, hform'⟩ := h.exists_form s.origin
    simp only [readAccessorPart, h.kind, h.symm.kind, hform, hform']
    -- A function that is refused changes nothing, and is reported as it is written.
    by_cases hrefused : f.isAsync || f.isGenerator
    · simp [hrefused, refusedAccessor]
    · simp [hrefused]
  | spread h =>
    simp only [readAccessorPart, h.left, h.right, beq_self_eq_true, if_true, storeSpread_alike h]

theorem readComputedEntry_alike (h : ComputedAlike t t') :
    (s.readComputedEntry t).updates = (s.readComputedEntry t').updates := by
  cases h with
  | member h =>
    cases h with
    | function h =>
      obtain ⟨f, hform, hform'⟩ := h.exists_form s.origin
      have hvalue := beq_false_of_ne h.value_ne_object
      have hvalue' := beq_false_of_ne h.symm.value_ne_object
      simp only [readComputedEntry, h.kind, h.symm.kind, hvalue, hvalue', hform, hform']
      by_cases hrefused : f.isAsync || f.isGenerator
      · simp [hrefused, refusedAccessor]
      · simp [hrefused]
    | spread h =>
      simp only [readComputedEntry, h.left, h.right, beq_self_eq_true, if_true, storeSpread_alike h]
  | pair hkind hsame hparts =>
    have hname := s.origin.memberName_congr hsame.key hsame.computed
    simp only [readComputedEntry, hkind, ← hsame.kind, hparts.left, hparts.right, hname]
    exact hparts.concat_updates fun hpart => readAccessorPart_alike hpart _

theorem methodMember_respelled (h : Respelled t t') : s.methodMember t = s.methodMember t' := by
  obtain ⟨f, hform, hform'⟩ := h.exists_form s.origin
  simp only [methodMember, hform, hform']

theorem methodFinding_alike (h : MembersAlike t t') :
    (s.methodFinding t).updates = (s.methodFinding t').updates := by
  cases h with
  | function h => simp [methodFinding, h.kind, h.symm.kind]
  | spread h => simp [methodFinding, h.left, h.right, storeSpread_alike h]

/-- The handler is the first of its name, so what is before and after it stays. -/
theorem splitHandler_of_first {before after : List Tree} {handler : Tree}
    (hbefore : ∀ member ∈ before, s.isHandler member = false) (hhandler : s.isHandler handler) :
    s.splitHandler (before ++ handler :: after) = (handler, before ++ after) := by
  have hfind : (before ++ handler :: after).find? s.isHandler = some handler := by
    rw [List.find?_append, List.find?_eq_none.mpr fun member hmember => by simp [hbefore member hmember]]
    simp [hhandler]
  have htake : (before ++ handler :: after).takeWhile (!s.isHandler ·) = before := by
    rw [List.takeWhile_append_of_pos fun member hmember => by simp [hbefore member hmember]]
    simp [hhandler]
  have hdrop : (before ++ handler :: after).dropWhile (!s.isHandler ·) = handler :: after := by
    rw [List.dropWhile_append_of_pos fun member hmember => by simp [hbefore member hmember]]
    simp [hhandler]
  simp only [splitHandler, hfind, htake, hdrop, List.tail_cons]

theorem isHandler_respelled (h : Respelled t t') : s.isHandler t = s.isHandler t' := by
  rw [isHandler, isHandler, h.kind, h.symm.kind, h.key]

theorem watchEntry_alike (h : s.WatchersAlike t t') : s.watchEntry t = s.watchEntry t' := by
  cases h with
  | function h =>
    obtain ⟨f, hform, hform'⟩ := h.exists_form s.origin
    have hvalue := beq_false_of_ne h.value_ne_object
    have hvalue' := beq_false_of_ne h.symm.value_ne_object
    simp [watchEntry, h.kind, h.symm.kind, hvalue, hvalue', hform, hform', h.memberName]
  | settings hkind hmethod hsame hobject hobject' hmembers hmembers' hbefore hhandler h =>
    obtain ⟨f, hform, hform'⟩ := h.exists_form s.origin
    have hname := s.origin.memberName_congr hsame.key hsame.computed
    have hhandler' := hhandler
    rw [isHandler_respelled h] at hhandler'
    simp [watchEntry, hkind, ← hsame.kind, hmethod, ← hsame.method, hobject, hobject', hmembers, hmembers',
      splitHandler_of_first hbefore hhandler, splitHandler_of_first hbefore hhandler', hform, hform', hname]

theorem methodMembers_alike (h : MembersAlike t t') : s.methodMembers [t] = s.methodMembers [t'] := by
  cases h with
  | function h => simp [methodMembers, h.kind, h.symm.kind, methodMember_respelled h]
  | spread h => simp [methodMembers, h.left, h.right]

theorem methodMembers_eq_flatMap (members : List Tree) :
    s.methodMembers members = (members.map fun t => s.methodMembers [t]).flatten := by
  induction members with
  | nil => rfl
  | cons t members ih => rw [methodMembers_cons, ih, List.map_cons, List.flatten_cons]

/-- Options that differ by spellings make the same changes. -/
theorem OptionsAlike.updates {kind : OptionKind} (h : s.OptionsAlike kind t t') :
    s.optionUpdates (kind, t) = s.optionUpdates (kind, t') := by
  unfold optionUpdates readOption
  cases h with
  | data _ h =>
    obtain ⟨f, hform, hform'⟩ := h.exists_form s.origin
    simp only [readData_updates, hoistedBy, returnedObject, hform, hform']
  | hook _ h =>
    obtain ⟨f, hform, hform'⟩ := h.exists_form s.origin
    simp only [readHook, hform, hform']
  | computed _ _ h =>
    simp only [readComputed, h.left, h.right]
    exact h.concat_updates readComputedEntry_alike
  | methods _ _ h =>
    have hread := h.concat_updates (methodFinding_alike (s := s))
    have hmethods := h.map_eq (methodMembers_alike (s := s))
    have hall : s.methodMembers ((t.get "value").get "properties").items =
        s.methodMembers ((t'.get "value").get "properties").items := by
      rw [methodMembers_eq_flatMap, hmethods, ← methodMembers_eq_flatMap]
    simp only [readMethods, h.left, h.right, hall, beq_self_eq_true, if_true, Finding.updates_append, hread]
  | watch _ _ h =>
    have hread : ((t.get "value").get "properties").items.map s.watchEntry =
        ((t'.get "value").get "properties").items.map s.watchEntry := h.map_eq watchEntry_alike
    simp [readWatch, h.left, h.right, hread]

theorem OptionsAlike.optionKind? {kind : OptionKind} (h : s.OptionsAlike kind t t') :
    t.optionKind? = some kind ∧ t'.optionKind? = some kind := by
  cases h with
  | data hkind h => exact ⟨hkind, h.optionKind? hkind (.inl rfl)⟩
  | hook hkind h => exact ⟨hkind, h.optionKind? hkind (.inr rfl)⟩
  | computed hkind hsame | methods hkind hsame | watch hkind hsame => exact ⟨hkind, hsame.optionKind? ▸ hkind⟩

end Situation

/-- **The spelling of functions never matters.** Take an option in which functions are written as methods, after the
word `function` or with arrows: a data function, a hook, or an entry of `methods`, `computed` or `watch`, also as an
accessor of a pair, as the handler among settings or in the object of a store helper. With other spellings of the same
functions it is an option of the same kind. Whatever was read before, it leads to the same component; and so does the
whole script. -/
theorem spelling_never_matters (s : Situation) {kind : OptionKind} {t t' : Tree} (h : s.OptionsAlike kind t t') :
    t.optionKind? = some kind ∧ t'.optionKind? = some kind ∧
      (∀ c log log', (s.addOption (c, log) (kind, t)).1 = (s.addOption (c, log') (kind, t')).1) ∧
      ∀ before after, (s.readOptions (before ++ (kind, t) :: after)).1 =
        (s.readOptions (before ++ (kind, t') :: after)).1 := by
  refine ⟨h.optionKind?.1, h.optionKind?.2, fun c log log' => ?_, fun before after => ?_⟩
  · rw [Situation.addOption_component, Situation.addOption_component, h.updates]
  · rw [Situation.readOptions_component, Situation.readOptions_component, Situation.gather, Situation.gather,
      List.flatMap_append, List.flatMap_append, List.flatMap_cons, List.flatMap_cons, h.updates]

/-- A script with a computed property as a method, and a pair of accessors in two spellings. -/
def accessorScript : String :=
  "export default \x7b\n  computed: \x7b\n    a() \x7b return 1; \x7d,\n" ++
    "    b: \x7b get() \x7b return this.a; \x7d, set: function (v) \x7b f(v); \x7d \x7d,\n  \x7d,\n\x7d;\n"

/-- An object with these members. -/
def Tree.object (members : List Tree) : Tree :=
  .node [("type", .text "ObjectExpression"), ("properties", .list members)]

/-- An entry of `computed` with its functions in another spelling. -/
def Tree.respellAccessors (spelling : Spelling) (entry : Tree) : Tree :=
  if (entry.get "value").kind = "ObjectExpression" then
    entry.set "value" (.object (((entry.get "value").get "properties").items.map (·.functionParts.write spelling)))
  else entry.functionParts.write spelling

theorem SameMember.set_value (t value : Tree) : SameMember t (t.set "value" value) := by
  have hget {name : String} (h : name ≠ "value") : (t.set "value" value).get name = t.get name :=
    t.get_set_of_ne value h
  constructor
  · rw [Tree.kind, Tree.kind, hget (by decide)]
  · rw [hget (by decide)]
  · rw [Tree.has, Tree.has, hget (by decide)]
  · rw [Tree.has, Tree.has, hget (by decide)]
  · rw [Tree.has, Tree.has, hget (by decide)]
  · rw [Tree.isInit, Tree.isInit, t.get?_set_of_ne value (by decide)]

/-- An object in the place of another, with members that are related to the old ones. -/
theorem ObjectsAlike.set_value {R : Tree → Tree → Prop} {t : Tree} (h : (t.get "value").kind = "ObjectExpression")
    {respell : Tree → Tree} (hmembers : ∀ u ∈ ((t.get "value").get "properties").items, R u (respell u)) :
    ObjectsAlike R (t.get "value") ((t.set "value"
      (.object (((t.get "value").get "properties").items.map respell))).get "value") := by
  have hvalue : t.get "value" ≠ .null := by
    intro hnull
    rw [hnull] at h
    exact absurd h (by decide)
  rw [Tree.get_set_self hvalue]
  refine ⟨h, rfl, List.forall₂_map_right_iff.mpr (List.forall₂_same.mpr fun u hu => ?_)⟩
  exact .single (hmembers u hu)

theorem spelling_of_accessorScript :
    ∃ tree origin option, Script.parse accessorScript true = .ok tree ∧
      Origin.of? accessorScript (tree.get "tokens").items = some origin ∧
      scriptOptions origin tree = [(.computed, option)] ∧
      let s : Situation := ⟨origin, "", true⟩
      ∀ spelling,
        let option' := option.set "value"
          (.object (((option.get "value").get "properties").items.map (Tree.respellAccessors spelling)))
        s.OptionsAlike .computed option option' ∧
          (s.addOption ({}, []) (.computed, option')).1.computed.map (fun m => (m.name, m.accessor?)) =
            [(Text.ofString "a", some .get), (Text.ofString "b", some .get), (Text.ofString "b", some .set)] := by
  have hread : (soleOption? accessorScript).any (fun (_, origin, option) =>
      let s : Situation := ⟨origin, "", true⟩
      let isFunction (t : Tree) : Bool := t.isSpelled .method || t.isSpelled .function
      option.1 = .computed ∧ option.2.optionKind? = some .computed ∧
        (option.2.get "value").kind = "ObjectExpression" ∧
        (∀ entry ∈ ((option.2.get "value").get "properties").items,
          if (entry.get "value").kind = "ObjectExpression" then
            entry.kind = "Property" ∧ ∀ part ∈ ((entry.get "value").get "properties").items, isFunction part
          else isFunction entry) ∧
        (s.addOption ({}, []) option).1.computed.map (fun m => (m.name, m.accessor?)) =
          [(Text.ofString "a", some .get), (Text.ofString "b", some .get), (Text.ofString "b", some .set)]) = true := by
    decide +kernel
  obtain ⟨⟨tree, origin, kind, option⟩, hscript, hvalues⟩ := (Option.any_eq_true _ _).mp hread
  obtain ⟨htree, horigin, hoptions⟩ := of_soleOption? hscript
  obtain ⟨rfl, hkind, hobject, hentries, hnames⟩ := of_decide_eq_true hvalues
  refine ⟨tree, origin, option, htree, horigin, hoptions, fun spelling => ?_⟩
  have hrespelled {t : Tree} (h : t.isSpelled .method || t.isSpelled .function) :
      MembersAlike t (t.functionParts.write spelling) := by
    rcases Bool.or_eq_true_iff.mp h with h | h
    · exact .function (respelled_write h spelling)
    · exact .function (respelled_write h spelling)
  have halike : Situation.OptionsAlike ⟨origin, "", true⟩ .computed option (option.set "value"
      (.object (((option.get "value").get "properties").items.map (Tree.respellAccessors spelling)))) := by
    refine .computed hkind (.set_value option _) (.set_value hobject fun entry hentry => ?_)
    have hentry := hentries entry hentry
    unfold Tree.respellAccessors
    split at hentry
    · next hpair =>
      rw [if_pos hpair]
      exact .pair hentry.1 (.set_value entry _) (.set_value hpair fun part hpart => hrespelled (hentry.2 part hpart))
    · next hsingle =>
      rw [if_neg hsingle]
      exact .member (hrespelled hentry)
  refine ⟨halike, ?_⟩
  rw [← (spelling_never_matters _ halike).2.2.1 {} [] []]
  exact hnames

end ClassComponent
