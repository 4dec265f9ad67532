import ClassComponent.Proofs.Convert.SideBySide
import Mathlib.Data.List.Find

/-!
# Options side by side

Two readings of a script (`Pairing.Readings`) find the same options, and what they read is alike.

* **Findings** (`Pairing.FindingsMatch`): the readers of all options but `watch` make changes that match, and give the
  same reports.
* **Watchers** (`Readings.watchEntry_iff`): the changes match too. A watcher without a handler is reported by its
  name, and the reports are the same if and only if the name is shown alike.
* **Components** (`Readings.gather`, `Readings.reports_iff`): so the components are alike, and the reports differ only
  in such names.
-/

namespace ClassComponent

open Text

namespace Pairing

/-! ## Results and findings -/

/-- Whether reading an entry twice gives items that match, or reports that are related. -/
inductive ResultsMatch {α : Type} (R : α → α → Prop) (D : Diagnostic → Diagnostic → Prop) :
    Except Diagnostic α → Except Diagnostic α → Prop
  | ok {a a' : α} (h : R a a') : ResultsMatch R D (.ok a) (.ok a')
  | error {d d' : Diagnostic} (h : D d d') : ResultsMatch R D (.error d) (.error d')

theorem ResultsMatch.mono {α : Type} {R : α → α → Prop} {D E : Diagnostic → Diagnostic → Prop}
    {r r' : Except Diagnostic α} (h : ResultsMatch R D r r') (hDE : ∀ d d', D d d' → E d d') :
    ResultsMatch R E r r' := by
  cases h with
  | ok h => exact .ok h
  | error h => exact .error (hDE _ _ h)

/-- Whether two findings make changes that match, and give the same reports. -/
structure FindingsMatch (P : Pairing) (f f' : Finding) : Prop where
  updates : List.Forall₂ P.UpdatesMatch f.updates f'.updates
  reports : diagnostics f.events = diagnostics f'.events

section Results

variable {α : Type} {R : α → α → Prop} {D : Diagnostic → Diagnostic → Prop}

theorem items_match {rs rs' : List (Except Diagnostic α)} (h : List.Forall₂ (ResultsMatch R D) rs rs') :
    List.Forall₂ R (items rs) (items rs') := by
  induction h with
  | nil => exact .nil
  | cons hr _ ih =>
    cases hr with
    | ok ha => exact .cons ha ih
    | error _ => exact ih

theorem reports_eq {rs rs' : List (Except Diagnostic α)} (h : List.Forall₂ (ResultsMatch R Eq) rs rs') :
    reports rs = reports rs' := by
  induction h with
  | nil => rfl
  | cons hr _ ih =>
    cases hr with
    | ok _ => exact ih
    | error hd => exact congrArg₂ List.cons (congrArg Event.warned hd) ih

/-- Two readings of entries give the same reports if and only if they do so for every entry. -/
theorem reports_map_eq_iff {g g' : Tree → Except Diagnostic α} {ts : List Tree}
    (h : ∀ t ∈ ts, ResultsMatch R D (g t) (g' t)) :
    diagnostics (reports (ts.map g)) = diagnostics (reports (ts.map g')) ↔
      ∀ t ∈ ts, ResultsMatch R Eq (g t) (g' t) := by
  induction ts with
  | nil => exact iff_of_true rfl nofun
  | cons t ts ih =>
    have hrest := ih fun u hu => h u (.tail _ hu)
    have hfirst := h t (.head _)
    rw [List.forall_mem_cons, ← hrest, List.map_cons, List.map_cons]
    generalize g t = r at hfirst
    generalize g' t = r' at hfirst
    cases hfirst with
    | ok ha => exact ⟨fun heq => ⟨.ok ha, heq⟩, And.right⟩
    | error _ =>
      refine ⟨fun heq => ?_, fun ⟨hd, heq⟩ => ?_⟩
      · obtain ⟨hd, heq⟩ := List.cons.inj heq
        exact ⟨.error hd, heq⟩
      · cases hd with
        | error hd => exact congrArg₂ List.cons hd heq

theorem length_reports {rs rs' : List (Except Diagnostic α)} (h : List.Forall₂ (ResultsMatch R D) rs rs') :
    (diagnostics (reports rs)).length = (diagnostics (reports rs')).length := by
  induction h with
  | nil => rfl
  | cons hr _ ih =>
    cases hr with
    | ok _ => exact ih
    | error _ => exact congrArg (· + 1) ih

theorem forall₂_flatMap_same {β γ : Type} {R : β → β → Prop} {g g' : γ → List β} {ts : List γ}
    (h : ∀ t ∈ ts, List.Forall₂ R (g t) (g' t)) : List.Forall₂ R (ts.flatMap g) (ts.flatMap g') := by
  induction ts with
  | nil => exact .nil
  | cons t ts ih => exact List.rel_append (h t (.head _)) (ih fun u hu => h u (.tail _ hu))

theorem flatMap_eq_iff {β γ : Type} {g g' : γ → List β} {ts : List γ}
    (h : ∀ t ∈ ts, (g t).length = (g' t).length) : ts.flatMap g = ts.flatMap g' ↔ ∀ t ∈ ts, g t = g' t := by
  induction ts with
  | nil => exact iff_of_true rfl nofun
  | cons t ts ih =>
    rw [List.forall_mem_cons, ← ih fun u hu => h u (.tail _ hu), List.flatMap_cons, List.flatMap_cons]
    exact ⟨fun heq => List.append_inj heq (h t (.head _)), fun heq => congrArg₂ List.append heq.1 heq.2⟩

end Results

namespace FindingsMatch

variable {P : Pairing} {f f' g g' : Finding}

theorem append (h : P.FindingsMatch f f') (h' : P.FindingsMatch g g') :
    P.FindingsMatch (f ++ g) (f' ++ g') where
  updates := List.rel_append h.updates h'.updates
  reports := by
    rw [Finding.events_append, Finding.events_append, diagnostics_append, diagnostics_append, h.reports,
      h'.reports]

theorem warning {d d' : Diagnostic} (h : d = d') : P.FindingsMatch (.warning d) (.warning d') where
  updates := .nil
  reports := congrArg ([·]) h

theorem change {u u' : Update} (h : P.UpdatesMatch u u') : P.FindingsMatch (.change u) (.change u') where
  updates := .cons h .nil
  reports := rfl

theorem silent {events events' : List Event} (h : diagnostics events = [])
    (h' : diagnostics events' = []) : P.FindingsMatch { events } { events := events' } where
  updates := .nil
  reports := h.trans h'.symm

theorem ofEntries (s : ListSlot) {rs rs' : List (Except Diagnostic s.Item)}
    (h : List.Forall₂ (ResultsMatch (P.ItemsMatch s) Eq) rs rs') :
    P.FindingsMatch (.ofEntries s rs) (.ofEntries s rs') where
  updates := .cons (.put (.list s) (items_match h)) .nil
  reports := congrArg diagnostics (reports_eq h)

theorem concat {g g' : Tree → Finding} {ts : List Tree} (h : ∀ t ∈ ts, P.FindingsMatch (g t) (g' t)) :
    P.FindingsMatch (.concat (ts.map g)) (.concat (ts.map g')) := by
  induction ts with
  | nil => exact silent rfl rfl
  | cons t ts ih => exact (h t (.head _)).append (ih fun u hu => h u (.tail _ hu))

/-- Items that match are added, or there are none. -/
theorem appendAll (s : ListSlot) {xs xs' : List s.Item} (h : List.Forall₂ (P.ItemsMatch s) xs xs')
    {events events' : List Event} (hevents : diagnostics events = diagnostics events') :
    P.FindingsMatch ⟨if xs.isEmpty then [] else [.append s xs], events⟩
      ⟨if xs'.isEmpty then [] else [.append s xs'], events'⟩ where
  updates := by
    cases h with
    | nil => exact .nil
    | cons hx hxs => exact .cons (.append s (.cons hx hxs)) .nil
  reports := hevents

end FindingsMatch

/-! ## Helpers and props -/

theorem literal_of_helper {x : Text} {tool : StoreTool} (h : StoreTool.ofHelper? x = some tool) :
    ∃ cs : List Char, cs.all (·.toNat < 0xE000) = true ∧ x = ofString (String.ofList cs) := by
  unfold StoreTool.ofHelper? StoreTool.namespaceHelper at h
  simp only [beq_iff_eq] at h
  iterate 5
    split at h
    · next hname =>
      refine ⟨_, ?_, hname⟩
      rfl
  cases h

theorem fieldsMatch_propField {P : Pairing} {name name' argument argument' : Text}
    (hname : P.SameName (propertyName name) (propertyName name'))
    (hargument : Pointwise P.shown argument argument') :
    P.FieldsMatch (Situation.propField name argument) (Situation.propField name' argument') where
  name := hname
  modifiers := .cons (P.literal_shown rfl) .nil
  initializer? := .none
  decorators := .cons (((P.literal_shown rfl).append hargument).append (P.literal_shown rfl)) .nil

theorem propArgument_read {P : Pairing} {type type' : Text} (htype : Pointwise P.read type type') :
    Pointwise P.read (Situation.propArgument type) (Situation.propArgument type') := by
  unfold Situation.propArgument
  dsimp only
  rw [htype.isEmpty_eq]
  refine ((P.literal rfl).append (Pointwise.intercalate (P.literal rfl) (.cons (P.literal rfl) ?_))).append
    (P.literal rfl)
  split
  · exact .nil
  · exact .cons ((P.literal rfl).append htype) .nil

namespace Readings

variable {P : Pairing} {s s' : Situation} {root : Tree} (h : P.Readings s s' root)
include h

/-! ## Stores -/

section Store

variable {tool : StoreTool} {scope? scope?' : Option Text}
  (hscope : Option.Rel (Pointwise P.shown) scope? scope?')
include hscope

theorem storeEntry {entry : Tree} (hentry : root.Part entry) :
    ResultsMatch P.BindingsMatch Eq (s.storeEntry tool scope? entry) (s'.storeEntry tool scope?' entry) := by
  unfold Situation.storeEntry
  dsimp only
  rcases FunctionForm.ofMember?_cases entry with hnone | hsome
  · rw [hnone, hnone]
    dsimp only
    split
    · exact .ok { tool := rfl, name := h.propertyName hentry, scope? := hscope,
                  getter := (h.nameText (hentry.get "value")).mono P.shown_of_read }
    · exact .error (h.report_text rfl entry entry)
  · rw [hsome, hsome]
    exact .ok { tool := rfl, name := h.propertyName hentry, scope? := hscope,
                getter := (h.arrowText _ _ _).mono P.shown_of_read }

theorem storeElement {list element : Tree} (helement : root.Part element) :
    ResultsMatch P.BindingsMatch Eq (s.storeElement tool scope? list element)
      (s'.storeElement tool scope?' list element) := by
  unfold Situation.storeElement
  split
  · next name _ hname =>
    have hread := h.texts (helement.get "value") (by rw [hname]; rfl)
    exact .ok { tool := rfl, name := sameName_propertyName hread fun _ => P.quote_self name, scope? := hscope,
                getter := (h.text element).mono P.shown_of_read }
  · exact .error (h.report_text rfl _ element)

theorem storeEntries? {argument : Tree} (hargument : root.Part argument) :
    Option.Rel (List.Forall₂ (ResultsMatch P.BindingsMatch Eq)) (s.storeEntries? tool scope? argument)
      (s'.storeEntries? tool scope?' argument) := by
  unfold Situation.storeEntries?
  split
  · exact .some (forall₂_map_same fun t ht => h.storeEntry hscope ((hargument.get "properties").item ht))
  · split
    · exact .some (forall₂_map_same fun t ht => h.storeElement hscope ((hargument.get "elements").item ht))
    · exact .none

end Store

theorem storeHelper {callee : Tree} (hcallee : root.Part callee) :
    Pointwise P.read (s.storeHelper callee).1 (s'.storeHelper callee).1 ∧
      Option.Rel (Pointwise P.shown) (s.storeHelper callee).2 (s'.storeHelper callee).2 := by
  unfold Situation.storeHelper
  split
  · exact ⟨h.nameText (hcallee.get "property"), .some ((h.text _).mono P.shown_of_read)⟩
  · exact ⟨h.nameText hcallee, .none⟩

/-- A helper is the same in both readings, and shown as it is. -/
theorem restore_helper {x x' : Text} (hx : Pointwise P.read x x') {tool : StoreTool}
    (htool : StoreTool.ofHelper? x = some tool) :
    s'.origin.restore x' = s.origin.restore x := by
  obtain ⟨cs, hcs, rfl⟩ := literal_of_helper htool
  rcases eq_or_marked hx with rfl | ⟨hmarked, -⟩
  · exact h.restore_literal hcs
  · exact absurd hmarked (not_marked_literal hcs)

theorem storeBindings {spread : Tree} (hspread : root.Part spread) :
    List.Forall₂ P.BindingsMatch (s.storeBindings spread).1 (s'.storeBindings spread).1 ∧
      diagnostics (s.storeBindings spread).2 = diagnostics (s'.storeBindings spread).2 := by
  have hexpression := hspread.get "argument"
  have hrefusal : s.report spread ("unsupported spread: " ++ s.text spread) =
      s'.report spread ("unsupported spread: " ++ s'.text spread) := h.report_text rfl spread spread
  obtain ⟨hname, hscope⟩ := h.storeHelper (hexpression.get "callee")
  have hargument := Tree.Part.headD fun _ => (hexpression.get "arguments").item
  unfold Situation.storeBindings
  dsimp only
  split
  · exact ⟨.nil, congrArg ([·]) hrefusal⟩
  rw [isMapHelper_eq hname, ofHelper?_eq hname]
  split
  · exact ⟨.nil, congrArg ([·]) hrefusal⟩
  · next tool htool =>
    have htool : StoreTool.ofHelper? (s.storeHelper ((spread.get "argument").get "callee")).1 = some tool := by
      split at htool
      · exact htool
      · cases htool
    -- The helper is the same in both readings, so it has the same tool and the same entries.
    have hresults := @storeEntries? P s s' root h tool _ _ hscope _ hargument
    generalize s.storeEntries? tool _ _ = results at hresults
    generalize s'.storeEntries? tool _ _ = results' at hresults
    cases hresults with
    | some hresults =>
      refine ⟨items_match hresults, ?_⟩
      dsimp only
      rw [diagnostics_append, diagnostics_append, reports_eq hresults]
      rfl
    | none =>
      refine ⟨.nil, congrArg ([·]) (h.report ?_ spread)⟩
      have hhelper := h.restore_helper hname htool
      exact h.restore_append (h.restore_append (h.restore_append (h.restore_literal rfl) hhelper)
        (h.restore_literal rfl)) (h.restore_text (spread.get "argument"))

theorem storeSpread {spread : Tree} (hspread : root.Part spread) :
    P.FindingsMatch (s.storeSpread spread) (s'.storeSpread spread) := by
  obtain ⟨hbindings, hevents⟩ := h.storeBindings hspread
  exact .appendAll .stores hbindings hevents

/-! ## Fields and methods -/

theorem privateField {member : Tree} (hmember : root.Part member) :
    P.FieldsMatch (s.privateField member) (s'.privateField member) where
  name := h.propertyName hmember
  modifiers := .cons (P.literal_shown rfl) .nil
  initializer? := by
    refine .some ?_
    unfold Situation.initializer
    split
    · exact (h.propertyName hmember).shown
    · exact (h.text _).mono P.shown_of_read
  decorators := .nil

theorem dataField {member : Tree} (hmember : root.Part member) :
    ResultsMatch P.FieldsMatch Eq (s.dataField member) (s'.dataField member) := by
  unfold Situation.dataField
  split
  · exact .error (h.report_text rfl member member)
  · exact .ok (h.privateField hmember)

theorem methodMember {member : Tree} (hmember : root.Part member) :
    ResultsMatch P.MembersMatch Eq (s.methodMember member) (s'.methodMember member) := by
  unfold Situation.methodMember
  rcases FunctionForm.ofMember?_cases member with hnone | hsome
  · rw [hnone, hnone]
    dsimp only
    split
    · exact .ok (.field (h.privateField hmember))
    · exact .error (h.report_text rfl member member)
  · rw [hsome, hsome]
    exact .ok (.method (h.toMethod (h.propertyName hmember) _ (.cons (P.literal_shown rfl) .nil) .nil none))

theorem methodFinding {member : Tree} (hmember : root.Part member) :
    P.FindingsMatch (s.methodFinding member) (s'.methodFinding member) := by
  unfold Situation.methodFinding
  split
  · exact h.storeSpread hmember
  · exact ⟨.nil, congrArg diagnostics (reports_eq (.cons (h.methodMember hmember) .nil))⟩

theorem accessorMethod {name name' : Text}
    (hname : P.SameName (Text.propertyName name) (Text.propertyName name')) (x x' : Text) (value : Tree)
    (accessor : Accessor) :
    P.FindingsMatch (s.accessorMethod (.ofNode x value) name accessor)
      (s'.accessorMethod (.ofNode x' value) name' accessor) :=
  .change (.append .computed
    (.cons (h.toMethod hname value (.cons (P.literal_shown rfl) .nil) .nil (some accessor)) .nil))

theorem refusedAccessor (member : Tree) :
    P.FindingsMatch (s.refusedAccessor member) (s'.refusedAccessor member) :=
  .warning (h.report_text rfl member member)

theorem readAccessorPart {name name' : Text}
    (hname : P.SameName (Text.propertyName name) (Text.propertyName name')) {member : Tree}
    (hmember : root.Part member) :
    P.FindingsMatch (s.readAccessorPart name member) (s'.readAccessorPart name' member) := by
  unfold Situation.readAccessorPart
  split
  · exact h.storeSpread hmember
  · rcases FunctionForm.ofMember?_cases member with hnone | hsome
    · rw [hnone, hnone]
      exact .silent rfl rfl
    · have hword : Accessor.ofWord? (s'.origin.memberName member) = Accessor.ofWord? (s.origin.memberName member) :=
        ofWord?_eq (h.memberName hmember)
      rw [hsome, hsome]
      dsimp only [FunctionForm.ofNode]
      rw [hword]
      split
      · exact h.refusedAccessor member
      · split
        · exact h.accessorMethod hname _ _ _ _
        · exact .silent rfl rfl

theorem readComputedEntry {member : Tree} (hmember : root.Part member) :
    P.FindingsMatch (s.readComputedEntry member) (s'.readComputedEntry member) := by
  have hname := h.propertyName hmember
  unfold Situation.readComputedEntry
  dsimp only
  split
  · exact h.storeSpread hmember
  · split
    · exact .concat fun t ht => h.readAccessorPart hname (((hmember.get "value").get "properties").item ht)
    · rcases FunctionForm.ofMember?_cases member with hnone | hsome
      · rw [hnone, hnone]
        exact .warning (h.report_text rfl member member)
      · rw [hsome, hsome]
        dsimp only [FunctionForm.ofNode]
        split
        · exact h.refusedAccessor member
        · exact h.accessorMethod hname _ _ _ _

/-! ## Props -/

theorem propElement {list element : Tree} (helement : root.Part element) :
    ResultsMatch P.FieldsMatch Eq (s.propElement list element) (s'.propElement list element) := by
  unfold Situation.propElement
  split
  · next name _ hname =>
    have hread := h.texts (helement.get "value") (by rw [hname]; rfl)
    exact .ok (fieldsMatch_propField (sameName_propertyName hread fun _ => P.quote_self name)
      ((propArgument_read (P.literal rfl)).mono P.shown_of_read))
  · exact .error (h.report_text rfl _ element)

theorem propEntry {entry : Tree} (hentry : root.Part entry) :
    ResultsMatch P.FieldsMatch Eq (s.propEntry entry) (s'.propEntry entry) := by
  unfold Situation.propEntry
  dsimp only
  split
  · exact .error (h.report_text rfl entry entry)
  · refine .ok (fieldsMatch_propField (h.propertyName hentry) (Pointwise.mono ?_ P.shown_of_read))
    split
    · exact reindent_read (h.text _) (P.literal rfl)
    · exact propArgument_read (h.text _)

/-! ## Options -/

theorem readName {option : Tree} (hoption : root.Part option) :
    P.FindingsMatch (s.readName option) (s'.readName option) :=
  .change (.put .name (h.nameText (hoption.get "value")))

theorem readRegistration (registry : Registry) {option : Tree} (hoption : root.Part option) :
    P.FindingsMatch (s.readRegistration registry option) (s'.readRegistration registry option) := by
  have hkept := reindent_read (h.text option) (P.literal rfl : Pointwise P.read (ofString "") (ofString ""))
  have hchange := FindingsMatch.change (.put (.registry registry) (.some (hkept.mono P.shown_of_read)))
  unfold Situation.readRegistration
  dsimp only
  split
  · refine hchange.append (.change (.append .registeredNames (forall₂_map_same fun t ht => ?_)))
    have hpart := ((hoption.get "value").get "properties").item (List.mem_of_mem_filter ht)
    exact sameName_of_read (h.memberName hpart)
  · exact hchange

theorem readUnsupported (option : Tree) :
    P.FindingsMatch (s.readUnsupported option) (s'.readUnsupported option) := by
  have hkept := reindent_read (h.text option) (P.literal rfl : Pointwise P.read (ofString "") (ofString ""))
  unfold Situation.readUnsupported
  dsimp only
  rw [h.keepsUnsupported]
  split
  · refine ((FindingsMatch.warning (h.report_text rfl option option)).append (.change ?_)).append
      (.silent rfl rfl)
    exact .append .unsupportedOptions (.cons (hkept.mono P.shown_of_read) .nil)
  · exact (FindingsMatch.warning (h.report_text rfl option option)).append (.silent rfl rfl)

theorem readHook {option : Tree} (hoption : root.Part option) :
    P.FindingsMatch (s.readHook option) (s'.readHook option) := by
  unfold Situation.readHook
  rcases FunctionForm.ofMember?_cases option with hnone | hsome
  · rw [hnone, hnone]
    exact h.readUnsupported option
  · rw [hsome, hsome]
    have hname := sameName_of_read (h.memberName hoption)
    exact .change (.append .lifecycleHooks
      (.cons (h.toMethod hname _ (.cons (P.literal_shown rfl) .nil) .nil none) .nil))

theorem dataParts {body : Tree} (hbody : root.Part body) :
    P.ShownAll (s.dataParts body).1 (s'.dataParts body).1 ∧
      (s'.dataParts body).2 = (s.dataParts body).2 ∧ root.Part (s.dataParts body).2 := by
  unfold Situation.dataParts
  split
  · refine ⟨forall₂_map_same fun t _ => (h.text t).mono P.shown_of_read, rfl, ?_⟩
    dsimp only
    refine Tree.Part.get ?_ "argument"
    cases hreturn : ((body.get "body").items).find? fun t => t.kind == "ReturnStatement" with
    | none => exact .null
    | some returned => exact (hbody.get "body").item (List.mem_of_find?_eq_some hreturn)
  · exact ⟨.nil, rfl, hbody⟩

theorem readData (hoistedBefore : Nat) {option : Tree} (hoption : root.Part option) :
    P.FindingsMatch (s.readData hoistedBefore option) (s'.readData hoistedBefore option) := by
  unfold Situation.readData
  rcases FunctionForm.ofMember?_cases option with hnone | hsome
  · rw [hnone, hnone]
    exact .warning (h.report_literal rfl option)
  · rw [hsome, hsome]
    dsimp only [FunctionForm.ofNode]
    split
    · exact .warning (h.report_literal rfl option)
    · obtain ⟨hhoisted, hreturned, hpart⟩ := h.dataParts ((hoption.get "value").get "body")
      have hlifted : ∀ {hoisted hoisted' : List Text}, P.ShownAll hoisted hoisted' →
          P.FindingsMatch { updates := if hoisted.isEmpty then [] else [.put (.list .hoisted) hoisted] }
            { updates := if hoisted'.isEmpty then [] else [.put (.list .hoisted) hoisted'] } := by
        intro hoisted hoisted' hall
        cases hall with
        | nil => exact .silent rfl rfl
        | cons htext hrest => exact .change (.put (.list .hoisted) (.cons htext hrest))
      rw [hreturned]
      split
      · refine ((hlifted hhoisted).append (.ofEntries .data ?_)).append (.silent rfl rfl)
        exact forall₂_map_same fun t ht => h.dataField ((hpart.get "properties").item ht)
      · exact (hlifted hhoisted).append (.warning (h.report_literal rfl option))

theorem readComputed {option : Tree} (hoption : root.Part option) :
    P.FindingsMatch (s.readComputed option) (s'.readComputed option) := by
  unfold Situation.readComputed
  dsimp only
  split
  · exact .concat fun t ht => h.readComputedEntry (((hoption.get "value").get "properties").item ht)
  · exact .warning (h.report_text rfl option option)

theorem readMethods {option : Tree} (hoption : root.Part option) :
    P.FindingsMatch (s.readMethods option) (s'.readMethods option) := by
  have hentries := fun t => ((hoption.get "value").get "properties").item (u := t)
  unfold Situation.readMethods
  dsimp only
  split
  · refine FindingsMatch.append (.concat fun t ht => h.methodFinding (hentries t ht)) ?_
    refine .appendAll .methods (items_match (D := Eq) (forall₂_map_same fun t ht => ?_)) rfl
    exact h.methodMember (hentries t (List.mem_of_mem_filter ht))
  · exact .warning (h.report_text rfl option option)

theorem readProps {option : Tree} (hoption : root.Part option) :
    P.FindingsMatch (s.readProps option) (s'.readProps option) := by
  have hvalue := hoption.get "value"
  unfold Situation.readProps
  dsimp only
  split
  · exact .ofEntries .props (forall₂_map_same fun t ht => h.propElement ((hvalue.get "elements").item ht))
  · split
    · exact .ofEntries .props (forall₂_map_same fun t ht => h.propEntry ((hvalue.get "properties").item ht))
    · exact .warning (h.report_literal rfl option)

/-! ## Watchers -/

theorem watcher {path path' : Text} (hpath : Pointwise P.read path path')
    (hquote : Pointwise P.shown (quote path) (quote path')) (x x' : Text) (value : Tree) (settings : List Tree) :
    P.WatchersMatch (s.watcher (.ofNode x value) path settings) (s'.watcher (.ofNode x' value) path' settings) := by
  have hname := watcherName_eq hpath
  have hsettings : P.ShownAll
      (if settings.isEmpty then [] else ["\x7b " ++ Text.intercalate ", " (settings.map s.text) ++ " \x7d"])
      (if settings.isEmpty then [] else ["\x7b " ++ Text.intercalate ", " (settings.map s'.text) ++ " \x7d"]) := by
    split
    · exact .nil
    · have htexts := Pointwise.intercalate (P.literal rfl : Pointwise P.read (ofString ", ") (ofString ", "))
        (h.texts_read settings)
      exact .cons ((((P.literal rfl).append htexts).append (P.literal rfl)).mono P.shown_of_read) .nil
  have hdecorator := ((P.literal_shown rfl : Pointwise P.shown (ofString "@Watch(") (ofString "@Watch(")).append
    (Pointwise.intercalate (P.literal_shown rfl : Pointwise P.shown (ofString ", ") (ofString ", "))
      (.cons hquote hsettings))).append (P.literal_shown rfl : Pointwise P.shown (ofString ")") (ofString ")"))
  refine { h.toMethod ?_ value (.cons (P.literal_shown rfl) .nil) (.cons hdecorator .nil) none with
    sameName := hname, isPlain := isPlain_watcherName path }
  rw [hname]
  exact sameName_of_isPlain (isPlain_watcherName path)

theorem isHandler {t : Tree} (ht : root.Part t) : s'.isHandler t = s.isHandler t := by
  unfold Situation.isHandler
  rw [beq_eq (h.nameText (ht.get "key")) (not_marked_literal rfl)]

theorem splitHandler {members : List Tree} (hmembers : ∀ t ∈ members, root.Part t) :
    s'.splitHandler members = s.splitHandler members := by
  have hsame : ∀ t ∈ members, s'.isHandler t = s.isHandler t := fun t ht => h.isHandler (hmembers t ht)
  have hfind : members.find? s'.isHandler = members.find? s.isHandler := List.find?_congr hsame
  have hsplit : members.takeWhile (!s'.isHandler ·) = members.takeWhile (!s.isHandler ·) ∧
      members.dropWhile (!s'.isHandler ·) = members.dropWhile (!s.isHandler ·) := by
    clear hmembers hfind
    induction members with
    | nil => exact ⟨rfl, rfl⟩
    | cons t members ih =>
      obtain ⟨htake, hdrop⟩ := ih fun u hu => hsame u (.tail _ hu)
      simp only [List.takeWhile_cons, List.dropWhile_cons, hsame t (.head _), htake, hdrop, and_self]
  unfold Situation.splitHandler
  rw [hfind, hsplit.1, hsplit.2]

theorem lacksHandler_iff {entry : Tree} (hentry : root.Part entry) :
    s'.LacksHandler entry ↔ s.LacksHandler entry := by
  have hsplit := h.splitHandler fun _ => ((hentry.get "value").get "properties").item
  unfold Situation.LacksHandler
  rw [hsplit]
  rcases FunctionForm.ofMember?_cases (s.splitHandler ((entry.get "value").get "properties").items).1
    with hnone | hsome
  · rw [hnone, hnone]
  · rw [hsome, hsome]
    simp only [reduceCtorEq]

/-- Watchers match, and so do the reports about them, except where a handler is missing. -/
theorem watchEntry {entry : Tree} (hentry : entry ∈ watchEntries s.origin root) :
    ResultsMatch P.WatchersMatch (fun d d' => d = d' ∨ s.LacksHandler entry) (s.watchEntry entry)
      (s'.watchEntry entry) := by
  have hpart := watchEntry_part hentry
  have hpath := h.memberName hpart
  have hsplit := h.splitHandler fun _ => ((hpart.get "value").get "properties").item
  unfold Situation.watchEntry
  dsimp only
  split
  · exact .error (.inl (h.report_text rfl entry entry))
  · next hkind =>
    split
    · next hobject =>
      rw [hsplit]
      rcases FunctionForm.ofMember?_cases (s.splitHandler ((entry.get "value").get "properties").items).1
        with hnone | hsome
      · -- The one report that shows a name instead of the text of a node.
        rw [hnone, hnone]
        refine .error (.inr ?_)
        simp only [bne_iff_ne, ne_eq, not_not, Bool.and_eq_true, Bool.not_eq_true', beq_iff_eq] at hkind hobject
        exact ⟨hkind, hobject.1, hobject.2, hnone s.origin⟩
      · rw [hsome, hsome]
        exact .ok (h.watcher hpath (h.watched hentry) _ _ _ _)
    · rcases FunctionForm.ofMember?_cases entry with hnone | hsome
      · rw [hnone, hnone]
        exact .error (.inl (h.report_text rfl entry entry))
      · rw [hsome, hsome]
        exact .ok (h.watcher hpath (h.watched hentry) _ _ _ _)

/-- The report about a missing handler shows the name of what is watched. -/
theorem watchEntry_iff {entry : Tree} (hentry : entry ∈ watchEntries s.origin root) :
    ResultsMatch P.WatchersMatch Eq (s.watchEntry entry) (s'.watchEntry entry) ↔
      (s.LacksHandler entry →
        s'.origin.restore (s'.origin.memberName entry) = s.origin.restore (s.origin.memberName entry)) := by
  by_cases hlacks : s.LacksHandler entry
  · have hlacks' := (h.lacksHandler_iff (watchEntry_part hentry)).mpr hlacks
    rw [Situation.watchEntry_of_lacksHandler hlacks, Situation.watchEntry_of_lacksHandler hlacks']
    refine ⟨fun hresult _ => ?_, fun hname => .error ((h.report_lead_iff rfl entry).mpr (hname hlacks))⟩
    cases hresult with
    | error heq => exact (h.report_lead_iff rfl entry).mp heq
  · refine iff_of_true ?_ fun hlacks' => absurd hlacks' hlacks
    exact (h.watchEntry hentry).mono fun _ _ hreport => hreport.resolve_right hlacks

theorem readWatch_updates {option : Tree} (hoption : (.watch, option) ∈ scriptOptions s.origin root) :
    List.Forall₂ P.UpdatesMatch (s.readWatch option).updates (s'.readWatch option).updates := by
  unfold Situation.readWatch
  dsimp only
  split
  · next hvalue =>
    refine .cons (.put (.list .watch) (items_match (D := fun _ _ => True) ?_)) .nil
    refine forall₂_map_same fun t ht => ?_
    have hentry := mem_watchEntries.mpr ⟨option, hoption, beq_iff_eq.mp hvalue, ht⟩
    exact (h.watchEntry hentry).mono fun _ _ _ => trivial
  · exact .nil

theorem length_readWatch_reports {option : Tree}
    (hoption : (.watch, option) ∈ scriptOptions s.origin root) :
    (diagnostics (s.readWatch option).events).length = (diagnostics (s'.readWatch option).events).length := by
  unfold Situation.readWatch
  dsimp only
  split
  · next hvalue =>
    refine length_reports (R := P.WatchersMatch) (D := fun _ _ => True) (forall₂_map_same fun t ht => ?_)
    have hentry := mem_watchEntries.mpr ⟨option, hoption, beq_iff_eq.mp hvalue, ht⟩
    exact (h.watchEntry hentry).mono fun _ _ _ => trivial
  · rfl

theorem readWatch_reports_iff {option : Tree} (hoption : (.watch, option) ∈ scriptOptions s.origin root) :
    diagnostics (s.readWatch option).events = diagnostics (s'.readWatch option).events ↔
      ((option.get "value").kind = "ObjectExpression" →
        ∀ entry ∈ ((option.get "value").get "properties").items, s.LacksHandler entry →
          s'.origin.restore (s'.origin.memberName entry) = s.origin.restore (s.origin.memberName entry)) := by
  unfold Situation.readWatch
  dsimp only
  split
  · next hvalue =>
    have hobject := beq_iff_eq.mp hvalue
    have hentry : ∀ t ∈ ((option.get "value").get "properties").items, t ∈ watchEntries s.origin root :=
      fun t ht => mem_watchEntries.mpr ⟨option, hoption, hobject, ht⟩
    have hiff := reports_map_eq_iff (D := fun _ _ => True) fun t ht =>
      (h.watchEntry (hentry t ht)).mono fun _ _ _ => trivial
    exact hiff.trans ⟨fun hall _ t ht => (h.watchEntry_iff (hentry t ht)).mp (hall t ht),
      fun hall t ht => (h.watchEntry_iff (hentry t ht)).mpr (hall hobject t ht)⟩
  · next hvalue =>
    exact iff_of_true (congrArg ([·]) (h.report_literal rfl option)) fun hobject =>
      absurd (beq_iff_eq.mpr hobject) hvalue

/-! ## Components -/

theorem readOption {kind : OptionKind} (hkind : kind ≠ .watch) (hoistedBefore : Nat) {option : Tree}
    (hoption : root.Part option) :
    P.FindingsMatch (s.readOption hoistedBefore kind option) (s'.readOption hoistedBefore kind option) := by
  cases kind with
  | name => exact h.readName hoption
  | data => exact h.readData hoistedBefore hoption
  | components => exact h.readRegistration .components hoption
  | directives => exact h.readRegistration .directives hoption
  | filters => exact h.readRegistration .filters hoption
  | computed => exact h.readComputed hoption
  | methods => exact h.readMethods hoption
  | props => exact h.readProps hoption
  | watch => exact absurd rfl hkind
  | lifecycleHook => exact h.readHook hoption
  | unrecognized => exact h.readUnsupported option

/-- The walk goes through the same nodes. -/
theorem walk (queue : List Tree) : Tree.walk s'.origin queue = Tree.walk s.origin queue := by
  have hcontainer : ∀ t : Tree, t.isContainer s'.origin = t.isContainer s.origin := by
    intro t
    unfold Tree.isContainer
    split
    · rfl
    · rfl
    · rfl
    · exact congrArg (_ && ·) (isFactory_eq (h.text _))
    · rfl
  fun_induction Tree.walk s.origin queue with
  | case1 => rw [Tree.walk]
  | case2 t queue ht ih => rw [Tree.walk, hcontainer, if_pos ht, ih]
  | case3 t queue ht ih => rw [Tree.walk, hcontainer, if_neg ht, ih]

theorem scriptOptions : scriptOptions s'.origin root = scriptOptions s.origin root := by
  rw [ClassComponent.scriptOptions, ClassComponent.scriptOptions, h.walk]

theorem optionUpdates {option : OptionKind × Tree} (hoption : option ∈ ClassComponent.scriptOptions s.origin root) :
    List.Forall₂ P.UpdatesMatch (s.optionUpdates option) (s'.optionUpdates option) := by
  obtain ⟨kind, t⟩ := option
  by_cases hkind : kind = .watch
  · subst hkind
    exact h.readWatch_updates hoption
  · exact (h.readOption hkind 0 (.option hoption)).updates

/-- The components that two readings give are alike. -/
theorem gather : P.Alike (s.gather (ClassComponent.scriptOptions s.origin root))
    (s'.gather (ClassComponent.scriptOptions s'.origin root)) := by
  rw [h.scriptOptions]
  refine Alike.applyAll (alike_empty _ _) ?_
  exact forall₂_flatMap_same fun option hoption => h.optionUpdates hoption

theorem optionReports_iff {option : OptionKind × Tree}
    (hoption : option ∈ ClassComponent.scriptOptions s.origin root) :
    s.optionReports option = s'.optionReports option ↔
      (option.1 = .watch → (option.2.get "value").kind = "ObjectExpression" →
        ∀ entry ∈ ((option.2.get "value").get "properties").items, s.LacksHandler entry →
          s'.origin.restore (s'.origin.memberName entry) = s.origin.restore (s.origin.memberName entry)) := by
  obtain ⟨kind, t⟩ := option
  by_cases hkind : kind = .watch
  · subst hkind
    exact (h.readWatch_reports_iff hoption).trans ⟨fun hall _ => hall, fun hall => hall rfl⟩
  · exact iff_of_true (h.readOption hkind 0 (.option hoption)).reports fun hwatch => absurd hwatch hkind

theorem length_optionReports {option : OptionKind × Tree}
    (hoption : option ∈ ClassComponent.scriptOptions s.origin root) :
    (s.optionReports option).length = (s'.optionReports option).length := by
  obtain ⟨kind, t⟩ := option
  by_cases hkind : kind = .watch
  · subst hkind
    exact h.length_readWatch_reports hoption
  · exact congrArg List.length (h.readOption hkind 0 (.option hoption)).reports

/-- The reports are the same if and only if watchers without a handler are named alike in both readings. -/
theorem reports_iff :
    (ClassComponent.scriptOptions s.origin root).flatMap s.optionReports =
        (ClassComponent.scriptOptions s'.origin root).flatMap s'.optionReports ↔
      ∀ entry ∈ watchEntries s.origin root, s.LacksHandler entry →
        s'.origin.restore (s'.origin.memberName entry) = s.origin.restore (s.origin.memberName entry) := by
  rw [h.scriptOptions, flatMap_eq_iff fun option hoption => h.length_optionReports hoption]
  constructor
  · intro hall entry hentry
    obtain ⟨option, hoption, hvalue, hmem⟩ := mem_watchEntries.mp hentry
    exact (h.optionReports_iff hoption).mp (hall _ hoption) rfl hvalue entry hmem
  · rintro hall ⟨kind, option⟩ hoption
    refine (h.optionReports_iff hoption).mpr fun hkind hvalue entry hmem => hall entry ?_
    exact mem_watchEntries.mpr ⟨option, hkind ▸ hoption, hvalue, hmem⟩

end Readings

end Pairing

end ClassComponent
