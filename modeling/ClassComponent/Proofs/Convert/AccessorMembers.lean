import ClassComponent.Proofs.Convert.Accessors

/-!
# Accessors among members

Members `get key() { … }` and `set key(x) { … }` may stand in every object that is read member by member. A class
has no room for them, since what they give is computed anew at each access.

* **Places** (`MemberPlace`, `Situation.ReadsMembers`): the seven objects whose members are read, and the findings of
  reading them. Each finding is made of those of the members, one after the other (`written_of_readsMembers`,
  `reports_of_readsMembers`).
* **Refusal** (`refusesAccessor`): most places refuse an accessor, which then leaves a report and nothing else.
* **Slips** (`accessors_refused_but_for_props_and_pairs`): an accessor in `props` is taken for a prop with a
  function as its type, and one beside `get` and `set` is passed over without a report.
-/

namespace ClassComponent

/-! ## Findings -/

namespace Finding

/-- What a finding writes into a slot of a component that holds nothing. -/
def written (f : Finding) (slot : ListSlot) : List slot.Item :=
  (({} : Component).applyAll f.updates).getList slot

theorem getList_empty (slot : ListSlot) : ({} : Component).getList slot = [] := by
  cases slot <;> rfl

theorem written_eq_added {f : Finding} {slot : ListSlot} (h : ∀ u ∈ f.updates, u.Keeps slot) :
    f.written slot = f.added slot := by
  rw [written, Component.getList_applyAll h, getList_empty, List.nil_append]
  rfl

theorem written_ofEntries_self (slot : ListSlot) (results : List (Except Diagnostic slot.Item)) :
    (ofEntries slot results).written slot = items results :=
  Component.getList_put_self _ slot _

theorem written_ofEntries_of_ne {slot other : ListSlot} (h : slot ≠ other)
    (results : List (Except Diagnostic slot.Item)) : (ofEntries slot results).written other = [] := by
  have hslot : Slot.list slot ≠ .list other := fun hsame => h (Slot.list.inj hsame)
  exact (Component.getList_put_of_ne _ hslot _).trans (getList_empty other)

/-- Entries are read one by one. -/
theorem written_ofEntries_map (slot : ListSlot) (read : Tree → Except Diagnostic slot.Item) (entries : List Tree)
    (other : ListSlot) :
    (ofEntries slot (entries.map read)).written other =
      entries.flatMap fun entry => (ofEntries slot [read entry]).written other := by
  by_cases h : slot = other
  · subst h
    simp only [written_ofEntries_self]
    induction entries with
    | nil => rfl
    | cons entry entries ih => rw [List.map_cons, items_cons, ih, List.flatMap_cons]
  · simp [written_ofEntries_of_ne h]

end Finding

theorem diagnostics_flatMap {α : Type} (xs : List α) (events : α → List Event) :
    diagnostics (xs.flatMap events) = xs.flatMap fun x => diagnostics (events x) :=
  List.filterMap_flatMap

theorem diagnostics_reports_map {α : Type} (read : Tree → Except Diagnostic α) (entries : List Tree) :
    diagnostics (reports (entries.map read)) = entries.flatMap fun entry => diagnostics (reports [read entry]) := by
  induction entries with
  | nil => rfl
  | cons entry entries ih => rw [List.map_cons, reports_cons, diagnostics_append, ih, List.flatMap_cons]

/-! ## Places -/

/-- The objects whose members are read one by one. -/
inductive MemberPlace where
  | methods
  | computed
  | watch
  | props
  /-- The object that `data` returns. -/
  | data
  /-- The object that holds the two accessors of a computed property. -/
  | pair (name : Text)
  /-- The argument of a store helper. -/
  | helper (tool : StoreTool) (scope? : Option Text)

namespace Situation

variable {s : Situation}

/-- What a member gives at a place. -/
def readMember (s : Situation) : MemberPlace → Tree → Finding
  | .methods, m => s.methodFinding m ++ { updates := [.append .methods (s.methodMembers [m])] }
  | .computed, m => s.readComputedEntry m
  | .watch, m => .ofEntries .watch [s.watchEntry m]
  | .props, m => .ofEntries .props [s.propEntry m]
  | .data, m => .ofEntries .data [s.dataField m]
  | .pair name, m => s.readAccessorPart name m
  | .helper tool scope?, m => .ofEntries .stores [s.storeEntry tool scope? m]

/-- Whether a finding is what reading an object with these members gives. -/
inductive ReadsMembers (s : Situation) : MemberPlace → List Tree → Finding → Prop
  | methods {option : Tree} (h : (option.get "value").kind = "ObjectExpression") :
    s.ReadsMembers .methods ((option.get "value").get "properties").items (s.readMethods option)
  | computed {option : Tree} (h : (option.get "value").kind = "ObjectExpression") :
    s.ReadsMembers .computed ((option.get "value").get "properties").items (s.readComputed option)
  | watch {option : Tree} (h : (option.get "value").kind = "ObjectExpression") :
    s.ReadsMembers .watch ((option.get "value").get "properties").items (s.readWatch option)
  | props {option : Tree} (h : (option.get "value").kind = "ObjectExpression") :
    s.ReadsMembers .props ((option.get "value").get "properties").items (s.readProps option)
  | data {option : Tree} (h : (s.returnedObject option).kind = "ObjectExpression") :
    s.ReadsMembers .data ((s.returnedObject option).get "properties").items (s.readData 0 option)
  | pair {entry : Tree} (hspread : entry.kind ≠ "SpreadElement")
      (h : (entry.get "value").kind = "ObjectExpression") :
    s.ReadsMembers (.pair (s.origin.memberName entry)) ((entry.get "value").get "properties").items
      (s.readComputedEntry entry)
  | helper {spread : Tree} {tool : StoreTool} (hcall : s.CallsHelper spread tool)
      (h : (helperArgument spread).kind = "ObjectExpression") :
    s.ReadsMembers (.helper tool (s.spreadHelper spread).2) ((helperArgument spread).get "properties").items
      (s.storeSpread spread)

/-! ## What places keep -/

variable {slot : ListSlot} {u : Update}

theorem keeps_concat_map {read : Tree → Finding} {entries : List Tree}
    (h : ∀ m, ∀ u ∈ (read m).updates, u.Keeps slot) (hu : u ∈ (Finding.concat (entries.map read)).updates) :
    u.Keeps slot := by
  obtain ⟨finding, hfinding, hu⟩ := List.mem_flatMap.mp hu
  obtain ⟨m, -, rfl⟩ := List.mem_map.mp hfinding
  exact h m u hu

theorem keeps_storeSpread {spread : Tree} (hu : u ∈ (s.storeSpread spread).updates) : u.Keeps slot := by
  simp only [storeSpread] at hu
  split at hu
  · cases hu
  · cases List.mem_singleton.mp hu
    trivial

theorem keeps_methodFinding {m : Tree} (hu : u ∈ (s.methodFinding m).updates) : u.Keeps slot := by
  unfold methodFinding at hu
  split at hu
  · exact keeps_storeSpread hu
  · cases hu

theorem keeps_accessorMethod {f : FunctionForm} {name : Text} {accessor : Accessor}
    (hu : u ∈ (s.accessorMethod f name accessor).updates) : u.Keeps slot := by
  cases List.mem_singleton.mp hu
  trivial

theorem keeps_readAccessorPart {name : Text} {m : Tree} (hu : u ∈ (s.readAccessorPart name m).updates) :
    u.Keeps slot := by
  unfold readAccessorPart at hu
  split at hu
  · exact keeps_storeSpread hu
  · split at hu
    · cases hu
    · split at hu
      · cases hu
      · split at hu
        · exact keeps_accessorMethod hu
        · cases hu

theorem keeps_readComputedEntry {m : Tree} (hu : u ∈ (s.readComputedEntry m).updates) : u.Keeps slot := by
  simp only [readComputedEntry] at hu
  split at hu
  · exact keeps_storeSpread hu
  · split at hu
    · exact keeps_concat_map (fun part u hu => keeps_readAccessorPart hu) hu
    · split at hu
      · cases hu
      · split at hu
        · cases hu
        · exact keeps_accessorMethod hu

/-- Findings that only add to slots can be put together. -/
theorem written_concat_map {read : Tree → Finding} (entries : List Tree)
    (h : ∀ m, ∀ u ∈ (read m).updates, u.Keeps slot) :
    (Finding.concat (entries.map read)).written slot = entries.flatMap fun m => (read m).written slot := by
  rw [Finding.written_eq_added fun u hu => keeps_concat_map h hu, Finding.added_concat, List.flatMap_map]
  exact congrArg (List.flatMap · entries) (funext fun m => (Finding.written_eq_added (h m)).symm)

theorem written_readMethods {option : Tree} (h : (option.get "value").kind = "ObjectExpression") :
    (s.readMethods option).written slot = ((option.get "value").get "properties").items.flatMap fun m =>
      (s.readMember .methods m).written slot := by
  have hmember (m : Tree) : (s.readMember .methods m).written slot =
      (s.methodFinding m).added slot ++ (Update.append .methods (s.methodMembers [m])).added slot := by
    rw [Finding.written_eq_added, readMember, Finding.added_append]
    · simp [Finding.added]
    · intro u hu
      rcases List.mem_append.mp hu with hu | hu
      · exact keeps_methodFinding hu
      · cases List.mem_singleton.mp hu
        trivial
  have hkeeps : ∀ u ∈ (s.readMethods option).updates, u.Keeps slot := by
    simp only [readMethods, h, beq_self_eq_true, if_true]
    intro u hu
    rcases List.mem_append.mp hu with hu | hu
    · exact keeps_concat_map (fun m u hu => keeps_methodFinding hu) hu
    · split at hu
      · cases hu
      · cases List.mem_singleton.mp hu
        trivial
  simp only [hmember, Finding.written_eq_added hkeeps]
  by_cases hslot : slot = .methods
  · subst hslot
    rw [readMethods_added h]
    simp only [methodFinding_added, List.nil_append]
    induction ((option.get "value").get "properties").items with
    | nil => rfl
    | cons m members ih =>
      rw [methodMembers_cons, ih, List.flatMap_cons]
      rfl
  · have hnone (members : List Member) : (Update.append .methods members).added slot = [] := by
      simp [Update.added, Ne.symm hslot]
    simp only [readMethods, h, beq_self_eq_true, if_true, hnone, List.append_nil, Finding.added_append,
      Finding.added_concat, List.flatMap_map]
    rw [List.append_right_eq_self, Finding.added]
    split
    · rfl
    · simp [hnone]

theorem written_readData {option : Tree} (h : (s.returnedObject option).kind = "ObjectExpression")
    (hslot : slot ≠ .hoisted) :
    (s.readData 0 option).written slot = (Finding.ofEntries .data
      (((s.returnedObject option).get "properties").items.map s.dataField)).written slot := by
  have hother : Slot.list .hoisted ≠ .list slot := fun hsame => hslot (Slot.list.inj hsame).symm
  rw [Finding.written, readData_updates, if_pos h, Component.applyAll_append]
  split
  · rfl
  · by_cases hdata : slot = .data
    · subst hdata
      exact (Component.getList_put_self _ .data _).trans (Component.getList_put_self _ .data _).symm
    · have hdata : Slot.list .data ≠ .list slot := fun hsame => hdata (Slot.list.inj hsame).symm
      refine (Component.getList_put_of_ne _ hdata _).trans ?_
      exact (Component.getList_put_of_ne _ hother _).trans (Component.getList_put_of_ne _ hdata _).symm

theorem written_storeSpread {spread : Tree} {results : List (Except Diagnostic StoreBinding)}
    (h : (s.storeBindings spread).1 = items results) :
    (s.storeSpread spread).written slot = (Finding.ofEntries .stores results).written slot := by
  rw [Finding.written_eq_added fun u hu => keeps_storeSpread hu]
  by_cases hslot : slot = .stores
  · subst hslot
    rw [Finding.written_ofEntries_self, ← h]
    exact storeSpread_bindings spread
  · rw [storeSpread_added hslot, Finding.written_ofEntries_of_ne (Ne.symm hslot)]

theorem storeEntries?_of_object {tool : StoreTool} {scope? : Option Text} {argument : Tree}
    (h : argument.kind = "ObjectExpression") :
    s.storeEntries? tool scope? argument =
      some ((argument.get "properties").items.map (s.storeEntry tool scope?)) := by
  rw [storeEntries?, if_pos (beq_iff_eq.mpr h)]

/-- **Members are read one by one.** What reading an object writes is what its members write, one after the
other. Statements of a data function are no members of its object. -/
theorem written_of_readsMembers {place : MemberPlace} {entries : List Tree} {f : Finding}
    (h : s.ReadsMembers place entries f) (hslot : slot ≠ .hoisted) :
    f.written slot = entries.flatMap fun m => (s.readMember place m).written slot := by
  cases h with
  | methods h => exact written_readMethods h
  | computed h =>
    simp only [readComputed, h, beq_self_eq_true, if_true]
    exact written_concat_map _ fun m u hu => keeps_readComputedEntry hu
  | watch h =>
    simp only [readWatch, h, beq_self_eq_true, if_true]
    exact Finding.written_ofEntries_map .watch s.watchEntry _ slot
  | props h =>
    simp only [readProps, h, beq_self_eq_true, if_true]
    exact Finding.written_ofEntries_map .props s.propEntry _ slot
  | data h =>
    rw [written_readData h hslot]
    exact Finding.written_ofEntries_map .data s.dataField _ slot
  | pair hspread h =>
    rw [readComputedEntry]
    simp only [h, beq_iff_eq, hspread, if_true, if_false]
    exact written_concat_map _ fun m u hu => keeps_readAccessorPart hu
  | helper hcall h =>
    rw [written_storeSpread (storeBindings_of_callsHelper hcall (storeEntries?_of_object h)).1]
    exact Finding.written_ofEntries_map .stores _ _ slot

theorem reports_of_readsMembers {place : MemberPlace} {entries : List Tree} {f : Finding}
    (h : s.ReadsMembers place entries f) :
    diagnostics f.events = entries.flatMap fun m => diagnostics (s.readMember place m).events := by
  cases h with
  | methods h =>
    simp only [readMethods, h, beq_self_eq_true, if_true, readMember, Finding.events_append, List.append_nil,
      Finding.events_concat, List.flatMap_map]
    exact diagnostics_flatMap _ _
  | computed h =>
    simp only [readComputed, h, beq_self_eq_true, if_true, Finding.events_concat, List.flatMap_map]
    exact diagnostics_flatMap _ _
  | watch h =>
    simp only [readWatch, h, beq_self_eq_true, if_true]
    exact diagnostics_reports_map s.watchEntry _
  | props h =>
    simp only [readProps, h, beq_self_eq_true, if_true]
    exact diagnostics_reports_map s.propEntry _
  | data h =>
    rw [readData_reports h]
    exact diagnostics_reports_map s.dataField _
  | pair hspread h =>
    rw [readComputedEntry]
    simp only [h, beq_iff_eq, hspread, if_true, if_false, Finding.events_concat, List.flatMap_map]
    exact diagnostics_flatMap _ _
  | helper hcall h =>
    refine (storeBindings_of_callsHelper hcall (storeEntries?_of_object h)).2.trans ?_
    exact diagnostics_reports_map (s.storeEntry _ _) _

end Situation

/-! ## Refusal -/

theorem Tree.isInit_of_isAccessor {m : Tree} (h : m.isAccessor = true) : m.isInit = false := by
  unfold isAccessor get at h
  unfold isInit
  cases hkind : m.get? "kind" with
  | none =>
    rw [hkind] at h
    cases h
  | some kind =>
    rw [hkind, Option.getD_some, Bool.or_eq_true, isWord, isWord, beq_iff_eq, beq_iff_eq] at h
    rcases h with h | h
    · show (kind.text? == some (Text.ofString "init")) = false
      rw [h]
      decide
    · show (kind.text? == some (Text.ofString "init")) = false
      rw [h]
      decide

theorem Tree.holdsFunction_of_isAccessor {m : Tree} (h : m.isAccessor = true) : m.holdsFunction = false := by
  simp [holdsFunction, h]

/-- Whether a finding is a report and nothing else. -/
def Finding.IsRefusal (f : Finding) (IsReport : Diagnostic → Prop) : Prop :=
  (∀ slot, f.written slot = []) ∧ ∃ d, diagnostics f.events = [d] ∧ IsReport d

theorem Finding.isRefusal_ofEntries {slot : ListSlot} {accepted : Bool} {IsItem : slot.Item → Prop}
    {IsReport : Diagnostic → Prop} {result : Except Diagnostic slot.Item}
    (h : GivesOne accepted IsItem IsReport (items [result]) (diagnostics (reports [result])))
    (haccepted : accepted = false) : (ofEntries slot [result]).IsRefusal IsReport := by
  cases result with
  | ok item =>
    cases h with
    | item htrue => cases haccepted.symm.trans htrue
  | error d =>
    cases h with
    | report _ hreport =>
      refine ⟨fun other => ?_, d, rfl, hreport⟩
      by_cases hslot : slot = other
      · subst hslot
        exact written_ofEntries_self slot _
      · exact written_ofEntries_of_ne hslot _

/-- How reports about accessors begin. -/
def MemberPlace.leads : MemberPlace → List RefusalLead
  | .methods => [.method]
  | .computed => [.computedProperty]
  | .watch => [.watcher, .noHandler, .otherHandler]
  | .props => [.prop]
  | .data => [.dataMember]
  | .pair _ => []
  | .helper _ _ => [.mappedFunction]

namespace Situation

variable {s : Situation}

/-- Whether a place refuses an accessor. -/
def refusesAccessor (s : Situation) : MemberPlace → Tree → Bool
  | .methods, _ => true
  | .computed, m => (m.get "value").kind != "ObjectExpression"
  | .watch, m => !s.isHandled m
  | .props, m => m.has "method" || m.has "shorthand"
  | .data, _ => true
  | .pair _, _ => false
  | .helper _ _, m => (m.get "value").kind != "Identifier"

theorem isRefusal_of_refusesAccessor {place : MemberPlace} {m : Tree} (hkind : m.kind = "Property")
    (haccessor : m.isAccessor = true) (h : s.refusesAccessor place m = true) :
    (s.readMember place m).IsRefusal (s.Refused m place.leads) := by
  have hinit : m.isInit = false := Tree.isInit_of_isAccessor haccessor
  have hfunction : m.holdsFunction = false := Tree.holdsFunction_of_isAccessor haccessor
  have hform : FunctionForm.ofMember? s.origin m = none := FunctionForm.ofMember?_eq_none_iff.mpr hfunction
  cases place with
  | methods =>
    have hread : s.methodMember m = .error (s.report m ("unsupported method: " ++ s.text m)) := by
      simp [methodMember, hform, hinit]
    have hmembers : s.methodMembers [m] = [] := by simp [methodMembers, hkind, hread, items]
    have hfinding : s.methodFinding m = { events := reports [s.methodMember m] } := by
      simp [methodFinding, hkind]
    rw [readMember, hmembers, hfinding, hread]
    refine ⟨fun slot => ?_, _, rfl, .method, .head _, _, rfl⟩
    cases slot <;> rfl
  | computed =>
    have hvalue : (m.get "value").kind ≠ "ObjectExpression" := bne_iff_ne.mp h
    have hread : s.readComputedEntry m =
        .warning (s.report m ("unsupported computed property: " ++ s.text m)) := by
      simp [readComputedEntry, hkind, hvalue, hform]
    rw [readMember, hread]
    exact ⟨Finding.getList_empty, _, rfl, .computedProperty, .head _, _, rfl⟩
  | watch => exact Finding.isRefusal_ofEntries (watchEntry_gives m) (by simpa [hkind, refusesAccessor] using h)
  | props =>
    refine Finding.isRefusal_ofEntries (propEntry_gives m) ?_
    rcases Bool.or_eq_true_iff.mp h with h | h
    · simp [h]
    · simp [h]
  | data => exact Finding.isRefusal_ofEntries (dataField_gives m) (by simp [hinit])
  | pair name => cases h
  | helper tool scope? =>
    exact Finding.isRefusal_ofEntries (storeEntry_gives tool scope? m)
      (by simpa [hkind, hfunction, refusesAccessor] using h)

/-! ## Slips -/

/-- A prop is read from an accessor as from any other member. -/
theorem readMember_props {m : Tree} (hkind : m.kind = "Property") (h : s.refusesAccessor .props m = false) :
    (∃ argument, (s.readMember .props m).written .props = [propField (s.origin.memberName m) argument]) ∧
      diagnostics (s.readMember .props m).events = [] := by
  obtain ⟨hmethod, hshorthand⟩ := Bool.or_eq_false_iff.mp h
  obtain ⟨argument, hread⟩ : ∃ argument, s.propEntry m = .ok (propField (s.origin.memberName m) argument) := by
    simp [propEntry, hkind, hmethod, hshorthand]
  rw [readMember, hread]
  exact ⟨⟨argument, Finding.written_ofEntries_self .props _⟩, rfl⟩

/-- A part of a pair counts only if it holds a function, which an accessor does not. -/
theorem readMember_pair {m : Tree} (hkind : m.kind = "Property") (haccessor : m.isAccessor = true) (name : Text) :
    (∀ slot, (s.readMember (.pair name) m).written slot = []) ∧
      diagnostics (s.readMember (.pair name) m).events = [] := by
  have hform : FunctionForm.ofMember? s.origin m = none :=
    FunctionForm.ofMember?_eq_none_iff.mpr (Tree.holdsFunction_of_isAccessor haccessor)
  have hread : s.readMember (.pair name) m = {} := by
    simp [readMember, readAccessorPart, hkind, hform]
  rw [hread]
  exact ⟨Finding.getList_empty, rfl⟩

/-- The value of an accessor is a function, so that it is neither an object nor a name. -/
theorem refusesAccessor_iff_of_isFunction {m : Tree} (haccessor : m.isAccessor = true)
    (hvalue : (m.get "value").isFunction = true) (hmethod : m.has "method" = false)
    (hshorthand : m.has "shorthand" = false) (place : MemberPlace) :
    s.refusesAccessor place m = true ↔ place ≠ .props ∧ ∀ name, place ≠ .pair name := by
  have hkinds : (m.get "value").kind = "FunctionExpression" ∨
      (m.get "value").kind = "ArrowFunctionExpression" := by
    simpa [Tree.isFunction] using hvalue
  have hobject : (m.get "value").kind ≠ "ObjectExpression" := by
    rcases hkinds with h | h
    · simp [h]
    · simp [h]
  have hname : (m.get "value").kind ≠ "Identifier" := by
    rcases hkinds with h | h
    · simp [h]
    · simp [h]
  have hhandled : s.isHandled m = false := by
    simp [isHandled, isSpelledOut, hobject, Tree.holdsFunction_of_isAccessor haccessor]
  cases place <;> simp [refusesAccessor, hobject, hname, hhandled, hmethod, hshorthand]

end Situation

/-- **Accessors are refused, but for props and pairs.** In each of the seven objects whose members are read one by
one, what is written and what is reported comes from the members, one after the other. An accessor that is refused
writes nothing and gives one report about itself. The accessors of a script have a function as value and are
neither methods nor shorthands: all places refuse them except two. In `props` such an accessor becomes a prop, and
beside `get` and `set` it is passed over; neither is reported. -/
theorem accessors_refused_but_for_props_and_pairs {s : Situation} {place : MemberPlace} {entries : List Tree}
    {f : Finding} (h : s.ReadsMembers place entries f) :
    (∀ slot, slot ≠ .hoisted →
      f.written slot = entries.flatMap fun m => (s.readMember place m).written slot) ∧
    diagnostics f.events = (entries.flatMap fun m => diagnostics (s.readMember place m).events) ∧
    ∀ m ∈ entries, m.kind = "Property" → m.isAccessor = true →
      (s.refusesAccessor place m = true → (s.readMember place m).IsRefusal (s.Refused m place.leads)) ∧
      (place = .props → s.refusesAccessor place m = false →
        (∃ argument, (s.readMember place m).written .props =
          [Situation.propField (s.origin.memberName m) argument]) ∧
        diagnostics (s.readMember place m).events = []) ∧
      (∀ name, place = .pair name → (∀ slot, (s.readMember place m).written slot = []) ∧
        diagnostics (s.readMember place m).events = []) ∧
      ((m.get "value").isFunction = true → m.has "method" = false → m.has "shorthand" = false →
        (s.refusesAccessor place m = true ↔ place ≠ .props ∧ ∀ name, place ≠ .pair name)) := by
  refine ⟨fun slot hslot => Situation.written_of_readsMembers h hslot, Situation.reports_of_readsMembers h,
    fun m _ hkind haccessor => ⟨Situation.isRefusal_of_refusesAccessor hkind haccessor, ?_, ?_,
      fun hvalue hmethod hshorthand =>
        Situation.refusesAccessor_iff_of_isFunction haccessor hvalue hmethod hshorthand place⟩⟩
  · rintro rfl hrefuses
    exact Situation.readMember_props hkind hrefuses
  · rintro name rfl
    exact Situation.readMember_pair hkind haccessor name

/-- A script with a getter among its props. -/
def getterPropsScript : String :=
  "export default \x7b\n  props: \x7b get a() \x7b return String; \x7d \x7d,\n\x7d;\n"

/-- The getter becomes a prop, and nothing is reported. -/
theorem props_of_getterPropsScript :
    ∃ tree origin option m, Script.parse getterPropsScript true = .ok tree ∧
      Origin.of? getterPropsScript (tree.get "tokens").items = some origin ∧
      scriptOptions origin tree = [(.props, option)] ∧
      let s : Situation := ⟨origin, "Demo.vue", true⟩
      s.ReadsMembers .props [m] (s.readProps option) ∧ m.kind = "Property" ∧ m.isAccessor = true ∧
        (∃ argument, (s.readProps option).written .props = [Situation.propField "a" argument]) ∧
        diagnostics (s.readProps option).events = [] := by
  have hread : (soleOption? getterPropsScript).any (fun (_, origin, option) =>
      let entries := ((option.2.get "value").get "properties").items
      option.1 = .props ∧ (option.2.get "value").kind = "ObjectExpression" ∧ entries.length = 1 ∧
        ∀ m ∈ entries, m.kind = "Property" ∧ m.isAccessor = true ∧ origin.memberName m = "a" ∧
          m.has "method" = false ∧ m.has "shorthand" = false) = true := by
    decide +kernel
  obtain ⟨⟨tree, origin, kind, option⟩, hscript, hvalues⟩ := (Option.any_eq_true _ _).mp hread
  obtain ⟨htree, horigin, hoptions⟩ := of_soleOption? hscript
  obtain ⟨rfl, hvalue, hlength, hmembers⟩ := of_decide_eq_true hvalues
  obtain ⟨m, hentries⟩ := List.length_eq_one_iff.mp hlength
  obtain ⟨hkind, haccessor, hname, hmethod, hshorthand⟩ := hmembers m (hentries ▸ List.mem_singleton_self m)
  have hreads : Situation.ReadsMembers ⟨origin, "Demo.vue", true⟩ .props [m]
      (Situation.readProps ⟨origin, "Demo.vue", true⟩ option) := hentries ▸ .props hvalue
  obtain ⟨hwritten, hreports, hmember⟩ := accessors_refused_but_for_props_and_pairs hreads
  have hprop := (hmember m (List.mem_singleton_self m) hkind haccessor).2.1 rfl
    (Bool.or_eq_false_iff.mpr ⟨hmethod, hshorthand⟩)
  refine ⟨tree, origin, option, m, htree, horigin, hoptions, hreads, hkind, haccessor, ?_, ?_⟩
  · obtain ⟨argument, hprop⟩ := hprop.1
    exact ⟨argument, by rw [hwritten .props (by decide), List.flatMap_singleton, hprop, hname]⟩
  · rw [hreports, List.flatMap_singleton, hprop.2]

end ClassComponent
