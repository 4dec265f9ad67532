import ClassComponent.Convert.Script
import ClassComponent.Proofs.Component.Naming
import ClassComponent.Proofs.Convert.Reading

/-!
# What reading options writes

* **One option** (`Situation.readOption_writes`): `Writes` says once which changes the reader of each kind
  of option makes, and readers make no others.
* **Items** (`Writes.fits`): `ListSlot.Fits` says which decorators and names the items of each slot have.
* **Stores** (`Situation.readOption_bindings`): an option adds the bindings of the helpers that it spreads;
  nothing replaces the bindings that are there.
* **A script** (`Component.ofScript_readFrom`): one option after the other, all items fit, and the stores
  are the bindings of all spreads in order. After that, watchers are renamed and nothing else changes.
-/

namespace ClassComponent

/-- The option that lists what is registered. -/
def Registry.kind : Registry → OptionKind
  | .components => .components
  | .directives => .directives
  | .filters => .filters

/-! ## Entries -/

namespace Situation

variable {s : Situation}

theorem dataField_eq_ok {member : Tree} {f : Field} (h : s.dataField member = .ok f) :
    f = s.privateField member := by
  unfold dataField at h
  split at h
  · cases h
  · cases h
    rfl

theorem methodMember_eq_ok {member : Tree} {m : Member} (h : s.methodMember member = .ok m) :
    (∃ f : FunctionForm, m = .method (f.toMethod s.origin ["private"] [] none)) ∨
      m = .field (s.privateField member) := by
  unfold methodMember at h
  split at h
  · cases h
    exact .inl ⟨_, rfl⟩
  · split at h
    · cases h
      exact .inr rfl
    · cases h

theorem propElement_eq_ok {list element : Tree} {f : Field} (h : s.propElement list element = .ok f) :
    ∃ name argument, f = propField name argument := by
  unfold propElement at h
  split at h
  · cases h
    exact ⟨_, _, rfl⟩
  · cases h

theorem propEntry_eq_ok {entry : Tree} {f : Field} (h : s.propEntry entry = .ok f) :
    ∃ name argument, f = propField name argument := by
  unfold propEntry at h
  split at h
  · cases h
  · cases h
    exact ⟨_, _, rfl⟩

theorem watchEntry_eq_ok {entry : Tree} {m : Method} (h : s.watchEntry entry = .ok m) :
    ∃ f settings, m = s.watcher f (s.origin.memberName entry) settings := by
  unfold watchEntry at h
  simp only at h
  split at h
  · cases h
  · split at h
    · split at h
      · cases h
        exact ⟨_, _, rfl⟩
      · cases h
    · split at h
      · cases h
        exact ⟨_, _, rfl⟩
      · cases h

/-! ## Bindings of a helper -/

theorem storeEntry_eq_ok {tool : StoreTool} {scope? : Option Text} {entry : Tree} {b : StoreBinding}
    (h : s.storeEntry tool scope? entry = .ok b) : b.tool = tool ∧ b.scope? = scope? := by
  unfold storeEntry at h
  simp only at h
  split at h
  · cases h
    exact ⟨rfl, rfl⟩
  · split at h
    · cases h
      exact ⟨rfl, rfl⟩
    · cases h

theorem storeElement_eq_ok {tool : StoreTool} {scope? : Option Text} {list element : Tree}
    {b : StoreBinding} (h : s.storeElement tool scope? list element = .ok b) :
    b.tool = tool ∧ b.scope? = scope? := by
  unfold storeElement at h
  split at h
  · cases h
    exact ⟨rfl, rfl⟩
  · cases h

theorem storeEntries?_eq_some {tool : StoreTool} {scope? : Option Text} {argument : Tree}
    {results : List (Except Diagnostic StoreBinding)}
    (h : s.storeEntries? tool scope? argument = some results) {b : StoreBinding}
    (hb : b ∈ items results) : b.tool = tool ∧ b.scope? = scope? := by
  unfold storeEntries? at h
  split at h
  · cases h
    obtain ⟨entry, -, hentry⟩ := List.mem_map.mp (mem_items.mp hb)
    exact storeEntry_eq_ok hentry
  · split at h
    · cases h
      obtain ⟨element, -, helement⟩ := List.mem_map.mp (mem_items.mp hb)
      exact storeElement_eq_ok helement
    · cases h

/-- The helper for parts of the store is no tool of a map helper. -/
theorem ne_scope_of_ofHelper? {helper : Text} (hmap : StoreTool.isMapHelper helper) {tool : StoreTool}
    (h : StoreTool.ofHelper? helper = some tool) : tool ≠ .scope := by
  have hne : ¬ (helper == StoreTool.namespaceHelper) := by
    rw [StoreTool.isMapHelper, Bool.and_eq_true, bne_iff_ne] at hmap
    simpa using hmap.1
  rintro rfl
  unfold StoreTool.ofHelper? at h
  rw [if_neg hne] at h
  repeat' split at h
  all_goals cases h

/-- All bindings of a spread go through the part of the store that its helper belongs to, by a tool
for entries. -/
theorem mem_storeBindings {spread : Tree} {b : StoreBinding} (hb : b ∈ (s.storeBindings spread).1) :
    b.tool ≠ .scope ∧
      b.scope? = (s.storeHelper ((spread.get "argument").get "callee")).2 := by
  unfold storeBindings at hb
  simp only at hb
  split at hb
  · cases hb
  · split at hb
    · cases hb
    · rename_i htool
      split at htool
      · rename_i hmap
        split at hb
        · rename_i hresults
          obtain ⟨h₁, h₂⟩ := storeEntries?_eq_some hresults hb
          exact ⟨h₁ ▸ ne_scope_of_ofHelper? hmap htool, h₂⟩
        · cases hb
      · cases htool

/-! ## Changes -/

/-- The changes that the reader of each kind of option makes. -/
inductive Writes (s : Situation) : OptionKind → Update → Prop
  | name (text : Text) : s.Writes .name (.put .name text)
  | registry {kind : OptionKind} (r : Registry) (h : r.kind = kind) (text : Option Text) :
    s.Writes kind (.put (.registry r) text)
  | registered {kind : OptionKind} (r : Registry) (h : r.kind = kind) (names : List Text) :
    s.Writes kind (.append .registeredNames names)
  | unsupported {kind : OptionKind} (h : kind = .lifecycleHook ∨ kind = .unrecognized) (text : Text) :
    s.Writes kind (.append .unsupportedOptions [text])
  | hook (f : FunctionForm) :
    s.Writes .lifecycleHook (.append .lifecycleHooks [f.toMethod s.origin ["protected"] [] none])
  | hoisted (statements : List Text) : s.Writes .data (.put (.list .hoisted) statements)
  | data (members : List Tree) :
    s.Writes .data (.put (.list .data) (items (members.map s.dataField)))
  | computed (f : FunctionForm) (accessor : Accessor) (h : (f.isAsync || f.isGenerator) = false) :
    s.Writes .computed (.append .computed [f.toMethod s.origin ["private"] [] (some accessor)])
  | methods (members : List Tree) :
    s.Writes .methods (.append .methods (s.methodMembers members))
  | propElements (list : Tree) (elements : List Tree) :
    s.Writes .props (.put (.list .props) (items (elements.map (s.propElement list))))
  | propEntries (entries : List Tree) :
    s.Writes .props (.put (.list .props) (items (entries.map s.propEntry)))
  | watch (entries : List Tree) :
    s.Writes .watch (.put (.list .watch) (items (entries.map s.watchEntry)))
  | stores {kind : OptionKind} (h : kind = .computed ∨ kind = .methods) (spread : Tree) :
    s.Writes kind (.append .stores (s.storeBindings spread).1)

theorem storeSpread_writes {kind : OptionKind} (hk : kind = .computed ∨ kind = .methods) {spread : Tree}
    {u : Update} (hu : u ∈ (s.storeSpread spread).updates) : s.Writes kind u := by
  simp only [storeSpread] at hu
  split at hu
  · cases hu
  · cases List.mem_singleton.mp hu
    exact .stores hk spread

theorem readRegistration_writes {registry : Registry} {option : Tree} {u : Update}
    (hu : u ∈ (s.readRegistration registry option).updates) : s.Writes registry.kind u := by
  simp only [readRegistration] at hu
  split at hu
  · simp only [Finding.updates_append, Finding.updates_change, List.mem_append,
      List.mem_singleton] at hu
    rcases hu with rfl | rfl
    · exact .registry registry rfl _
    · exact .registered registry rfl _
  · cases List.mem_singleton.mp hu
    exact .registry registry rfl _

theorem readUnsupported_writes {kind : OptionKind} (hk : kind = .lifecycleHook ∨ kind = .unrecognized)
    {option : Tree} {u : Update} (hu : u ∈ (s.readUnsupported option).updates) : s.Writes kind u := by
  simp only [readUnsupported] at hu
  split at hu
  · simp only [Finding.updates_append, Finding.updates_change, Finding.updates_warning,
      List.nil_append, List.append_nil, List.mem_singleton] at hu
    subst hu
    exact .unsupported hk _
  · cases hu

theorem readHook_writes {option : Tree} {u : Update} (hu : u ∈ (s.readHook option).updates) :
    s.Writes .lifecycleHook u := by
  unfold readHook at hu
  split at hu
  · cases List.mem_singleton.mp hu
    exact .hook _
  · exact readUnsupported_writes (.inl rfl) hu

theorem readData_writes {hoistedBefore : Nat} {option : Tree} {u : Update}
    (hu : u ∈ (s.readData hoistedBefore option).updates) : s.Writes .data u := by
  have hlifted : ∀ {hoisted : List Text},
      u ∈ (if hoisted.isEmpty then [] else [Update.put (.list .hoisted) hoisted]) →
        s.Writes .data u := by
    intro hoisted h
    split at h
    · cases h
    · cases List.mem_singleton.mp h
      exact .hoisted hoisted
  unfold readData at hu
  split at hu
  · cases hu
  · split at hu
    · cases hu
    · simp only at hu
      split at hu
      · simp only [Finding.updates_append, Finding.updates_ofEntries, List.append_nil,
          List.mem_append, List.mem_singleton] at hu
        rcases hu with hu | rfl
        · exact hlifted hu
        · exact .data _
      · simp only [Finding.updates_append, Finding.updates_warning, List.append_nil] at hu
        exact hlifted hu

theorem readAccessorPart_writes {name : Text} {member : Tree} {u : Update}
    (hu : u ∈ (s.readAccessorPart name member).updates) : s.Writes .computed u := by
  unfold readAccessorPart at hu
  split at hu
  · exact storeSpread_writes (.inl rfl) hu
  · split at hu
    · cases hu
    · split at hu
      · cases hu
      · rename_i hplain
        split at hu
        · cases List.mem_singleton.mp hu
          exact .computed _ _ (Bool.eq_false_iff.mpr hplain)
        · cases hu

theorem readComputedEntry_writes {member : Tree} {u : Update}
    (hu : u ∈ (s.readComputedEntry member).updates) : s.Writes .computed u := by
  simp only [readComputedEntry] at hu
  split at hu
  · exact storeSpread_writes (.inl rfl) hu
  · split at hu
    · rw [Finding.updates_concat, List.flatMap_map] at hu
      obtain ⟨part, -, hpart⟩ := List.mem_flatMap.mp hu
      exact readAccessorPart_writes hpart
    · split at hu
      · cases hu
      · split at hu
        · cases hu
        · rename_i hplain
          cases List.mem_singleton.mp hu
          exact .computed _ _ (Bool.eq_false_iff.mpr hplain)

theorem readComputed_writes {option : Tree} {u : Update}
    (hu : u ∈ (s.readComputed option).updates) : s.Writes .computed u := by
  simp only [readComputed] at hu
  split at hu
  · rw [Finding.updates_concat, List.flatMap_map] at hu
    obtain ⟨entry, -, hentry⟩ := List.mem_flatMap.mp hu
    exact readComputedEntry_writes hentry
  · cases hu

theorem methodFinding_writes {member : Tree} {u : Update}
    (hu : u ∈ (s.methodFinding member).updates) : s.Writes .methods u := by
  unfold methodFinding at hu
  split at hu
  · exact storeSpread_writes (.inr rfl) hu
  · cases hu

theorem readMethods_writes {option : Tree} {u : Update}
    (hu : u ∈ (s.readMethods option).updates) : s.Writes .methods u := by
  simp only [readMethods] at hu
  split at hu
  · rw [Finding.updates_append, Finding.updates_concat, List.flatMap_map] at hu
    rcases List.mem_append.mp hu with hu | hu
    · obtain ⟨entry, -, hentry⟩ := List.mem_flatMap.mp hu
      exact methodFinding_writes hentry
    · split at hu
      · cases hu
      · cases List.mem_singleton.mp hu
        exact .methods _
  · cases hu

theorem readProps_writes {option : Tree} {u : Update} (hu : u ∈ (s.readProps option).updates) :
    s.Writes .props u := by
  simp only [readProps] at hu
  split at hu
  · cases List.mem_singleton.mp hu
    exact .propElements _ _
  · split at hu
    · cases List.mem_singleton.mp hu
      exact .propEntries _
    · cases hu

theorem readWatch_writes {option : Tree} {u : Update} (hu : u ∈ (s.readWatch option).updates) :
    s.Writes .watch u := by
  simp only [readWatch] at hu
  split at hu
  · cases List.mem_singleton.mp hu
    exact .watch _
  · cases hu

/-- No reader makes any other change. -/
theorem readOption_writes {hoistedBefore : Nat} {kind : OptionKind} {option : Tree} {u : Update}
    (hu : u ∈ (s.readOption hoistedBefore kind option).updates) : s.Writes kind u := by
  cases kind with
  | name =>
    cases List.mem_singleton.mp hu
    exact .name _
  | data => exact readData_writes hu
  | components => exact readRegistration_writes hu
  | directives => exact readRegistration_writes hu
  | filters => exact readRegistration_writes hu
  | computed => exact readComputed_writes hu
  | methods => exact readMethods_writes hu
  | props => exact readProps_writes hu
  | watch => exact readWatch_writes hu
  | lifecycleHook => exact readHook_writes hu
  | unrecognized => exact readUnsupported_writes (.inr rfl) hu

end Situation

/-! ## Items -/

/-- The decorators of a member. -/
def Member.decorators : Member → List Text
  | .field f => f.decorators
  | .method m => m.decorators

/-- What the items of each slot are like: props and watchers have one decorator and the other members
none, watchers are named after a path, and no store is bound by the helper for parts of the store. -/
def ListSlot.Fits : (s : ListSlot) → s.Item → Prop
  | .data, f => f.decorators = []
  | .computed, m => m.decorators = []
  | .methods, m => m.decorators = []
  | .props, f => ∃ argument : Text, f.decorators = ["@Prop(" ++ argument ++ ")"]
  | .watch, m =>
    (∃ argument : Text, m.decorators = ["@Watch(" ++ argument ++ ")"]) ∧
      ∃ path, m.name = Text.watcherName path
  | .lifecycleHooks, m => m.decorators = []
  | .stores, b => b.tool ≠ .scope
  | .hoisted, _ => True
  | .registeredNames, _ => True
  | .unsupportedOptions, _ => True

namespace Situation

variable {s : Situation}

theorem Writes.fits {kind : OptionKind} {u : Update} (h : s.Writes kind u) :
    u.Every ListSlot.Fits := by
  cases h with
  | name => trivial
  | registry => trivial
  | registered => exact fun _ _ => trivial
  | unsupported => exact fun _ _ => trivial
  | hook f =>
    intro m hm
    cases List.mem_singleton.mp hm
    rfl
  | hoisted => exact fun _ _ => trivial
  | data members =>
    intro f hf
    obtain ⟨member, -, hok⟩ := List.mem_map.mp (mem_items.mp hf)
    rw [dataField_eq_ok hok]
    rfl
  | computed f accessor =>
    intro m hm
    cases List.mem_singleton.mp hm
    rfl
  | methods members =>
    intro m hm
    obtain ⟨member, -, hok⟩ := List.mem_map.mp (mem_items.mp hm)
    obtain ⟨f, rfl⟩ | rfl := methodMember_eq_ok hok
    · rfl
    · rfl
  | propElements list elements =>
    intro f hf
    obtain ⟨element, -, hok⟩ := List.mem_map.mp (mem_items.mp hf)
    obtain ⟨name, argument, rfl⟩ := propElement_eq_ok hok
    exact ⟨argument, rfl⟩
  | propEntries entries =>
    intro f hf
    obtain ⟨entry, -, hok⟩ := List.mem_map.mp (mem_items.mp hf)
    obtain ⟨name, argument, rfl⟩ := propEntry_eq_ok hok
    exact ⟨argument, rfl⟩
  | watch entries =>
    intro m hm
    obtain ⟨entry, -, hok⟩ := List.mem_map.mp (mem_items.mp hm)
    obtain ⟨f, settings, rfl⟩ := watchEntry_eq_ok hok
    exact ⟨⟨_, rfl⟩, _, rfl⟩
  | stores hk spread => exact fun b hb => (mem_storeBindings hb).1

theorem Writes.keeps_stores {kind : OptionKind} {u : Update} (h : s.Writes kind u) :
    u.Keeps .stores := by
  cases h <;> simp [Update.Keeps]

/-- Options other than `computed` and `methods` bind nothing. -/
theorem Writes.added_stores {kind : OptionKind} {u : Update} (h : s.Writes kind u)
    (hk : ¬ (kind = .computed ∨ kind = .methods)) : u.added .stores = [] := by
  cases h with
  | stores h => exact absurd h hk
  | _ => rfl

end Situation

/-! ## Helpers that are spread -/

/-- The spreads among the members of an object. -/
def spreads (members : List Tree) : List Tree :=
  members.filter (·.kind == "SpreadElement")

theorem flatMap_spreads {α : Type} (f : Tree → List α) (members : List Tree) :
    (spreads members).flatMap f =
      members.flatMap fun t => if t.kind == "SpreadElement" then f t else [] := by
  induction members with
  | nil => rfl
  | cons t members ih =>
    rw [List.flatMap_cons, ← ih, spreads, List.filter_cons]
    split
    · rfl
    · rfl

/-- The spreads in an entry of `computed`: itself, or those between its accessors. -/
def entrySpreads (entry : Tree) : List Tree :=
  if entry.kind == "SpreadElement" then [entry]
  else if (entry.get "value").kind == "ObjectExpression" then
    spreads ((entry.get "value").get "properties").items
  else []

/-- The spreads in an option that are read as helpers. -/
def optionSpreads (kind : OptionKind) (option : Tree) : List Tree :=
  let members := ((option.get "value").get "properties").items
  if (option.get "value").kind == "ObjectExpression" then
    match kind with
    | .computed => members.flatMap entrySpreads
    | .methods => spreads members
    | _ => []
  else []

namespace Finding

/-- The bindings that a finding adds. -/
def bindings (f : Finding) : List StoreBinding :=
  f.updates.flatMap (·.added .stores)

theorem bindings_append (a b : Finding) : (a ++ b).bindings = a.bindings ++ b.bindings :=
  List.flatMap_append

theorem bindings_concat (findings : List Finding) :
    (concat findings).bindings = findings.flatMap bindings :=
  List.flatMap_assoc

end Finding

namespace Situation

variable {s : Situation}

/-- The bindings of several spreads. -/
def bindings (s : Situation) (ts : List Tree) : List StoreBinding :=
  ts.flatMap fun t => (s.storeBindings t).1

theorem storeSpread_bindings (spread : Tree) :
    (s.storeSpread spread).bindings = (s.storeBindings spread).1 := by
  simp only [storeSpread, Finding.bindings]
  split
  · rename_i h
    exact (List.isEmpty_iff.mp h).symm
  · exact List.flatMap_singleton _ _

theorem readAccessorPart_bindings (name : Text) (member : Tree) :
    (s.readAccessorPart name member).bindings =
      if member.kind == "SpreadElement" then (s.storeBindings member).1 else [] := by
  unfold readAccessorPart
  split
  · exact storeSpread_bindings member
  · repeat' split
    all_goals rfl

theorem readComputedEntry_bindings (entry : Tree) :
    (s.readComputedEntry entry).bindings = s.bindings (entrySpreads entry) := by
  simp only [readComputedEntry, entrySpreads]
  split
  · rw [bindings, List.flatMap_singleton, storeSpread_bindings]
  · split
    · rw [Finding.bindings_concat, List.flatMap_map, bindings, flatMap_spreads]
      simp only [readAccessorPart_bindings]
    · repeat' split
      all_goals rfl

theorem methodFinding_bindings (member : Tree) :
    (s.methodFinding member).bindings =
      if member.kind == "SpreadElement" then (s.storeBindings member).1 else [] := by
  unfold methodFinding
  split
  · exact storeSpread_bindings member
  · rfl

theorem readComputed_bindings (option : Tree) :
    (s.readComputed option).bindings = s.bindings (optionSpreads .computed option) := by
  simp only [readComputed, optionSpreads]
  split
  · rw [Finding.bindings_concat, List.flatMap_map, bindings, List.flatMap_assoc]
    simp only [readComputedEntry_bindings, bindings]
  · rfl

theorem readMethods_bindings (option : Tree) :
    (s.readMethods option).bindings = s.bindings (optionSpreads .methods option) := by
  simp only [readMethods, optionSpreads]
  split
  · rw [Finding.bindings_append, Finding.bindings_concat, List.flatMap_map, bindings, flatMap_spreads]
    simp only [methodFinding_bindings]
    refine (congrArg _ ?_).trans (List.append_nil _)
    unfold Finding.bindings
    split
    · rfl
    · rfl
  · rfl

/-- An option adds the bindings of the helpers that it spreads. -/
theorem readOption_bindings (hoistedBefore : Nat) (kind : OptionKind) (option : Tree) :
    (s.readOption hoistedBefore kind option).bindings = s.bindings (optionSpreads kind option) := by
  by_cases hk : kind = .computed ∨ kind = .methods
  · rcases hk with rfl | rfl
    · exact readComputed_bindings option
    · exact readMethods_bindings option
  · have hnone : optionSpreads kind option = [] := by
      unfold optionSpreads
      split
      · cases kind <;> first | rfl | simp at hk
      · rfl
    rw [hnone, bindings, List.flatMap_nil, Finding.bindings, List.flatMap_eq_nil_iff]
    exact fun u hu => (readOption_writes hu).added_stores hk

/-! ## All options -/

theorem addOption_fits {state : Component × List Event} (h : state.1.Every ListSlot.Fits)
    (option : OptionKind × Tree) : (s.addOption state option).1.Every ListSlot.Fits :=
  h.applyAll fun _ hu => (readOption_writes hu).fits

theorem foldl_addOption_fits (options : List (OptionKind × Tree)) {state : Component × List Event}
    (h : state.1.Every ListSlot.Fits) :
    (options.foldl s.addOption state).1.Every ListSlot.Fits := by
  induction options generalizing state with
  | nil => exact h
  | cons option options ih => exact ih (addOption_fits h option)

theorem addOption_stores (state : Component × List Event) (option : OptionKind × Tree) :
    (s.addOption state option).1.stores =
      state.1.stores ++ s.bindings (optionSpreads option.1 option.2) := by
  rw [← readOption_bindings]
  exact Component.getList_applyAll (fun _ hu => (readOption_writes hu).keeps_stores) state.1

theorem foldl_addOption_stores (options : List (OptionKind × Tree)) (state : Component × List Event) :
    (options.foldl s.addOption state).1.stores =
      state.1.stores ++ s.bindings (options.flatMap fun option => optionSpreads option.1 option.2) := by
  induction options generalizing state with
  | nil => exact (List.append_nil _).symm
  | cons option options ih =>
    rw [List.foldl_cons, ih, addOption_stores, List.append_assoc, List.flatMap_cons, bindings, bindings,
      bindings, List.flatMap_append]

theorem foldl_addOption_marker (options : List (OptionKind × Tree)) (state : Component × List Event) :
    (options.foldl s.addOption state).1.marker = state.1.marker := by
  induction options generalizing state with
  | nil => rfl
  | cons option options ih => exact (ih _).trans (Component.marker_applyAll _ _)

end Situation

/-! ## A whole script -/

/-- The spreads in the options of a script that are read as helpers. -/
def scriptSpreads (o : Origin) (tree : Tree) : List Tree :=
  (scriptOptions o tree).flatMap fun option => optionSpreads option.1 option.2

/-- What reading a script gives: members as readers make them, watchers renamed, the bindings of the
helpers that are spread, and what stands for line breaks. -/
structure Component.ReadFrom (s : Situation) (tree : Tree) (c : Component) : Prop where
  /-- The watchers were renamed, and nothing else was. -/
  renamed : ∃ watch, renameAll? Digest.short c.memberNames watch = some c.watch ∧
    { c with watch }.Every ListSlot.Fits
  stores : c.stores = s.bindings (scriptSpreads s.origin tree)
  marker : c.marker = s.origin.marker

theorem Component.ofScript_readFrom {script : Text} {tree : Tree} {file : Text} {keepsUnsupported : Bool}
    {c : Component} {events : List Event}
    (h : ofScript script tree file keepsUnsupported = .ok (c, events)) :
    ∃ origin, Origin.of? script (tree.get "tokens").items = some origin ∧
      c.ReadFrom ⟨origin, file, keepsUnsupported⟩ tree := by
  obtain ⟨origin, horigin, hrenamed, -⟩ := ofScript_eq_ok h
  rw [← Situation.readOptions_component] at hrenamed
  obtain ⟨watch, hwatch, rfl⟩ := renameWatchers?_eq_some hrenamed
  have hempty : ({ marker := origin.marker } : Component).Every ListSlot.Fits := by
    intro s item hitem
    cases s <;> cases hitem
  refine ⟨origin, horigin, ⟨_, hwatch, ?_⟩, ?_, ?_⟩
  · exact Situation.foldl_addOption_fits _ hempty
  · exact Situation.foldl_addOption_stores _ _
  · exact Situation.foldl_addOption_marker _ _

/-- The tree of a script and the component that it defines, if it can be read. -/
def readScript? (script : String) : Option (Tree × Component) := do
  let tree ← (Script.parse script true).toOption
  let (c, _) ← (Component.ofScript script tree "" true).toOption
  return (tree, c)

theorem ofScript_of_readScript? {script : String} {tree : Tree} {c : Component}
    (h : readScript? script = some (tree, c)) :
    Script.parse script true = .ok tree ∧
      ∃ events, Component.ofScript script tree "" true = .ok (c, events) := by
  obtain ⟨tree', htree, h⟩ := Option.bind_eq_some_iff.mp h
  obtain ⟨⟨c', events⟩, hread, h⟩ := Option.bind_eq_some_iff.mp h
  cases h
  exact ⟨eq_ok_of_toOption htree, events, eq_ok_of_toOption hread⟩

end ClassComponent
