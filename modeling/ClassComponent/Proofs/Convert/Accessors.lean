import ClassComponent.Proofs.Convert.Entries

/-!
# Accessors

An entry of `computed` is a function, which becomes a getter, or an object whose functions `get` and `set`
become a getter and a setter.

* **Accessors** (`Situation.Computes`): which functions of an entry become accessors. The accessors of a class
  are those of the entries of its script (`mem_computed_iff`), each with the parameters of its function. A class
  wants none of a getter and one of a setter; nobody counts them (`accessors_legal_iff`).
* **Lost entries** (`Situation.IsLost`): an object is read part by part, and parts that are no accessors are
  passed over. An entry of such parts alone leaves no trace, and no other entry does (`computed_entry_lost_iff`).
-/

namespace ClassComponent

namespace FunctionForm

/-- Whether a function is neither `async` nor a generator. -/
def isPlain (f : FunctionForm) : Bool :=
  !(f.isAsync || f.isGenerator)

theorem modifiers_of_isPlain {f : FunctionForm} (h : f.isPlain) : f.modifiers = [] := by
  simp only [isPlain, Bool.not_eq_true', Bool.or_eq_false_iff] at h
  simp [modifiers, h.1]

theorem isGenerator_of_isPlain {f : FunctionForm} (h : f.isPlain) : f.isGenerator = false := by
  simp only [isPlain, Bool.not_eq_true', Bool.or_eq_false_iff] at h
  exact h.2

end FunctionForm

theorem Accessor.ofWord?_eq_some_iff {word : Text} {accessor : Accessor} :
    ofWord? word = some accessor ↔ word = accessor.word := by
  have hwords : Text.ofString "set" ≠ Text.ofString "get" := by decide
  unfold ofWord?
  by_cases hget : word = "get"
  · subst hget
    cases accessor with
    | get => simp [Accessor.word]
    | set => simpa [Accessor.word] using hwords.symm
  · by_cases hset : word = "set"
    · subst hset
      cases accessor with
      | get => simp [Accessor.word, hwords]
      | set => simp [Accessor.word, hwords]
    · cases accessor with
      | get => simp [Accessor.word, hget, hset]
      | set => simp [Accessor.word, hget, hset]

namespace Situation

variable {s : Situation}

/-! ## Accessors of an entry -/

/-- Whether a function becomes an accessor of an entry of `computed`: it is the entry itself, or a part of its
object that goes by the name of the accessor. -/
inductive Computes (s : Situation) (entry : Tree) : Accessor → FunctionForm → Prop
  | getter {f : FunctionForm} (hvalue : (entry.get "value").kind ≠ "ObjectExpression")
      (hform : FunctionForm.ofMember? s.origin entry = some f) (hplain : f.isPlain) :
    s.Computes entry .get f
  | part {part : Tree} {f : FunctionForm} {accessor : Accessor} (hspread : entry.kind ≠ "SpreadElement")
      (hvalue : (entry.get "value").kind = "ObjectExpression")
      (hpart : part ∈ ((entry.get "value").get "properties").items)
      (hform : FunctionForm.ofMember? s.origin part = some f) (hplain : f.isPlain)
      (hname : f.name = accessor.word) :
    s.Computes entry accessor f

/-- The accessor called `name` that a function becomes. -/
def accessorOf (s : Situation) (name : Text) (accessor : Accessor) (f : FunctionForm) : Method where
  name := Text.propertyName name
  params := f.paramTexts s.origin
  body := blockText s.origin f.body
  modifiers := ["private"]
  accessor? := some accessor

theorem accessorMethod_added {f : FunctionForm} (h : f.isPlain) (name : Text) (accessor : Accessor) :
    (s.accessorMethod f name accessor).added .computed = [s.accessorOf name accessor f] := by
  have hmethod : { f with name := Text.propertyName name }.toMethod s.origin ["private"] [] (some accessor) =
      s.accessorOf name accessor f := by
    have hmodifiers : { f with name := Text.propertyName name }.modifiers = [] :=
      FunctionForm.modifiers_of_isPlain h
    rw [FunctionForm.toMethod, hmodifiers, FunctionForm.isGenerator_of_isPlain h]
    rfl
  simp [accessorMethod, Finding.added, Update.added, hmethod]

/-- A part of an entry gives at most one accessor. -/
theorem mem_readAccessorPart_added {name : Text} {part : Tree} {m : Method} :
    m ∈ (s.readAccessorPart name part).added .computed ↔
      ∃ accessor f, FunctionForm.ofMember? s.origin part = some f ∧ f.isPlain ∧ f.name = accessor.word ∧
        m = s.accessorOf name accessor f := by
  unfold readAccessorPart
  split
  · next hspread =>
    have hform : FunctionForm.ofMember? s.origin part = none := by
      simp [FunctionForm.ofMember?, beq_iff_eq.mp hspread]
    simp [storeSpread_added, hform]
  · split
    · next hform => simp [Finding.added, hform]
    · next f hform =>
      split
      · next hplain =>
        have hplain : f.isPlain = false := by simp [FunctionForm.isPlain, hplain]
        simp [refusedAccessor, Finding.added, hform, hplain]
      · next hplain =>
        have hplain : f.isPlain = true := by simpa [FunctionForm.isPlain] using hplain
        split
        · next accessor hword =>
          rw [accessorMethod_added hplain, List.mem_singleton]
          constructor
          · rintro rfl
            exact ⟨accessor, f, hform, hplain, Accessor.ofWord?_eq_some_iff.mp hword, rfl⟩
          · rintro ⟨accessor', f', hform', -, hname, rfl⟩
            cases hform.symm.trans hform'
            cases hword.symm.trans (Accessor.ofWord?_eq_some_iff.mpr hname)
            rfl
        · next hword =>
          have hnone : ∀ accessor : Accessor, f.name ≠ accessor.word := by
            intro accessor hname
            cases hword.symm.trans (Accessor.ofWord?_eq_some_iff.mpr hname)
          simp [Finding.added, hform, hnone]

/-- The accessors that an entry adds to the class all go by its name. -/
theorem mem_readComputedEntry_added {entry : Tree} {m : Method} :
    m ∈ (s.readComputedEntry entry).added .computed ↔
      ∃ accessor f, s.Computes entry accessor f ∧ m = s.accessorOf (s.origin.memberName entry) accessor f := by
  simp only [readComputedEntry]
  split
  · next hspread =>
    rw [storeSpread_added (by decide)]
    refine iff_of_false List.not_mem_nil ?_
    rintro ⟨accessor, f, hcomputes, -⟩
    cases hcomputes with
    | getter _ hform => simp [FunctionForm.ofMember?, beq_iff_eq.mp hspread] at hform
    | part hother => exact hother (beq_iff_eq.mp hspread)
  · next hspread =>
    have hspread : entry.kind ≠ "SpreadElement" := by simpa using hspread
    split
    · next hvalue =>
      have hvalue := beq_iff_eq.mp hvalue
      rw [Finding.added_concat, List.flatMap_map, List.mem_flatMap]
      constructor
      · rintro ⟨part, hpart, hm⟩
        obtain ⟨accessor, f, hform, hplain, hname, rfl⟩ := mem_readAccessorPart_added.mp hm
        exact ⟨accessor, f, .part hspread hvalue hpart hform hplain hname, rfl⟩
      · rintro ⟨accessor, f, hcomputes, rfl⟩
        cases hcomputes with
        | getter hother => exact absurd hvalue hother
        | part _ _ hpart hform hplain hname =>
          exact ⟨_, hpart, mem_readAccessorPart_added.mpr ⟨accessor, f, hform, hplain, hname, rfl⟩⟩
    · next hvalue =>
      have hvalue : (entry.get "value").kind ≠ "ObjectExpression" := by simpa using hvalue
      -- Without an object there is no function but the entry itself.
      have hcomputes : ∀ {accessor f}, s.Computes entry accessor f →
          accessor = .get ∧ FunctionForm.ofMember? s.origin entry = some f ∧ f.isPlain := by
        intro accessor f hcomputes
        cases hcomputes with
        | getter _ hform hplain => exact ⟨rfl, hform, hplain⟩
        | part _ hother => exact absurd hother hvalue
      split
      · next hform =>
        refine iff_of_false (by simp [Finding.added]) ?_
        rintro ⟨accessor, f, h, -⟩
        cases hform.symm.trans (hcomputes h).2.1
      · next f hform =>
        obtain ⟨-, hname⟩ := FunctionForm.ofMember?_eq_some_iff.mp hform
        split
        · next hplain =>
          have hplain : f.isPlain = false := by simp [FunctionForm.isPlain, hplain]
          refine iff_of_false (by simp [refusedAccessor, Finding.added]) ?_
          rintro ⟨accessor, f', h, -⟩
          obtain ⟨-, hform', hplain'⟩ := hcomputes h
          cases hform.symm.trans hform'
          simp [hplain] at hplain'
        · next hplain =>
          have hplain : f.isPlain = true := by simpa [FunctionForm.isPlain] using hplain
          rw [accessorMethod_added hplain, List.mem_singleton]
          have hname : f.name = s.origin.memberName entry := by rw [hname]; rfl
          constructor
          · rintro rfl
            exact ⟨.get, f, .getter hvalue hform hplain, by rw [hname]⟩
          · rintro ⟨accessor, f', h, rfl⟩
            obtain ⟨rfl, hform', -⟩ := hcomputes h
            cases hform.symm.trans hform'
            rw [hname]

/-! ## Lost entries -/

/-- Whether a spread calls a helper that has nothing to bind. -/
def SpreadsNothing (s : Situation) (spread : Tree) : Prop :=
  ∃ tool, s.CallsHelper spread tool ∧
    ((helperArgument spread).kind = "ObjectExpression" ∧ ((helperArgument spread).get "properties").items = [] ∨
      (helperArgument spread).kind = "ArrayExpression" ∧ ((helperArgument spread).get "elements").items = [])

/-- Whether a part of an entry is passed over: it spreads nothing, holds no function, or holds a plain function
that is called neither `get` nor `set`. -/
def PassesOver (s : Situation) (part : Tree) : Prop :=
  if part.kind = "SpreadElement" then s.SpreadsNothing part
  else ∀ f, FunctionForm.ofMember? s.origin part = some f →
    f.isPlain ∧ ∀ accessor : Accessor, f.name ≠ accessor.word

/-- Whether an entry of `computed` is an object of parts that are all passed over. -/
def IsLost (s : Situation) (entry : Tree) : Prop :=
  (entry.get "value").kind = "ObjectExpression" ∧
    ∀ part ∈ ((entry.get "value").get "properties").items, s.PassesOver part

end Situation

/-- Whether a finding shows nowhere: it gives no accessor, no store and no report. -/
def Finding.IsSilent (f : Finding) : Prop :=
  f.added .computed = [] ∧ f.added .stores = [] ∧ diagnostics f.events = []

theorem Finding.isSilent_concat {findings : List Finding} :
    (concat findings).IsSilent ↔ ∀ f ∈ findings, f.IsSilent := by
  have hreports : diagnostics (concat findings).events = findings.flatMap fun f => diagnostics f.events := by
    rw [events_concat]
    exact List.filterMap_flatMap
  unfold IsSilent
  rw [added_concat, added_concat, hreports]
  simp only [List.flatMap_eq_nil_iff]
  exact ⟨fun ⟨ha, hs, hr⟩ f hf => ⟨ha f hf, hs f hf, hr f hf⟩,
    fun h => ⟨fun f hf => (h f hf).1, fun f hf => (h f hf).2.1, fun f hf => (h f hf).2.2⟩⟩

/-- Reading entries is silent only if there are none. -/
theorem items_reports_eq_nil_iff {α : Type} {results : List (Except Diagnostic α)} :
    items results = [] ∧ diagnostics (reports results) = [] ↔ results = [] := by
  constructor
  · rintro ⟨hitems, hreports⟩
    cases results with
    | nil => rfl
    | cons result results =>
      rw [items_cons] at hitems
      rw [reports_cons, diagnostics_append] at hreports
      cases result with
      | ok item => cases hitems
      | error d => cases hreports
  · rintro rfl
    exact ⟨rfl, rfl⟩

namespace Situation

variable {s : Situation}

theorem storeEntries?_eq_some_nil_iff {tool : StoreTool} {scope? : Option Text} {argument : Tree} :
    s.storeEntries? tool scope? argument = some [] ↔
      argument.kind = "ObjectExpression" ∧ (argument.get "properties").items = [] ∨
        argument.kind = "ArrayExpression" ∧ (argument.get "elements").items = [] := by
  unfold storeEntries?
  by_cases hobject : argument.kind = "ObjectExpression"
  · simp [hobject]
  · by_cases harray : argument.kind = "ArrayExpression"
    · simp [harray]
    · simp [hobject, harray]

/-- A spread is refused and reported, or it calls a helper whose entries are read one by one. -/
theorem refused_or_callsHelper (spread : Tree) :
    (s.storeBindings spread).1 = [] ∧ diagnostics (s.storeBindings spread).2 ≠ [] ∨
      ∃ tool results, s.CallsHelper spread tool ∧
        s.storeEntries? tool (s.spreadHelper spread).2 (helperArgument spread) = some results := by
  simp only [storeBindings]
  split
  · exact .inl ⟨rfl, List.cons_ne_nil _ _⟩
  · next hcall =>
    have hcall : (spread.get "argument").kind = "CallExpression" := by simpa using hcall
    split
    · exact .inl ⟨rfl, List.cons_ne_nil _ _⟩
    · next tool htool =>
      have hhelper : s.CallsHelper spread tool := by
        split at htool
        · next hmap => exact ⟨hcall, hmap, htool⟩
        · cases htool
      split
      · next results hresults => exact .inr ⟨tool, results, hhelper, hresults⟩
      · exact .inl ⟨rfl, List.cons_ne_nil _ _⟩

theorem isSilent_storeSpread_iff {spread : Tree} :
    (s.storeSpread spread).IsSilent ↔ s.SpreadsNothing spread := by
  have hstores : (s.storeSpread spread).added .stores = (s.storeBindings spread).1 :=
    storeSpread_bindings spread
  have hsilent : (s.storeSpread spread).IsSilent ↔
      (s.storeBindings spread).1 = [] ∧ diagnostics (s.storeBindings spread).2 = [] := by
    rw [Finding.IsSilent, storeSpread_added (by decide), hstores]
    exact and_iff_right rfl
  rw [hsilent]
  constructor
  · rintro ⟨hbindings, hreports⟩
    obtain ⟨-, hreported⟩ | ⟨tool, results, hcall, hresults⟩ := refused_or_callsHelper (s := s) spread
    · exact absurd hreports hreported
    · obtain ⟨hitems, hrefusals⟩ := storeBindings_of_callsHelper hcall hresults
      have hnil : results = [] := items_reports_eq_nil_iff.mp ⟨hitems ▸ hbindings, hrefusals ▸ hreports⟩
      exact ⟨tool, hcall, storeEntries?_eq_some_nil_iff.mp (hnil ▸ hresults)⟩
  · rintro ⟨tool, hcall, hempty⟩
    exact storeBindings_of_callsHelper hcall (storeEntries?_eq_some_nil_iff.mpr hempty)

theorem isSilent_readAccessorPart_iff {name : Text} {part : Tree} :
    (s.readAccessorPart name part).IsSilent ↔ s.PassesOver part := by
  have hempty : ({} : Finding).IsSilent := ⟨rfl, rfl, rfl⟩
  unfold readAccessorPart PassesOver
  by_cases hspread : part.kind = "SpreadElement"
  · rw [if_pos (beq_iff_eq.mpr hspread), if_pos hspread]
    exact isSilent_storeSpread_iff
  · rw [if_neg (by simpa using hspread), if_neg hspread]
    split
    · next hform => simp [hempty, hform]
    · next f hform =>
      simp only [hform, Option.some.injEq, forall_eq']
      split
      · next hplain =>
        refine iff_of_false (fun hsilent => ?_) (by simp [FunctionForm.isPlain, hplain])
        cases hsilent.2.2
      · next hplain =>
        have hplain : f.isPlain = true := by simpa [FunctionForm.isPlain] using hplain
        split
        · next accessor hword =>
          refine iff_of_false (fun hsilent => ?_) fun hother => ?_
          · have hadded := hsilent.1
            rw [accessorMethod_added hplain] at hadded
            cases hadded
          · exact hother.2 accessor (Accessor.ofWord?_eq_some_iff.mp hword)
        · next hword =>
          refine iff_of_true hempty ⟨hplain, fun accessor hname => ?_⟩
          cases hword.symm.trans (Accessor.ofWord?_eq_some_iff.mpr hname)

theorem isSilent_readComputedEntry_iff {entry : Tree} (hspread : entry.kind ≠ "SpreadElement") :
    (s.readComputedEntry entry).IsSilent ↔ s.IsLost entry := by
  simp only [readComputedEntry, IsLost]
  rw [if_neg (by simpa using hspread)]
  split
  · next hvalue =>
    rw [Finding.isSilent_concat, List.forall_mem_map]
    simp only [isSilent_readAccessorPart_iff, beq_iff_eq.mp hvalue, true_and]
  · next hvalue =>
    refine iff_of_false (fun hsilent => ?_) fun hlost => hvalue (beq_iff_eq.mpr hlost.1)
    split at hsilent
    · cases hsilent.2.2
    · split at hsilent
      · cases hsilent.2.2
      · next hplain =>
        have hadded := hsilent.1
        rw [accessorMethod_added (by simpa [FunctionForm.isPlain] using hplain)] at hadded
        cases hadded

end Situation

/-- **Entries that are lost.** An option of computed properties gives what its entries give, one after the other:
accessors that go by the name of the entry, stores, and reports. An entry that is no spread gives none of the
three exactly if it is lost: it is an object, and its parts are spreads of nothing, members without a function,
and plain functions called neither `get` nor `set`. -/
theorem computed_entry_lost_iff {s : Situation} {option : Tree}
    (hvalue : (option.get "value").kind = "ObjectExpression") (c : Component) (log : List Event) :
    let entries := ((option.get "value").get "properties").items
    let after := (s.addOption (c, log) (.computed, option)).1
    let accessors (entry : Tree) : List Method := (s.readComputedEntry entry).added .computed
    let stores (entry : Tree) : List StoreBinding := (s.readComputedEntry entry).added .stores
    let reports (entry : Tree) : List Diagnostic := diagnostics (s.readComputedEntry entry).events
    after.computed = c.computed ++ entries.flatMap accessors ∧
      after.stores = c.stores ++ entries.flatMap stores ∧
      s.optionReports (.computed, option) = entries.flatMap reports ∧
      ∀ entry ∈ entries, entry.kind ≠ "SpreadElement" →
        (∀ m ∈ accessors entry, m.name = Text.propertyName (s.origin.memberName entry)) ∧
        (accessors entry ≠ [] ∨ stores entry ≠ [] ∨ reports entry ≠ [] ↔ ¬ s.IsLost entry) := by
  have hread : s.readOption 0 .computed option =
      .concat (((option.get "value").get "properties").items.map s.readComputedEntry) := by
    simp [Situation.readOption, Situation.readComputed, hvalue]
  have hadded (slot : ListSlot) (hslot : slot ∈ Situation.grownSlots) :
      (s.addOption (c, log) (.computed, option)).1.getList slot = c.getList slot ++
        ((option.get "value").get "properties").items.flatMap
          fun entry => (s.readComputedEntry entry).added slot := by
    rw [Situation.getList_addOption hslot, hread, Finding.added_concat, List.flatMap_map]
  refine ⟨hadded .computed (by decide), hadded .stores (by decide), ?_, fun entry _ hspread => ⟨?_, ?_⟩⟩
  · rw [Situation.optionReports, hread, Finding.events_concat, List.flatMap_map]
    exact List.filterMap_flatMap
  · intro m hm
    obtain ⟨accessor, f, -, rfl⟩ := Situation.mem_readComputedEntry_added.mp hm
    rfl
  · rw [← Situation.isSilent_readComputedEntry_iff hspread, Finding.IsSilent, not_and_or, not_and_or]

/-- A script with a computed property that is an empty object, and one that is a function. -/
def emptyAccessors : String :=
  "export default \x7b\n  computed: \x7b a: \x7b\x7d, b() \x7b\x7d \x7d,\n\x7d;\n"

theorem lost_entry_of_emptyAccessors :
    ∃ tree origin option lost kept, Script.parse emptyAccessors true = .ok tree ∧
      Origin.of? emptyAccessors (tree.get "tokens").items = some origin ∧
      scriptOptions origin tree = [(.computed, option)] ∧
      let s : Situation := ⟨origin, "Demo.vue", true⟩
      (option.get "value").kind = "ObjectExpression" ∧
        ((option.get "value").get "properties").items = [lost, kept] ∧
        origin.memberName lost = "a" ∧ s.IsLost lost ∧ ¬ s.IsLost kept ∧
        s.optionReports (.computed, option) = [] := by
  have hread : (soleOption? emptyAccessors).any (fun (_, origin, option) =>
      let s : Situation := ⟨origin, "Demo.vue", true⟩
      option.1 = .computed ∧ (option.2.get "value").kind = "ObjectExpression" ∧
        s.optionReports option = [] ∧
        ((option.2.get "value").get "properties").items.map (fun entry =>
          (origin.memberName entry, entry.kind, ((s.readComputedEntry entry).added .computed).length,
            ((s.readComputedEntry entry).added .stores).length,
            (diagnostics (s.readComputedEntry entry).events).length)) =
          [(Text.ofString "a", "Property", 0, 0, 0), (Text.ofString "b", "Property", 1, 0, 0)]) = true := by
    decide +kernel
  obtain ⟨⟨tree, origin, kind, option⟩, hscript, hvalues⟩ := (Option.any_eq_true _ _).mp hread
  obtain ⟨htree, horigin, hoptions⟩ := of_soleOption? hscript
  obtain ⟨rfl, hvalue, hreports, hentries⟩ := of_decide_eq_true hvalues
  obtain ⟨lost, rest, hitems, hlost, hrest⟩ := List.map_eq_cons_iff.mp hentries
  obtain ⟨kept, rest, rfl, hkept, hnil⟩ := List.map_eq_cons_iff.mp hrest
  cases List.map_eq_nil_iff.mp hnil
  simp only [Prod.mk.injEq, List.length_eq_zero_iff, List.length_eq_one_iff] at hlost hkept
  obtain ⟨-, -, -, heach⟩ := computed_entry_lost_iff (s := ⟨origin, "Demo.vue", true⟩) hvalue {} []
  refine ⟨tree, origin, option, lost, kept, htree, horigin, hoptions, hvalue, hitems, hlost.1, ?_, ?_, hreports⟩
  · have hiff := (heach lost (by simp [hitems]) (by simp [hlost])).2
    simpa [hlost] using hiff
  · have hiff := (heach kept (by simp [hitems]) (by simp [hkept])).2
    obtain ⟨accessor, haccessor⟩ := hkept.2.2.1
    exact hiff.mp (.inl (by simp [haccessor]))

/-! ## Accessors of a script -/

/-- The entries of the options of a kind in a script, if they are objects. -/
def optionEntries (kind : OptionKind) (o : Origin) (tree : Tree) : List Tree :=
  (scriptOptions o tree).flatMap fun option =>
    if option.1 = kind ∧ (option.2.get "value").kind = "ObjectExpression" then
      ((option.2.get "value").get "properties").items
    else []

theorem mem_optionEntries {kind : OptionKind} {o : Origin} {tree entry : Tree} :
    entry ∈ optionEntries kind o tree ↔ ∃ option, (kind, option) ∈ scriptOptions o tree ∧
      (option.get "value").kind = "ObjectExpression" ∧
      entry ∈ ((option.get "value").get "properties").items := by
  rw [optionEntries, List.mem_flatMap]
  constructor
  · rintro ⟨⟨kind', option⟩, hoption, hentry⟩
    split at hentry
    · next hkind => exact ⟨option, hkind.1 ▸ hoption, hkind.2, hentry⟩
    · cases hentry
  · rintro ⟨option, hoption, hvalue, hentry⟩
    refine ⟨_, hoption, ?_⟩
    rwa [if_pos ⟨rfl, hvalue⟩]

namespace Situation

variable {s : Situation}

/-- Accessors and methods are each added by options of one kind. -/
theorem Writes.added_eq_nil {slot : ListSlot} {adder kind : OptionKind} {u : Update} (h : s.Writes kind u)
    (hslot : (slot, adder) ∈ [(ListSlot.computed, OptionKind.computed), (.methods, .methods)])
    (hk : kind ≠ adder) : u.added slot = [] := by
  simp only [List.mem_cons, List.not_mem_nil, or_false, Prod.mk.injEq] at hslot
  rcases hslot with ⟨rfl, rfl⟩ | ⟨rfl, rfl⟩
  · cases h with
    | computed => exact absurd rfl hk
    | _ => rfl
  · cases h with
    | methods => exact absurd rfl hk
    | _ => rfl

theorem mem_readOption_computed {option : OptionKind × Tree} {m : Method} :
    m ∈ (s.readOption 0 option.1 option.2).added .computed ↔
      option.1 = .computed ∧ (option.2.get "value").kind = "ObjectExpression" ∧
        ∃ entry ∈ ((option.2.get "value").get "properties").items,
          m ∈ (s.readComputedEntry entry).added .computed := by
  obtain ⟨kind, option⟩ := option
  by_cases hkind : kind = .computed
  · subst hkind
    simp only [readOption, readComputed]
    by_cases hvalue : (option.get "value").kind = "ObjectExpression"
    · rw [if_pos (beq_iff_eq.mpr hvalue), Finding.added_concat, List.flatMap_map, List.mem_flatMap]
      simp [hvalue]
    · rw [if_neg (by simpa using hvalue)]
      simp [Finding.added, hvalue]
  · have hnone : (s.readOption 0 kind option).added .computed = [] :=
      List.flatMap_eq_nil_iff.mpr fun u hu => (readOption_writes hu).added_eq_nil (by decide) hkind
    simp [hnone, hkind]

end Situation

/-- A list that is only added to holds what the options of the script add to it, in order. -/
theorem Component.getList_ofScript {script : Text} {tree : Tree} {file : Text} {keepsUnsupported : Bool}
    {c : Component} {events : List Event}
    (h : ofScript script tree file keepsUnsupported = .ok (c, events)) (slot : ListSlot)
    (hslot : slot ∈ Situation.grownSlots) :
    ∃ origin, Origin.of? script (tree.get "tokens").items = some origin ∧
      c.getList slot = (scriptOptions origin tree).flatMap fun option =>
        (Situation.readOption ⟨origin, file, keepsUnsupported⟩ 0 option.1 option.2).added slot := by
  obtain ⟨origin, horigin, hrenamed, -⟩ := ofScript_eq_ok h
  obtain ⟨watch, -, rfl⟩ := renameWatchers?_eq_some hrenamed
  refine ⟨origin, horigin, ?_⟩
  have hkeeps : ∀ option ∈ scriptOptions origin tree,
      ∀ u ∈ Situation.optionUpdates ⟨origin, file, keepsUnsupported⟩ option, u.Keeps slot :=
    fun option _ u hu => (Situation.readOption_writes hu).keeps hslot
  have hgather := Situation.getList_gather hkeeps
  cases slot with
  | computed | methods | stores | lifecycleHooks => exact hgather rfl
  | _ => simp [Situation.grownSlots] at hslot

/-- The accessors of a class are those of the entries of its script. -/
theorem Component.mem_computed_iff {script : Text} {tree : Tree} {file : Text} {keepsUnsupported : Bool}
    {c : Component} {events : List Event}
    (h : ofScript script tree file keepsUnsupported = .ok (c, events)) :
    ∃ origin, Origin.of? script (tree.get "tokens").items = some origin ∧
      let s : Situation := ⟨origin, file, keepsUnsupported⟩
      ∀ m, m ∈ c.computed ↔ ∃ entry ∈ optionEntries .computed origin tree, ∃ accessor f,
        s.Computes entry accessor f ∧ m = s.accessorOf (origin.memberName entry) accessor f := by
  obtain ⟨origin, horigin, hcomputed⟩ := getList_ofScript h .computed (by decide)
  refine ⟨origin, horigin, fun m => ?_⟩
  have hlist : m ∈ c.computed ↔ ∃ option ∈ scriptOptions origin tree,
      m ∈ (Situation.readOption ⟨origin, file, keepsUnsupported⟩ 0 option.1 option.2).added .computed := by
    rw [← List.mem_flatMap, ← hcomputed]
    rfl
  rw [hlist]
  constructor
  · rintro ⟨⟨kind, option⟩, hoption, hm⟩
    obtain ⟨rfl, hvalue, entry, hentry, hm⟩ := Situation.mem_readOption_computed.mp hm
    exact ⟨entry, mem_optionEntries.mpr ⟨option, hoption, hvalue, hentry⟩,
      Situation.mem_readComputedEntry_added.mp hm⟩
  · rintro ⟨entry, hentry, hm⟩
    obtain ⟨option, hoption, hvalue, hentry⟩ := mem_optionEntries.mp hentry
    exact ⟨_, hoption, Situation.mem_readOption_computed.mpr
      ⟨rfl, hvalue, entry, hentry, Situation.mem_readComputedEntry_added.mpr hm⟩⟩

/-- How many parameters an accessor of a class has. -/
def Accessor.arity : Accessor → Nat
  | .get => 0
  | .set => 1

/-- Whether a class may have a method as an accessor. -/
structure Method.IsLegalAccessor (m : Method) : Prop where
  notAsync : Text.ofString "async" ∉ m.modifiers
  notGenerator : m.isGenerator = false
  params : ∃ accessor, m.accessor? = some accessor ∧ m.params.length = accessor.arity

theorem Situation.isLegalAccessor_accessorOf_iff {s : Situation} {name : Text} {accessor : Accessor}
    {f : FunctionForm} : (s.accessorOf name accessor f).IsLegalAccessor ↔ f.params.length = accessor.arity := by
  have hlength : (s.accessorOf name accessor f).params.length = f.params.length := List.length_map _
  constructor
  · rintro ⟨-, -, _, hsame, hparams⟩
    cases hsame
    exact hlength.symm.trans hparams
  · intro hparams
    exact ⟨by simp only [accessorOf]; decide, rfl, accessor, rfl, hlength.trans hparams⟩

/-- **Accessors have the parameters of their functions.** No accessor of a class is `async` or a generator. All
of them are legal exactly if every function that becomes a getter has no parameter, and every function that
becomes a setter has one; it is the only thing that can be wrong with them. -/
theorem accessors_legal_iff {script : Text} {tree : Tree} {file : Text} {keepsUnsupported : Bool}
    {c : Component} {events : List Event}
    (h : Component.ofScript script tree file keepsUnsupported = .ok (c, events)) :
    ∃ origin, Origin.of? script (tree.get "tokens").items = some origin ∧
      let s : Situation := ⟨origin, file, keepsUnsupported⟩
      (∀ m ∈ c.computed,
        Text.ofString "async" ∉ m.modifiers ∧ m.isGenerator = false ∧ m.accessor?.isSome) ∧
      (∀ m, m ∈ c.computed ↔ ∃ entry ∈ optionEntries .computed origin tree, ∃ accessor f,
        s.Computes entry accessor f ∧ m = s.accessorOf (origin.memberName entry) accessor f) ∧
      ((∀ m ∈ c.computed, m.IsLegalAccessor) ↔ ∀ entry ∈ optionEntries .computed origin tree,
        ∀ accessor f, s.Computes entry accessor f → f.params.length = accessor.arity) := by
  obtain ⟨origin, horigin, hmem⟩ := Component.mem_computed_iff h
  refine ⟨origin, horigin, fun m hm => ?_, hmem, fun hlegal entry hentry accessor f hcomputes => ?_,
    fun hparams m hm => ?_⟩
  · obtain ⟨entry, -, accessor, f, -, rfl⟩ := (hmem m).mp hm
    exact ⟨by simp only [Situation.accessorOf]; decide, rfl, rfl⟩
  · exact Situation.isLegalAccessor_accessorOf_iff.mp
      (hlegal _ ((hmem _).mpr ⟨entry, hentry, accessor, f, hcomputes, rfl⟩))
  · obtain ⟨entry, hentry, accessor, f, hcomputes, rfl⟩ := (hmem m).mp hm
    exact Situation.isLegalAccessor_accessorOf_iff.mpr (hparams entry hentry accessor f hcomputes)

/-- A script with a getter that has a parameter, and a setter that has none. -/
def oddAccessors : String :=
  "export default \x7b\n  computed: \x7b\n    a(vm) \x7b return vm.n; \x7d,\n" ++
    "    b: \x7b get() \x7b return 1; \x7d, set() \x7b\x7d \x7d,\n  \x7d,\n\x7d;\n"

theorem accessors_of_oddAccessors :
    ∃ tree c events origin, Script.parse oddAccessors true = .ok tree ∧
      Component.ofScript oddAccessors tree "" true = .ok (c, events) ∧
      c.computed.map (fun m => (m.name, m.accessor?, m.params)) =
        [(Text.ofString "a", some .get, [Text.ofString "vm"]), (Text.ofString "b", some .get, []),
          (Text.ofString "b", some .set, [])] ∧
      ¬ (∀ m ∈ c.computed, m.IsLegalAccessor) ∧
      ¬ ∀ entry ∈ optionEntries .computed origin tree, ∀ accessor f,
        Situation.Computes ⟨origin, "", true⟩ entry accessor f → f.params.length = accessor.arity := by
  have hread : (readScript? oddAccessors).any (fun (_, c) =>
      c.computed.map (fun m => (m.name, m.accessor?, m.params)) =
        [(Text.ofString "a", some .get, [Text.ofString "vm"]), (Text.ofString "b", some .get, []),
          (Text.ofString "b", some .set, [])]) = true := by
    decide +kernel
  obtain ⟨⟨tree, c⟩, hscript, hvalues⟩ := (Option.any_eq_true _ _).mp hread
  obtain ⟨htree, events, hc⟩ := ofScript_of_readScript? hscript
  have hcomputed := of_decide_eq_true hvalues
  obtain ⟨origin, -, -, -, hlegal⟩ := accessors_legal_iff hc
  have hillegal : ¬ ∀ m ∈ c.computed, m.IsLegalAccessor := by
    intro hall
    obtain ⟨m, rest, hlist, hm, -⟩ := List.map_eq_cons_iff.mp hcomputed
    obtain ⟨accessor, haccessor, hparams⟩ := (hall m (by simp [hlist])).params
    simp only [Prod.mk.injEq] at hm
    rw [hm.2.1] at haccessor
    cases haccessor
    simp [hm.2.2, Accessor.arity] at hparams
  exact ⟨tree, c, events, origin, htree, hc, hcomputed, hillegal, fun h => hillegal (hlegal.mpr h)⟩

end ClassComponent
