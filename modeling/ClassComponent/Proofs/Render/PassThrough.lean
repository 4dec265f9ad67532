import ClassComponent.Proofs.Convert.Options
import ClassComponent.Proofs.Convert.Reading

/-!
# Scripts that are passed through

A script is passed through if its component is not marked as converted. The mark is set by the way, each
time something is stored; here it is compared with everything that was stored.

* **Runs** (`Component.run?`): changes and renamings of watchers in any order; `Component.history` lists
  what they store.
* **The mark** (`Component.isConverted_of_run`): it is set exactly if something was stored in a slot that
  holds part of the class, so it never goes away.
* **Empty slots** (`Component.MarkedIfFilled`): without the mark these slots hold nothing, so a
  script that is passed through loses nothing (`conversion_mark_exact`).
-/

namespace ClassComponent

/-- What happens to a component: a change, or the renaming of its watchers. -/
inductive Step where
  | write (u : Update)
  | rename

/-- A value in its slot. -/
abbrev SlotValue := (s : Slot) × s.Value

/-- Whether a value is more than nothing, and its slot holds part of the class. -/
def SlotValue.Converts (w : SlotValue) : Prop :=
  w.1 ≠ .list .registeredNames ∧ w.1 ≠ .list .unsupportedOptions ∧ w.1.isFilled w.2

theorem Slot.isConverting_iff (s : Slot) :
    s.isConverting ↔ s ≠ .list .registeredNames ∧ s ≠ .list .unsupportedOptions := by
  cases s with
  | name => simp [isConverting]
  | registry r => simp [isConverting]
  | list s => cases s <;> simp [isConverting]

namespace Component

variable {digest : Text → Text} {c c' : Component}

/-! ## Runs -/

/-- The component after a step; `none` if a watcher has no free name. -/
def step? (digest : Text → Text) (c : Component) : Step → Option Component
  | .write u => some (c.apply u)
  | .rename => c.renameWatchers? digest

/-- The component after several steps. -/
def run? (digest : Text → Text) (c : Component) (steps : List Step) : Option Component :=
  steps.foldlM (step? digest) c

/-- What a step stores. -/
def writes (c : Component) : Step → List SlotValue
  | .write u => [⟨u.slot, u.stored c⟩]
  | .rename => []

/-- What the steps of a run store, in order. -/
def history (digest : Text → Text) : Component → List Step → List SlotValue
  | _, [] => []
  | c, step :: steps =>
    c.writes step ++ match c.step? digest step with
      | some next => next.history digest steps
      | none => []

theorem run?_cons {step : Step} {steps : List Step} (h : c.run? digest (step :: steps) = some c') :
    ∃ next, c.step? digest step = some next ∧ next.run? digest steps = some c' :=
  Option.bind_eq_some_iff.mp h

theorem history_cons {step : Step} {steps : List Step} {next : Component}
    (h : c.step? digest step = some next) :
    c.history digest (step :: steps) = c.writes step ++ next.history digest steps := by
  rw [history, h]

/-- Changes are steps that never fail. -/
theorem run?_writes (us : List Update) (steps : List Step) :
    c.run? digest (us.map .write ++ steps) = (c.applyAll us).run? digest steps := by
  induction us generalizing c with
  | nil => rfl
  | cons u us ih => exact ih

/-! ## The mark -/

theorem isConverted_step {step : Step} (h : c.step? digest step = some c') :
    c'.isConverted ↔ c.isConverted ∨ ∃ w ∈ c.writes step, w.Converts := by
  cases step with
  | write u =>
    cases h
    rw [apply_eq_put, isConverted_put, Bool.or_eq_true, Bool.and_eq_true, Slot.isConverting_iff, and_assoc]
    simp only [writes, List.mem_singleton, exists_eq_left]
    rfl
  | rename =>
    obtain ⟨watch, -, rfl⟩ := renameWatchers?_eq_some h
    simp [writes]

theorem isConverted_of_run {steps : List Step} (h : c.run? digest steps = some c') :
    c'.isConverted ↔ c.isConverted ∨ ∃ w ∈ c.history digest steps, w.Converts := by
  induction steps generalizing c with
  | nil =>
    cases h
    simp [history]
  | cons step steps ih =>
    obtain ⟨next, hstep, hrun⟩ := run?_cons h
    rw [ih hrun, isConverted_step hstep, history_cons hstep, or_assoc]
    simp only [List.mem_append, or_and_right, exists_or]

/-! ## Empty slots -/

/-- Whether the component has the mark if a slot that holds part of the class is filled. -/
def MarkedIfFilled (c : Component) : Prop :=
  c.isConverted = false → ∀ s : Slot, s.isConverting → s.isFilled (c.get s) = false

theorem MarkedIfFilled.put (hc : c.MarkedIfFilled) (s : Slot) (value : s.Value) :
    (c.put s value).MarkedIfFilled := by
  intro hmark s' hs'
  rw [isConverted_put, Bool.or_eq_false_iff] at hmark
  rw [Component.put, get_mark]
  by_cases h : s = s'
  · subst h
    rw [get_store_self]
    simpa [hs'] using hmark.2
  · rw [get_store_of_ne c h]
    exact hc hmark.1 s' hs'

theorem MarkedIfFilled.step (hc : c.MarkedIfFilled) {step : Step} (h : c.step? digest step = some c') :
    c'.MarkedIfFilled := by
  cases step with
  | write u =>
    cases h
    rw [apply_eq_put]
    exact hc.put _ _
  | rename =>
    obtain ⟨watch, hwatch, rfl⟩ := renameWatchers?_eq_some h
    intro hmark s hs
    have hslot := hc hmark s hs
    by_cases hne : s = .list .watch
    · subst hne
      -- As many watchers as before are there, so none.
      have hlength := (renameAll?_renamed hwatch).length_eq
      have hnone : c.watch = [] := by simpa [Slot.isFilled, get, getList] using hslot
      rw [hnone, List.length_nil] at hlength
      have hwatch' : watch = [] := List.eq_nil_of_length_eq_zero hlength.symm
      simp [Slot.isFilled, get, getList, hwatch']
    · rwa [show ({ c with watch } : Component) = c.store (.list .watch) watch from rfl,
        get_store_of_ne c (Ne.symm hne)]

theorem MarkedIfFilled.run (hc : c.MarkedIfFilled) {steps : List Step} (h : c.run? digest steps = some c') :
    c'.MarkedIfFilled := by
  induction steps generalizing c with
  | nil =>
    cases h
    exact hc
  | cons step steps ih =>
    obtain ⟨next, hstep, hrun⟩ := run?_cons h
    exact ih (hc.step hstep) hrun

/-- Whether no slot that holds part of the class holds anything. -/
structure HoldsNothing (c : Component) : Prop where
  name : c.name.isEmpty
  data : c.data = []
  components : ∀ text ∈ c.components?, text.isEmpty
  directives : ∀ text ∈ c.directives?, text.isEmpty
  filters : ∀ text ∈ c.filters?, text.isEmpty
  computed : c.computed = []
  methods : c.methods = []
  props : c.props = []
  watch : c.watch = []
  lifecycleHooks : c.lifecycleHooks = []
  hoisted : c.hoisted = []
  stores : c.stores = []

theorem MarkedIfFilled.holdsNothing (hc : c.MarkedIfFilled) (h : c.isConverted = false) : c.HoldsNothing := by
  have hlist : ∀ s : ListSlot, (Slot.list s).isConverting → c.getList s = [] := fun s hs =>
    List.isEmpty_iff.mp (by simpa [Slot.isFilled, get] using hc h (.list s) hs)
  have hregistry : ∀ r : Registry, ∀ text ∈ c.get (.registry r), text.isEmpty := by
    intro r text htext
    have hr := hc h (.registry r) rfl
    rw [Slot.isFilled, Option.mem_def.mp htext] at hr
    simpa using hr
  exact {
    name := by simpa [Slot.isFilled, get] using hc h .name rfl
    data := hlist .data rfl
    components := hregistry .components
    directives := hregistry .directives
    filters := hregistry .filters
    computed := hlist .computed rfl
    methods := hlist .methods rfl
    props := hlist .props rfl
    watch := hlist .watch rfl
    lifecycleHooks := hlist .lifecycleHooks rfl
    hoisted := hlist .hoisted rfl
    stores := hlist .stores rfl }

theorem markedIfFilled_empty (marker : Text) : ({ marker } : Component).MarkedIfFilled := by
  intro _ s _
  cases s with
  | name => rfl
  | registry r => cases r <;> rfl
  | list s => cases s <;> rfl

end Component

/-! ## Scripts -/

/-- The steps that reading a script takes: the changes of its options, and the renaming of watchers. -/
def Situation.steps (s : Situation) (tree : Tree) : List Step :=
  ((scriptOptions s.origin tree).flatMap s.optionUpdates).map .write ++ [.rename]

theorem Component.ofScript_run {script : Text} {tree : Tree} {file : Text} {keepsUnsupported : Bool}
    {c : Component} {events : List Event}
    (h : ofScript script tree file keepsUnsupported = .ok (c, events)) :
    ∃ origin, Origin.of? script (tree.get "tokens").items = some origin ∧
      ({ marker := origin.marker } : Component).run? Digest.short
        (Situation.steps ⟨origin, file, keepsUnsupported⟩ tree) = some c := by
  obtain ⟨origin, horigin, hrename, -⟩ := ofScript_eq_ok h
  refine ⟨origin, horigin, ?_⟩
  rw [Situation.steps, run?_writes]
  exact Option.bind_eq_some_iff.mpr ⟨c, hrename, rfl⟩

/-- **The mark of conversion is exact, and passing through loses nothing.** After any run from an empty
component, the mark is set exactly if something was stored in a slot that holds part of the class, and it
stays; without it these slots hold nothing. Reading a script is such a run, so a script without the mark
is written as it is, and its component holds at most registered names and options kept as they are. -/
theorem conversion_mark_exact :
    (∀ (digest : Text → Text) (marker : Text) (steps : List Step) (c : Component),
      ({ marker } : Component).run? digest steps = some c →
        (c.isConverted ↔ ∃ w ∈ ({ marker } : Component).history digest steps, w.Converts) ∧
        (c.isConverted → ∀ later c', c.run? digest later = some c' → c'.isConverted) ∧
        (c.isConverted = false → c.HoldsNothing)) ∧
    ∀ (script : Text) (tree : Tree) (file : Text) (keepsUnsupported : Bool) (c : Component)
      (events : List Event), Component.ofScript script tree file keepsUnsupported = .ok (c, events) →
        (∃ origin, Origin.of? script (tree.get "tokens").items = some origin ∧
          let steps := Situation.steps ⟨origin, file, keepsUnsupported⟩ tree
          let start : Component := { marker := origin.marker }
          start.run? Digest.short steps = some c ∧
            (c.isConverted ↔ ∃ w ∈ start.history Digest.short steps, w.Converts)) ∧
        (c.isConverted = false →
          c.HoldsNothing ∧ ∀ fallback, c.render tree script file fallback = script) := by
  have hexact : ∀ {digest : Text → Text} {marker : Text} {steps : List Step} {c : Component},
      ({ marker } : Component).run? digest steps = some c →
        (c.isConverted ↔ ∃ w ∈ ({ marker } : Component).history digest steps, w.Converts) := by
    intro digest marker steps c hrun
    simpa using Component.isConverted_of_run hrun
  constructor
  · intro digest marker steps c hrun
    refine ⟨hexact hrun, fun hmark later c' hlater => ?_, ?_⟩
    · exact (Component.isConverted_of_run hlater).mpr (.inl hmark)
    · exact ((Component.markedIfFilled_empty marker).run hrun).holdsNothing
  · intro script tree file keepsUnsupported c events h
    obtain ⟨origin, horigin, hrun⟩ := Component.ofScript_run h
    refine ⟨⟨origin, horigin, hrun, hexact hrun⟩, fun hmark => ⟨?_, fun fallback => ?_⟩⟩
    · exact ((Component.markedIfFilled_empty origin.marker).run hrun).holdsNothing hmark
    · rw [Component.render, hmark]
      rfl

/-- A script whose only option is kept as it is. -/
def unsupportedScript : String :=
  "export default \x7b mixins: [a] \x7d;\n"

/-- That script is passed through, although an option of it was found; and a component from which all was
taken away again keeps its mark. -/
theorem unsupportedScript_passes_through :
    (∃ tree c events, Script.parse unsupportedScript true = .ok tree ∧
      Component.ofScript unsupportedScript tree "" true = .ok (c, events) ∧
      c.unsupportedOptions = [Text.ofString "mixins: [a]"] ∧ c.HoldsNothing ∧
      c.render tree unsupportedScript "" "Component" = unsupportedScript) ∧
    ∃ c, ({} : Component).run? Digest.short
        [.write (.put .name "A"), .write (.put .name ""), .rename] = some c ∧
      c.name = "" ∧ c.isConverted := by
  constructor
  · have hread : (readScript? unsupportedScript).map
        (fun r => (r.2.unsupportedOptions, r.2.isConverted)) =
          some ([Text.ofString "mixins: [a]"], false) := by
      decide +kernel
    obtain ⟨⟨tree, c⟩, hscript, hvalue⟩ := Option.map_eq_some_iff.mp hread
    obtain ⟨hkept, hmark⟩ := Prod.mk.inj hvalue
    obtain ⟨hparse, events, hok⟩ := ofScript_of_readScript? hscript
    obtain ⟨hnothing, hrender⟩ := (conversion_mark_exact.2 _ tree "" true c events hok).2 hmark
    exact ⟨tree, c, events, hparse, hok, hkept, hnothing, hrender "Component"⟩
  · have hrun : ({} : Component).run? Digest.short
        [.write (.put .name "A"), .write (.put .name ""), .rename] =
          some { name := "", isConverted := true } := rfl
    refine ⟨_, hrun, rfl, (conversion_mark_exact.1 _ _ _ _ hrun).1.mpr ?_⟩
    exact ⟨⟨.name, Text.ofString "A"⟩, List.mem_cons_self, by decide, by decide, by decide⟩

end ClassComponent
