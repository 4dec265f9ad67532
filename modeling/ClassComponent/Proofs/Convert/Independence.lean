import ClassComponent.Proofs.Convert.Exchange
import ClassComponent.Proofs.Convert.Options
import ClassComponent.Proofs.Convert.Reading

/-!
# Independent options

Options of different kinds write different slots of the component, but for three slots (`Slot.writers`):
computed properties and methods both spread the store, hooks that are not converted are kept like options
that are not known, and all registrations add to the registered names. In the first two cases the order of
the options shows. Registered names are only asked whether a name is among them, so there it does not
(`Component.Alike`).

All other options are independent (`Tree.Independent`) and may trade places: the components that they give
are alike (`Situation.gather_alike`), also after watchers are renamed (`Component.Alike.rel_renameWatchers?`).
-/

namespace ClassComponent

/-! ## The writers of a slot -/

/-- The kinds of options that may write a slot. -/
def Slot.writers : Slot → List OptionKind
  | .name => [.name]
  | .registry r => [r.kind]
  | .list .data => [.data]
  | .list .computed => [.computed]
  | .list .methods => [.methods]
  | .list .props => [.props]
  | .list .watch => [.watch]
  | .list .lifecycleHooks => [.lifecycleHook]
  | .list .hoisted => [.data]
  | .list .stores => [.computed, .methods]
  | .list .registeredNames => [.components, .directives, .filters]
  | .list .unsupportedOptions => [.lifecycleHook, .unrecognized]

theorem Situation.Writes.mem_writers {s : Situation} {kind : OptionKind} {u : Update}
    (h : s.Writes kind u) : kind ∈ u.slot.writers := by
  cases h with
  | registry r hr _ => exact List.mem_singleton.mpr hr.symm
  | registered r hr _ =>
    subst hr
    cases r <;> simp [Update.slot, Slot.writers, Registry.kind]
  | unsupported hk _ => simpa [Update.slot, Slot.writers] using hk
  | stores hk _ => simpa [Update.slot, Slot.writers] using hk
  | _ => exact List.mem_singleton_self _

/-- The pairs of different kinds of options whose order shows. -/
def OptionKind.ordered : List (OptionKind × OptionKind) :=
  [(.computed, .methods), (.methods, .computed), (.lifecycleHook, .unrecognized),
    (.unrecognized, .lifecycleHook)]

/-- Other kinds have at most the registered names in common. -/
theorem Slot.eq_registeredNames {s : Slot} {k l : OptionKind} (hk : k ∈ s.writers) (hl : l ∈ s.writers)
    (hne : k ≠ l) (h : (k, l) ∉ OptionKind.ordered) : s = .list .registeredNames := by
  have hall : ∀ s ∈ Slot.all, ∀ k ∈ s.writers, ∀ l ∈ s.writers, k ≠ l →
      (k, l) ∉ OptionKind.ordered → s = .list .registeredNames := by
    decide
  refine hall s ?_ k hk l hl hne h
  cases s with
  | name => decide
  | registry r => cases r <;> decide
  | list s => cases s <;> decide

/-- Whether two members of an object are options of different kinds whose order does not show. -/
structure Tree.Independent (a b : Tree) : Prop where
  differ : a.optionKind? ≠ b.optionKind?
  unordered : ∀ k l, a.optionKind? = some k → b.optionKind? = some l → (k, l) ∉ OptionKind.ordered

/-! ## Components that are alike -/

namespace Component

/-- Whether two components are equal but for the order of registered names. -/
def Alike (c c' : Component) : Prop :=
  ∃ names, names.Perm c.registeredNames ∧ c' = { c with registeredNames := names }

theorem alike_of_clear {c c' : Component} (hnames : c'.registeredNames.Perm c.registeredNames)
    (h : c'.clear .registeredNames = c.clear .registeredNames) : c.Alike c' := by
  refine ⟨c'.registeredNames, hnames, ?_⟩
  exact congrArg (fun d : Component => { d with registeredNames := c'.registeredNames }) h

/-- Watchers clash with the same names. -/
theorem Alike.mem_memberNames {c c' : Component} (h : c.Alike c') (x : Text) :
    x ∈ c'.memberNames ↔ x ∈ c.memberNames := by
  obtain ⟨names, hperm, rfl⟩ := h
  simp only [memberNames, List.mem_append, hperm.mem_iff]

theorem Alike.rel_renameWatchers? {c c' : Component} (h : c.Alike c') (digest : Text → Text) :
    Option.Rel Alike (c.renameWatchers? digest) (c'.renameWatchers? digest) := by
  refine renameWatchers?_related ?_ h.mem_memberNames (fun watch => ?_) digest
  · obtain ⟨names, -, rfl⟩ := h
    rfl
  · obtain ⟨names, hperm, rfl⟩ := h
    exact ⟨names, hperm, rfl⟩

end Component

/-! ## Options that trade places -/

theorem OptionsDiffer.perm {a b : Tree} {options options' : List (OptionKind × Tree)}
    (h : OptionsDiffer a b options options') : options'.Perm options := by
  cases h with
  | same => exact .refl _
  | swapped before after _ _ => exact .append_left before (.swap _ _ _)

namespace Situation

variable {s : Situation} {a b : Tree}

theorem registeredNames_gather (options : List (OptionKind × Tree)) :
    (s.gather options).registeredNames =
      options.flatMap fun option => (s.optionUpdates option).flatMap (·.added .registeredNames) := by
  have hkeeps : ∀ option ∈ options, ∀ u ∈ s.optionUpdates option, u.Keeps .registeredNames := by
    rintro ⟨kind, node⟩ - u hu
    cases readOption_writes hu <;> simp [Update.Keeps]
  exact getList_gather hkeeps rfl

/-- Independent options write different slots, but for the registered names. -/
theorem slot_ne_of_independent (h : a.Independent b) {k l : OptionKind} (ha : a.optionKind? = some k)
    (hb : b.optionKind? = some l) {u v : Update} (hu : u ∈ s.optionUpdates (k, a))
    (hv : v ∈ s.optionUpdates (l, b)) (hnames : u.slot ≠ .list .registeredNames) : u.slot ≠ v.slot := by
  intro heq
  have hk := (readOption_writes hu).mem_writers
  have hl := (readOption_writes hv).mem_writers
  have hkinds : k ≠ l := by
    rintro rfl
    exact h.differ (ha.trans hb.symm)
  exact hnames (Slot.eq_registeredNames hk (heq ▸ hl) hkinds (h.unordered k l ha hb))

theorem gather_alike {options options' : List (OptionKind × Tree)} (h : OptionsDiffer a b options options')
    (hab : a.Independent b) : (s.gather options).Alike (s.gather options') := by
  have hperm := h.perm
  refine Component.alike_of_clear ?_ ?_
  · rw [registeredNames_gather, registeredNames_gather]
    exact hperm.flatMap_right _
  · cases h with
    | same => rfl
    | @swapped before after k l ha hb =>
      rw [clear_gather rfl, clear_gather rfl]
      simp only [List.flatMap_append, List.flatMap_cons, Component.applyAll_append]
      -- What the two write commutes; what is written before and after is the same.
      refine congrArg (Component.applyAll · _) (Component.applyAll_comm ?_ _)
      intro v hv u hu
      obtain ⟨hv, -⟩ := List.mem_filter.mp hv
      obtain ⟨hu, hslot⟩ := List.mem_filter.mp hu
      exact (slot_ne_of_independent hab ha hb hu hv (of_decide_eq_true hslot)).symm

end Situation

end ClassComponent
