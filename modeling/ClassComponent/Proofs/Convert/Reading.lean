import ClassComponent.Convert.Component
import ClassComponent.Proofs.Component.Updates

/-!
# Readings of scripts

The only thing that the reader of an option sees of the component is how many statements were hoisted
before, and it uses this number in no change and no report. So the component of a script is what all
changes of its options make of an empty one (`Situation.readOptions_component`), the reports are those of
its options (`Situation.readOptions_reports`), and each option can be looked at alone.

`Component.ofScript_related` compares two readings: it leaves the components before renaming and the
reports to be compared.
-/

namespace ClassComponent

/-! ## Reports -/

@[simp]
theorem diagnostics_append (a b : List Event) :
    diagnostics (a ++ b) = diagnostics a ++ diagnostics b :=
  List.filterMap_append

theorem mem_diagnostics {events : List Event} {d : Diagnostic} :
    d ∈ diagnostics events ↔ .warned d ∈ events := by
  rw [diagnostics, List.mem_filterMap]
  constructor
  · rintro ⟨e, he, hd⟩
    cases e with
    | warned d' =>
      cases hd
      exact he
    | _ => cases hd
  · exact fun h => ⟨_, h, rfl⟩

namespace Finding

@[simp]
theorem events_append (a b : Finding) : (a ++ b).events = a.events ++ b.events := rfl

@[simp]
theorem events_warning (d : Diagnostic) : (warning d).events = [.warned d] := rfl

@[simp]
theorem events_concat (findings : List Finding) :
    (concat findings).events = findings.flatMap (·.events) := rfl

@[simp]
theorem events_ofEntries (s : ListSlot) (results : List (Except Diagnostic s.Item)) :
    (ofEntries s results).events = reports results := rfl

end Finding

theorem mem_reports {α : Type} {results : List (Except Diagnostic α)} {e : Event} :
    e ∈ reports results ↔ ∃ d, .error d ∈ results ∧ e = .warned d := by
  rw [reports, List.mem_filterMap]
  constructor
  · rintro ⟨result, hmem, h⟩
    cases result with
    | ok _ => cases h
    | error d =>
      cases h
      exact ⟨d, hmem, rfl⟩
  · rintro ⟨d, hmem, rfl⟩
    exact ⟨_, hmem, rfl⟩

namespace Situation

variable {s : Situation}

/-! ## Options one by one -/

/-- The changes that an option makes. -/
def optionUpdates (s : Situation) (option : OptionKind × Tree) : List Update :=
  (s.readOption 0 option.1 option.2).updates

/-- What is reported about an option. -/
def optionReports (s : Situation) (option : OptionKind × Tree) : List Diagnostic :=
  diagnostics (s.readOption 0 option.1 option.2).events

/-- How many statements were hoisted before shows in no change and no report. -/
theorem readData_eq (hoistedBefore : Nat) (option : Tree) :
    (s.readData hoistedBefore option).updates = (s.readData 0 option).updates ∧
      diagnostics (s.readData hoistedBefore option).events =
        diagnostics (s.readData 0 option).events := by
  unfold readData
  split
  · exact ⟨rfl, rfl⟩
  · split
    · exact ⟨rfl, rfl⟩
    · simp only
      split
      · refine ⟨rfl, ?_⟩
        simp only [Finding.events_append, diagnostics_append]
        rfl
      · exact ⟨rfl, rfl⟩

theorem readOption_updates (hoistedBefore : Nat) (option : OptionKind × Tree) :
    (s.readOption hoistedBefore option.1 option.2).updates = s.optionUpdates option := by
  obtain ⟨kind, node⟩ := option
  cases kind with
  | data => exact (readData_eq hoistedBefore node).1
  | _ => rfl

theorem readOption_reports (hoistedBefore : Nat) (option : OptionKind × Tree) :
    diagnostics (s.readOption hoistedBefore option.1 option.2).events = s.optionReports option := by
  obtain ⟨kind, node⟩ := option
  cases kind with
  | data => exact (readData_eq hoistedBefore node).2
  | _ => rfl

/-! ## All options -/

/-- The component that options give, before watchers are renamed. -/
def gather (s : Situation) (options : List (OptionKind × Tree)) : Component :=
  ({ marker := s.origin.marker } : Component).applyAll (options.flatMap s.optionUpdates)

/-- A slot that nothing is put into holds what the options add to it, in order. -/
theorem getList_gather {slot : ListSlot} {options : List (OptionKind × Tree)}
    (h : ∀ option ∈ options, ∀ u ∈ s.optionUpdates option, u.Keeps slot)
    (hempty : ({ marker := s.origin.marker } : Component).getList slot = []) :
    (s.gather options).getList slot =
      options.flatMap fun option => (s.optionUpdates option).flatMap (·.added slot) := by
  have hkeeps : ∀ u ∈ options.flatMap s.optionUpdates, u.Keeps slot := by
    intro u hu
    obtain ⟨option, hoption, hu⟩ := List.mem_flatMap.mp hu
    exact h option hoption u hu
  rw [gather, Component.getList_applyAll hkeeps, hempty, List.nil_append, List.flatMap_assoc]

/-- Emptying a slot is leaving out what is written to it. -/
theorem clear_gather {slot : ListSlot} (h : (Slot.list slot).isConverting = false)
    (options : List (OptionKind × Tree)) :
    (s.gather options).clear slot =
      (({ marker := s.origin.marker } : Component).clear slot).applyAll
        (options.flatMap fun option => (s.optionUpdates option).filter (·.slot ≠ .list slot)) := by
  rw [gather, Component.applyAll_clear h, List.filter_flatMap]

theorem addOption_component (c : Component) (log : List Event) (option : OptionKind × Tree) :
    (s.addOption (c, log) option).1 = c.applyAll (s.optionUpdates option) :=
  congrArg c.applyAll (readOption_updates _ option)

theorem addOption_reports (c : Component) (log : List Event) (option : OptionKind × Tree) :
    diagnostics (s.addOption (c, log) option).2 = diagnostics log ++ s.optionReports option := by
  simp only [addOption, diagnostics_append, ← readOption_reports c.hoisted.length option]
  rfl

theorem foldl_addOption (options : List (OptionKind × Tree)) (state : Component × List Event) :
    (options.foldl s.addOption state).1 = state.1.applyAll (options.flatMap s.optionUpdates) ∧
      diagnostics (options.foldl s.addOption state).2 =
        diagnostics state.2 ++ options.flatMap s.optionReports := by
  induction options generalizing state with
  | nil => exact ⟨rfl, (List.append_nil _).symm⟩
  | cons option options ih =>
    obtain ⟨c, log⟩ := state
    rw [List.foldl_cons, (ih _).1, (ih _).2, addOption_component, addOption_reports,
      ← Component.applyAll_append, List.append_assoc, List.flatMap_cons, List.flatMap_cons]
    exact ⟨rfl, rfl⟩

theorem readOptions_component (options : List (OptionKind × Tree)) :
    (s.readOptions options).1 = s.gather options :=
  (foldl_addOption options _).1

theorem readOptions_reports (options : List (OptionKind × Tree)) :
    diagnostics (s.readOptions options).2 = options.flatMap s.optionReports :=
  (foldl_addOption options _).2

end Situation

/-! ## Whole scripts -/

theorem eq_ok_of_toOption {ε α : Type} {result : Except ε α} {value : α}
    (h : result.toOption = some value) : result = .ok value := by
  cases result with
  | ok _ =>
    cases h
    rfl
  | error _ => cases h

namespace Component

variable {script : Text} {tree : Tree} {file : Text} {keepsUnsupported : Bool}

theorem ofScript_of_origin_none (h : Origin.of? script (tree.get "tokens").items = none) :
    ofScript script tree file keepsUnsupported = .error (.fault .noMarker) := by
  rw [ofScript, h]

theorem ofScript_of_origin {origin : Origin} (h : Origin.of? script (tree.get "tokens").items = some origin) :
    ofScript script tree file keepsUnsupported = ofOrigin origin tree file keepsUnsupported := by
  rw [ofScript, h]

section

variable {origin : Origin}

/-- What reading options gives: their component with its watchers renamed, and the log of reading them between two
events. -/
theorem ofOrigin_eq_ok_iff {c : Component} {events : List Event} :
    ofOrigin origin tree file keepsUnsupported = .ok (c, events) ↔
      let read := Situation.readOptions ⟨origin, file, keepsUnsupported⟩ (scriptOptions origin tree)
      read.1.renameWatchers? Digest.short = some c ∧
        events = .readingStarted file :: read.2 ++ [.readingFinished c.isConverted] := by
  dsimp only [ofOrigin]
  cases (Situation.readOptions ⟨origin, file, keepsUnsupported⟩
    (scriptOptions origin tree)).1.renameWatchers? Digest.short with
  | none => simp
  | some renamed =>
    simp only [Except.ok.injEq, Prod.mk.injEq, Option.some.injEq]
    constructor
    · rintro ⟨rfl, rfl⟩
      exact ⟨rfl, rfl⟩
    · rintro ⟨rfl, rfl⟩
      exact ⟨rfl, rfl⟩

theorem ofOrigin_of_rename_none
    (h : (Situation.gather ⟨origin, file, keepsUnsupported⟩
      (scriptOptions origin tree)).renameWatchers? Digest.short = none) :
    ofOrigin origin tree file keepsUnsupported = .error .endless := by
  rw [← Situation.readOptions_component] at h
  simp only [ofOrigin, h]

theorem ofOrigin_of_rename_some {c : Component}
    (h : (Situation.gather ⟨origin, file, keepsUnsupported⟩
      (scriptOptions origin tree)).renameWatchers? Digest.short = some c) :
    ∃ events, ofOrigin origin tree file keepsUnsupported = .ok (c, events) ∧
      diagnostics events =
        (scriptOptions origin tree).flatMap (Situation.optionReports ⟨origin, file, keepsUnsupported⟩) := by
  rw [← Situation.readOptions_component] at h
  simp only [ofOrigin, h]
  refine ⟨_, rfl, ?_⟩
  rw [← Situation.readOptions_reports, diagnostics_append]
  exact List.append_nil _

end

/-- The only fault is that there is no character to mask line breaks. -/
theorem ofScript_eq_fault_iff :
    (∃ fault, ofScript script tree file keepsUnsupported = .error (.fault fault)) ↔
      Origin.of? script (tree.get "tokens").items = none := by
  cases horigin : Origin.of? script (tree.get "tokens").items with
  | none => exact iff_of_true ⟨_, ofScript_of_origin_none horigin⟩ rfl
  | some origin =>
    rw [ofScript_of_origin horigin]
    cases hrename : (Situation.gather ⟨origin, file, keepsUnsupported⟩
        (scriptOptions origin tree)).renameWatchers? Digest.short with
    | none => simp [ofOrigin_of_rename_none hrename]
    | some c =>
      obtain ⟨events, hok, -⟩ := ofOrigin_of_rename_some hrename
      simp [hok]

/-- Reading a script never ends exactly if renaming its watchers does not. -/
theorem ofScript_eq_endless_iff :
    ofScript script tree file keepsUnsupported = .error .endless ↔
      ∃ origin, Origin.of? script (tree.get "tokens").items = some origin ∧
        (Situation.gather ⟨origin, file, keepsUnsupported⟩
          (scriptOptions origin tree)).renameWatchers? Digest.short = none := by
  cases horigin : Origin.of? script (tree.get "tokens").items with
  | none => simp [ofScript_of_origin_none horigin]
  | some origin =>
    rw [ofScript_of_origin horigin]
    cases hrename : (Situation.gather ⟨origin, file, keepsUnsupported⟩
        (scriptOptions origin tree)).renameWatchers? Digest.short with
    | none => simp [ofOrigin_of_rename_none hrename, hrename]
    | some c =>
      obtain ⟨events, hok, -⟩ := ofOrigin_of_rename_some hrename
      simp [hok, hrename]

/-- What it takes to read a script. -/
theorem ofScript_eq_ok {c : Component} {events : List Event}
    (h : ofScript script tree file keepsUnsupported = .ok (c, events)) :
    ∃ origin, Origin.of? script (tree.get "tokens").items = some origin ∧
      (Situation.gather ⟨origin, file, keepsUnsupported⟩
        (scriptOptions origin tree)).renameWatchers? Digest.short = some c ∧
      diagnostics events =
        (scriptOptions origin tree).flatMap (Situation.optionReports ⟨origin, file, keepsUnsupported⟩) := by
  cases horigin : Origin.of? script (tree.get "tokens").items with
  | none =>
    rw [ofScript_of_origin_none horigin] at h
    cases h
  | some origin =>
    cases hrename : (Situation.gather ⟨origin, file, keepsUnsupported⟩
        (scriptOptions origin tree)).renameWatchers? Digest.short with
    | none =>
      rw [ofScript_of_origin horigin, ofOrigin_of_rename_none hrename] at h
      cases h
    | some c' =>
      obtain ⟨events', hok, hreports⟩ := ofOrigin_of_rename_some hrename
      rw [ofScript_of_origin horigin, hok] at h
      cases h
      exact ⟨origin, rfl, hrename, hreports⟩

/-- Two readings of a script fail alike, or give related components and the reports of their options, if
renaming the watchers of what they gather gives related results. -/
theorem ofScript_related {tree' : Tree} {keepsUnsupported' : Bool}
    {R : Origin → Component → Component → Prop}
    (htokens : tree'.get "tokens" = tree.get "tokens")
    (h : ∀ origin, Origin.of? script (tree.get "tokens").items = some origin →
      Option.Rel (R origin)
        ((Situation.gather ⟨origin, file, keepsUnsupported⟩
          (scriptOptions origin tree)).renameWatchers? Digest.short)
        ((Situation.gather ⟨origin, file, keepsUnsupported'⟩
          (scriptOptions origin tree')).renameWatchers? Digest.short)) :
    (∀ reason, ofScript script tree file keepsUnsupported = .error reason →
      ofScript script tree' file keepsUnsupported' = .error reason) ∧
    ∀ c events, ofScript script tree file keepsUnsupported = .ok (c, events) →
      ∃ origin c' events', Origin.of? script (tree.get "tokens").items = some origin ∧
        ofScript script tree' file keepsUnsupported' = .ok (c', events') ∧ R origin c c' ∧
        diagnostics events = (scriptOptions origin tree).flatMap
          (Situation.optionReports ⟨origin, file, keepsUnsupported⟩) ∧
        diagnostics events' = (scriptOptions origin tree').flatMap
          (Situation.optionReports ⟨origin, file, keepsUnsupported'⟩) := by
  cases horigin : Origin.of? script (tree.get "tokens").items with
  | none =>
    have horigin' : Origin.of? script (tree'.get "tokens").items = none := htokens ▸ horigin
    rw [ofScript_of_origin_none horigin, ofScript_of_origin_none horigin']
    exact ⟨fun _ h => h, nofun⟩
  | some origin =>
    have horigin' : Origin.of? script (tree'.get "tokens").items = some origin := htokens ▸ horigin
    rw [ofScript_of_origin horigin, ofScript_of_origin horigin']
    have hrel := h origin horigin
    generalize hx : (Situation.gather ⟨origin, file, keepsUnsupported⟩
      (scriptOptions origin tree)).renameWatchers? Digest.short = x at hrel
    generalize hy : (Situation.gather ⟨origin, file, keepsUnsupported'⟩
      (scriptOptions origin tree')).renameWatchers? Digest.short = y at hrel
    cases hrel with
    | none =>
      rw [ofOrigin_of_rename_none hx, ofOrigin_of_rename_none hy]
      exact ⟨fun _ h => h, nofun⟩
    | some hR =>
      obtain ⟨events, hok, hreports⟩ := ofOrigin_of_rename_some hx
      obtain ⟨events', hok', hreports'⟩ := ofOrigin_of_rename_some hy
      rw [hok]
      refine ⟨nofun, fun d dEvents hd => ?_⟩
      cases hd
      exact ⟨origin, _, events', rfl, hok', hR, hreports, hreports'⟩

end Component

end ClassComponent
