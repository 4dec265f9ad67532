import ClassComponent.Proofs.Component.Naming
import ClassComponent.Proofs.Component.Updates
import ClassComponent.Proofs.Convert.Pairing

/-!
# Components side by side

Components that two readings of a script give hold the same members, whose texts are paired point by point
(`Pairing.Alike`).

* **Changes** (`Alike.applyAll`): components that are alike stay so if changes of the same slots store values
  that match.
* **Watchers** (`Alike.rel_renameWatchers?`): their names are plain, and whether a plain name is taken is the same
  in both components. So watchers get the same names.
-/

namespace ClassComponent

open Text

namespace Pairing

variable (P : Pairing)

/-! ## Members -/

/-- Whether texts are written alike, one by one. -/
abbrev ShownAll (xs xs' : List Text) : Prop :=
  List.Forall₂ (Pointwise P.shown) xs xs'

/-- Whether two fields match. -/
structure FieldsMatch (f f' : Field) : Prop where
  name : P.SameName f.name f'.name
  modifiers : P.ShownAll f.modifiers f'.modifiers
  initializer? : Option.Rel (Pointwise P.shown) f.initializer? f'.initializer?
  decorators : P.ShownAll f.decorators f'.decorators

/-- Whether two methods match. -/
structure MethodsMatch (m m' : Method) : Prop where
  name : P.SameName m.name m'.name
  params : P.ShownAll m.params m'.params
  body : Pointwise P.shown m.body m'.body
  decorators : P.ShownAll m.decorators m'.decorators
  modifiers : P.ShownAll m.modifiers m'.modifiers
  accessor? : m'.accessor? = m.accessor?
  isGenerator : m'.isGenerator = m.isGenerator

/-- Whether two members match. -/
inductive MembersMatch : Member → Member → Prop
  | field {f f' : Field} (h : P.FieldsMatch f f') : MembersMatch (.field f) (.field f')
  | method {m m' : Method} (h : P.MethodsMatch m m') : MembersMatch (.method m) (.method m')

/-- Whether two watchers match. -/
structure WatchersMatch (m m' : Method) : Prop extends P.MethodsMatch m m' where
  sameName : m'.name = m.name
  isPlain : m.name.IsPlain

/-- Whether two store bindings match. -/
structure BindingsMatch (b b' : StoreBinding) : Prop where
  tool : b'.tool = b.tool
  name : P.SameName (propertyName b.name) (propertyName b'.name)
  scope? : Option.Rel (Pointwise P.shown) b.scope? b'.scope?
  getter : Pointwise P.shown b.getter b'.getter

/-- Whether two items of a slot match. -/
def ItemsMatch : (s : ListSlot) → s.Item → s.Item → Prop
  | .data => P.FieldsMatch
  | .computed => P.MethodsMatch
  | .methods => P.MembersMatch
  | .props => P.FieldsMatch
  | .watch => P.WatchersMatch
  | .lifecycleHooks => P.MethodsMatch
  | .hoisted => Pointwise P.shown
  | .stores => P.BindingsMatch
  | .registeredNames => P.SameName
  | .unsupportedOptions => Pointwise P.shown

/-- Whether two values of a slot match. -/
def ValuesMatch : (s : Slot) → s.Value → s.Value → Prop
  | .name => Pointwise P.read
  | .registry _ => Option.Rel (Pointwise P.shown)
  | .list s => List.Forall₂ (P.ItemsMatch s)

/-! ## Changes -/

/-- Whether two components hold the same members, with texts that are paired. -/
structure Alike (c c' : Component) : Prop where
  values : ∀ s : Slot, P.ValuesMatch s (c.get s) (c'.get s)
  isConverted : c'.isConverted = c.isConverted

/-- Whether two changes store values that match in the same slot. -/
inductive UpdatesMatch : Update → Update → Prop
  | put (s : Slot) {v v' : s.Value} (h : P.ValuesMatch s v v') : UpdatesMatch (.put s v) (.put s v')
  | append (s : ListSlot) {xs xs' : List s.Item} (h : List.Forall₂ (P.ItemsMatch s) xs xs') :
      UpdatesMatch (.append s xs) (.append s xs')

variable {P} {c c' : Component}

theorem isFilled_eq {s : Slot} {v v' : s.Value} (h : P.ValuesMatch s v v') :
    s.isFilled v' = s.isFilled v := by
  cases s with
  | name => exact congrArg not (Pointwise.isEmpty_eq h)
  | registry r =>
    cases (h : Option.Rel (Pointwise P.shown) v v') with
    | none => rfl
    | some htext => exact congrArg not htext.isEmpty_eq
  | list s =>
    cases (h : List.Forall₂ (P.ItemsMatch s) v v') with
    | nil => rfl
    | cons _ _ => rfl

/-- Components without members are alike, whatever their markers. -/
theorem alike_empty (m m' : Text) : P.Alike { marker := m } { marker := m' } where
  values s := by
    cases s with
    | name => exact .nil
    | registry r => cases r <;> exact .none
    | list s => cases s <;> exact .nil
  isConverted := rfl

theorem Alike.store (h : P.Alike c c') {s : Slot} {v v' : s.Value} (hv : P.ValuesMatch s v v') :
    P.Alike (c.store s v) (c'.store s v') where
  values s' := by
    by_cases hs : s = s'
    · subst hs
      rw [Component.get_store_self, Component.get_store_self]
      exact hv
    · rw [Component.get_store_of_ne c hs, Component.get_store_of_ne c' hs]
      exact h.values s'
  isConverted := by
    rw [Component.isConverted_store, Component.isConverted_store, h.isConverted]

theorem Alike.put (h : P.Alike c c') {s : Slot} {v v' : s.Value} (hv : P.ValuesMatch s v v') :
    P.Alike (c.put s v) (c'.put s v') where
  values s' := by
    rw [Component.put, Component.put, Component.get_mark, Component.get_mark]
    exact (h.store hv).values s'
  isConverted := by
    rw [Component.isConverted_put, Component.isConverted_put, h.isConverted, isFilled_eq hv]

theorem Alike.apply (h : P.Alike c c') {u u' : Update} (hu : P.UpdatesMatch u u') :
    P.Alike (c.apply u) (c'.apply u') := by
  cases hu with
  | put s hv => exact h.put hv
  | append s hitems => exact h.put (s := .list s) (List.rel_append (h.values (.list s)) hitems)

theorem Alike.applyAll (h : P.Alike c c') {us us' : List Update} (hus : List.Forall₂ P.UpdatesMatch us us') :
    P.Alike (c.applyAll us) (c'.applyAll us') := by
  induction hus generalizing c c' with
  | nil => exact h
  | cons hu _ ih => exact ih (h.apply hu)

theorem Alike.name (h : P.Alike c c') : Pointwise P.read c.name c'.name :=
  h.values .name

theorem Alike.data (h : P.Alike c c') : List.Forall₂ P.FieldsMatch c.data c'.data :=
  h.values (.list .data)

theorem Alike.computed (h : P.Alike c c') : List.Forall₂ P.MethodsMatch c.computed c'.computed :=
  h.values (.list .computed)

theorem Alike.methods (h : P.Alike c c') : List.Forall₂ P.MembersMatch c.methods c'.methods :=
  h.values (.list .methods)

theorem Alike.props (h : P.Alike c c') : List.Forall₂ P.FieldsMatch c.props c'.props :=
  h.values (.list .props)

theorem Alike.watch (h : P.Alike c c') : List.Forall₂ P.WatchersMatch c.watch c'.watch :=
  h.values (.list .watch)

theorem Alike.lifecycleHooks (h : P.Alike c c') :
    List.Forall₂ P.MethodsMatch c.lifecycleHooks c'.lifecycleHooks :=
  h.values (.list .lifecycleHooks)

theorem Alike.registeredNames (h : P.Alike c c') :
    List.Forall₂ P.SameName c.registeredNames c'.registeredNames :=
  h.values (.list .registeredNames)

/-! ## Names of watchers -/

theorem mem_map_iff {α : Type} {R : α → α → Prop} {f : α → Text} {y : Text}
    (hR : ∀ a a', R a a' → (f a' = y ↔ f a = y)) {xs xs' : List α} (h : List.Forall₂ R xs xs') :
    y ∈ xs'.map f ↔ y ∈ xs.map f := by
  induction h with
  | nil => exact Iff.rfl
  | cons hx _ ih =>
    rw [List.map_cons, List.map_cons, List.mem_cons, List.mem_cons, ih, eq_comm, hR _ _ hx, eq_comm]

/-- The same plain names are taken. -/
theorem Alike.mem_memberNames (h : P.Alike c c') {y : Text} (hy : y.IsPlain) :
    y ∈ c'.memberNames ↔ y ∈ c.memberNames := by
  have hmembers : ∀ m m' : Member, P.MembersMatch m m' → (m'.name = y ↔ m.name = y) := by
    rintro _ _ (hf | hm)
    · exact hf.name.plain hy
    · exact hm.name.plain hy
  have hregistered := mem_map_iff (f := id) (fun _ _ hname => hname.plain hy) h.registeredNames
  rw [List.map_id, List.map_id] at hregistered
  simp only [Component.memberNames, List.mem_append]
  refine or_congr (or_congr (or_congr (or_congr (or_congr ?_ ?_) ?_) ?_) ?_) hregistered
  · exact mem_map_iff (fun _ _ hf => hf.name.plain hy) h.data
  · exact mem_map_iff (fun _ _ hm => hm.name.plain hy) h.computed
  · exact mem_map_iff hmembers h.methods
  · exact mem_map_iff (fun _ _ hf => hf.name.plain hy) h.props
  · exact mem_map_iff (fun _ _ hm => hm.name.plain hy) h.lifecycleHooks

variable {digest : Text → Text} {taken taken' : List Text}

/-- Which plain names are taken decides about all candidates. -/
theorem freeCandidate?_eq (hdigest : ∀ t, (digest t).IsPlain)
    (htaken : ∀ {y : Text}, y.IsPlain → (y ∈ taken' ↔ y ∈ taken)) {name : Text} (hname : name.IsPlain)
    (count : Nat) {candidate : Text} (hcandidate : candidate.IsPlain) :
    freeCandidate? digest taken' name count candidate = freeCandidate? digest taken name count candidate := by
  induction count generalizing candidate with
  | zero => rfl
  | succ count ih =>
    have hcontains : taken'.contains candidate = taken.contains candidate := by
      rw [Bool.eq_iff_iff, List.contains_iff_mem, List.contains_iff_mem, htaken hcandidate]
    have hnext : (nextCandidate digest name candidate).IsPlain :=
      (hname.append (by decide)).append (hdigest candidate)
    rw [freeCandidate?, freeCandidate?, hcontains, ih hnext]

theorem isPlain_of_uniqueName? (hdigest : ∀ t, (digest t).IsPlain) {name fresh : Text}
    (hname : name.IsPlain) (h : uniqueName? digest taken name = some fresh) : fresh.IsPlain := by
  rcases freeCandidate?_eq_or h with rfl | ⟨previous, rfl⟩
  · exact hname
  · exact (hname.append (by decide)).append (hdigest previous)

theorem sameName_of_isPlain {y : Text} (hy : y.IsPlain) : P.SameName y y :=
  sameName_of_read (P.plain_self hy)

/-- Watchers that match are renamed alike. -/
theorem rel_renameAll? (hdigest : ∀ t, (digest t).IsPlain) {ms ms' : List Method}
    (h : List.Forall₂ P.WatchersMatch ms ms')
    (htaken : ∀ {y : Text}, y.IsPlain → (y ∈ taken' ↔ y ∈ taken)) :
    Option.Rel (List.Forall₂ P.WatchersMatch) (renameAll? digest taken ms) (renameAll? digest taken' ms') := by
  induction h generalizing taken taken' with
  | nil => exact .some .nil
  | @cons m m' ms ms' hm _ ih =>
    have hname : uniqueName? digest taken' m'.name = uniqueName? digest taken m.name := by
      rw [hm.sameName]
      exact freeCandidate?_eq hdigest htaken hm.isPlain _ hm.isPlain
    rw [renameAll?, renameAll?, hname]
    cases hfresh : uniqueName? digest taken m.name with
    | none => exact .none
    | some fresh =>
      have hplain := isPlain_of_uniqueName? hdigest hm.isPlain hfresh
      have hrest := @ih (fresh :: taken) (fresh :: taken') fun hy => by
        rw [List.mem_cons, List.mem_cons, htaken hy]
      simp only [Option.bind_eq_bind, Option.bind_some]
      generalize renameAll? digest (fresh :: taken) ms = renamed at hrest
      generalize renameAll? digest (fresh :: taken') ms' = renamed' at hrest
      cases hrest with
      | none => exact .none
      | some hrest =>
        refine .some (.cons ?_ hrest)
        exact { hm with name := sameName_of_isPlain hplain, sameName := rfl, isPlain := hplain }

/-- Components that are alike stay so when watchers are renamed, or no name is left for either. -/
theorem Alike.rel_renameWatchers? (h : P.Alike c c') (hdigest : ∀ t, (digest t).IsPlain) :
    Option.Rel P.Alike (c.renameWatchers? digest) (c'.renameWatchers? digest) := by
  have hwatch := rel_renameAll? hdigest h.watch h.mem_memberNames
  unfold Component.renameWatchers?
  generalize renameAll? digest c.memberNames c.watch = watch at hwatch
  generalize renameAll? digest c'.memberNames c'.watch = watch' at hwatch
  cases hwatch with
  | none => exact .none
  | some hwatch =>
    exact .some (h.store (s := .list .watch) hwatch)

end Pairing

end ClassComponent
