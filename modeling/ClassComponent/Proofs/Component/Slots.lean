import ClassComponent.Convert.Finding

/-!
# What changes do to the slots of a component

A change writes one slot and leaves the others alone. Two things follow for any number of changes:

* a property of the items of each slot that all changes respect is kept (`Every`);
* a slot that is only ever added to holds what it held, and then all that was added (`added`).

Findings only collect changes, so both notions carry over to them.
-/

namespace ClassComponent

namespace Component

/-! ## One slot -/

@[simp]
theorem getList_mark (c : Component) (converts : Bool) (s : ListSlot) :
    (c.mark converts).getList s = c.getList s := by
  cases s <;> rfl

@[simp]
theorem getList_store_self (c : Component) (s : ListSlot) (items : List s.Item) :
    (c.store (.list s) items).getList s = items := by
  cases s <;> rfl

theorem getList_store_of_ne (c : Component) {slot : Slot} {s : ListSlot} (h : slot ≠ .list s)
    (value : slot.Value) : (c.store slot value).getList s = c.getList s := by
  cases slot with
  | name => cases s <;> rfl
  | registry r => cases r <;> cases s <;> rfl
  | list s' => cases s' <;> cases s <;> first | rfl | exact absurd rfl h

theorem getList_put_self (c : Component) (s : ListSlot) (items : List s.Item) :
    (c.put (.list s) items).getList s = items := by
  rw [put, getList_mark, getList_store_self]

theorem getList_put_of_ne (c : Component) {slot : Slot} {s : ListSlot} (h : slot ≠ .list s)
    (value : slot.Value) : (c.put slot value).getList s = c.getList s := by
  rw [put, getList_mark, getList_store_of_ne c h]

/-- No change touches what stands for line breaks. -/
theorem marker_apply (c : Component) (u : Update) : (c.apply u).marker = c.marker := by
  have hput : ∀ (slot : Slot) (value : slot.Value), (c.put slot value).marker = c.marker := by
    intro slot value
    cases slot with
    | name => rfl
    | registry r => cases r <;> rfl
    | list s => cases s <;> rfl
  cases u with
  | put slot value => exact hput slot value
  | append s items => exact hput (.list s) _

theorem marker_applyAll (c : Component) (updates : List Update) :
    (c.applyAll updates).marker = c.marker := by
  induction updates generalizing c with
  | nil => rfl
  | cons u updates ih => exact (ih (c.apply u)).trans (marker_apply c u)

end Component

/-! ## A property of all items -/

/-- Whether all items of the component's list slots have a property. -/
def Component.Every (P : (s : ListSlot) → s.Item → Prop) (c : Component) : Prop :=
  ∀ s, ∀ item ∈ c.getList s, P s item

/-- Whether all items that a change stores have a property. -/
def Update.Every (P : (s : ListSlot) → s.Item → Prop) : Update → Prop
  | .put (.list s) items => ∀ item ∈ items, P s item
  | .put .name _ => True
  | .put (.registry _) _ => True
  | .append s items => ∀ item ∈ items, P s item

theorem Component.Every.put {P : (s : ListSlot) → s.Item → Prop} {c : Component} (hc : c.Every P)
    {slot : Slot} {value : slot.Value} (hv : (Update.put slot value).Every P) :
    (c.put slot value).Every P := by
  intro s item hitem
  by_cases h : slot = .list s
  · subst h
    rw [getList_put_self] at hitem
    exact hv item hitem
  · rw [getList_put_of_ne c h] at hitem
    exact hc s item hitem

theorem Component.Every.apply {P : (s : ListSlot) → s.Item → Prop} {c : Component} (hc : c.Every P)
    {u : Update} (hu : u.Every P) : (c.apply u).Every P := by
  cases u with
  | put slot value => exact hc.put hu
  | append s items =>
    apply hc.put
    intro item hitem
    rcases List.mem_append.mp hitem with h | h
    · exact hc s item h
    · exact hu item h

theorem Component.Every.applyAll {P : (s : ListSlot) → s.Item → Prop} {updates : List Update}
    (hu : ∀ u ∈ updates, u.Every P) {c : Component} (hc : c.Every P) :
    (c.applyAll updates).Every P := by
  induction updates generalizing c with
  | nil => exact hc
  | cons u updates ih =>
    exact ih (fun v hv => hu v (List.mem_cons_of_mem u hv)) (hc.apply (hu u List.mem_cons_self))

/-! ## A slot that only grows -/

namespace Update

/-- The items that a change adds to a slot. -/
def added : Update → (s : ListSlot) → List s.Item
  | .put _ _, _ => []
  | .append s' items, s => if h : s' = s then h ▸ items else []

/-- Whether a change does not replace what a slot holds. -/
def Keeps (s : ListSlot) : Update → Prop
  | .put slot _ => slot ≠ .list s
  | .append _ _ => True

end Update

theorem Component.getList_apply {s : ListSlot} {u : Update} (h : u.Keeps s) (c : Component) :
    (c.apply u).getList s = c.getList s ++ u.added s := by
  cases u with
  | put slot value => rw [apply, getList_put_of_ne c h, Update.added, List.append_nil]
  | append s' items =>
    rw [apply, append, Update.added]
    by_cases hs : s' = s
    · subst hs
      rw [getList_put_self, dif_pos rfl]
    · rw [getList_put_of_ne c (by simpa using hs), dif_neg hs, List.append_nil]

theorem Component.getList_applyAll {s : ListSlot} {updates : List Update}
    (h : ∀ u ∈ updates, u.Keeps s) (c : Component) :
    (c.applyAll updates).getList s = c.getList s ++ updates.flatMap (·.added s) := by
  induction updates generalizing c with
  | nil => exact (List.append_nil _).symm
  | cons u updates ih =>
    rw [applyAll, List.foldl_cons, ← applyAll, ih (fun v hv => h v (List.mem_cons_of_mem u hv)),
      getList_apply (h u List.mem_cons_self), List.append_assoc, List.flatMap_cons]

/-! ## Findings -/

namespace Finding

@[simp]
theorem updates_append (a b : Finding) : (a ++ b).updates = a.updates ++ b.updates := rfl

@[simp]
theorem updates_warning (d : Diagnostic) : (warning d).updates = [] := rfl

@[simp]
theorem updates_change (u : Update) : (change u).updates = [u] := rfl

@[simp]
theorem updates_concat (findings : List Finding) :
    (concat findings).updates = findings.flatMap (·.updates) := rfl

@[simp]
theorem updates_ofEntries (s : ListSlot) (results : List (Except Diagnostic s.Item)) :
    (ofEntries s results).updates = [.put (.list s) (items results)] := rfl

end Finding

theorem mem_items {α : Type} {results : List (Except Diagnostic α)} {item : α} :
    item ∈ items results ↔ .ok item ∈ results := by
  rw [items, List.mem_filterMap]
  constructor
  · rintro ⟨result, hmem, h⟩
    cases result with
    | ok _ =>
      cases h
      exact hmem
    | error _ => cases h
  · exact fun hmem => ⟨.ok item, hmem, rfl⟩

end ClassComponent
