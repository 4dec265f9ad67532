import ClassComponent.Proofs.Component.Slots

/-!
# Changes one by one

A change stores one value in one slot (`Component.apply_eq_put`): the slot is `Update.slot`, and the value
depends on nothing but what that slot holds (`Update.stored`). Hence

* changes of different slots can be made in either order (`Component.applyAll_comm`);
* a slot that converts nothing can be emptied before changes or after them, if changes of that slot are
  left out (`Component.applyAll_clear`).
-/

namespace ClassComponent

/-! ## The slot and the value of a change -/

namespace Update

/-- The slot that a change writes. -/
def slot : Update → Slot
  | .put s _ => s
  | .append s _ => .list s

/-- The value that a change stores in a component. -/
def stored (c : Component) : (u : Update) → u.slot.Value
  | .put _ value => value
  | .append s items => c.getList s ++ items

end Update

namespace Component

theorem apply_eq_put (c : Component) (u : Update) : c.apply u = c.put u.slot (u.stored c) := by
  cases u <;> rfl

theorem applyAll_append (c : Component) (us vs : List Update) :
    c.applyAll (us ++ vs) = (c.applyAll us).applyAll vs :=
  List.foldl_append

@[simp]
theorem isConverted_store (c : Component) (s : Slot) (value : s.Value) :
    (c.store s value).isConverted = c.isConverted := by
  cases s with
  | name => rfl
  | registry r => cases r <;> rfl
  | list s => cases s <;> rfl

theorem isConverted_put (c : Component) (s : Slot) (value : s.Value) :
    (c.put s value).isConverted = (c.isConverted || (s.isConverting && s.isFilled value)) := by
  rw [put, mark, isConverted_store]

@[simp]
theorem get_mark (c : Component) (converts : Bool) (s : Slot) : (c.mark converts).get s = c.get s := by
  cases s with
  | name => rfl
  | registry r => cases r <;> rfl
  | list s => cases s <;> rfl

@[simp]
theorem get_store_self (c : Component) (s : Slot) (value : s.Value) :
    (c.store s value).get s = value := by
  cases s with
  | name => rfl
  | registry r => cases r <;> rfl
  | list s => cases s <;> rfl

theorem get_store_of_ne (c : Component) {s s' : Slot} (h : s' ≠ s) (value : s'.Value) :
    (c.store s' value).get s = c.get s := by
  cases s with
  | name => cases s' with
    | name => exact absurd rfl h
    | registry r => cases r <;> rfl
    | list s' => cases s' <;> rfl
  | registry r => cases s' with
    | name => cases r <;> rfl
    | registry r' => cases r <;> cases r' <;> first | rfl | exact absurd rfl h
    | list s' => cases r <;> cases s' <;> rfl
  | list s => exact getList_store_of_ne c h value

/-! ## Changes of different slots -/

theorem store_mark (c : Component) (converts : Bool) (s : Slot) (value : s.Value) :
    (c.mark converts).store s value = (c.store s value).mark converts := by
  cases s with
  | name => rfl
  | registry r => cases r <;> rfl
  | list s => cases s <;> rfl

theorem mark_mark_comm (c : Component) (a b : Bool) : (c.mark a).mark b = (c.mark b).mark a := by
  simp only [mark, Bool.or_right_comm c.isConverted a b]

theorem store_comm (c : Component) {s s' : Slot} (h : s ≠ s') (value : s.Value) (value' : s'.Value) :
    (c.store s value).store s' value' = (c.store s' value').store s value := by
  cases s with
  | name => cases s' with
    | name => exact absurd rfl h
    | registry r' => cases r' <;> rfl
    | list l' => cases l' <;> rfl
  | registry r => cases s' with
    | name => cases r <;> rfl
    | registry r' => cases r <;> cases r' <;> first | rfl | exact absurd rfl h
    | list l' => cases r <;> cases l' <;> rfl
  | list l => cases s' with
    | name => cases l <;> rfl
    | registry r' => cases l <;> cases r' <;> rfl
    | list l' => cases l <;> cases l' <;> first | rfl | exact absurd rfl h

theorem put_comm (c : Component) {s s' : Slot} (h : s ≠ s') (value : s.Value) (value' : s'.Value) :
    (c.put s value).put s' value' = (c.put s' value').put s value := by
  simp only [put, store_mark]
  rw [store_comm c h, mark_mark_comm]

/-- What a change stores does not depend on other slots. -/
theorem stored_put_of_ne {u : Update} {s : Slot} (h : s ≠ u.slot) (c : Component) (value : s.Value) :
    u.stored (c.put s value) = u.stored c := by
  cases u with
  | put s' value' => rfl
  | append s' items => exact congrArg (· ++ items) (getList_put_of_ne c h value)

theorem apply_comm {u v : Update} (h : u.slot ≠ v.slot) (c : Component) :
    (c.apply u).apply v = (c.apply v).apply u := by
  rw [apply_eq_put c u, apply_eq_put c v, apply_eq_put _ u, apply_eq_put _ v, stored_put_of_ne h,
    stored_put_of_ne h.symm, put_comm c h]

theorem applyAll_apply_comm {u : Update} {vs : List Update} (h : ∀ v ∈ vs, u.slot ≠ v.slot)
    (c : Component) : (c.apply u).applyAll vs = (c.applyAll vs).apply u := by
  induction vs generalizing c with
  | nil => rfl
  | cons v vs ih =>
    have hv := apply_comm (h v List.mem_cons_self) c
    have hvs := ih (fun w hw => h w (List.mem_cons_of_mem v hw)) (c.apply v)
    simp only [applyAll, List.foldl_cons] at hvs ⊢
    rw [hv, hvs]

/-- Changes of some slots and changes of other slots can be made in either order. -/
theorem applyAll_comm {us vs : List Update} (h : ∀ u ∈ us, ∀ v ∈ vs, u.slot ≠ v.slot)
    (c : Component) : (c.applyAll us).applyAll vs = (c.applyAll vs).applyAll us := by
  induction us generalizing c with
  | nil => rfl
  | cons u us ih =>
    have hus := ih (fun w hw => h w (List.mem_cons_of_mem u hw)) (c.apply u)
    have hu := applyAll_apply_comm (h u List.mem_cons_self) c
    simp only [applyAll, List.foldl_cons] at hus hu ⊢
    rw [hus, hu]

/-! ## Emptying a slot -/

/-- The component with nothing in a slot that holds a list. -/
def clear (c : Component) (s : ListSlot) : Component :=
  c.store (.list s) []

theorem store_store_self (c : Component) (s : Slot) (value value' : s.Value) :
    (c.store s value).store s value' = c.store s value' := by
  cases s with
  | name => rfl
  | registry r => cases r <;> rfl
  | list s => cases s <;> rfl

/-- Nothing but its own slot shows a change that converts nothing. -/
theorem clear_apply_self {s : ListSlot} (hs : (Slot.list s).isConverting = false) {u : Update}
    (h : u.slot = .list s) (c : Component) : (c.apply u).clear s = c.clear s := by
  have hput : ∀ value : List s.Item, (c.put (.list s) value).clear s = c.clear s := by
    intro value
    have hmark : ((c.store (.list s) value).mark false).store (.list s) [] = c.store (.list s) [] := by
      rw [store_mark, store_store_self, mark, Bool.or_false]
    rw [put, hs, Bool.false_and]
    exact hmark
  cases u with
  | put s' value =>
    cases h
    exact hput value
  | append s' items =>
    cases h
    exact hput _

theorem clear_apply_of_ne {s : ListSlot} {u : Update} (h : u.slot ≠ .list s) (c : Component) :
    (c.apply u).clear s = (c.clear s).apply u := by
  have hstored : u.stored (c.clear s) = u.stored c := by
    cases u with
    | put s' value => rfl
    | append s' items => exact congrArg (· ++ items) (getList_store_of_ne c h.symm [])
  rw [apply_eq_put, apply_eq_put, hstored, clear, put, put, store_mark, store_comm c h, clear]

/-- Emptying a slot that converts nothing undoes all changes of it, and no others. -/
theorem applyAll_clear {s : ListSlot} (hs : (Slot.list s).isConverting = false) (us : List Update)
    (c : Component) :
    (c.applyAll us).clear s = (c.clear s).applyAll (us.filter (·.slot ≠ .list s)) := by
  induction us generalizing c with
  | nil => rfl
  | cons u us ih =>
    rw [applyAll, List.foldl_cons, ← applyAll, ih]
    by_cases hu : u.slot = .list s
    · rw [clear_apply_self hs hu, List.filter_cons_of_neg (by simpa using hu)]
    · rw [clear_apply_of_ne hu, List.filter_cons_of_pos (by simpa using hu)]
      rfl

end Component

end ClassComponent
