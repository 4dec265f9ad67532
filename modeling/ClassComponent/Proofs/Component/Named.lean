import ClassComponent.Proofs.Component.Updates
import ClassComponent.Proofs.Text.Name

/-!
# Storing by name

What storing a value under a name does to a component, for every text as the name. What a name stands for is settled
once (`leadsTo_targetOf`): a slot, an operation, a part of the record that takes other values or none, or nothing.

Names of slots are meant to be the only ones under which something is stored. Names of operations are accepted too:
then no slot changes, but a value that is more than nothing marks the component as converted
(`named_values_stored_iff`).
-/

namespace ClassComponent

theorem Slot.mem_all (s : Slot) : s ∈ Slot.all := by
  cases s with
  | name => decide
  | registry r => cases r <;> decide
  | list s => cases s <;> decide

namespace Component

/-! ## What names stand for -/

/-- A text is the name of a slot. -/
def IsSlotName (name : Text) : Prop :=
  ∃ s : Slot, name = Text.ofString s.label

/-- A text is one of some words. -/
def IsAmong (words : List String) (name : Text) : Prop :=
  ∃ word ∈ words, name = Text.ofString word

/-- What each name stands for. -/
inductive LeadsTo : Text → Except Refusal Target → Prop
  | slot (s : Slot) : LeadsTo s.label (.ok (.slot s))
  | operation {name : Text} (h : IsAmong operationNames name) : LeadsTo name (.ok .operation)
  | layout {name : Text} (h : IsAmong layoutNames name) : LeadsTo name (.error .unsuitable)
  | view {name : Text} (h : IsAmong viewNames name) : LeadsTo name (.error .readOnly)
  | nothing {name : Text} (hslot : ¬IsSlotName name) (hoperation : ¬IsAmong operationNames name)
      (hlayout : ¬IsAmong layoutNames name) (hview : ¬IsAmong viewNames name) : LeadsTo name (.error .unknown)

theorem targetOf_ofString (word : String) : targetOf (Text.ofString word) = target word := by
  rw [targetOf, Text.toString?_ofString]

theorem targetOf_label (s : Slot) : targetOf (Text.ofString s.label) = .ok (.slot s) := by
  have hall : ∀ s ∈ Slot.all, target s.label = .ok (.slot s) := by decide +kernel
  rw [targetOf_ofString, hall s s.mem_all]

/-- Words that all stand for the same do so as texts. -/
theorem targetOf_of_isAmong {words : List String} {found : Except Refusal Target}
    (hall : ∀ word ∈ words, target word = found) {name : Text} (h : IsAmong words name) :
    targetOf name = found := by
  obtain ⟨word, hword, rfl⟩ := h
  rw [targetOf_ofString, hall word hword]

theorem targetOf_operation {name : Text} (h : IsAmong operationNames name) : targetOf name = .ok .operation :=
  targetOf_of_isAmong (by decide +kernel) h

theorem targetOf_layout {name : Text} (h : IsAmong layoutNames name) : targetOf name = .error .unsuitable :=
  targetOf_of_isAmong (by decide +kernel) h

theorem targetOf_view {name : Text} (h : IsAmong viewNames name) : targetOf name = .error .readOnly :=
  targetOf_of_isAmong (by decide +kernel) h

theorem targetOf_nothing {name : Text} (hslot : ¬IsSlotName name) (hoperation : ¬IsAmong operationNames name)
    (hlayout : ¬IsAmong layoutNames name) (hview : ¬IsAmong viewNames name) : targetOf name = .error .unknown := by
  rw [targetOf]
  cases hword : name.toString? with
  | none => rfl
  | some word =>
    rw [Text.toString?_eq_some_iff] at hword
    have hlabel : Slot.ofLabel? word = none := by
      rw [Slot.ofLabel?, List.find?_eq_none]
      intro s _ heq
      exact hslot ⟨s, by rw [beq_iff_eq.mp heq, hword]⟩
    have hnot : ∀ words, ¬IsAmong words name → ¬(words.contains word = true) := fun words h hmem =>
      h ⟨word, List.contains_iff_mem.mp hmem, hword⟩
    simp only [target, hlabel, if_neg (hnot _ hoperation), if_neg (hnot _ hlayout), if_neg (hnot _ hview)]

theorem leadsTo_targetOf (name : Text) : LeadsTo name (targetOf name) := by
  by_cases hslot : IsSlotName name
  · obtain ⟨s, rfl⟩ := hslot
    rw [targetOf_label]
    exact .slot s
  by_cases hoperation : IsAmong operationNames name
  · rw [targetOf_operation hoperation]
    exact .operation hoperation
  by_cases hlayout : IsAmong layoutNames name
  · rw [targetOf_layout hlayout]
    exact .layout hlayout
  by_cases hview : IsAmong viewNames name
  · rw [targetOf_view hview]
    exact .view hview
  · rw [targetOf_nothing hslot hoperation hlayout hview]
    exact .nothing hslot hoperation hlayout hview

theorem leadsTo_iff {name : Text} {found : Except Refusal Target} : LeadsTo name found ↔ targetOf name = found := by
  constructor
  · intro h
    cases h with
    | slot s => exact targetOf_label s
    | operation hmem => exact targetOf_operation hmem
    | layout hmem => exact targetOf_layout hmem
    | view hmem => exact targetOf_view hmem
    | nothing hslot hoperation hlayout hview => exact targetOf_nothing hslot hoperation hlayout hview
  · rintro rfl
    exact leadsTo_targetOf name

/-! ## What is stored -/

section

variable {c : Component} {name : Text} {given : Given}

theorem putNamed_slot (s : Slot) : c.putNamed s.label given = (c.put s (given.value s), none) := by
  rw [putNamed, targetOf_label]

theorem putNamed_operation (h : IsAmong operationNames name) :
    c.putNamed name given = (c.mark given.isFilled, none) := by
  rw [putNamed, targetOf_operation h]

theorem putNamed_refused {refusal : Refusal} (h : LeadsTo name (.error refusal)) :
    c.putNamed name given = (c, some refusal) := by
  rw [putNamed, leadsTo_iff.mp h]

/-- A refusal is what the name leads to. -/
theorem putNamed_eq_some_iff {refusal : Refusal} :
    (c.putNamed name given).2 = some refusal ↔ LeadsTo name (.error refusal) := by
  constructor
  · intro h
    have hleads := leadsTo_targetOf name
    cases hfound : targetOf name with
    | ok found =>
      cases found <;> simp [putNamed, hfound] at h
    | error refusal' =>
      rw [hfound] at hleads
      rw [putNamed_refused hleads] at h
      exact Option.some.inj h ▸ hleads
  · intro h
    rw [putNamed_refused h]

/-- Something is stored exactly if the name is that of a slot or of an operation. -/
theorem putNamed_eq_none_iff :
    (c.putNamed name given).2 = none ↔ IsSlotName name ∨ IsAmong operationNames name := by
  constructor
  · intro h
    have hleads := leadsTo_targetOf name
    cases hfound : targetOf name with
    | error refusal =>
      rw [hfound] at hleads
      rw [putNamed_refused hleads] at h
      cases h
    | ok found =>
      rw [hfound] at hleads
      cases hleads with
      | slot s => exact .inl ⟨s, rfl⟩
      | operation hmem => exact .inr hmem
  · rintro (⟨s, rfl⟩ | hmem)
    · rw [putNamed_slot]
    · rw [putNamed_operation hmem]

/-- A refusal changes nothing. -/
theorem putNamed_fst_of_refused (h : (c.putNamed name given).2 ≠ none) : (c.putNamed name given).1 = c := by
  obtain ⟨refusal, hrefusal⟩ := Option.ne_none_iff_exists'.mp h
  rw [putNamed_refused (putNamed_eq_some_iff.mp hrefusal)]

/-- What stands for anything else is not the name of a slot. -/
theorem not_isSlotName {found : Except Refusal Target} (h : targetOf name = found)
    (hne : ∀ s, found ≠ .ok (.slot s)) : ¬IsSlotName name := by
  rintro ⟨s, rfl⟩
  exact hne s (h.symm.trans (targetOf_label s))

end

/-- The names of what a component holds besides its slots. -/
def fixedNames : List String :=
  ["is_conversion_required", "line_break_marker"]

/-- Whether a refusal is about the name and not about the value. -/
def Refusal.isOfName : Refusal → Bool
  | .unsuitable => false
  | _ => true

/-- A value is stored under a name as it should be: only names of slots are accepted, and any other name is refused for
itself and leaves the component as it is. -/
def StoresSlotsOnly (c : Component) (name : Text) (given : Given) : Prop :=
  ((c.putNamed name given).2 = none ↔ IsSlotName name) ∧
    (¬IsSlotName name → (c.putNamed name given).2.any Refusal.isOfName ∧ (c.putNamed name given).1 = c)

/-- **Storing by name accepts slots and operations.** For every component, every name and every value: something is
stored exactly if the name is that of a slot or of an operation. Under the name of a slot, nothing changes but that slot
and the mark of a converted component. Under the name of an operation no slot changes, and the component is marked if
the value is more than nothing. Under any other name nothing changes, and the refusal says why. So only slots are
accepted, and other names refused for themselves, exactly if the name is neither that of an operation nor that of
a part of the record. -/
theorem named_values_stored_iff (c : Component) (name : Text) (given : Given) :
    ((c.putNamed name given).2 = none ↔ IsSlotName name ∨ IsAmong operationNames name) ∧
      (∀ s : Slot, name = Text.ofString s.label →
        (c.putNamed name given).1.get s = given.value s ∧
        (∀ s', s' ≠ s → (c.putNamed name given).1.get s' = c.get s') ∧
        (c.putNamed name given).1.marker = c.marker ∧
        (c.putNamed name given).1.isConverted =
          (c.isConverted || (s.isConverting && s.isFilled (given.value s)))) ∧
      (IsAmong operationNames name →
        (c.putNamed name given).1 = { c with isConverted := c.isConverted || given.isFilled }) ∧
      ((c.putNamed name given).2 ≠ none → (c.putNamed name given).1 = c) ∧
      ((c.putNamed name given).2 = some .unsuitable ↔ IsAmong layoutNames name) ∧
      ((c.putNamed name given).2 = some .readOnly ↔ IsAmong viewNames name) ∧
      (IsAmong fixedNames name → (c.putNamed name given).2 = some .unknown) ∧
      (c.StoresSlotsOnly name given ↔ ¬IsAmong operationNames name ∧ ¬IsAmong layoutNames name) := by
  refine ⟨putNamed_eq_none_iff, ?_, ?_, putNamed_fst_of_refused, ?_, ?_, ?_, ?_⟩
  · rintro s rfl
    rw [putNamed_slot]
    refine ⟨?_, fun s' hne => ?_, marker_apply c (.put s (given.value s)), isConverted_put c s _⟩
    · rw [put, get_mark, get_store_self]
    · rw [put, get_mark, get_store_of_ne c hne.symm]
  · intro h
    rw [putNamed_operation h]
    rfl
  · rw [putNamed_eq_some_iff]
    refine ⟨fun h => ?_, .layout⟩
    cases h with
    | layout hmem => exact hmem
  · rw [putNamed_eq_some_iff]
    refine ⟨fun h => ?_, .view⟩
    cases h with
    | view hmem => exact hmem
  · intro h
    have hall : ∀ word ∈ fixedNames, target word = .error .unknown := by decide +kernel
    rw [putNamed_eq_some_iff, leadsTo_iff, targetOf_of_isAmong hall h]
  · constructor
    · rintro ⟨hstored, hrefused⟩
      constructor
      · intro h
        exact not_isSlotName (targetOf_operation h) (by simp) (hstored.mp (putNamed_eq_none_iff.mpr (.inr h)))
      · intro h
        have hname := (hrefused (not_isSlotName (targetOf_layout h) (by simp))).1
        rw [putNamed_refused (.layout h)] at hname
        cases hname
    · rintro ⟨hoperation, hlayout⟩
      have hstored : (c.putNamed name given).2 = none ↔ IsSlotName name := by
        rw [putNamed_eq_none_iff, or_iff_left hoperation]
      refine ⟨hstored, fun hslot => ⟨?_, putNamed_fst_of_refused (mt hstored.mp hslot)⟩⟩
      by_cases hview : IsAmong viewNames name
      · rw [putNamed_refused (.view hview)]
        rfl
      · rw [putNamed_refused (.nothing hslot hoperation hlayout hview)]
        rfl

/-- The text `x` as it is given with a name. -/
def givenText : Given where
  value
    | .name => "x"
    | .registry _ => some "x"
    | .list _ => []
  isFilled := true

theorem isAmong_get : IsAmong operationNames "get" :=
  ⟨"get", by decide, rfl⟩

/-- A text stored under the name of an operation is accepted and marks a component that holds nothing, so that not only
slots are stored. -/
theorem stored_under_operation :
    ¬IsSlotName "get" ∧ (putNamed {} "get" givenText).2 = none ∧
      (putNamed {} "get" givenText).1 = { isConverted := true } ∧ ¬StoresSlotsOnly {} "get" givenText := by
  obtain ⟨hstored, -, hmarked, -, -, -, -, honly⟩ := named_values_stored_iff {} "get" givenText
  exact ⟨not_isSlotName (targetOf_operation isAmong_get) (by simp), hstored.mpr (.inr isAmong_get), hmarked isAmong_get,
    fun h => (honly.mp h).1 isAmong_get⟩

end Component

end ClassComponent
