import ClassComponent.Proofs.Render.Keys
import ClassComponent.Proofs.Script.Name

/-!
# Initializers

Members of the data object, and members of `methods` that hold no function, become fields with an initializer.

* **Values** (`Situation.Declares.initializer`): the initializer is the text of the value. A member in shorthand has
  the name of its field instead.
* **Shorthand** (`initializers_kept_iff`): the name of the field is a rendered key. It is the identifier that stands in
  the script exactly if that is made of ASCII characters and has no escape. Other identifiers turn into a string, or
  into what their escapes stand for.
-/

namespace ClassComponent

open Text Script

namespace Situation

variable {s : Situation} {tree entry : Tree} {f : Field}

/-! ## Where initializers come from -/

/-- Whether an entry of the script becomes a field: a member of the object that the data function returns, or a member
of `methods` that holds no function. -/
inductive Declares (s : Situation) (tree : Tree) : Tree → Field → Prop
  | data {option entry : Tree} {f : Field} (hoption : (.data, option) ∈ scriptOptions s.origin tree)
      (hentry : entry ∈ ((s.returnedObject option).get "properties").items) (hread : s.dataField entry = .ok f) :
    s.Declares tree entry f
  | method {entry : Tree} {f : Field} (hentry : entry ∈ optionEntries .methods s.origin tree)
      (hread : s.methodMember entry = .ok (.field f)) :
    s.Declares tree entry f

theorem Declares.eq_privateField (h : s.Declares tree entry f) : f = s.privateField entry := by
  cases h with
  | data _ _ hread => exact dataField_eq_ok hread
  | method _ hread =>
    rcases methodMember_eq_ok hread with ⟨form, hmethod⟩ | hfield
    · cases hmethod
    · exact Member.field.inj hfield

theorem Declares.initializer (h : s.Declares tree entry f) :
    f.initializer? = some (if entry.has "shorthand" then f.name else s.text (entry.get "value")) := by
  rw [h.eq_privateField]
  rfl

/-- A member in shorthand as it is read: its key is a name, and its value is the identifier that is written. -/
structure IsShorthand (s : Situation) (entry : Tree) (written : List Char) (name : Text) : Prop where
  shorthand : entry.has "shorthand" = true
  static : entry.has "computed" = false
  key_kind : (entry.get "key").kind = "Identifier"
  key : (entry.get "key").staticKey? = some name
  value : s.text (entry.get "value") = ofChars written
  spells : Spells written name

instance (s : Situation) (entry : Tree) (written : List Char) (name : Text) :
    Decidable (s.IsShorthand entry written name) :=
  decidable_of_iff
    (entry.has "shorthand" = true ∧ entry.has "computed" = false ∧ (entry.get "key").kind = "Identifier" ∧
      (entry.get "key").staticKey? = some name ∧ s.text (entry.get "value") = ofChars written ∧
      Spells written name)
    ⟨fun ⟨h₁, h₂, h₃, h₄, h₅, h₆⟩ => ⟨h₁, h₂, h₃, h₄, h₅, h₆⟩,
      fun ⟨h₁, h₂, h₃, h₄, h₅, h₆⟩ => ⟨h₁, h₂, h₃, h₄, h₅, h₆⟩⟩

theorem Declares.initializer_shorthand (h : s.Declares tree entry f) {written : List Char} {name : Text}
    (hshort : s.IsShorthand entry written name) : f.initializer? = some (propertyName name) := by
  have hkey : s.origin.nameText (entry.get "key") = name := by
    rcases Origin.staticKey?_cases hshort.key with ⟨-, hname⟩ | ⟨hnumber, -⟩
    · exact hname
    · simp [Tree.isNumber, hshort.key_kind] at hnumber
  rw [h.initializer, if_pos hshort.shorthand, h.eq_privateField]
  show some (propertyName (s.origin.memberName entry)) = _
  rw [Origin.memberName_of_static hshort.static, hkey]

end Situation

/-- **Initializers are kept but for identifiers in shorthand.** Fields are declared by entries of the script. An entry
with a value of its own gives the field the text of this value as initializer. An entry in shorthand gives it the name
of the field, which is the identifier as it is written exactly if that is made of ASCII characters and has no escape.
It is a string exactly if the identifier, its escapes read, is neither taken for one nor for an expression in
brackets. -/
theorem initializers_kept_iff {script : Text} {tree : Tree} {file : Text} {keepsUnsupported : Bool}
    {c : Component} {events : List Event}
    (h : Component.ofScript script tree file keepsUnsupported = .ok (c, events)) :
    ∃ origin, Origin.of? script (tree.get "tokens").items = some origin ∧
      let s : Situation := ⟨origin, file, keepsUnsupported⟩
      (∀ f, f ∈ c.data ∨ .field f ∈ c.methods → ∃ entry, s.Declares tree entry f) ∧
      ∀ entry f, s.Declares tree entry f →
        (entry.has "shorthand" = false → f.initializer? = some (s.text (entry.get "value"))) ∧
        (entry.has "shorthand" = true → f.initializer? = some f.name) ∧
        ∀ written name, s.IsShorthand entry written name →
          (f.initializer? = some (s.text (entry.get "value")) ↔ (s.text (entry.get "value")).isName) ∧
          ((∃ t, f.initializer? = some (quote t)) ↔ name.isIdentifier = false ∧ name.isBracketed = false) := by
  obtain ⟨origin, ho, -⟩ := Component.ofScript_eq_ok h
  refine ⟨origin, ho, fun f hf => ?_, fun entry f hf => ⟨fun hvalue => ?_, fun hshort => ?_, ?_⟩⟩
  · rcases hf with hdata | hmethod
    · obtain ⟨option, entry, hoption, hentry, hread⟩ := Component.ofScript_keyed h ho .data f hdata
      exact ⟨entry, .data hoption hentry hread⟩
    · obtain ⟨entry, hentry, hread⟩ := Component.exists_entry_of_mem_methods h ho hmethod
      exact ⟨entry, .method hentry hread⟩
  · simp [hf.initializer, hvalue]
  · simp [hf.initializer, hshort]
  · intro written name hshort
    simp only [hf.initializer_shorthand hshort, hshort.value, Option.some.injEq]
    exact ⟨hshort.spells.propertyName_eq_iff, propertyName_quoted_iff⟩

/-- A script with three identifiers in shorthand, the first with an accent and the last with an escape, and a value. -/
def shorthands : String :=
  "export default \x7b\n  data() \x7b return \x7b é, b, \\u0063, d: [1] \x7d; \x7d,\n\x7d;\n"

/-- The first becomes a string, and the escape of the third is read. -/
theorem initializers_of_shorthands :
    ∃ tree c events origin, Script.parse shorthands true = .ok tree ∧
      Component.ofScript shorthands tree "" true = .ok (c, events) ∧
      Origin.of? shorthands (tree.get "tokens").items = some origin ∧
      c.data.map Field.initializer? =
        [some (Text.ofString "\"\\u00e9\""), some (Text.ofString "b"), some (Text.ofString "c"),
          some (Text.ofString "[1]")] ∧
      let s : Situation := ⟨origin, "", true⟩
      (∃ entry f, s.Declares tree entry f ∧ s.IsShorthand entry ['é'] "é" ∧
        f.initializer? ≠ some (s.text (entry.get "value")) ∧ ∃ t, f.initializer? = some (quote t)) ∧
      (∃ entry f, s.Declares tree entry f ∧ s.IsShorthand entry ['b'] "b" ∧
        f.initializer? = some (s.text (entry.get "value"))) ∧
      (∃ entry f, s.Declares tree entry f ∧ s.IsShorthand entry ['\\', 'u', '0', '0', '6', '3'] "c" ∧
        f.initializer? ≠ some (s.text (entry.get "value")) ∧ ¬ ∃ t, f.initializer? = some (quote t)) ∧
      ∃ entry f, s.Declares tree entry f ∧ entry.has "shorthand" = false ∧
        f.initializer? = some (s.text (entry.get "value")) := by
  have hread : (readScript? shorthands).any (fun (_, c) => c.data.map Field.initializer? =
      [some (Text.ofString "\"\\u00e9\""), some (Text.ofString "b"), some (Text.ofString "c"),
        some (Text.ofString "[1]")]) = true := by
    decide +kernel
  have hsole : (soleOption? shorthands).any (fun (_, origin, option) =>
      let s : Situation := ⟨origin, "", true⟩
      let entries := ((s.returnedObject option.2).get "properties").items
      option.1 = .data ∧ (∀ entry ∈ entries, (s.dataField entry).toOption.isSome) ∧
        (∃ entry ∈ entries, s.IsShorthand entry ['é'] "é") ∧ (∃ entry ∈ entries, s.IsShorthand entry ['b'] "b") ∧
        (∃ entry ∈ entries, s.IsShorthand entry ['\\', 'u', '0', '0', '6', '3'] "c") ∧
        ∃ entry ∈ entries, entry.has "shorthand" = false) = true := by
    decide +kernel
  obtain ⟨⟨tree, c⟩, hscript, hinitializers⟩ := (Option.any_eq_true _ _).mp hread
  obtain ⟨htree, events, hc⟩ := ofScript_of_readScript? hscript
  obtain ⟨⟨tree', origin, kind, option⟩, hoption, hvalues⟩ := (Option.any_eq_true _ _).mp hsole
  obtain ⟨htree', ho, hoptions⟩ := of_soleOption? hoption
  cases htree.symm.trans htree'
  obtain ⟨rfl, hfields, ⟨accented, ha, hshorta⟩, ⟨plain, hb, hshortb⟩, ⟨escaped, he, hshorte⟩, valued, hv, hvalued⟩ :=
    of_decide_eq_true hvalues
  obtain ⟨origin', ho', -, hkept⟩ := initializers_kept_iff hc
  cases ho.symm.trans ho'
  have hdeclares {entry : Tree}
      (hentry : entry ∈ ((Situation.returnedObject ⟨origin, "", true⟩ option).get "properties").items) :
      ∃ f, Situation.Declares ⟨origin, "", true⟩ tree entry f := by
    obtain ⟨f, hf⟩ := Option.isSome_iff_exists.mp (hfields entry hentry)
    exact ⟨f, .data (hoptions ▸ List.mem_singleton_self _) hentry (eq_ok_of_toOption hf)⟩
  refine ⟨tree, c, events, origin, htree, hc, ho, of_decide_eq_true hinitializers, ?_, ?_, ?_, ?_⟩
  · obtain ⟨f, hf⟩ := hdeclares ha
    have hrule := (hkept _ _ hf).2.2 _ _ hshorta
    exact ⟨accented, f, hf, hshorta, mt hrule.1.mp (by rw [hshorta.value]; decide), hrule.2.mpr (by decide)⟩
  · obtain ⟨f, hf⟩ := hdeclares hb
    have hrule := (hkept _ _ hf).2.2 _ _ hshortb
    exact ⟨plain, f, hf, hshortb, hrule.1.mpr (by rw [hshortb.value]; decide)⟩
  · obtain ⟨f, hf⟩ := hdeclares he
    have hrule := (hkept _ _ hf).2.2 _ _ hshorte
    exact ⟨escaped, f, hf, hshorte, mt hrule.1.mp (by rw [hshorte.value]; decide), mt hrule.2.mp (by decide)⟩
  · obtain ⟨f, hf⟩ := hdeclares hv
    exact ⟨valued, f, hf, hvalued, (hkept _ _ hf).1 hvalued⟩

end ClassComponent
