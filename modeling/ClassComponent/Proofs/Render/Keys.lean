import ClassComponent.Proofs.Convert.Accessors
import ClassComponent.Proofs.Convert.Pairing
import ClassComponent.Proofs.Render.Members
import ClassComponent.Proofs.Text.Key

/-!
# Keys of members

The members of a class are named after the keys of object members, and after the strings in lists.

* **Where names come from** (`Situation.Names`): which key each member of the class is named after. No other names
  are given (`Component.exists_names`).
* **Static keys** (`Tree.staticKey?`): a key that is a name or a string stands for that text, a number for its
  shortest decimal. The name of a member is made from the text of its key, and denotes the key unless that text is
  misread, or is another spelling of the number (`static_keys_denoted_iff`).
-/

namespace ClassComponent

open Text

namespace Tree

/-- Whether a node is a number. -/
def isNumber (t : Tree) : Bool :=
  match t.kind, t.get "value" with
  | "Literal", .number _ _ => true
  | _, _ => false

/-- The property that a key in a script stands for, if it is a name, a string or a number. -/
def staticKey? (t : Tree) : Option Text :=
  match t.kind, t.get "value" with
  | "Identifier", _ => (t.get "name").text?
  | "Literal", .text value => some value
  | "Literal", .number mantissa exponent =>
    some (Binary64.ofDecimal (mantissa < 0) mantissa.natAbs exponent).key
  | _, _ => none

end Tree

namespace Origin

theorem memberName_of_static {o : Origin} {t : Tree} (h : t.has "computed" = false) :
    o.memberName t = o.nameText (t.get "key") := by
  rw [memberName, memberName?, h]
  rfl

theorem nameText_of_string {o : Origin} {t : Tree} {name : Text} (hkind : t.kind = "Literal")
    (hvalue : t.get "value" = .text name) : o.nameText t = name := by
  rw [nameText, nameText?, hkind]
  simp only [hvalue, Option.getD_some]

/-- The key of a number is its shortest decimal, any other key is read as what it stands for. -/
theorem staticKey?_cases {o : Origin} {t : Tree} {key : Text} (h : t.staticKey? = some key) :
    t.isNumber = false ∧ o.nameText t = key ∨ t.isNumber = true ∧ ∃ x : Binary64, key = x.key := by
  unfold Tree.staticKey? at h
  split at h
  · next hkind =>
    refine .inl ⟨by simp [Tree.isNumber, hkind], ?_⟩
    unfold Tree.get at h
    rw [nameText, nameText?, hkind]
    cases hname : t.get? "name" with
    | none =>
      rw [hname] at h
      cases h
    | some name =>
      rw [hname] at h
      exact congrArg (·.getD "") h
  · next hkind hvalue =>
    cases h
    exact .inl ⟨by simp [Tree.isNumber, hkind, hvalue], nameText_of_string hkind hvalue⟩
  · next hkind hvalue =>
    cases h
    exact .inr ⟨by simp [Tree.isNumber, hkind, hvalue], _, rfl⟩
  · cases h

/-! ## Names as they are written -/

variable {source : Text} {tokens : List Tree} {o : Origin}

theorem isBracketed_restore (ho : of? source tokens = some o) (t : Text) :
    (o.restore t).isBracketed = t.isBracketed := by
  obtain ⟨f, hrestore, hf, -⟩ := masks_of? ho
  have hsame (c : Char) (hc : c.toNat < 0xE000) (hbreak : CodePoint.char c ≠ lineBreak) (p? : Option CodePoint) :
      (p?.map f == some (.char c)) = (p? == some (.char c)) := by
    cases p? with
    | none => rfl
    | some p =>
      rw [Option.map_some]
      rcases hf p with h | ⟨h, d, hd, rfl⟩
      · rw [h]
      · have hle := le_toNat_of_marker hd
        have hne : d ≠ c := by
          rintro rfl
          omega
        rw [h, beq_eq_false_iff_ne.mpr (by simpa using Ne.symm hbreak),
          beq_eq_false_iff_ne.mpr (by simpa using hne)]
  unfold isBracketed
  rw [hrestore, List.head?_map, List.getLast?_map, hsame '[' (by decide) (by decide),
    hsame ']' (by decide) (by decide)]

theorem restore_propertyName (ho : of? source tokens = some o) {t : Text} (h : t.isBracketed = false) :
    o.restore (propertyName t) = propertyName t := by
  refine restore_eq_self ho fun p hp => .inr ?_
  unfold propertyName at hp
  rw [h, Bool.or_false] at hp
  split at hp
  · next hidentifier => exact Nat.lt_trans (toNat_lt_of_isIdentifier hidentifier hp) (by decide)
  · exact Nat.lt_trans ((bounds_of_mem_quote hp).2) (by decide)

/-- Masked line breaks make no difference to the key of a member. -/
theorem denotes_restore_iff (ho : of? source tokens = some o) {t key : Text} :
    Denotes (o.restore (propertyName t)) key ↔ Denotes (propertyName t) key := by
  cases hbracketed : t.isBracketed with
  | false => rw [restore_propertyName ho hbracketed]
  | true =>
    have hname : propertyName t = t := if_pos (by rw [hbracketed, Bool.or_true])
    have hnone {name : Text} (h : name.isBracketed) : ¬ Denotes name key := by
      rintro ⟨k, hk, -⟩
      rw [denoted?_of_isBracketed h] at hk
      cases hk
    rw [hname]
    exact iff_of_false (hnone (by rw [isBracketed_restore ho, hbracketed])) (hnone hbracketed)

end Origin

/-! ## Where names come from -/

/-- An entry that gives an item was accepted. -/
theorem GivesOne.of_ok {α : Type} {accepted : Bool} {IsItem : α → Prop} {IsReport : Diagnostic → Prop}
    {result : Except Diagnostic α} {item : α}
    (h : GivesOne accepted IsItem IsReport (items [result]) (diagnostics (reports [result])))
    (hok : result = .ok item) : accepted = true ∧ IsItem item := by
  subst hok
  cases h with
  | item haccepted h => exact ⟨haccepted, h⟩

namespace Situation

variable {s : Situation} {tree : Tree}

/-- Whether a member called `name` is made from a part of the script with the key `key`: a member of an object,
in which the key may be computed, or a string in a list, which is its own key. -/
inductive Names (s : Situation) (tree : Tree) : Tree → Bool → Text → Prop
  | data {option entry : Tree} {f : Field} (hoption : (.data, option) ∈ scriptOptions s.origin tree)
      (hentry : entry ∈ ((s.returnedObject option).get "properties").items) (hread : s.dataField entry = .ok f) :
    s.Names tree (entry.get "key") (entry.has "computed") f.name
  | method {entry : Tree} {m : Member} (hentry : entry ∈ optionEntries .methods s.origin tree)
      (hread : s.methodMember entry = .ok m) :
    s.Names tree (entry.get "key") (entry.has "computed") m.name
  | accessor {entry : Tree} {accessor : Accessor} {f : FunctionForm}
      (hentry : entry ∈ optionEntries .computed s.origin tree) (hcomputes : s.Computes entry accessor f) :
    s.Names tree (entry.get "key") (entry.has "computed")
      (s.accessorOf (s.origin.memberName entry) accessor f).name
  | prop {entry : Tree} {f : Field} (hentry : entry ∈ optionEntries .props s.origin tree)
      (hread : s.propEntry entry = .ok f) :
    s.Names tree (entry.get "key") (entry.has "computed") f.name
  | propElement {option element : Tree} {f : Field} (hoption : (.props, option) ∈ scriptOptions s.origin tree)
      (helement : element ∈ ((option.get "value").get "elements").items)
      (hread : s.propElement (option.get "value") element = .ok f) :
    s.Names tree element false f.name
  | store {spread entry : Tree} {tool : StoreTool} {b : StoreBinding}
      (hspread : spread ∈ scriptSpreads s.origin tree) (hcall : s.CallsHelper spread tool)
      (hentry : entry ∈ ((helperArgument spread).get "properties").items)
      (hread : s.storeEntry tool (s.spreadHelper spread).2 entry = .ok b) :
    s.Names tree (entry.get "key") (entry.has "computed") b.toField.name
  | storeElement {spread element : Tree} {tool : StoreTool} {b : StoreBinding}
      (hspread : spread ∈ scriptSpreads s.origin tree) (hcall : s.CallsHelper spread tool)
      (helement : element ∈ ((helperArgument spread).get "elements").items)
      (hread : s.storeElement tool (s.spreadHelper spread).2 (helperArgument spread) element = .ok b) :
    s.Names tree element false b.toField.name

theorem nameText_of_isString {element : Tree} {name : Text} (h : element.isString = true)
    (hvalue : element.get "value" = .text name) : s.origin.nameText element = name :=
  Origin.nameText_of_string (beq_iff_eq.mp (Bool.and_eq_true_iff.mp h).1) hvalue

/-- A member is named after the text of its key, in any option. -/
theorem Names.eq_propertyName {key : Tree} {isComputed : Bool} {name : Text}
    (h : s.Names tree key isComputed name) (hstatic : isComputed = false) :
    name = propertyName (s.origin.nameText key) := by
  cases h with
  | data _ _ hread => rw [((dataField_gives _).of_ok hread).2, Origin.memberName_of_static hstatic]
  | method _ hread => rw [((methodMember_gives _).of_ok hread).2, Origin.memberName_of_static hstatic]
  | accessor => exact congrArg propertyName (Origin.memberName_of_static hstatic)
  | prop _ hread => rw [((propEntry_gives _).of_ok hread).2, Origin.memberName_of_static hstatic]
  | propElement _ _ hread =>
    obtain ⟨hstring, name, hvalue, hname⟩ := (propElement_gives _ _).of_ok hread
    rw [hname, nameText_of_isString hstring hvalue]
  | store _ _ _ hread =>
    obtain ⟨-, -, -, hname⟩ := (storeEntry_gives _ _ _).of_ok hread
    rw [← Origin.memberName_of_static hstatic, ← hname]
    rfl
  | storeElement _ _ _ hread =>
    obtain ⟨hstring, -, -, hvalue⟩ := (storeElement_gives _ _ _ _).of_ok hread
    rw [nameText_of_isString hstring hvalue]
    rfl

/-- Where a field of the lists that options replace, which are data and props, comes from. -/
def Keyed (s : Situation) (tree : Tree) : (slot : ListSlot) → slot.Item → Prop
  | .data, f => ∃ option entry, (.data, option) ∈ scriptOptions s.origin tree ∧
      entry ∈ ((s.returnedObject option).get "properties").items ∧ s.dataField entry = .ok f
  | .props, f => ∃ key isComputed, s.Names tree key isComputed f.name
  | _, _ => True

theorem readData_every {option : Tree} (hoption : (.data, option) ∈ scriptOptions s.origin tree) {u : Update}
    (hu : u ∈ (s.readData 0 option).updates) : u.Every (s.Keyed tree) := by
  rw [readData_updates, List.mem_append] at hu
  rcases hu with hu | hu
  · split at hu
    · cases hu
    · cases List.mem_singleton.mp hu
      exact fun _ _ => trivial
  · split at hu
    · cases List.mem_singleton.mp hu
      intro field hfield
      obtain ⟨entry, hentry, hread⟩ := List.mem_map.mp (mem_items.mp hfield)
      exact ⟨option, entry, hoption, hentry, hread⟩
    · cases hu

theorem readProps_every {option : Tree} (hoption : (.props, option) ∈ scriptOptions s.origin tree) {u : Update}
    (hu : u ∈ (s.readProps option).updates) : u.Every (s.Keyed tree) := by
  simp only [readProps] at hu
  split at hu
  · cases List.mem_singleton.mp hu
    intro f hf
    obtain ⟨element, helement, hread⟩ := List.mem_map.mp (mem_items.mp hf)
    exact ⟨_, _, .propElement hoption helement hread⟩
  · split at hu
    · next hvalue =>
      cases List.mem_singleton.mp hu
      intro f hf
      obtain ⟨entry, hentry, hread⟩ := List.mem_map.mp (mem_items.mp hf)
      exact ⟨_, _, .prop (mem_optionEntries.mpr ⟨option, hoption, beq_iff_eq.mp hvalue, hentry⟩) hread⟩
    · cases hu

theorem optionUpdates_every {option : OptionKind × Tree} (hoption : option ∈ scriptOptions s.origin tree)
    {u : Update} (hu : u ∈ s.optionUpdates option) : u.Every (s.Keyed tree) := by
  obtain ⟨kind, option⟩ := option
  by_cases hdata : kind = .data
  · subst hdata
    exact readData_every hoption hu
  · by_cases hprops : kind = .props
    · subst hprops
      exact readProps_every hoption hu
    · cases readOption_writes hu with
      | hoisted | data => exact absurd rfl hdata
      | propElements | propEntries => exact absurd rfl hprops
      | name | registry => trivial
      | _ => exact fun _ _ => trivial

theorem gather_every (s : Situation) (tree : Tree) :
    (s.gather (scriptOptions s.origin tree)).Every (s.Keyed tree) := by
  refine Component.Every.applyAll (fun u hu => ?_) fun slot item hitem => ?_
  · obtain ⟨option, hoption, hu⟩ := List.mem_flatMap.mp hu
    exact optionUpdates_every hoption hu
  · cases slot <;> cases hitem

/-- The bindings of a spread are those of the entries of its helper. -/
theorem exists_names_of_mem_storeBindings {spread : Tree} (hspread : spread ∈ scriptSpreads s.origin tree)
    {b : StoreBinding} (hb : b ∈ (s.storeBindings spread).1) :
    ∃ key isComputed, s.Names tree key isComputed b.toField.name := by
  obtain ⟨hnone, -⟩ | ⟨tool, results, hcall, hresults⟩ := refused_or_callsHelper (s := s) spread
  · rw [hnone] at hb
    cases hb
  rw [(storeBindings_of_callsHelper hcall hresults).1] at hb
  unfold storeEntries? at hresults
  split at hresults
  · cases hresults
    obtain ⟨entry, hentry, hread⟩ := List.mem_map.mp (mem_items.mp hb)
    exact ⟨_, _, .store hspread hcall hentry hread⟩
  · split at hresults
    · cases hresults
      obtain ⟨element, helement, hread⟩ := List.mem_map.mp (mem_items.mp hb)
      exact ⟨_, _, .storeElement hspread hcall helement hread⟩
    · cases hresults

theorem mem_readOption_methods {option : OptionKind × Tree} {m : Member}
    (h : m ∈ (s.readOption 0 option.1 option.2).added .methods) :
    option.1 = .methods ∧ (option.2.get "value").kind = "ObjectExpression" ∧
      ∃ entry ∈ ((option.2.get "value").get "properties").items, s.methodMember entry = .ok m := by
  obtain ⟨kind, option⟩ := option
  by_cases hkind : kind = .methods
  · subst hkind
    by_cases hvalue : (option.get "value").kind = "ObjectExpression"
    · have hm : m ∈ s.methodMembers ((option.get "value").get "properties").items := by
        rw [← readMethods_added hvalue]
        exact h
      obtain ⟨entry, hentry, hread⟩ := List.mem_map.mp (mem_items.mp hm)
      exact ⟨rfl, hvalue, entry, (List.mem_filter.mp hentry).1, hread⟩
    · have hread : s.readOption 0 .methods option =
          .warning (s.report option ("unsupported methods declaration: " ++ s.text option)) :=
        if_neg (by simpa using hvalue)
      rw [hread] at h
      cases h
  · have hnone : (s.readOption 0 kind option).added .methods = [] :=
      List.flatMap_eq_nil_iff.mpr fun u hu => (readOption_writes hu).added_eq_nil (by decide) hkind
    rw [hnone] at h
    cases h

end Situation

namespace Component

variable {script : Text} {tree : Tree} {file : Text} {keepsUnsupported : Bool} {c : Component}
  {events : List Event}

/-- The members of the class that are named after keys. -/
def keyedMembers (c : Component) : List Member :=
  c.storeMembers ++ (c.leadingMembers ++ c.methods)

/-- Data and props are replaced by later options, so their fields are followed through every change. -/
theorem ofScript_keyed (h : ofScript script tree file keepsUnsupported = .ok (c, events)) {origin : Origin}
    (ho : Origin.of? script (tree.get "tokens").items = some origin) :
    c.Every (Situation.Keyed ⟨origin, file, keepsUnsupported⟩ tree) := by
  obtain ⟨origin', ho', hrenamed, -⟩ := ofScript_eq_ok h
  cases ho.symm.trans ho'
  obtain ⟨watch, -, rfl⟩ := renameWatchers?_eq_some hrenamed
  have hevery := Situation.gather_every ⟨origin, file, keepsUnsupported⟩ tree
  intro slot item hitem
  cases slot with
  | data => exact hevery .data item hitem
  | props => exact hevery .props item hitem
  | _ => trivial

/-- Methods are only added, so that each of them is known to be read from an entry. -/
theorem exists_entry_of_mem_methods (h : ofScript script tree file keepsUnsupported = .ok (c, events))
    {origin : Origin} (ho : Origin.of? script (tree.get "tokens").items = some origin) {m : Member}
    (hm : m ∈ c.methods) :
    ∃ entry ∈ optionEntries .methods origin tree,
      Situation.methodMember ⟨origin, file, keepsUnsupported⟩ entry = .ok m := by
  obtain ⟨origin', ho', hmethods⟩ := getList_ofScript h .methods (by decide)
  cases ho.symm.trans ho'
  have hm : m ∈ c.getList .methods := hm
  rw [hmethods] at hm
  obtain ⟨⟨kind, option⟩, hoption, hm⟩ := List.mem_flatMap.mp hm
  obtain ⟨rfl, hvalue, entry, hentry, hread⟩ := Situation.mem_readOption_methods hm
  exact ⟨entry, mem_optionEntries.mpr ⟨option, hoption, hvalue, hentry⟩, hread⟩

/-- All of them come from keys of the script. -/
theorem exists_names (h : ofScript script tree file keepsUnsupported = .ok (c, events)) {origin : Origin}
    (ho : Origin.of? script (tree.get "tokens").items = some origin) {m : Member} (hm : m ∈ c.keyedMembers) :
    ∃ key isComputed, Situation.Names ⟨origin, file, keepsUnsupported⟩ tree key isComputed m.name := by
  simp only [keyedMembers, storeMembers, leadingMembers, List.mem_append, List.mem_map] at hm
  rcases hm with ⟨b, hb, rfl⟩ | ((⟨f, hf, rfl⟩ | ⟨f, hf, rfl⟩) | ⟨f, hf, rfl⟩) | hm
  · obtain ⟨origin', ho', hread⟩ := ofScript_readFrom h
    cases ho.symm.trans ho'
    rw [hread.stores] at hb
    obtain ⟨spread, hspread, hb⟩ := List.mem_flatMap.mp hb
    exact Situation.exists_names_of_mem_storeBindings hspread hb
  · obtain ⟨option, entry, hoption, hentry, hread⟩ := ofScript_keyed h ho .data f hf
    exact ⟨_, _, .data hoption hentry hread⟩
  · obtain ⟨origin', ho', hmem⟩ := mem_computed_iff h
    cases ho.symm.trans ho'
    obtain ⟨entry, hentry, accessor, form, hcomputes, rfl⟩ := (hmem f).mp hf
    exact ⟨_, _, .accessor hentry hcomputes⟩
  · exact ofScript_keyed h ho .props f hf
  · obtain ⟨entry, hentry, hread⟩ := exists_entry_of_mem_methods h ho hm
    exact ⟨_, _, .method hentry hread⟩

end Component

/-- **Static keys are kept unless they are misread or spelled in another way.** All members of a class, watchers
and hooks aside, are named after keys of the script. Take one whose key is a name, a string or a number. As it is
written, its name denotes a name or a string exactly if the text is not misread, and a number exactly if the
script spells it as its shortest decimal. It is a computed key exactly if the text of the key stands in
brackets. -/
theorem static_keys_denoted_iff {script : Text} {tree : Tree} {file : Text} {keepsUnsupported : Bool}
    {c : Component} {events : List Event}
    (h : Component.ofScript script tree file keepsUnsupported = .ok (c, events)) :
    ∃ origin, Origin.of? script (tree.get "tokens").items = some origin ∧
      let s : Situation := ⟨origin, file, keepsUnsupported⟩
      (∀ m ∈ c.keyedMembers, ∃ key isComputed, s.Names tree key isComputed m.name) ∧
      ∀ key name, s.Names tree key false name → ∀ property, key.staticKey? = some property →
        (key.isNumber = false → (Denotes (origin.restore name) property ↔ ¬ property.IsMisread)) ∧
        (key.isNumber = true → (Denotes (origin.restore name) property ↔ origin.nameText key = property)) ∧
        ((origin.restore name).isBracketed ↔ (origin.nameText key).isBracketed) := by
  obtain ⟨origin, ho, -⟩ := Component.ofScript_eq_ok h
  refine ⟨origin, ho, fun m hm => Component.exists_names h ho hm, fun key name hnames property hkey => ?_⟩
  have hname : name = propertyName (origin.nameText key) := hnames.eq_propertyName rfl
  rw [hname, Origin.denotes_restore_iff ho, denotes_propertyName_iff, Origin.isBracketed_restore ho,
    isBracketed_propertyName]
  refine ⟨fun hother => ?_, fun hnumber => ?_, Iff.rfl⟩
  · obtain ⟨-, hsame⟩ | ⟨hnumber, -⟩ := Origin.staticKey?_cases hkey (o := origin)
    · rw [hsame]
      exact and_iff_left rfl
    · rw [hother] at hnumber
      cases hnumber
  · obtain ⟨hother, -⟩ | ⟨-, x, rfl⟩ := Origin.staticKey?_cases hkey (o := origin)
    · rw [hother] at hnumber
      cases hnumber
    · constructor
      · exact fun hunits => Binary64.eq_key_of_units hunits.2
      · intro hsame
        rw [hsame]
        exact ⟨x.not_isMisread_key, rfl⟩

/-- A script with data under a string in brackets, a string with a line break, and two numbers. -/
def oddKeys : String :=
  "export default \x7b\n  data() \x7b return \x7b \"[a]\": 1, \"b\\n\": 2, 0x10: 3, 7: 4 \x7d; \x7d,\n\x7d;\n"

/-- A member of the data object: whether its key is computed and whether it is a number, the property that the key
stands for, its text, and the name of the field. -/
def Situation.keyFacts (s : Situation) (entry : Tree) : Bool × Bool × Option Text × Text × Option Text :=
  (entry.has "computed", (entry.get "key").isNumber, (entry.get "key").staticKey?,
    s.origin.nameText (entry.get "key"), (s.dataField entry).toOption.map Field.name)

theorem keys_of_oddKeys :
    ∃ tree c events origin, Script.parse oddKeys true = .ok tree ∧
      Component.ofScript oddKeys tree "" true = .ok (c, events) ∧
      Origin.of? oddKeys (tree.get "tokens").items = some origin ∧
      c.data.map Field.name =
        [Text.ofString "[a]", Text.ofString "b\n", Text.ofString "\"0x10\"", Text.ofString "\"7\""] ∧
      ¬ Denotes (origin.restore "[a]") "[a]" ∧ ¬ Denotes (origin.restore "b\n") "b\n" ∧
      ¬ Denotes (origin.restore "\"0x10\"") "16" ∧ Denotes (origin.restore "\"7\"") "7" := by
  have hread : (readScript? oddKeys).any (fun (_, c) => c.data.map Field.name =
      [Text.ofString "[a]", Text.ofString "b\n", Text.ofString "\"0x10\"", Text.ofString "\"7\""]) = true := by
    decide +kernel
  have hsole : (soleOption? oddKeys).any (fun (_, origin, option) =>
      let s : Situation := ⟨origin, "", true⟩
      option.1 = .data ∧ ((s.returnedObject option.2).get "properties").items.map s.keyFacts =
        [(false, false, some (Text.ofString "[a]"), Text.ofString "[a]", some (Text.ofString "[a]")),
          (false, false, some (Text.ofString "b\n"), Text.ofString "b\n", some (Text.ofString "b\n")),
          (false, true, some (Text.ofString "16"), Text.ofString "0x10", some (Text.ofString "\"0x10\"")),
          (false, true, some (Text.ofString "7"), Text.ofString "7", some (Text.ofString "\"7\""))]) = true := by
    decide +kernel
  obtain ⟨⟨tree, c⟩, hscript, hnames⟩ := (Option.any_eq_true _ _).mp hread
  obtain ⟨htree, events, hc⟩ := ofScript_of_readScript? hscript
  obtain ⟨⟨tree', origin, kind, option⟩, hoption, hvalues⟩ := (Option.any_eq_true _ _).mp hsole
  obtain ⟨htree', ho, hoptions⟩ := of_soleOption? hoption
  cases htree.symm.trans htree'
  obtain ⟨rfl, hentries⟩ := of_decide_eq_true hvalues
  obtain ⟨origin', ho', -, hkeys⟩ := static_keys_denoted_iff hc
  cases ho.symm.trans ho'
  have heach {isNumber : Bool} {property text name : Text}
      (hmem : (false, isNumber, some property, text, some name) ∈
        ((Situation.returnedObject ⟨origin, "", true⟩ option).get "properties").items.map
          (Situation.keyFacts ⟨origin, "", true⟩)) :
      (isNumber = false → (Denotes (origin.restore name) property ↔ ¬ property.IsMisread)) ∧
        (isNumber = true → (Denotes (origin.restore name) property ↔ text = property)) := by
    obtain ⟨entry, hentry, hfacts⟩ := List.mem_map.mp hmem
    simp only [Situation.keyFacts, Prod.mk.injEq, Option.map_eq_some_iff] at hfacts
    obtain ⟨hcomputed, rfl, hproperty, rfl, f, hf, rfl⟩ := hfacts
    have hgiven : Situation.Names ⟨origin, "", true⟩ tree (entry.get "key") (entry.has "computed") f.name :=
      .data (hoptions ▸ List.mem_singleton_self _) hentry (eq_ok_of_toOption hf)
    rw [hcomputed] at hgiven
    exact ⟨(hkeys _ _ hgiven _ hproperty).1, (hkeys _ _ hgiven _ hproperty).2.1⟩
  rw [hentries] at heach
  refine ⟨tree, c, events, origin, htree, hc, ho, of_decide_eq_true hnames, ?_, ?_, ?_, ?_⟩
  · exact fun h => ((heach (.head _)).1 rfl).mp h (.inl (by decide))
  · exact fun h => ((heach (.tail _ (.head _))).1 rfl).mp h (.inr ⟨"b", by decide, rfl⟩)
  · exact fun h => absurd (((heach (.tail _ (.tail _ (.head _)))).2 rfl).mp h) (by decide)
  · exact ((heach (.tail _ (.tail _ (.tail _ (.head _))))).2 rfl).mpr rfl

end ClassComponent
