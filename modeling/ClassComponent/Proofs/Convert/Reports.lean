import ClassComponent.Proofs.Convert.Options
import ClassComponent.Proofs.Convert.Reading
import ClassComponent.Proofs.Text.Name
import ClassComponent.Proofs.Tree.Parts

/-!
# What is reported about options

An option that no reader knows is reported and kept as it is (`Situation.readUnsupported`). All other reports
are about an entry of an option, or about its form: `RefusalLead` says once how they begin, and readers make
no others. So the sorts of reports can be told apart by how their messages begin.

* **Entries** (`Situation.RefusesPart`): entries of an option are refused one by one, each by a report at its place
  that says what it is about.
* **Whole options** (`Situation.Rejects`): an option of the wrong form is rejected by a single report. Nothing is
  changed then, except that the statements of a data function are hoisted all the same.
* **Any option** (`Situation.readOption_rejects_or`): a reader rejects the option, or refuses parts of it only.
-/

namespace ClassComponent

/-! ## Beginnings of texts -/

namespace Text

/-- Whether a text begins with `lead`. -/
def startsWith (t : Text) (lead : String) : Bool :=
  (ofString lead).points.isPrefixOf t.points

theorem startsWith_iff {t : Text} {lead : String} :
    t.startsWith lead ↔ (ofString lead).points <+: t.points :=
  List.isPrefixOf_iff_prefix

/-- Beginnings of one text agree as far as both go. -/
theorem eq_of_getElem? {t : Text} {lead lead' : String} (h : t.startsWith lead) (h' : t.startsWith lead')
    {i : Nat} {c c' : Char} (hc : lead.toList[i]? = some c) (hc' : lead'.toList[i]? = some c') : c = c' := by
  have hat : ∀ {word : String} {x : Char}, t.startsWith word → word.toList[i]? = some x →
      t.points[i]? = some (.char x) := by
    intro word x hword hx
    obtain ⟨rest, hrest⟩ := startsWith_iff.mp hword
    have hpoint : (ofString word).points[i]? = some (.char x) := by simp [ofString, ofChars, hx]
    rw [← hrest, List.getElem?_append_left (List.getElem?_eq_some_iff.mp hpoint).1, hpoint]
  exact CodePoint.char.inj (Option.some.inj ((hat h hc).symm.trans (hat h' hc')))

/-- A text does not begin in two ways that differ somewhere. -/
theorem not_startsWith_of_differ {t : Text} {lead lead' : String}
    (hdiffer : (lead.toList.zip lead'.toList).any fun p => p.1 != p.2) (h : t.startsWith lead) :
    ¬ t.startsWith lead' := by
  intro h'
  obtain ⟨⟨c, c'⟩, hmem, hne⟩ := List.any_eq_true.mp hdiffer
  obtain ⟨i, hi⟩ := List.mem_iff_getElem?.mp hmem
  obtain ⟨hc, hc'⟩ := List.getElem?_zip_eq_some.mp hi
  exact bne_iff_ne.mp hne (eq_of_getElem? h h' hc hc')

theorem startsWith_self (lead : String) : (ofString lead).startsWith lead :=
  startsWith_iff.mpr List.prefix_rfl

theorem startsWith_append {t : Text} {lead : String} (h : t.startsWith lead) (rest : Text) :
    (t ++ rest).startsWith lead :=
  startsWith_iff.mpr ((startsWith_iff.mp h).trans (List.prefix_append _ _))

end Text

/-- How reports begin that are about a part of an option or about its form. -/
inductive RefusalLead where
  | dataMember
  | dataFunction
  | dataObject
  | computedRunning
  | computedProperty
  | computed
  | method
  | methods
  | prop
  | props
  | watcher
  | noHandler
  | otherHandler
  | watch
  | mappedFunction
  | mapped
  | spread
  | helper

/-- Whether a report that begins so is about the form of an option. -/
def RefusalLead.isWhole : RefusalLead → Bool
  | .dataFunction | .dataObject | .computed | .methods | .props | .watch => true
  | _ => false

/-- Whether a report that begins so goes on with the text of what it is about, which is an entry. -/
def RefusalLead.quotesEntry : RefusalLead → Bool
  | .noHandler | .helper => false
  | lead => !lead.isWhole

theorem RefusalLead.not_isWhole {lead : RefusalLead} (h : lead.quotesEntry = true) : lead.isWhole = false := by
  cases lead with
  | dataFunction | dataObject | computed | methods | props | watch => cases h
  | _ => rfl

/-- The wording of such a beginning. -/
def RefusalLead.text : RefusalLead → String
  | .dataMember => "unsupported data member: "
  | .dataFunction => "unsupported data declaration, data must be a function"
  | .dataObject => "unsupported data declaration, data must return an object literal"
  | .computedRunning => "unsupported computed property, async or generator: "
  | .computedProperty => "unsupported computed property: "
  | .computed => "unsupported computed declaration: "
  | .method => "unsupported method: "
  | .methods => "unsupported methods declaration: "
  | .prop => "unsupported prop: "
  | .props => "unsupported props declaration"
  | .watcher => "unsupported watcher: "
  | .noHandler => "watcher dropped, no handler function found: "
  | .otherHandler => "watcher dropped, unsupported handler: "
  | .watch => "unsupported watch declaration, only the object form is converted"
  | .mappedFunction => "unsupported store mapping, only functions are converted: "
  | .mapped => "unsupported store mapping: "
  | .spread => "unsupported spread: "
  | .helper => "unsupported map"

namespace Situation

variable {s : Situation}

/-- Whether a report is about an entry of an option or about its form. -/
def Refuses (s : Situation) (d : Diagnostic) : Prop :=
  ∃ (t : Tree) (lead : RefusalLead) (message : Text), message.startsWith lead.text ∧ d = s.report t message

/-- Whether a report is about an entry of an option. -/
def RefusesEntry (s : Situation) (d : Diagnostic) : Prop :=
  ∃ (t : Tree) (lead : RefusalLead) (message : Text),
    lead.isWhole = false ∧ message.startsWith lead.text ∧ d = s.report t message

/-- Whether a message that begins so is about the node `t`: it quotes the node, or it names what the node holds. -/
inductive Says (s : Situation) : RefusalLead → Tree → Text → Prop
  | quotes {lead : RefusalLead} (h : lead.quotesEntry = true) (t : Tree) :
    s.Says lead t (Text.ofString lead.text ++ s.text t)
  /-- A hole in a list has no place of its own. -/
  | hole {lead : RefusalLead} (h : lead.quotesEntry = true) {list hole : Tree}
      (hmem : hole ∈ (list.get "elements").items) (hhole : hole.isFilled = false) :
    s.Says lead list (Text.ofString lead.text ++ s.text hole)
  | watches (t : Tree) : s.Says .noHandler t (Text.ofString RefusalLead.noHandler.text ++ s.origin.memberName t)
  | calls {helper : Text} (h : StoreTool.isMapHelper helper) (t : Tree) :
    s.Says .helper t ("unsupported " ++ helper ++ " arguments: " ++ s.text (t.get "argument"))

/-- Whether a report is about a part of an option, as its message says. -/
def RefusesPart (s : Situation) (option : Tree) (d : Diagnostic) : Prop :=
  ∃ (t : Tree) (lead : RefusalLead) (message : Text),
    option.Part t ∧ lead.isWhole = false ∧ s.Says lead t message ∧ d = s.report t message

theorem RefusesEntry.refuses {d : Diagnostic} (h : s.RefusesEntry d) : s.Refuses d := by
  obtain ⟨t, lead, message, -, hd⟩ := h
  exact ⟨t, lead, message, hd⟩

/-- The statements that an option hoists: those of a data function besides its returns. -/
def hoistedBy (s : Situation) (option : OptionKind × Tree) : List Text :=
  match option.1, FunctionForm.ofMember? s.origin option.2 with
  | .data, some f => (s.dataParts f.body).1
  | _, _ => []

/-- Whether a finding rejects an option as a whole: it holds one report about the option, and changes
nothing but the hoisted statements. -/
structure Rejects (s : Situation) (option : OptionKind × Tree) (f : Finding) : Prop where
  report : ∃ (lead : RefusalLead) (message : Text), lead.isWhole = true ∧ message.startsWith lead.text ∧
    f.events = [.warned (s.report option.2 message)]
  updates : f.updates =
    if (s.hoistedBy option).isEmpty then [] else [.put (.list .hoisted) (s.hoistedBy option)]

/-- A report and nothing else rejects an option that hoists nothing. -/
theorem rejects_warning {option : OptionKind × Tree} (hoption : s.hoistedBy option = [])
    (lead : RefusalLead) (hlead : lead.isWhole = true) {message : Text}
    (hmessage : message.startsWith lead.text) :
    s.Rejects option (.warning (s.report option.2 message)) where
  report := ⟨lead, message, hlead, hmessage, rfl⟩
  updates := by rw [hoption]; rfl

theorem eq_map_append_of_isMapHelper {helper : Text} (h : StoreTool.isMapHelper helper) :
    ∃ rest, helper = Text.ofString "map" ++ rest := by
  rw [StoreTool.isMapHelper, Bool.and_eq_true, bne_iff_ne] at h
  obtain ⟨hne, hsome⟩ := h
  have hname : helper = "mapState" ∨ helper = "mapGetters" ∨ helper = "mapMutations" ∨
      helper = "mapActions" := by
    by_contra hnot
    simp only [not_or] at hnot
    obtain ⟨h₁, h₂, h₃, h₄⟩ := hnot
    simp [StoreTool.ofHelper?, h₁, h₂, h₃, h₄, hne] at hsome
  rcases hname with rfl | rfl | rfl | rfl
  · exact ⟨_, Text.ofString_append "map" "State"⟩
  · exact ⟨_, Text.ofString_append "map" "Getters"⟩
  · exact ⟨_, Text.ofString_append "map" "Mutations"⟩
  · exact ⟨_, Text.ofString_append "map" "Actions"⟩

/-- A message begins as it says. -/
theorem Says.startsWith {lead : RefusalLead} {t : Tree} {message : Text} (h : s.Says lead t message) :
    message.startsWith lead.text := by
  cases h with
  | quotes => exact Text.startsWith_append (Text.startsWith_self _) _
  | hole => exact Text.startsWith_append (Text.startsWith_self _) _
  | watches => exact Text.startsWith_append (Text.startsWith_self _) _
  | calls hhelper =>
    obtain ⟨rest, rfl⟩ := eq_map_append_of_isMapHelper hhelper
    rw [← Text.append_assoc, ← Text.ofString_append]
    refine Text.startsWith_append (Text.startsWith_append (Text.startsWith_append ?_ _) _) _
    exact Text.startsWith_self _

section Parts

variable {option : Tree} {d : Diagnostic}

theorem RefusesPart.refusesEntry (h : s.RefusesPart option d) : s.RefusesEntry d := by
  obtain ⟨t, lead, message, -, hlead, habout, hd⟩ := h
  exact ⟨t, lead, message, hlead, habout.startsWith, hd⟩

theorem refusesPart_quotes {t : Tree} (ht : option.Part t) (lead : RefusalLead) (h : lead.quotesEntry = true) :
    s.RefusesPart option (s.report t (Text.ofString lead.text ++ s.text t)) :=
  ⟨t, lead, _, ht, RefusalLead.not_isWhole h, .quotes h t, rfl⟩

/-- A report about an element of a list quotes it, also if it stands at the place of the list. -/
theorem refusesPart_element {list element : Tree} (hlist : option.Part list)
    (hmem : element ∈ (list.get "elements").items) (lead : RefusalLead) (h : lead.quotesEntry = true) :
    s.RefusesPart option
      (s.report (if element.isFilled then element else list) (Text.ofString lead.text ++ s.text element)) := by
  split
  · exact refusesPart_quotes ((hlist.get _).item hmem) lead h
  · next hhole =>
    exact ⟨list, lead, _, hlist, RefusalLead.not_isWhole h, .hole h hmem (Bool.eq_false_iff.mpr hhole), rfl⟩

/-- Refused entries of an option are reported one by one. -/
theorem refuses_of_mem_reports {α : Type} (entries : List Tree) {read : Tree → Except Diagnostic α}
    (hread : ∀ {entry}, entry ∈ entries → ∀ {d}, read entry = .error d → s.RefusesPart option d)
    (hd : .warned d ∈ reports (entries.map read)) : s.RefusesPart option d := by
  obtain ⟨d', hmem, heq⟩ := mem_reports.mp hd
  cases heq
  obtain ⟨entry, hentry, hresult⟩ := List.mem_map.mp hmem
  exact hread hentry hresult

/-! ## Store helpers -/

theorem storeEntry_refuses {tool : StoreTool} {scope? : Option Text} {entry : Tree} (hentry : option.Part entry)
    (h : s.storeEntry tool scope? entry = .error d) : s.RefusesPart option d := by
  unfold storeEntry at h
  simp only at h
  split at h
  · cases h
  · split at h
    · cases h
    · cases h
      exact refusesPart_quotes hentry .mappedFunction rfl

theorem storeElement_refuses {tool : StoreTool} {scope? : Option Text} {list element : Tree}
    (hlist : option.Part list) (hmem : element ∈ (list.get "elements").items)
    (h : s.storeElement tool scope? list element = .error d) : s.RefusesPart option d := by
  unfold storeElement at h
  split at h
  · cases h
  · cases h
    exact refusesPart_element hlist hmem .mapped rfl

theorem storeEntries?_refuses {tool : StoreTool} {scope? : Option Text} {argument : Tree}
    (hargument : option.Part argument) {results : List (Except Diagnostic StoreBinding)}
    (h : s.storeEntries? tool scope? argument = some results)
    (hd : .warned d ∈ reports results) : s.RefusesPart option d := by
  unfold storeEntries? at h
  split at h
  · cases h
    exact refuses_of_mem_reports _ (fun hentry => storeEntry_refuses ((hargument.get _).item hentry)) hd
  · split at h
    · cases h
      exact refuses_of_mem_reports _ (fun hmem => storeElement_refuses hargument hmem) hd
    · cases h

theorem storeBindings_refuses {spread : Tree} (hspread : option.Part spread)
    (hd : .warned d ∈ (s.storeBindings spread).2) : s.RefusesPart option d := by
  have hrefusal : .warned d ∈ [Event.warned (s.report spread ("unsupported spread: " ++ s.text spread))] →
      s.RefusesPart option d := by
    intro h
    cases List.mem_singleton.mp h
    exact refusesPart_quotes hspread .spread rfl
  unfold storeBindings at hd
  simp only at hd
  split at hd
  · exact hrefusal hd
  · split at hd
    · exact hrefusal hd
    · rename_i htool
      split at htool
      · rename_i hmap
        split at hd
        · rename_i hresults
          rcases List.mem_append.mp hd with hd | hd
          · have hargument := Tree.Part.headD fun t ht => ((hspread.get "argument").get "arguments").item ht
            exact storeEntries?_refuses hargument hresults hd
          · cases List.mem_singleton.mp hd
        · rcases List.mem_cons.mp hd with heq | hd
          · cases heq
            exact ⟨spread, .helper, _, hspread, rfl, .calls hmap spread, rfl⟩
          · cases List.mem_singleton.mp hd
      · cases htool

/-! ## Data, computed properties, methods -/

theorem dataField_refuses {member : Tree} (hmember : option.Part member) (h : s.dataField member = .error d) :
    s.RefusesPart option d := by
  unfold dataField at h
  split at h
  · cases h
    exact refusesPart_quotes hmember .dataMember rfl
  · cases h

theorem part_dataParts {body : Tree} (hbody : option.Part body) : option.Part (s.dataParts body).2 := by
  unfold dataParts
  split
  · refine Tree.Part.get ?_ "argument"
    cases hfind : (body.get "body").items.find? (fun t => t.kind == "ReturnStatement") with
    | none => exact .null
    | some t => exact (hbody.get "body").item (List.mem_of_find?_eq_some hfind)
  · exact hbody

/-- The body of a function stands in the member that holds it. -/
theorem part_body {o : Origin} {f : FunctionForm} (h : FunctionForm.ofMember? o option = some f) :
    option.Part f.body := by
  unfold FunctionForm.ofMember? at h
  split at h
  · cases h
  · simp only at h
    split at h
    · cases h
      exact (Tree.Part.root.get "value").get "body"
    · cases h

theorem readData_rejects_or (hoistedBefore : Nat) (option : Tree) :
    s.Rejects (.data, option) (s.readData hoistedBefore option) ∨
      ∀ d, .warned d ∈ (s.readData hoistedBefore option).events → s.RefusesPart option d := by
  unfold readData
  split
  · rename_i hform
    exact .inl (rejects_warning (by simp [hoistedBy, hform]) .dataFunction rfl (Text.startsWith_self _))
  · rename_i f hform
    split
    · rename_i hbody
      have hkind : f.body.kind = "" := by
        by_contra hne
        simp [Tree.isFilled_of_kind hne] at hbody
      have hnone : s.hoistedBy (.data, option) = [] := by
        simp [hoistedBy, hform, dataParts, hkind]
      exact .inl (rejects_warning hnone .dataFunction rfl (Text.startsWith_self _))
    · simp only
      split
      · refine .inr fun d hd => ?_
        have hreturned : option.Part (s.dataParts f.body).2 := part_dataParts (part_body hform)
        simp only [Finding.events_append, Finding.events_ofEntries, List.nil_append] at hd
        rcases List.mem_append.mp hd with hd | hd
        · exact refuses_of_mem_reports _ (fun hmem => dataField_refuses ((hreturned.get _).item hmem)) hd
        · cases List.mem_singleton.mp hd
      · refine .inl ⟨⟨.dataObject, _, rfl, Text.startsWith_self _, rfl⟩, ?_⟩
        simp [hoistedBy, hform]

theorem refusedAccessor_refuses {member : Tree} (hmember : option.Part member)
    (hd : .warned d ∈ (s.refusedAccessor member).events) : s.RefusesPart option d := by
  cases List.mem_singleton.mp hd
  exact refusesPart_quotes hmember .computedRunning rfl

theorem readAccessorPart_refuses {name : Text} {member : Tree} (hmember : option.Part member)
    (hd : .warned d ∈ (s.readAccessorPart name member).events) : s.RefusesPart option d := by
  unfold readAccessorPart at hd
  split at hd
  · exact storeBindings_refuses hmember hd
  · split at hd
    · cases hd
    · split at hd
      · exact refusedAccessor_refuses hmember hd
      · split at hd
        · cases hd
        · cases hd

theorem readComputedEntry_refuses {member : Tree} (hmember : option.Part member)
    (hd : .warned d ∈ (s.readComputedEntry member).events) : s.RefusesPart option d := by
  simp only [readComputedEntry] at hd
  split at hd
  · exact storeBindings_refuses hmember hd
  · split at hd
    · rw [Finding.events_concat, List.flatMap_map] at hd
      obtain ⟨part, hpart, hd⟩ := List.mem_flatMap.mp hd
      exact readAccessorPart_refuses (((hmember.get _).get _).item hpart) hd
    · split at hd
      · cases List.mem_singleton.mp hd
        exact refusesPart_quotes hmember .computedProperty rfl
      · split at hd
        · exact refusedAccessor_refuses hmember hd
        · cases hd

theorem readComputed_rejects_or (option : Tree) :
    s.Rejects (.computed, option) (s.readComputed option) ∨
      ∀ d, .warned d ∈ (s.readComputed option).events → s.RefusesPart option d := by
  simp only [readComputed]
  split
  · refine .inr fun d hd => ?_
    rw [Finding.events_concat, List.flatMap_map] at hd
    obtain ⟨entry, hentry, hd⟩ := List.mem_flatMap.mp hd
    exact readComputedEntry_refuses (((Tree.Part.root.get _).get _).item hentry) hd
  · exact .inl (rejects_warning rfl .computed rfl (Text.startsWith_append (Text.startsWith_self _) _))

theorem methodMember_refuses {member : Tree} (hmember : option.Part member)
    (h : s.methodMember member = .error d) : s.RefusesPart option d := by
  unfold methodMember at h
  split at h
  · cases h
  · split at h
    · cases h
    · cases h
      exact refusesPart_quotes hmember .method rfl

theorem methodFinding_refuses {member : Tree} (hmember : option.Part member)
    (hd : .warned d ∈ (s.methodFinding member).events) : s.RefusesPart option d := by
  unfold methodFinding at hd
  split at hd
  · exact storeBindings_refuses hmember hd
  · refine refuses_of_mem_reports [member] (fun hmem => ?_) hd
    cases List.mem_singleton.mp hmem
    exact methodMember_refuses hmember

theorem readMethods_rejects_or (option : Tree) :
    s.Rejects (.methods, option) (s.readMethods option) ∨
      ∀ d, .warned d ∈ (s.readMethods option).events → s.RefusesPart option d := by
  simp only [readMethods]
  split
  · refine .inr fun d hd => ?_
    rw [Finding.events_append, List.append_nil, Finding.events_concat, List.flatMap_map] at hd
    obtain ⟨entry, hentry, hd⟩ := List.mem_flatMap.mp hd
    exact methodFinding_refuses (((Tree.Part.root.get _).get _).item hentry) hd
  · exact .inl (rejects_warning rfl .methods rfl (Text.startsWith_append (Text.startsWith_self _) _))

/-! ## Props and watchers -/

theorem propElement_refuses {list element : Tree} (hlist : option.Part list)
    (hmem : element ∈ (list.get "elements").items) (h : s.propElement list element = .error d) :
    s.RefusesPart option d := by
  unfold propElement at h
  split at h
  · cases h
  · cases h
    exact refusesPart_element hlist hmem .prop rfl

theorem propEntry_refuses {entry : Tree} (hentry : option.Part entry) (h : s.propEntry entry = .error d) :
    s.RefusesPart option d := by
  unfold propEntry at h
  split at h
  · cases h
    exact refusesPart_quotes hentry .prop rfl
  · cases h

theorem readProps_rejects_or (option : Tree) :
    s.Rejects (.props, option) (s.readProps option) ∨
      ∀ d, .warned d ∈ (s.readProps option).events → s.RefusesPart option d := by
  have hvalue : option.Part (option.get "value") := Tree.Part.root.get _
  simp only [readProps]
  split
  · exact .inr fun d hd => refuses_of_mem_reports _ (fun hmem => propElement_refuses hvalue hmem) hd
  · split
    · exact .inr fun d hd =>
        refuses_of_mem_reports _ (fun hmem => propEntry_refuses ((hvalue.get _).item hmem)) hd
    · exact .inl (rejects_warning rfl .props rfl (Text.startsWith_self _))

theorem watchEntry_refuses {entry : Tree} (hentry : option.Part entry) (h : s.watchEntry entry = .error d) :
    s.RefusesPart option d := by
  unfold watchEntry at h
  simp only at h
  split at h
  · cases h
    exact refusesPart_quotes hentry .watcher rfl
  · split at h
    · split at h
      · cases h
      · cases h
        exact ⟨entry, .noHandler, _, hentry, rfl, .watches entry, rfl⟩
    · split at h
      · cases h
      · cases h
        exact refusesPart_quotes hentry .otherHandler rfl

theorem readWatch_rejects_or (option : Tree) :
    s.Rejects (.watch, option) (s.readWatch option) ∨
      ∀ d, .warned d ∈ (s.readWatch option).events → s.RefusesPart option d := by
  simp only [readWatch]
  split
  · refine .inr fun d hd => refuses_of_mem_reports _ (fun hmem => ?_) hd
    exact watchEntry_refuses (((Tree.Part.root.get _).get _).item hmem)
  · exact .inl (rejects_warning rfl .watch rfl (Text.startsWith_self _))

end Parts

/-! ## Options that are not converted -/

/-- Whether an option is not converted: no reader knows it, or it is a hook that is no function. -/
def isUnsupported (o : Origin) (option : OptionKind × Tree) : Bool :=
  option.1 == .unrecognized ||
    option.1 == .lifecycleHook && (FunctionForm.ofMember? o option.2).isNone

/-- A hook that is converted is a function. -/
theorem exists_form_of_hook {o : Origin} {node : Tree}
    (h : isUnsupported o (.lifecycleHook, node) = false) :
    ∃ f, FunctionForm.ofMember? o node = some f :=
  Option.isSome_iff_exists.mp (by simpa [isUnsupported] using h)

theorem readOption_of_isUnsupported {option : OptionKind × Tree}
    (h : isUnsupported s.origin option = true) (hoistedBefore : Nat) :
    s.readOption hoistedBefore option.1 option.2 = s.readUnsupported option.2 := by
  obtain ⟨kind, node⟩ := option
  cases kind with
  | lifecycleHook =>
    have hform : FunctionForm.ofMember? s.origin node = none := by simpa [isUnsupported] using h
    rw [readOption, readHook, hform]
  | unrecognized => rfl
  | _ => cases h

/-- The reader of any other option rejects it, or refuses entries of it only. -/
theorem readOption_rejects_or {option : OptionKind × Tree} (h : isUnsupported s.origin option = false)
    (hoistedBefore : Nat) :
    s.Rejects option (s.readOption hoistedBefore option.1 option.2) ∨
      ∀ d, .warned d ∈ (s.readOption hoistedBefore option.1 option.2).events → s.RefusesPart option.2 d := by
  obtain ⟨kind, node⟩ := option
  have hregistration : ∀ {r : Registry} {d : Diagnostic},
      .warned d ∉ (s.readRegistration r node).events := by
    intro r d hd
    simp only [readRegistration] at hd
    split at hd
    · cases hd
    · cases hd
  cases kind with
  | name =>
    refine .inr fun d hd => ?_
    cases hd
  | data => exact readData_rejects_or hoistedBefore node
  | components => exact .inr fun d hd => absurd hd hregistration
  | directives => exact .inr fun d hd => absurd hd hregistration
  | filters => exact .inr fun d hd => absurd hd hregistration
  | computed => exact readComputed_rejects_or node
  | methods => exact readMethods_rejects_or node
  | props => exact readProps_rejects_or node
  | watch => exact readWatch_rejects_or node
  | lifecycleHook =>
    obtain ⟨f, hf⟩ := exists_form_of_hook h
    rw [readOption, readHook, hf]
    refine .inr fun d hd => ?_
    cases hd
  | unrecognized => cases h

/-- All reports about other options are refusals. -/
theorem refuses_of_mem_optionReports {option : OptionKind × Tree}
    (h : isUnsupported s.origin option = false) {d : Diagnostic} (hd : d ∈ s.optionReports option) :
    s.Refuses d := by
  have hd := mem_diagnostics.mp hd
  rcases readOption_rejects_or h 0 with hrejects | hentries
  · obtain ⟨lead, message, -, hmessage, hevents⟩ := hrejects.report
    rw [hevents] at hd
    cases List.mem_singleton.mp hd
    exact ⟨option.2, lead, message, hmessage, rfl⟩
  · exact (hentries d hd).refusesEntry.refuses

end Situation

end ClassComponent
