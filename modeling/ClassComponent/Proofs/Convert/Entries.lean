import ClassComponent.Proofs.Convert.Rejection

/-!
# Entries of options

The members of `methods`, `watch`, `props` and of the data object are read one by one, and so are the
entries of a store helper.

* **One entry** (`GivesOne`): an entry of an accepted form gives one item and no report, any other entry
  gives no item and one report. Which forms are accepted differs from option to option; `Situation.methodGives`,
  `watchGives`, `propGives`, `propElementGives`, `dataGives`, `storeGives` and `storeElementGives` say so.
* **All entries** (`Accounts`): what the option gives is what its entries give, one after the other. Readers of
  entries keep this up, whatever is read (`accounts_of_reader`).
* **Options** (`entries_each_give_one`): this holds of every option and every helper, for any number of entries.
-/

namespace ClassComponent

/-! ## Entries and what they give -/

/-- Whether an entry gives just one thing: an item if it is accepted, and a report otherwise. -/
inductive GivesOne {α : Type} (accepted : Bool) (IsItem : α → Prop) (IsReport : Diagnostic → Prop) :
    List α → List Diagnostic → Prop
  | item {item : α} (haccepted : accepted = true) (h : IsItem item) :
    GivesOne accepted IsItem IsReport [item] []
  | report {d : Diagnostic} (haccepted : accepted = false) (h : IsReport d) :
    GivesOne accepted IsItem IsReport [] [d]

/-- Whether entries, one after the other, give these items and these reports. `Gives` says what a
single entry gives. -/
inductive Accounts {α : Type} (Gives : Tree → List α → List Diagnostic → Prop) :
    List Tree → List α → List Diagnostic → Prop
  | nil : Accounts Gives [] [] []
  | cons {entry : Tree} {entries : List Tree} {items rest : List α} {reports others : List Diagnostic}
      (h : Gives entry items reports) (hrest : Accounts Gives entries rest others) :
    Accounts Gives (entry :: entries) (items ++ rest) (reports ++ others)

section Readers

variable {α : Type}

theorem items_cons (result : Except Diagnostic α) (results : List (Except Diagnostic α)) :
    items (result :: results) = items [result] ++ items results := by
  cases result <;> rfl

theorem reports_cons (result : Except Diagnostic α) (results : List (Except Diagnostic α)) :
    reports (result :: results) = reports [result] ++ reports results := by
  cases result <;> rfl

/-- The result of reading an entry is an item or a report. -/
theorem givesOne_of_result {accepted : Bool} {IsItem : α → Prop} {IsReport : Diagnostic → Prop}
    {result : Except Diagnostic α}
    (hok : ∀ item, result = .ok item → accepted = true ∧ IsItem item)
    (herror : ∀ d, result = .error d → accepted = false ∧ IsReport d) :
    GivesOne accepted IsItem IsReport (items [result]) (diagnostics (reports [result])) := by
  cases result with
  | ok item => exact .item (hok item rfl).1 (hok item rfl).2
  | error d => exact .report (herror d rfl).1 (herror d rfl).2

theorem givesOne_ite {accepted : Bool} {IsItem : α → Prop} {IsReport : Diagnostic → Prop} {item : α}
    {d : Diagnostic} (hitem : IsItem item) (hreport : IsReport d) :
    GivesOne accepted IsItem IsReport (items [if accepted then .ok item else .error d])
      (diagnostics (reports [if accepted then .ok item else .error d])) := by
  cases accepted with
  | true => exact .item rfl hitem
  | false => exact .report rfl hreport

/-- What is read entry by entry is accounted for. -/
theorem accounts_of_reader {Gives : Tree → List α → List Diagnostic → Prop}
    {read : Tree → Except Diagnostic α}
    (h : ∀ entry, Gives entry (items [read entry]) (diagnostics (reports [read entry])))
    (entries : List Tree) :
    Accounts Gives entries (items (entries.map read)) (diagnostics (reports (entries.map read))) := by
  induction entries with
  | nil => exact .nil
  | cons entry entries ih =>
    rw [List.map_cons, items_cons, reports_cons, diagnostics_append]
    exact .cons (h entry) ih

end Readers

/-! ## Forms of entries -/

namespace Tree

/-- Whether a member of an object holds a function. -/
def holdsFunction (t : Tree) : Bool :=
  t.kind == "Property" && !t.isAccessor && (t.has "method" || (t.get "value").isFunction)

/-- Whether a node is a string. -/
def isString (t : Tree) : Bool :=
  t.kind == "Literal" && (t.get "value").text?.isSome

end Tree

/-- A member has a function exactly if it holds one, and it goes by the name of the member. -/
theorem FunctionForm.ofMember?_eq (o : Origin) (t : Tree) :
    ofMember? o t =
      if t.holdsFunction then some (.ofNode (o.memberName t) (t.get "value")) else none := by
  unfold ofMember? Tree.holdsFunction
  rw [bne]
  cases t.kind == "Property" with
  | false => rfl
  | true => cases t.isAccessor <;> rfl

theorem FunctionForm.ofMember?_eq_some_iff {o : Origin} {t : Tree} {f : FunctionForm} :
    ofMember? o t = some f ↔ t.holdsFunction = true ∧ f = .ofNode (o.memberName t) (t.get "value") := by
  rw [ofMember?_eq]
  split
  · next h => simp [h, eq_comm]
  · next h => simp [h]

theorem FunctionForm.ofMember?_eq_none_iff {o : Origin} {t : Tree} :
    ofMember? o t = none ↔ t.holdsFunction = false := by
  rw [ofMember?_eq]
  split
  · next h => simp [h]
  · next h => simp [h]

namespace Situation

variable {s : Situation}

/-- Whether a report stands at `place` and begins in one of the given ways. -/
def Refused (s : Situation) (place : Tree) (leads : List RefusalLead) (d : Diagnostic) : Prop :=
  ∃ lead ∈ leads, ∃ rest : Text, d = s.report place (Text.ofString lead.text ++ rest)

/-! ## Data, methods and props -/

/-- A member of the data object gives a field named after its key, unless it is a method, an accessor or
a spread. -/
def dataGives (s : Situation) (entry : Tree) : List Field → List Diagnostic → Prop :=
  GivesOne (entry.kind == "Property" && !entry.has "method" && entry.isInit)
    (fun f => f.name = Text.propertyName (s.origin.memberName entry)) (s.Refused entry [.dataMember])

/-- A member of `methods` gives a method or a field named after its key, unless it is an accessor. A spread
gives neither; what is reported about it is up to the helper that it calls. -/
def methodGives (s : Situation) (entry : Tree) (items : List Member) (reports : List Diagnostic) : Prop :=
  if entry.kind = "SpreadElement" then items = [] ∧ reports = diagnostics (s.storeBindings entry).2
  else GivesOne (entry.holdsFunction || entry.kind == "Property" && entry.isInit)
    (fun m => m.name = Text.propertyName (s.origin.memberName entry)) (s.Refused entry [.method]) items reports

/-- A member of `props` gives a prop named after its key, unless it is a method, a shorthand or a spread. -/
def propGives (s : Situation) (entry : Tree) : List Field → List Diagnostic → Prop :=
  GivesOne (entry.kind == "Property" && !entry.has "method" && !entry.has "shorthand")
    (fun f => f.name = Text.propertyName (s.origin.memberName entry)) (s.Refused entry [.prop])

/-- Where an element of a list is reported; a hole has no place of its own. -/
def elementPlace (list element : Tree) : Tree :=
  if element.isFilled then element else list

/-- An element of `props` gives a prop if it is a string, named after it. -/
def propElementGives (s : Situation) (list element : Tree) : List Field → List Diagnostic → Prop :=
  GivesOne element.isString
    (fun f => ∃ name, element.get "value" = .text name ∧ f.name = Text.propertyName name)
    (s.Refused (elementPlace list element) [.prop])

theorem dataField_gives (entry : Tree) :
    s.dataGives entry (items [s.dataField entry]) (diagnostics (reports [s.dataField entry])) := by
  have hread : s.dataField entry =
      if entry.kind == "Property" && !entry.has "method" && entry.isInit then .ok (s.privateField entry)
      else .error (s.report entry ("unsupported data member: " ++ s.text entry)) := by
    rw [dataField, bne]
    cases entry.kind == "Property" with
    | false => rfl
    | true => cases entry.has "method" <;> cases entry.isInit <;> rfl
  rw [hread]
  exact givesOne_ite rfl ⟨.dataMember, .head _, _, rfl⟩

theorem methodMember_gives (entry : Tree) :
    GivesOne (entry.holdsFunction || entry.kind == "Property" && entry.isInit)
      (fun m : Member => m.name = Text.propertyName (s.origin.memberName entry)) (s.Refused entry [.method])
      (items [s.methodMember entry]) (diagnostics (reports [s.methodMember entry])) := by
  apply givesOne_of_result
  · intro m h
    unfold methodMember at h
    split at h
    · next f hform =>
      cases h
      obtain ⟨hfunction, rfl⟩ := FunctionForm.ofMember?_eq_some_iff.mp hform
      exact ⟨by rw [hfunction, Bool.true_or], rfl⟩
    · split at h
      · next hinit =>
        cases h
        exact ⟨by rw [hinit, Bool.or_true], rfl⟩
      · cases h
  · intro d h
    unfold methodMember at h
    split at h
    · cases h
    · next hform =>
      split at h
      · cases h
      · next hinit =>
        cases h
        refine ⟨?_, .method, .head _, _, rfl⟩
        rw [FunctionForm.ofMember?_eq_none_iff.mp hform, Bool.false_or]
        exact Bool.eq_false_iff.mpr hinit

theorem propEntry_gives (entry : Tree) :
    s.propGives entry (items [s.propEntry entry]) (diagnostics (reports [s.propEntry entry])) := by
  obtain ⟨argument, hread⟩ : ∃ argument, s.propEntry entry =
      if entry.kind == "Property" && !entry.has "method" && !entry.has "shorthand" then
        .ok (propField (s.origin.memberName entry) argument)
      else .error (s.report entry ("unsupported prop: " ++ s.text entry)) := by
    rw [propEntry, bne]
    cases entry.kind == "Property" with
    | false => exact ⟨"", rfl⟩
    | true =>
      cases entry.has "method" with
      | true => exact ⟨"", rfl⟩
      | false =>
        cases entry.has "shorthand" with
        | true => exact ⟨"", rfl⟩
        | false => exact ⟨_, rfl⟩
  rw [hread]
  exact givesOne_ite rfl ⟨.prop, .head _, _, rfl⟩

/-- An element of a list is a string or it is not. -/
theorem isString_eq_false {element : Tree}
    (h : ∀ name, element.kind = "Literal" → element.get "value" = .text name → False) :
    element.isString = false := by
  rw [Bool.eq_false_iff]
  intro hstring
  obtain ⟨hkind, hvalue⟩ := Bool.and_eq_true_iff.mp hstring
  obtain ⟨name, hname⟩ := Option.isSome_iff_exists.mp hvalue
  refine h name (beq_iff_eq.mp hkind) ?_
  cases hget : element.get "value" with
  | text value =>
    rw [hget] at hname
    cases hname
    rfl
  | _ =>
    rw [hget] at hname
    cases hname

theorem isString_eq_true {element : Tree} {name : Text} (hkind : element.kind = "Literal")
    (hvalue : element.get "value" = .text name) : element.isString = true := by
  simp [Tree.isString, hkind, hvalue, Tree.text?]

theorem propElement_gives (list element : Tree) :
    s.propElementGives list element (items [s.propElement list element])
      (diagnostics (reports [s.propElement list element])) := by
  apply givesOne_of_result
  · intro f h
    unfold propElement at h
    split at h
    · next name hkind hvalue =>
      cases h
      exact ⟨isString_eq_true hkind hvalue, name, hvalue, rfl⟩
    · cases h
  · intro d h
    unfold propElement at h
    split at h
    · cases h
    · next hother =>
      cases h
      exact ⟨isString_eq_false hother, .prop, .head _, _, rfl⟩

/-! ## Watchers -/

/-- Whether a watcher is written as an object. -/
def isSpelledOut (entry : Tree) : Bool :=
  !entry.has "method" && (entry.get "value").kind == "ObjectExpression"

/-- Whether a watcher has a function to call. -/
def isHandled (s : Situation) (entry : Tree) : Bool :=
  if isSpelledOut entry then
    (((entry.get "value").get "properties").items.find? s.isHandler).any Tree.holdsFunction
  else entry.holdsFunction

/-- The settings of a watcher: in its object, all members but the first handler. -/
def watchSettings (s : Situation) (entry : Tree) : List Tree :=
  if isSpelledOut entry then ((entry.get "value").get "properties").items.eraseP s.isHandler else []

/-- The decorator of a watcher of `path`: the settings are listed after the path, in order. -/
def watchDecorator (s : Situation) (path : Text) (settings : List Tree) : Text :=
  if settings.isEmpty then "@Watch(" ++ Text.quote path ++ ")"
  else
    "@Watch(" ++ Text.quote path ++ ", " ++
      ("\x7b " ++ Text.intercalate ", " (settings.map s.text) ++ " \x7d") ++ ")"

/-- An entry of `watch` gives a watcher of its key, with all its settings, if it has a function to call. -/
def watchGives (s : Situation) (entry : Tree) : List Method → List Diagnostic → Prop :=
  GivesOne (entry.kind == "Property" && s.isHandled entry)
    (fun m => m.name = Text.watcherName (s.origin.memberName entry) ∧
      m.decorators = [s.watchDecorator (s.origin.memberName entry) (s.watchSettings entry)])
    (s.Refused entry [.watcher, .noHandler, .otherHandler])

/-- The settings are what is left when the first handler is taken out. -/
theorem splitHandler_eq (members : List Tree) :
    s.splitHandler members = ((members.find? s.isHandler).getD .null, members.eraseP s.isHandler) := by
  unfold splitHandler
  induction members with
  | nil => rfl
  | cons t members ih =>
    -- A handler at the head is the first one; any other head is a setting, whether a handler follows or not.
    by_cases ht : s.isHandler t
    · simp [ht]
    · simp only [List.find?_cons, List.takeWhile_cons, List.dropWhile_cons, List.eraseP_cons, ht]
      cases hfind : members.find? s.isHandler with
      | none =>
        rw [hfind] at ih
        simpa using (Prod.mk.inj ih).2
      | some handler =>
        rw [hfind] at ih
        simpa using (Prod.mk.inj ih).2

theorem intercalate_pair (separator x y : Text) :
    Text.intercalate separator [x, y] = x ++ separator ++ y := by
  refine Text.eq_of_points ?_
  rw [Text.intercalate, List.map_cons, List.map_cons, List.map_nil, List.intercalate_cons_cons,
    List.intercalate_singleton]
  rfl

theorem watcher_decorators (f : FunctionForm) (path : Text) (settings : List Tree) :
    (s.watcher f path settings).decorators = [s.watchDecorator path settings] := by
  unfold watcher watchDecorator
  cases settings with
  | nil =>
    have hpath : Text.intercalate ", " [Text.quote path] = Text.quote path := by
      refine Text.eq_of_points ?_
      rw [Text.intercalate, List.map_singleton, List.intercalate_singleton]
    simp [FunctionForm.toMethod, hpath]
  | cons setting settings => simp [FunctionForm.toMethod, Text.append_assoc, intercalate_pair]

theorem watchEntry_gives (entry : Tree) :
    s.watchGives entry (items [s.watchEntry entry]) (diagnostics (reports [s.watchEntry entry])) := by
  have hsplit := splitHandler_eq (s := s) ((entry.get "value").get "properties").items
  apply givesOne_of_result
  · intro m h
    -- Both forms of a watcher come down to a member that holds a function: the first handler, or the entry.
    simp only [watchEntry, hsplit] at h
    split at h
    · cases h
    · next hkind =>
      have hproperty : entry.kind == "Property" := by simpa using hkind
      split at h
      · next hspelled =>
        split at h
        · next f hform =>
          cases h
          have hhandled : s.isHandled entry = true := by
            have hfunction := (FunctionForm.ofMember?_eq_some_iff.mp hform).1
            cases hfind : ((entry.get "value").get "properties").items.find? s.isHandler with
            | none =>
              rw [hfind] at hfunction
              cases hfunction
            | some handler =>
              rw [hfind] at hfunction
              simpa [isHandled, isSpelledOut, hspelled, hfind] using hfunction
          refine ⟨by rw [hproperty, hhandled]; rfl, rfl, ?_⟩
          rw [watcher_decorators, watchSettings, isSpelledOut, if_pos hspelled]
        · cases h
      · next hspelled =>
        split at h
        · next f hform =>
          cases h
          have hhandled : s.isHandled entry = true := by
            rw [isHandled, isSpelledOut, if_neg hspelled]
            exact (FunctionForm.ofMember?_eq_some_iff.mp hform).1
          refine ⟨by rw [hproperty, hhandled]; rfl, rfl, ?_⟩
          rw [watcher_decorators, watchSettings, isSpelledOut, if_neg hspelled]
        · cases h
  · intro d h
    simp only [watchEntry, hsplit] at h
    split at h
    · next hkind =>
      cases h
      have hproperty : (entry.kind == "Property") = false := by simpa using hkind
      exact ⟨by rw [hproperty]; rfl, .watcher, by simp, _, rfl⟩
    · split at h
      · next hspelled =>
        split at h
        · cases h
        · next hform =>
          cases h
          have hhandled : s.isHandled entry = false := by
            have hfunction := FunctionForm.ofMember?_eq_none_iff.mp hform
            rw [isHandled, isSpelledOut, if_pos hspelled]
            cases hfind : ((entry.get "value").get "properties").items.find? s.isHandler with
            | none => rfl
            | some handler =>
              rw [hfind] at hfunction
              exact hfunction
          exact ⟨by rw [hhandled, Bool.and_false], .noHandler, by simp, _, rfl⟩
      · next hspelled =>
        split at h
        · cases h
        · next hform =>
          cases h
          have hhandled : s.isHandled entry = false := by
            rw [isHandled, isSpelledOut, if_neg hspelled]
            exact FunctionForm.ofMember?_eq_none_iff.mp hform
          exact ⟨by rw [hhandled, Bool.and_false], .otherHandler, by simp, _, rfl⟩

/-! ## Store helpers -/

/-- An entry of a helper's object gives a binding of its key if it holds a function or a name. -/
def storeGives (s : Situation) (tool : StoreTool) (scope? : Option Text) (entry : Tree) :
    List StoreBinding → List Diagnostic → Prop :=
  GivesOne (entry.holdsFunction || entry.kind == "Property" && (entry.get "value").kind == "Identifier")
    (fun b => b.tool = tool ∧ b.scope? = scope? ∧ b.name = s.origin.memberName entry)
    (s.Refused entry [.mappedFunction])

/-- An element of a helper's list gives a binding if it is a string, named after it. -/
def storeElementGives (s : Situation) (tool : StoreTool) (scope? : Option Text) (list element : Tree) :
    List StoreBinding → List Diagnostic → Prop :=
  GivesOne element.isString
    (fun b => b.tool = tool ∧ b.scope? = scope? ∧ element.get "value" = .text b.name)
    (s.Refused (elementPlace list element) [.mapped])

theorem storeEntry_gives (tool : StoreTool) (scope? : Option Text) (entry : Tree) :
    s.storeGives tool scope? entry (items [s.storeEntry tool scope? entry])
      (diagnostics (reports [s.storeEntry tool scope? entry])) := by
  apply givesOne_of_result
  · intro b h
    simp only [storeEntry] at h
    split at h
    · next f hform =>
      cases h
      obtain ⟨hfunction, rfl⟩ := FunctionForm.ofMember?_eq_some_iff.mp hform
      exact ⟨by rw [hfunction, Bool.true_or], rfl, rfl, rfl⟩
    · split at h
      · next hname =>
        cases h
        exact ⟨by rw [hname, Bool.or_true], rfl, rfl, rfl⟩
      · cases h
  · intro d h
    simp only [storeEntry] at h
    split at h
    · cases h
    · next hform =>
      split at h
      · cases h
      · next hname =>
        cases h
        refine ⟨?_, .mappedFunction, .head _, _, rfl⟩
        rw [FunctionForm.ofMember?_eq_none_iff.mp hform, Bool.false_or]
        exact Bool.eq_false_iff.mpr hname

theorem storeElement_gives (tool : StoreTool) (scope? : Option Text) (list element : Tree) :
    s.storeElementGives tool scope? list element (items [s.storeElement tool scope? list element])
      (diagnostics (reports [s.storeElement tool scope? list element])) := by
  apply givesOne_of_result
  · intro b h
    unfold storeElement at h
    split at h
    · next name hkind hvalue =>
      cases h
      exact ⟨isString_eq_true hkind hvalue, rfl, rfl, hvalue⟩
    · cases h
  · intro d h
    unfold storeElement at h
    split at h
    · cases h
    · next hother =>
      cases h
      exact ⟨isString_eq_false hother, .mapped, .head _, _, rfl⟩

/-- The helper that a spread calls: its name, and the part of the store that it belongs to. -/
def spreadHelper (s : Situation) (spread : Tree) : Text × Option Text :=
  s.storeHelper ((spread.get "argument").get "callee")

/-- The argument of the helper that a spread calls. -/
def helperArgument (spread : Tree) : Tree :=
  ((spread.get "argument").get "arguments").items.headD .null

/-- Whether a spread calls a helper that stands for `tool`. -/
structure CallsHelper (s : Situation) (spread : Tree) (tool : StoreTool) : Prop where
  call : (spread.get "argument").kind = "CallExpression"
  isMapHelper : StoreTool.isMapHelper (s.spreadHelper spread).1
  tool : StoreTool.ofHelper? (s.spreadHelper spread).1 = some tool

theorem storeBindings_of_callsHelper {spread : Tree} {tool : StoreTool} (h : s.CallsHelper spread tool)
    {results : List (Except Diagnostic StoreBinding)}
    (hresults : s.storeEntries? tool (s.spreadHelper spread).2 (helperArgument spread) = some results) :
    (s.storeBindings spread).1 = items results ∧
      diagnostics (s.storeBindings spread).2 = diagnostics (reports results) := by
  obtain ⟨hcall, hmap, htool⟩ := h
  unfold spreadHelper at hmap htool hresults
  unfold helperArgument at hresults
  have hbindings : s.storeBindings spread = (items results, reports results ++
      [.helperRead (s.storeHelper ((spread.get "argument").get "callee")).1 (items results).length]) := by
    simp only [storeBindings, hcall, hmap, htool, hresults, bne_self_eq_false, Bool.false_eq_true, if_false,
      if_true]
  rw [hbindings]
  exact ⟨rfl, by rw [diagnostics_append]; exact List.append_nil _⟩

/-! ## Options -/

/-- The object that a data option returns; `null` if the option is no function. -/
def returnedObject (s : Situation) (option : Tree) : Tree :=
  match FunctionForm.ofMember? s.origin option with
  | some f => (s.dataParts f.body).2
  | none => .null

/-- An option of entries replaces what its slot holds. -/
theorem accounts_of_ofEntries (slot : ListSlot) {Gives : Tree → List slot.Item → List Diagnostic → Prop}
    {read : Tree → Except Diagnostic slot.Item}
    (h : ∀ entry, Gives entry (items [read entry]) (diagnostics (reports [read entry])))
    {option : OptionKind × Tree} {entries : List Tree}
    (hread : s.readOption 0 option.1 option.2 = .ofEntries slot (entries.map read)) (c : Component)
    (log : List Event) :
    Accounts Gives entries ((s.addOption (c, log) option).1.getList slot) (s.optionReports option) := by
  have hitems : (s.addOption (c, log) option).1.getList slot = items (entries.map read) := by
    rw [addOption_component, optionUpdates, hread]
    exact Component.getList_put_self c slot _
  rw [hitems, optionReports, hread]
  exact accounts_of_reader h entries

/-- What a data option changes: the hoisted statements if it has any, and the fields if it returns an object. -/
theorem readData_updates (option : Tree) :
    (s.readData 0 option).updates =
      (if (s.hoistedBy (.data, option)).isEmpty then []
        else [.put (.list .hoisted) (s.hoistedBy (.data, option))]) ++
      if (s.returnedObject option).kind = "ObjectExpression" then
        [.put (.list .data) (items (((s.returnedObject option).get "properties").items.map s.dataField))]
      else [] := by
  unfold readData hoistedBy returnedObject
  cases FunctionForm.ofMember? s.origin option with
  | none => rfl
  | some f =>
    by_cases hbody : f.body.isFilled
    · by_cases hkind : (s.dataParts f.body).2.kind = "ObjectExpression"
      · simp [hbody, hkind]
      · simp [hbody, hkind]
    · have hkind : f.body.kind = "" := by
        by_contra hne
        exact hbody (Tree.isFilled_of_kind hne)
      simp [hbody, dataParts, hkind]

theorem readData_reports {option : Tree} (h : (s.returnedObject option).kind = "ObjectExpression") :
    diagnostics (s.readData 0 option).events =
      diagnostics (reports (((s.returnedObject option).get "properties").items.map s.dataField)) := by
  unfold returnedObject at h ⊢
  unfold readData
  cases hform : FunctionForm.ofMember? s.origin option with
  | none =>
    rw [hform] at h
    have hnull : Tree.null.kind = "ObjectExpression" := h
    exact absurd hnull (by decide)
  | some f =>
    rw [hform] at h
    have hbody : f.body.isFilled = true := by
      refine Tree.isFilled_of_kind fun hkind => ?_
      simp [dataParts, hkind] at h
    simp only [hbody, Bool.not_true, Bool.false_eq_true, if_false, h, beq_self_eq_true, if_true,
      Finding.events_append, Finding.events_ofEntries, diagnostics_append]
    exact List.append_nil _

theorem accounts_data {option : Tree} (h : (s.returnedObject option).kind = "ObjectExpression")
    (c : Component) (log : List Event) :
    Accounts s.dataGives ((s.returnedObject option).get "properties").items
      (s.addOption (c, log) (.data, option)).1.data (s.optionReports (.data, option)) := by
  have hdata : (s.addOption (c, log) (.data, option)).1.data =
      items (((s.returnedObject option).get "properties").items.map s.dataField) := by
    rw [addOption_component, optionUpdates, readOption, readData_updates, if_pos h, Component.applyAll_append]
    exact Component.getList_put_self _ .data _
  rw [hdata, optionReports, readOption, readData_reports h]
  exact accounts_of_reader dataField_gives _

theorem methodMembers_cons (entry : Tree) (entries : List Tree) :
    s.methodMembers (entry :: entries) = s.methodMembers [entry] ++ s.methodMembers entries := by
  by_cases hspread : entry.kind = "SpreadElement"
  · simp [methodMembers, hspread, items]
  · have hkept (rest : List Tree) : (entry :: rest).filter (·.kind != "SpreadElement") =
        entry :: rest.filter (·.kind != "SpreadElement") := List.filter_cons_of_pos (by simpa using hspread)
    rw [methodMembers, methodMembers, hkept, hkept, List.map_cons, items_cons]
    rfl

/-- The entries of `methods`, spreads among them. -/
theorem accounts_methodFinding (entries : List Tree) :
    Accounts s.methodGives entries (s.methodMembers entries)
      (diagnostics (Finding.concat (entries.map s.methodFinding)).events) := by
  induction entries with
  | nil => exact .nil
  | cons entry entries ih =>
    rw [Finding.events_concat, List.flatMap_map] at ih ⊢
    rw [List.flatMap_cons, diagnostics_append, methodMembers_cons]
    refine .cons ?_ ih
    by_cases hspread : entry.kind = "SpreadElement"
    · simp [methodGives, methodMembers, methodFinding, storeSpread, hspread, items]
    · simpa [methodGives, methodMembers, methodFinding, hspread] using methodMember_gives (s := s) entry

end Situation

namespace Finding

/-- The items that a finding adds to a slot. -/
def added (f : Finding) (slot : ListSlot) : List slot.Item :=
  f.updates.flatMap (·.added slot)

theorem added_append (a b : Finding) (slot : ListSlot) :
    (a ++ b).added slot = a.added slot ++ b.added slot :=
  List.flatMap_append

theorem added_concat (findings : List Finding) (slot : ListSlot) :
    (concat findings).added slot = findings.flatMap (·.added slot) :=
  List.flatMap_assoc

end Finding

namespace Situation

variable {s : Situation}

/-- The slots that are only ever added to. -/
def grownSlots : List ListSlot :=
  [.computed, .methods, .stores, .lifecycleHooks]

theorem Writes.keeps {kind : OptionKind} {u : Update} (h : s.Writes kind u) {slot : ListSlot}
    (hslot : slot ∈ grownSlots) : u.Keeps slot := by
  cases h with
  | hoisted | data | propElements | propEntries | watch =>
    rintro ⟨⟩
    simp [grownSlots] at hslot
  | name | registry => exact nofun
  | _ => trivial

theorem getList_addOption {slot : ListSlot} (hslot : slot ∈ grownSlots) (c : Component) (log : List Event)
    (option : OptionKind × Tree) :
    (s.addOption (c, log) option).1.getList slot =
      c.getList slot ++ (s.readOption 0 option.1 option.2).added slot := by
  rw [addOption_component]
  exact Component.getList_applyAll (fun _ hu => (readOption_writes hu).keeps hslot) c

theorem storeSpread_added {slot : ListSlot} (hslot : slot ≠ .stores) (spread : Tree) :
    (s.storeSpread spread).added slot = [] := by
  simp only [storeSpread, Finding.added]
  split
  · rfl
  · simp [Update.added, hslot.symm]

theorem methodFinding_added (entry : Tree) : (s.methodFinding entry).added .methods = [] := by
  unfold methodFinding
  split
  · exact storeSpread_added (by decide) entry
  · rfl

theorem readMethods_added {option : Tree} (h : (option.get "value").kind = "ObjectExpression") :
    (s.readMethods option).added .methods = s.methodMembers ((option.get "value").get "properties").items := by
  simp only [readMethods, h, beq_self_eq_true, if_true]
  rw [Finding.added_append, Finding.added_concat, List.flatMap_map]
  rw [List.flatMap_eq_nil_iff.mpr fun entry _ => methodFinding_added entry, List.nil_append, Finding.added]
  split
  · next hempty => exact (List.isEmpty_iff.mp hempty).symm
  · exact List.flatMap_singleton _ _

theorem accounts_methods {option : Tree} (h : (option.get "value").kind = "ObjectExpression") (c : Component)
    (log : List Event) :
    ∃ methods, (s.addOption (c, log) (.methods, option)).1.methods = c.methods ++ methods ∧
      Accounts s.methodGives ((option.get "value").get "properties").items methods
        (s.optionReports (.methods, option)) := by
  refine ⟨s.methodMembers ((option.get "value").get "properties").items, ?_, ?_⟩
  · exact (getList_addOption (by decide) c log (.methods, option)).trans (congrArg _ (readMethods_added h))
  · have hevents : (s.readMethods option).events =
        (Finding.concat (((option.get "value").get "properties").items.map s.methodFinding)).events := by
      simp only [readMethods, h, beq_self_eq_true, if_true, Finding.events_append, List.append_nil]
    rw [optionReports, readOption, hevents]
    exact accounts_methodFinding _

end Situation

/-- **Entries are neither lost nor repeated.** Whatever an option of entries held before, and however many
entries there are: every entry gives one item and no report, or no item and one report, the items stand in the
order of the entries, and the log grows by these reports. This holds of the members of `methods`, spreads apart, of `watch`, of `props` in
both of its forms, of the object that `data` returns, and of the entries of a store helper in both of its
forms. A watcher has all settings of its object, in order. -/
theorem entries_each_give_one (s : Situation) (option : Tree) (c : Component) (log : List Event) :
    let value := option.get "value"
    let after (kind : OptionKind) : Component := (s.addOption (c, log) (kind, option)).1
    let reports (kind : OptionKind) : List Diagnostic := s.optionReports (kind, option)
    (∀ kind, diagnostics (s.addOption (c, log) (kind, option)).2 = diagnostics log ++ reports kind) ∧
    (value.kind = "ObjectExpression" →
      (∃ methods, (after .methods).methods = c.methods ++ methods ∧
        Accounts s.methodGives (value.get "properties").items methods (reports .methods)) ∧
      Accounts s.watchGives (value.get "properties").items (after .watch).watch (reports .watch) ∧
      Accounts s.propGives (value.get "properties").items (after .props).props (reports .props)) ∧
    (value.kind = "ArrayExpression" →
      Accounts (s.propElementGives value) (value.get "elements").items (after .props).props (reports .props)) ∧
    ((s.returnedObject option).kind = "ObjectExpression" →
      Accounts s.dataGives ((s.returnedObject option).get "properties").items (after .data).data
        (reports .data)) ∧
    ∀ spread tool, s.CallsHelper spread tool →
      let argument := Situation.helperArgument spread
      let scope? := (s.spreadHelper spread).2
      let bindings := (s.storeBindings spread).1
      let refusals := diagnostics (s.storeBindings spread).2
      (argument.kind = "ObjectExpression" →
        Accounts (s.storeGives tool scope?) (argument.get "properties").items bindings refusals) ∧
      (argument.kind = "ArrayExpression" →
        Accounts (s.storeElementGives tool scope? argument) (argument.get "elements").items bindings
          refusals) := by
  refine ⟨fun kind => Situation.addOption_reports c log (kind, option),
    fun hvalue => ⟨Situation.accounts_methods hvalue c log, ?_, ?_⟩, fun hvalue => ?_,
    fun hreturned => Situation.accounts_data hreturned c log,
    fun spread tool hcall => ⟨fun hkind => ?_, fun hkind => ?_⟩⟩
  · refine Situation.accounts_of_ofEntries .watch Situation.watchEntry_gives ?_ c log
    simp only [Situation.readOption, Situation.readWatch, hvalue, beq_self_eq_true, if_true]
  · refine Situation.accounts_of_ofEntries .props Situation.propEntry_gives ?_ c log
    simp [Situation.readOption, Situation.readProps, hvalue]
  · refine Situation.accounts_of_ofEntries .props (Situation.propElement_gives (option.get "value")) ?_ c log
    simp [Situation.readOption, Situation.readProps, hvalue]
  · have hresults : s.storeEntries? tool (s.spreadHelper spread).2 (Situation.helperArgument spread) =
        some (((Situation.helperArgument spread).get "properties").items.map
          (s.storeEntry tool (s.spreadHelper spread).2)) := by
      simp [Situation.storeEntries?, hkind]
    obtain ⟨hbindings, hrefusals⟩ := Situation.storeBindings_of_callsHelper hcall hresults
    rw [hbindings, hrefusals]
    exact accounts_of_reader (Situation.storeEntry_gives tool _) _
  · have hresults : s.storeEntries? tool (s.spreadHelper spread).2 (Situation.helperArgument spread) =
        some (((Situation.helperArgument spread).get "elements").items.map
          (s.storeElement tool (s.spreadHelper spread).2 (Situation.helperArgument spread))) := by
      simp [Situation.storeEntries?, hkind]
    obtain ⟨hbindings, hrefusals⟩ := Situation.storeBindings_of_callsHelper hcall hresults
    rw [hbindings, hrefusals]
    exact accounts_of_reader (Situation.storeElement_gives tool _ _) _

/-- A script with a watcher in an object of settings that has two handlers, and two entries that are no
watchers. -/
def watchingScript : String :=
  "export default \x7b\n  watch: \x7b\n    a: \x7b deep: true, handler() \x7b\x7d, handler: b \x7d,\n" ++
    "    c: 1,\n    ...d,\n  \x7d,\n\x7d;\n"

theorem entries_of_watchingScript :
    ∃ tree origin option, Script.parse watchingScript true = .ok tree ∧
      Origin.of? watchingScript (tree.get "tokens").items = some origin ∧
      scriptOptions origin tree = [(.watch, option)] ∧
      let s : Situation := ⟨origin, "Demo.vue", true⟩
      let entries := ((option.get "value").get "properties").items
      let watch := (s.addOption ({}, []) (.watch, option)).1.watch
      let reports := diagnostics (s.addOption ({}, []) (.watch, option)).2
      (option.get "value").kind = "ObjectExpression" ∧ entries.length = 3 ∧
        watch.flatMap (·.decorators) = [Text.ofString "@Watch(\"a\", \x7b deep: true, handler: b \x7d)"] ∧
        reports.length = 2 ∧ Accounts s.watchGives entries watch reports := by
  have hread : (soleOption? watchingScript).any (fun (_, origin, option) =>
      let s : Situation := ⟨origin, "Demo.vue", true⟩
      option.1 = .watch ∧ (option.2.get "value").kind = "ObjectExpression" ∧
        ((option.2.get "value").get "properties").items.length = 3 ∧
        (s.addOption ({}, []) option).1.watch.flatMap Method.decorators =
          [Text.ofString "@Watch(\"a\", \x7b deep: true, handler: b \x7d)"] ∧
        (diagnostics (s.addOption ({}, []) option).2).length = 2) = true := by
    decide +kernel
  obtain ⟨⟨tree, origin, kind, option⟩, hscript, hvalues⟩ := (Option.any_eq_true _ _).mp hread
  obtain ⟨htree, horigin, hoptions⟩ := of_soleOption? hscript
  obtain ⟨rfl, hvalue, hlength, hwatch, hreports⟩ := of_decide_eq_true hvalues
  obtain ⟨hlog, hobject, -⟩ := entries_each_give_one ⟨origin, "Demo.vue", true⟩ option {} []
  refine ⟨tree, origin, option, htree, horigin, hoptions, hvalue, hlength, hwatch, hreports, ?_⟩
  have hnew : diagnostics (Situation.addOption ⟨origin, "Demo.vue", true⟩ ({}, []) (.watch, option)).2 = _ :=
    hlog .watch
  rw [hnew]
  exact (hobject hvalue).2.1

end ClassComponent
