import ClassComponent.Proofs.Convert.Origin
import ClassComponent.Proofs.Convert.Reports

/-!
# Options that are not converted

Such options are kept in the decorator of the class, or dropped. Two readings of one script that differ
only in this are compared (`keeping_unsupported_is_local`):

* the components are equal but for the slot of kept options, which holds all options that are not
  converted, or nothing (`Situation.clear_gather_keeping`, `Situation.unsupportedOptions_gather`);
* the reports correspond one by one, and differ only for options that are not converted
  (`Situation.forall₂_reports`, `Situation.filter_reports`).

Which reports these are is read off their messages, since no refusal begins like them
(`Situation.Refuses.not_isUnsupported`).
-/

namespace ClassComponent

open Text

/-! ## How restored texts begin -/

/-- Whether a text has neither line breaks nor private-use characters. -/
def Text.IsSettled (t : Text) : Prop :=
  ∀ p ∈ t.points, p ≠ lineBreak ∧ p.toNat < 0xE000

instance (t : Text) : Decidable t.IsSettled :=
  inferInstanceAs (Decidable (∀ p ∈ t.points, p ≠ lineBreak ∧ p.toNat < 0xE000))

/-- A settled beginning neither comes nor goes when line breaks are put back. -/
theorem Origin.startsWith_restore {source : Text} {tokens : List Tree} {o : Origin}
    (ho : of? source tokens = some o) {lead : String} (hlead : (ofString lead).IsSettled) (text : Text) :
    (o.restore text).startsWith lead ↔ text.startsWith lead := by
  obtain ⟨f, hrestore, hf, -⟩ := masks_of? ho
  rw [startsWith_iff, startsWith_iff, hrestore]
  constructor
  · rintro ⟨rest, hrest⟩
    obtain ⟨front, back, htext, hfront, -⟩ := List.map_eq_append_iff.mp hrest.symm
    have hsame : front.map f = front := by
      refine (List.map_congr_left fun p hp => ?_).trans (List.map_id' front)
      rcases hf p with h | ⟨h, -⟩
      · exact h
      · exact absurd h (hlead (f p) (hfront ▸ List.mem_map_of_mem hp)).1
    rw [htext, ← hfront, hsame]
    exact List.prefix_append front back
  · intro h
    have hsame : (ofString lead).points.map f = (ofString lead).points := by
      refine (List.map_congr_left fun p hp => ?_).trans (List.map_id' _)
      rcases hf p with h | ⟨-, c, hc, rfl⟩
      · exact h
      · have hle := le_toNat_of_marker hc
        exact absurd (hlead _ hp).2 (Nat.not_lt.mpr hle)
    exact hsame ▸ h.map f

/-! ## Reports about options that are not converted -/

/-- How reports about options that are not converted begin. -/
def unsupportedLead : String := "unsupported option api"

/-- Whether a report is about an option that is not converted. -/
def Diagnostic.isUnsupported (d : Diagnostic) : Bool :=
  d.message.startsWith unsupportedLead

namespace Situation

variable {s : Situation} {source : Text} {tokens : List Tree}

theorem isUnsupported_report (ho : Origin.of? source tokens = some s.origin) (t : Tree) (message : Text) :
    (s.report t message).isUnsupported ↔ message.startsWith unsupportedLead :=
  Origin.startsWith_restore ho (by decide) message

/-- Refusals begin otherwise. -/
theorem Refuses.not_isUnsupported (ho : Origin.of? source tokens = some s.origin) {d : Diagnostic}
    (h : s.Refuses d) : d.isUnsupported = false := by
  obtain ⟨t, lead, message, hlead, rfl⟩ := h
  -- One character tells them apart: the first one of `option`.
  have hother : lead.text.toList[12]?.any (· ≠ 'o') := by
    cases lead <;> decide +kernel
  have hoption : unsupportedLead.toList[12]? = some 'o' := by decide +kernel
  rw [Bool.eq_false_iff, Ne, isUnsupported_report ho]
  intro hunsupported
  obtain ⟨c, hc, hne⟩ := (Option.any_eq_true _ _).mp hother
  exact of_decide_eq_true hne (eq_of_getElem? hlead hunsupported hc hoption)

/-- What is reported about an option that is not converted. -/
def unsupportedReport (s : Situation) (option : Tree) : Diagnostic :=
  s.report option <|
    if s.keepsUnsupported then "unsupported option api, kept in @Component options: " ++ s.text option
    else "unsupported option api, dropped: " ++ s.text option

theorem isUnsupported_unsupportedReport (ho : Origin.of? source tokens = some s.origin) (option : Tree) :
    (s.unsupportedReport option).isUnsupported := by
  rw [unsupportedReport, isUnsupported_report ho]
  split
  · exact startsWith_append (by decide +kernel) _
  · exact startsWith_append (by decide +kernel) _

/-- An option that is not converted, as it is kept. -/
def keptText (s : Situation) (option : Tree) : Text :=
  reindent (s.text option) ""

theorem optionReports_of_isUnsupported {option : OptionKind × Tree}
    (h : isUnsupported s.origin option = true) :
    s.optionReports option = [s.unsupportedReport option.2] := by
  rw [optionReports, readOption_of_isUnsupported h, readUnsupported, unsupportedReport]
  split
  · rfl
  · rfl

theorem optionUpdates_of_isUnsupported {option : OptionKind × Tree}
    (h : isUnsupported s.origin option = true) :
    s.optionUpdates option =
      if s.keepsUnsupported then [.append .unsupportedOptions [s.keptText option.2]] else [] := by
  rw [optionUpdates, readOption_of_isUnsupported h, readUnsupported]
  split
  · rfl
  · rfl

/-- Other options leave the slot of kept options alone. -/
theorem slot_ne_of_not_isUnsupported {option : OptionKind × Tree}
    (h : isUnsupported s.origin option = false) {u : Update} (hu : u ∈ s.optionUpdates option) :
    u.slot ≠ .list .unsupportedOptions := by
  obtain ⟨kind, node⟩ := option
  by_cases hkind : kind = .lifecycleHook
  · subst hkind
    obtain ⟨f, hf⟩ := exists_form_of_hook h
    rw [optionUpdates, readOption, readHook, hf] at hu
    cases List.mem_singleton.mp hu
    intro hslot
    cases hslot
  · cases readOption_writes hu with
    | unsupported hk =>
      rcases hk with rfl | rfl
      · exact absurd rfl hkind
      · cases h
    | _ =>
      intro hslot
      cases hslot

/-- Reading other options does not depend on what becomes of those that are not converted. -/
theorem readOption_switch {o : Origin} {option : OptionKind × Tree} (h : isUnsupported o option = false)
    (file : Text) :
    readOption ⟨o, file, true⟩ 0 option.1 option.2 = readOption ⟨o, file, false⟩ 0 option.1 option.2 := by
  obtain ⟨kind, node⟩ := option
  cases kind with
  | lifecycleHook =>
    obtain ⟨f, hf⟩ := exists_form_of_hook h
    simp only [readOption, readHook, hf]
  | unrecognized => cases h
  | _ => rfl

theorem optionReports_switch {o : Origin} {option : OptionKind × Tree}
    (h : isUnsupported o option = false) (file : Text) :
    optionReports ⟨o, file, true⟩ option = optionReports ⟨o, file, false⟩ option :=
  congrArg (fun finding : Finding => diagnostics finding.events) (readOption_switch h file)

theorem optionUpdates_switch {o : Origin} {option : OptionKind × Tree}
    (h : isUnsupported o option = false) (file : Text) :
    optionUpdates ⟨o, file, true⟩ option = optionUpdates ⟨o, file, false⟩ option :=
  congrArg Finding.updates (readOption_switch h file)

/-! ## Two readings -/

/-- Whether two reports are about the same thing, and are equal unless this is an option that is not
converted. -/
structure Corresponds (d d' : Diagnostic) : Prop where
  file : d'.file = d.file
  line : d'.line? = d.line?
  isUnsupported : d'.isUnsupported = d.isUnsupported
  same : d.isUnsupported = false → d' = d

theorem forall₂_optionReports {o : Origin} {file : Text} (ho : Origin.of? source tokens = some o)
    (option : OptionKind × Tree) :
    List.Forall₂ Corresponds (optionReports ⟨o, file, true⟩ option)
      (optionReports ⟨o, file, false⟩ option) := by
  cases h : isUnsupported o option with
  | true =>
    have hkept := isUnsupported_unsupportedReport (s := ⟨o, file, true⟩) ho option.2
    have hdropped := isUnsupported_unsupportedReport (s := ⟨o, file, false⟩) ho option.2
    rw [optionReports_of_isUnsupported (s := ⟨o, file, true⟩) h,
      optionReports_of_isUnsupported (s := ⟨o, file, false⟩) h]
    refine .cons ⟨rfl, rfl, hdropped.trans hkept.symm, fun hnot => ?_⟩ .nil
    rw [hkept] at hnot
    cases hnot
  | false =>
    rw [optionReports_switch h]
    exact List.forall₂_same.mpr fun d _ => ⟨rfl, rfl, rfl, fun _ => rfl⟩

theorem forall₂_reports {o : Origin} {file : Text} (ho : Origin.of? source tokens = some o)
    (options : List (OptionKind × Tree)) :
    List.Forall₂ Corresponds (options.flatMap (optionReports ⟨o, file, true⟩))
      (options.flatMap (optionReports ⟨o, file, false⟩)) := by
  induction options with
  | nil => exact .nil
  | cons option options ih =>
    rw [List.flatMap_cons, List.flatMap_cons]
    exact List.rel_append (forall₂_optionReports ho option) ih

/-- The options among `options` that are not converted. -/
def unsupported (o : Origin) (options : List (OptionKind × Tree)) : List Tree :=
  (options.filter (isUnsupported o)).map (·.2)

theorem flatMap_unsupported {α : Type} (o : Origin) (f : Tree → α) (options : List (OptionKind × Tree)) :
    (options.flatMap fun option => if isUnsupported o option then [f option.2] else []) =
      (unsupported o options).map f := by
  induction options with
  | nil => rfl
  | cons option options ih =>
    rw [List.flatMap_cons, ih, unsupported, unsupported]
    cases h : isUnsupported o option with
    | true =>
      rw [List.filter_cons_of_pos h]
      rfl
    | false =>
      rw [List.filter_cons_of_neg (by rw [h]; exact Bool.false_ne_true)]
      rfl

/-- Reports about options that are not converted are made for these options, one for each. -/
theorem filter_reports (ho : Origin.of? source tokens = some s.origin)
    (options : List (OptionKind × Tree)) :
    (options.flatMap s.optionReports).filter (·.isUnsupported) =
      (unsupported s.origin options).map s.unsupportedReport := by
  have hoption : ∀ option : OptionKind × Tree, (s.optionReports option).filter (·.isUnsupported) =
      if isUnsupported s.origin option then [s.unsupportedReport option.2] else [] := by
    intro option
    cases h : isUnsupported s.origin option with
    | true =>
      rw [optionReports_of_isUnsupported h, if_pos rfl,
        List.filter_cons_of_pos (isUnsupported_unsupportedReport ho option.2), List.filter_nil]
    | false =>
      rw [if_neg Bool.false_ne_true]
      refine List.filter_eq_nil_iff.mpr fun d hd => ?_
      rw [(refuses_of_mem_optionReports h hd).not_isUnsupported ho]
      exact Bool.false_ne_true
  rw [List.filter_flatMap, ← flatMap_unsupported]
  simp only [hoption]

/-- Dropping options gives what keeping them does, but for the slot that they are kept in. -/
theorem clear_gather_keeping (o : Origin) (file : Text) (options : List (OptionKind × Tree)) :
    (gather ⟨o, file, true⟩ options).clear .unsupportedOptions = gather ⟨o, file, false⟩ options := by
  have hoption : ∀ option : OptionKind × Tree,
      (optionUpdates ⟨o, file, true⟩ option).filter (·.slot ≠ .list .unsupportedOptions) =
        optionUpdates ⟨o, file, false⟩ option := by
    intro option
    cases h : isUnsupported o option with
    | true =>
      rw [optionUpdates_of_isUnsupported (s := ⟨o, file, true⟩) h,
        optionUpdates_of_isUnsupported (s := ⟨o, file, false⟩) h]
      rfl
    | false =>
      rw [optionUpdates_switch h]
      refine List.filter_eq_self.mpr fun u hu => ?_
      exact decide_eq_true (slot_ne_of_not_isUnsupported (s := ⟨o, file, false⟩) h hu)
  rw [clear_gather rfl]
  simp only [hoption]
  rfl

/-- The slot of kept options holds all options that are not converted. -/
theorem unsupportedOptions_gather (o : Origin) (file : Text) (options : List (OptionKind × Tree)) :
    (gather ⟨o, file, true⟩ options).unsupportedOptions =
      (unsupported o options).map (keptText ⟨o, file, true⟩) := by
  have hkeeps : ∀ option ∈ options, ∀ u ∈ optionUpdates ⟨o, file, true⟩ option,
      u.Keeps .unsupportedOptions := by
    rintro ⟨kind, node⟩ - u hu
    cases readOption_writes hu <;> simp [Update.Keeps]
  have hadded : ∀ option : OptionKind × Tree,
      (optionUpdates ⟨o, file, true⟩ option).flatMap (·.added .unsupportedOptions) =
        if isUnsupported o option then [keptText ⟨o, file, true⟩ option.2] else [] := by
    intro option
    cases h : isUnsupported o option with
    | true =>
      rw [optionUpdates_of_isUnsupported (s := ⟨o, file, true⟩) h]
      rfl
    | false =>
      rw [if_neg Bool.false_ne_true, List.flatMap_eq_nil_iff]
      intro u hu
      have hslot := slot_ne_of_not_isUnsupported (s := ⟨o, file, true⟩) h hu
      cases u with
      | put slot value => rfl
      | append s' items => exact dif_neg fun heq => hslot (congrArg Slot.list heq)
  have hlist := getList_gather hkeeps rfl
  simp only [hadded, flatMap_unsupported] at hlist
  exact hlist

/-- The same after watchers were renamed. -/
theorem rel_renameWatchers? (o : Origin) (file : Text) (options : List (OptionKind × Tree)) :
    Option.Rel
      (fun kept dropped => dropped = { kept with unsupportedOptions := [] } ∧
        kept.unsupportedOptions = (unsupported o options).map (keptText ⟨o, file, true⟩))
      ((gather ⟨o, file, true⟩ options).renameWatchers? Digest.short)
      ((gather ⟨o, file, false⟩ options).renameWatchers? Digest.short) := by
  have hkept := unsupportedOptions_gather o file options
  rw [← clear_gather_keeping]
  refine Component.renameWatchers?_related ?_ ?_ (fun watch => ?_) Digest.short
  · rfl
  · exact fun _ => Iff.rfl
  · exact ⟨rfl, hkept⟩

end Situation

/-- **Keeping options that are not converted has no other effect.** Two readings of a script, one that
keeps such options and one that drops them, fail alike or end in components that are equal but for the slot
of kept options, with reports that correspond one by one. The second reading keeps nothing; the first keeps
exactly the options that both report as not converted, in order. -/
theorem keeping_unsupported_is_local (script : Text) (tree : Tree) (file : Text) :
    (∀ fault, Component.ofScript script tree file true = .error fault →
      Component.ofScript script tree file false = .error fault) ∧
    ∀ kept events, Component.ofScript script tree file true = .ok (kept, events) →
      ∃ origin dropped events', Origin.of? script (tree.get "tokens").items = some origin ∧
        Component.ofScript script tree file false = .ok (dropped, events') ∧
        dropped = { kept with unsupportedOptions := [] } ∧
        List.Forall₂ Situation.Corresponds (diagnostics events) (diagnostics events') ∧
        let options := Situation.unsupported origin (scriptOptions origin tree)
        kept.unsupportedOptions = options.map (fun t => reindent (origin.text t) "") ∧
          (diagnostics events).filter (·.isUnsupported) =
            options.map (Situation.unsupportedReport ⟨origin, file, true⟩) ∧
          (diagnostics events').filter (·.isUnsupported) =
            options.map (Situation.unsupportedReport ⟨origin, file, false⟩) := by
  obtain ⟨hfaults, hcomponents⟩ := Component.ofScript_related (rfl : tree.get "tokens" = tree.get "tokens")
    fun origin (_ : Origin.of? script _ = _) =>
      Situation.rel_renameWatchers? origin file (scriptOptions origin tree)
  refine ⟨hfaults, fun kept events hok => ?_⟩
  obtain ⟨origin, dropped, events', horigin, hok', ⟨hdropped, hkept⟩, hevents, hevents'⟩ :=
    hcomponents kept events hok
  refine ⟨origin, dropped, events', horigin, hok', hdropped, ?_, hkept, ?_, ?_⟩
  · rw [hevents, hevents']
    exact Situation.forall₂_reports horigin _
  · rw [hevents]
    exact Situation.filter_reports horigin _
  · rw [hevents']
    exact Situation.filter_reports horigin _

/-- A script with a hook without a function, an option that is converted and one that is not known. -/
def mixedScript : String :=
  "export default \x7b created: b, name: \"c\", mixins: [a] \x7d;\n"

/-- Both options of that script that are not converted are kept or dropped, and the class is the same. -/
theorem mixedScript_kept_or_dropped :
    ∃ tree kept dropped events events', Script.parse mixedScript true = .ok tree ∧
      Component.ofScript mixedScript tree "" true = .ok (kept, events) ∧
      Component.ofScript mixedScript tree "" false = .ok (dropped, events') ∧
      kept.unsupportedOptions = [Text.ofString "created: b", Text.ofString "mixins: [a]"] ∧
      dropped = { kept with unsupportedOptions := [] } ∧ dropped.name = "c" ∧
      ((diagnostics events').filter (·.isUnsupported)).length = 2 := by
  have hread : (readScript? mixedScript).map (fun r => (r.2.unsupportedOptions, r.2.name)) =
      some ([Text.ofString "created: b", Text.ofString "mixins: [a]"], Text.ofString "c") := by
    decide +kernel
  obtain ⟨⟨tree, kept⟩, hscript, hvalue⟩ := Option.map_eq_some_iff.mp hread
  obtain ⟨hkept, hname⟩ := Prod.mk.inj hvalue
  obtain ⟨hparse, events, hok⟩ := ofScript_of_readScript? hscript
  obtain ⟨origin, dropped, events', -, hok', hdropped, -, hall, -, hreports⟩ :=
    (keeping_unsupported_is_local mixedScript tree "").2 kept events hok
  have hlength : (Situation.unsupported origin (scriptOptions origin tree)).length = 2 := by
    rw [← List.length_map (f := fun t => reindent (origin.text t) ""), ← hall, hkept]
    rfl
  refine ⟨tree, kept, dropped, events, events', hparse, hok, hok', hkept, hdropped, ?_, ?_⟩
  · rw [hdropped]
    exact hname
  · rw [hreports, List.length_map, hlength]

end ClassComponent
