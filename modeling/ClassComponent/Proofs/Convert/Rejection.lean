import ClassComponent.Proofs.Convert.Unsupported

/-!
# Options that are rejected

`data`, `computed`, `methods`, `props` and `watch` must have a certain form. An option of another form is
rejected by a report about the option itself, which can be told from all reports about its entries
(`Situation.rejects_of_startsWith`). It leaves a component as it was, with one exception: a data function
that returns no object literal still hands over its other statements (`rejected_option_hoists_only`).
-/

namespace ClassComponent

namespace OptionKind

/-- The options that are rejected if they have the wrong form. -/
def formed : List OptionKind :=
  [.data, .computed, .methods, .props, .watch]

/-- How the rejection of an option begins. -/
def rejectionLead (kind : OptionKind) : String :=
  "unsupported " ++ kind.label ++ " declaration"

theorem isSettled_rejectionLead : ∀ kind ∈ formed, (Text.ofString kind.rejectionLead).IsSettled := by
  decide +kernel

end OptionKind

namespace RefusalLead

/-- How reports about entries begin. -/
def entries : List RefusalLead :=
  [.dataMember, .computedRunning, .computedProperty, .method, .prop, .watcher, .noHandler, .otherHandler,
   .mappedFunction, .mapped, .spread, .helper]

theorem mem_entries {lead : RefusalLead} (h : lead.isWhole = false) : lead ∈ entries := by
  cases lead with
  | dataFunction | dataObject | computed | methods | props | watch => cases h
  | _ => simp [entries]

/-- Reports about entries begin otherwise than rejections. -/
theorem entries_differ : ∀ kind ∈ OptionKind.formed, ∀ lead ∈ entries,
    (lead.text.toList.zip kind.rejectionLead.toList).any fun p => p.1 != p.2 := by
  decide +kernel

end RefusalLead

namespace Situation

variable {s : Situation} {source : Text} {tokens : List Tree} {option : OptionKind × Tree} {d : Diagnostic}

theorem not_isUnsupported_of_formed (h : option.1 ∈ OptionKind.formed) (o : Origin) :
    isUnsupported o option = false := by
  obtain ⟨kind, node⟩ := option
  cases kind with
  | data | computed | methods | props | watch => rfl
  | _ => simp [OptionKind.formed] at h

theorem RefusesEntry.not_startsWith (ho : Origin.of? source tokens = some s.origin) (h : s.RefusesEntry d)
    {kind : OptionKind} (hkind : kind ∈ OptionKind.formed) :
    ¬ d.message.startsWith kind.rejectionLead := by
  obtain ⟨t, lead, message, hentry, hlead, rfl⟩ := h
  have hdiffer := RefusalLead.entries_differ kind hkind lead (RefusalLead.mem_entries hentry)
  have hrestore := Origin.startsWith_restore ho (OptionKind.isSettled_rejectionLead kind hkind) message
  exact fun hrejection => Text.not_startsWith_of_differ hdiffer hlead (hrestore.mp hrejection)

/-- A report that begins like a rejection is one, and the only report about the option. -/
theorem rejects_of_startsWith (ho : Origin.of? source tokens = some s.origin)
    (hkind : option.1 ∈ OptionKind.formed) (hd : d ∈ s.optionReports option)
    (hlead : d.message.startsWith option.1.rejectionLead) :
    s.Rejects option (s.readOption 0 option.1 option.2) ∧ s.optionReports option = [d] := by
  rcases readOption_rejects_or (not_isUnsupported_of_formed hkind s.origin) 0 with hrejects | hentries
  · obtain ⟨lead, message, -, -, hevents⟩ := hrejects.report
    have hreports : s.optionReports option = [s.report option.2 message] := by
      rw [optionReports, hevents]
      rfl
    rw [hreports] at hd
    cases List.mem_singleton.mp hd
    exact ⟨hrejects, hreports⟩
  · have hentry := (hentries d (mem_diagnostics.mp hd)).refusesEntry
    exact absurd hlead (hentry.not_startsWith ho hkind)

/-- What a rejected option makes of a component. -/
theorem addOption_of_rejects (h : s.Rejects option (s.readOption 0 option.1 option.2)) (c : Component)
    (log : List Event) :
    (s.addOption (c, log) option).1 =
      if (s.hoistedBy option).isEmpty then c else c.put (.list .hoisted) (s.hoistedBy option) := by
  rw [addOption_component, optionUpdates, h.updates]
  split <;> rfl

theorem hoistedBy_of_ne_data (h : option.1 ≠ .data) : s.hoistedBy option = [] := by
  obtain ⟨kind, node⟩ := option
  cases kind with
  | data => exact absurd rfl h
  | _ => rfl

end Situation

/-- **A rejected option changes nothing but the hoisted statements.** An option that is reported as a whole
for its form is reported just once, and it leaves every component as it was, except for a data function that
has statements besides its returns: these replace the hoisted statements, and the component counts as
converted. So a component is unchanged if and only if there are no such statements, or they were hoisted
before. -/
theorem rejected_option_hoists_only {source : Text} {tokens : List Tree} {s : Situation}
    (ho : Origin.of? source tokens = some s.origin) {option : OptionKind × Tree}
    (hkind : option.1 ∈ OptionKind.formed) {d : Diagnostic} (hd : d ∈ s.optionReports option)
    (hlead : d.message.startsWith option.1.rejectionLead) (c : Component) (log : List Event) :
    let hoisted := s.hoistedBy option
    let after := (s.addOption (c, log) option).1
    s.optionReports option = [d] ∧
      after = { c with
        hoisted := if hoisted.isEmpty then c.hoisted else hoisted
        isConverted := c.isConverted || !hoisted.isEmpty } ∧
      (option.1 ≠ .data → after = c) ∧
      (after = c ↔ hoisted = [] ∨ (c.hoisted = hoisted ∧ c.isConverted)) := by
  obtain ⟨hrejects, honly⟩ := Situation.rejects_of_startsWith ho hkind hd hlead
  have hafter := Situation.addOption_of_rejects hrejects c log
  have hnone : option.1 ≠ .data → s.hoistedBy option = [] := Situation.hoistedBy_of_ne_data
  simp only [hafter]
  generalize s.hoistedBy option = hoisted at hnone
  cases hoisted with
  | nil => simp [honly]
  | cons statement rest =>
    refine ⟨honly, ?_, fun hne => ?_, ?_⟩
    · rfl
    · cases hnone hne
    · constructor
      · intro hsame
        refine .inr ⟨?_, ?_⟩
        · exact congrArg Component.hoisted hsame.symm
        · rw [← hsame]
          exact Bool.or_true _
      · rintro (hnil | ⟨hhoisted, hconverted⟩)
        · cases hnil
        · cases c
          cases hhoisted
          cases hconverted
          rfl

/-- A script whose data function returns no object literal, after one statement. -/
def rejectedScript : String :=
  "export default \x7b\n  data() \x7b const a = 1; return a; \x7d,\n\x7d;\n"

/-- The tree of a script and its origin, with its option if it has just one. -/
def soleOption? (script : String) : Option (Tree × Origin × (OptionKind × Tree)) := do
  let tree ← (Script.parse script true).toOption
  let origin ← Origin.of? script (tree.get "tokens").items
  match scriptOptions origin tree with
  | [option] => return (tree, origin, option)
  | _ => none

theorem of_soleOption? {script : String} {tree : Tree} {origin : Origin} {option : OptionKind × Tree}
    (h : soleOption? script = some (tree, origin, option)) :
    Script.parse script true = .ok tree ∧ Origin.of? script (tree.get "tokens").items = some origin ∧
      scriptOptions origin tree = [option] := by
  obtain ⟨tree', htree, h⟩ := Option.bind_eq_some_iff.mp h
  obtain ⟨origin', horigin, h⟩ := Option.bind_eq_some_iff.mp h
  split at h
  · next hoptions =>
    cases h
    exact ⟨eq_ok_of_toOption htree, horigin, hoptions⟩
  · cases h

/-- Its option is rejected, and yet the statement is hoisted and the component counts as converted. -/
theorem rejectedScript_converts :
    ∃ tree origin option, Script.parse rejectedScript true = .ok tree ∧
      Origin.of? rejectedScript (tree.get "tokens").items = some origin ∧
      scriptOptions origin tree = [option] ∧ option.1 = .data ∧
      let s : Situation := ⟨origin, "Demo.vue", true⟩
      s.optionReports option =
          [⟨"Demo.vue", some 2, "unsupported data declaration, data must return an object literal"⟩] ∧
        (s.addOption ({}, []) option).1 = { hoisted := ["const a = 1;"], isConverted := true } := by
  have hread : (soleOption? rejectedScript).map (fun (_, origin, option) =>
      let s : Situation := ⟨origin, "Demo.vue", true⟩
      (option.1, s.optionReports option, s.hoistedBy option)) =
      some (.data, [⟨"Demo.vue", some 2, "unsupported data declaration, data must return an object literal"⟩],
        [Text.ofString "const a = 1;"]) := by
    decide +kernel
  obtain ⟨⟨tree, origin, option⟩, hscript, hvalue⟩ := Option.map_eq_some_iff.mp hread
  obtain ⟨htree, horigin, hoptions⟩ := of_soleOption? hscript
  obtain ⟨hkind, hvalue⟩ := Prod.mk.inj hvalue
  obtain ⟨hreports, hhoisted⟩ := Prod.mk.inj hvalue
  refine ⟨tree, origin, option, htree, horigin, hoptions, hkind, hreports, ?_⟩
  have hafter := (rejected_option_hoists_only (s := ⟨origin, "Demo.vue", true⟩) horigin
    (by rw [hkind]; decide) (hreports ▸ List.mem_singleton_self _) (by rw [hkind]; decide +kernel) {} []).2.1
  rw [hafter, hhoisted]
  rfl

end ClassComponent
