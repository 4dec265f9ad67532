import ClassComponent.Proofs.Convert.Options
import ClassComponent.Proofs.Text.Indentation
import ClassComponent.Render.Class

/-!
# Decorators of props

The configuration of a prop is moved twice: once when its decorator is made, and once more, inside the decorator, when
the class is written. The first move leaves no trace (`indented_reindent`), and what the decorator puts around the
configuration does not matter (`indented_surround`), so a configuration stands in the class as if it had been moved once
(`moves_leave_no_trace`).
-/

namespace ClassComponent

open Text (IsIndent EndsFilled reindent lineBreak)

/-- A fragment that was moved before is written like one that was not. -/
theorem indented_reindent (text : Text) {indent : Text} (hi : IsIndent indent.points) :
    indented (reindent text indent) = indented text := by
  rw [indented, Text.reindent_reindent text hi, indented]

theorem indented_surround {lead text trail : Text} (hlead : lineBreak ∉ lead.points)
    (htrail : lineBreak ∉ trail.points) (hlast : EndsFilled text) {indent : Text} (hi : IsIndent indent.points) :
    indented (lead ++ reindent text indent ++ trail) =
      memberIndent ++ (lead ++ reindent text memberIndent ++ trail) := by
  rw [← Text.reindent_surround hlead htrail hlast, indented_reindent _ hi, indented,
    Text.reindent_surround hlead htrail hlast]

/-- A prop that is given with an object, its configuration. -/
structure ConfiguresProp (entry : Tree) : Prop where
  kind : entry.kind = "Property"
  isValue : entry.has "method" = false
  isWritten : entry.has "shorthand" = false
  config : (entry.get "value").kind = "ObjectExpression"

namespace ConfiguresProp

variable {s : Situation} {entry : Tree}

theorem propEntry_eq (h : ConfiguresProp entry) :
    s.propEntry entry =
      .ok (Situation.propField (s.origin.memberName entry) (reindent (s.text (entry.get "value")) "")) := by
  simp [Situation.propEntry, h.kind, h.isValue, h.isWritten, h.config]

theorem decorators_propField (h : EndsFilled (s.text (entry.get "value"))) (name : Text) :
    (Situation.propField name (reindent (s.text (entry.get "value")) "")).decorators.map indented =
      [memberIndent ++ ("@Prop(" ++ reindent (s.text (entry.get "value")) memberIndent ++ ")")] := by
  have hlead : lineBreak ∉ (Text.ofString "@Prop(").points := by decide
  have htrail : lineBreak ∉ (Text.ofString ")").points := by decide
  have hnone : IsIndent (Text.ofString "").points := Text.isIndent_nil
  rw [Situation.propField, List.map_singleton, indented_surround hlead htrail h hnone]

end ConfiguresProp

/-- The field of an entry is among the props after the option is read. -/
theorem Situation.mem_props_of_propEntry {s : Situation} {option entry : Tree} {f : Field}
    (hvalue : (option.get "value").kind = "ObjectExpression")
    (hentry : entry ∈ ((option.get "value").get "properties").items) (hf : s.propEntry entry = .ok f)
    (c : Component) : f ∈ (c.applyAll (s.readProps option).updates).props := by
  have hread : (s.readProps option).updates =
      [.put (.list .props) (items (((option.get "value").get "properties").items.map s.propEntry))] := by
    simp [readProps, hvalue, Finding.ofEntries]
  have hprops := c.getList_put_self .props (items (((option.get "value").get "properties").items.map s.propEntry))
  have hmem : f ∈ items (((option.get "value").get "properties").items.map s.propEntry) :=
    mem_items.mpr (hf ▸ List.mem_map_of_mem hentry)
  rw [hread]
  exact hprops ▸ hmem

/-- Each prop is written as a member of the class. -/
theorem Component.render_mem_of_props {c : Component} {f : Field} (h : f ∈ c.props) : f.render ∈ c.renderMembers := by
  have hrender := List.mem_map_of_mem (f := Field.render) h
  simp only [renderMembers, List.mem_cons, List.mem_append, hrender, or_true, true_or]

/-- **Moves leave no trace.** A fragment that is moved to one indentation and then to another is where the second move
alone takes it. A fragment that is a single line, or whose last line is not blank, is moved in the same way with
something before and after it on the same lines. Hence the decorator of a prop with such a configuration is
written, among the members of the class, as if the configuration had been moved once. -/
theorem moves_leave_no_trace :
    (∀ text indent next : Text, IsIndent indent.points →
      reindent (reindent text indent) next = reindent text next) ∧
    (∀ lead text trail indent : Text, lineBreak ∉ lead.points → lineBreak ∉ trail.points → EndsFilled text →
      reindent (lead ++ text ++ trail) indent = lead ++ reindent text indent ++ trail) ∧
    ∀ (s : Situation) (option entry : Tree) (c : Component),
      (option.get "value").kind = "ObjectExpression" →
      entry ∈ ((option.get "value").get "properties").items → ConfiguresProp entry →
      EndsFilled (s.text (entry.get "value")) →
      ∃ f ∈ (c.applyAll (s.readProps option).updates).props, s.propEntry entry = .ok f ∧
        f.render ∈ (c.applyAll (s.readProps option).updates).renderMembers ∧
        f.render = Text.intercalate "\n"
          [memberIndent ++ ("@Prop(" ++ reindent (s.text (entry.get "value")) memberIndent ++ ")"),
            memberIndent ++ Text.intercalate " " ["public", f.name] ++ ";"] := by
  refine ⟨fun text indent next hi => Text.reindent_reindent text hi next,
    fun lead text trail indent hlead htrail hlast => Text.reindent_surround hlead htrail hlast indent, ?_⟩
  intro s option entry c hvalue hentry hconfig hlast
  have hmem := Situation.mem_props_of_propEntry hvalue hentry (hconfig.propEntry_eq (s := s)) c
  refine ⟨_, hmem, hconfig.propEntry_eq, Component.render_mem_of_props hmem, ?_⟩
  have hempty : ∀ t : Text, t ++ Text.ofString "" = t := fun t => congrArg Text.mk (List.append_nil t.points)
  rw [Field.render, ConfiguresProp.decorators_propField hlast]
  simp only [Situation.propField, hempty, List.singleton_append]

/-- A prop with a configuration that spans lines. -/
def spreadProp : String :=
  "a: \x7b\n    type: String,\n  \x7d"

def spreadPropEntry : Tree :=
  .make "Property" ⟨0, 26⟩
    [("key", .make "Identifier" ⟨0, 1⟩ [("name", .text "a")]), ("value", .make "ObjectExpression" ⟨3, 26⟩ [])]

def spreadPropOption : Tree :=
  .make "Property" ⟨0, 26⟩ [("value", .make "ObjectExpression" ⟨0, 26⟩ [("properties", .list [spreadPropEntry])])]

theorem moves_of_spreadProp :
    let s : Situation := ⟨⟨spreadProp, spreadProp, ""⟩, "Demo.vue", true⟩
    ConfiguresProp spreadPropEntry ∧ EndsFilled (s.text (spreadPropEntry.get "value")) ∧
      (∃ f, s.propEntry spreadPropEntry = .ok f ∧
        f.render = "    @Prop(\x7b\n      type: String,\n    \x7d)\n    public a;") ∧
      IsIndent (Text.ofString "  ").points ∧
      reindent (reindent "a\n    b\n  c" "  ") "\t" = "a\n\t  b\n\tc" ∧
      reindent ("(" ++ "a\n    b\n  c" ++ ")") "\t" = "(a\n\t  b\n\tc)" := by
  intro s
  obtain ⟨habsorb, hsurround, hprop⟩ := moves_leave_no_trace
  have hconfig : ConfiguresProp spreadPropEntry := ⟨by decide, by decide, by decide, by decide⟩
  have hlast : EndsFilled (s.text (spreadPropEntry.get "value")) := .inr (by decide)
  have hindent : IsIndent (Text.ofString "  ").points := by decide
  have hend : EndsFilled "a\n    b\n  c" := .inr (by decide)
  have hentry : spreadPropEntry ∈ ((spreadPropOption.get "value").get "properties").items := List.mem_singleton_self _
  obtain ⟨f, -, hf, -, hrender⟩ := hprop s spreadPropOption spreadPropEntry {} (by decide) hentry hconfig hlast
  refine ⟨hconfig, hlast, ⟨f, hf, ?_⟩, hindent, ?_, ?_⟩
  · rw [hrender]
    rw [hconfig.propEntry_eq] at hf
    cases hf
    decide +kernel
  · rw [habsorb _ _ _ hindent]
    decide +kernel
  · rw [hsurround _ _ _ _ (by decide) (by decide) hend]
    decide +kernel

end ClassComponent
