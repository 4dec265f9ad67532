import ClassComponent.Proofs.Convert.Options
import ClassComponent.Proofs.Convert.Origin
import ClassComponent.Render.Class

/-!
# Members of the class and their names

The class is written member by member (`writtenByMember`): fields bound to a store, data, computed
properties, props, watchers, methods, hooks. Watchers are renamed so that they clash with no member that
the component knows by name. Fields bound to a store are not among these, so a watcher can only clash
with such a field, and does if the field is named like it (`watchers_clash_with_stores_only`).

Names are compared as they are written, with all line breaks put back. The name of a watcher is plain, so
that nothing but the name itself is written like it.
-/

namespace ClassComponent

/-! ## Members -/

/-- The last of some texts stands at the end. -/
theorem Text.exists_intercalate_concat (separator : Text) (texts : List Text) (last : Text) :
    ∃ before, Text.intercalate separator (texts ++ [last]) = before ++ last := by
  induction texts with
  | nil => exact ⟨"", Text.eq_of_points (@List.intercalate_singleton _ separator.points last.points)⟩
  | cons text texts ih =>
    obtain ⟨before, hbefore⟩ := ih
    obtain ⟨next, rest, hrest⟩ := List.exists_cons_of_ne_nil (List.append_ne_nil_of_right_ne_nil texts
      (List.cons_ne_nil last []))
    have hcons : Text.intercalate separator (text :: next :: rest) =
        text ++ separator ++ Text.intercalate separator (next :: rest) :=
      Text.eq_of_points List.intercalate_cons_cons
    rw [List.cons_append, hrest, hcons, ← hrest, hbefore]
    exact ⟨text ++ separator ++ before, (Text.append_assoc _ _ _).symm⟩

/-- A member is written below its decorators, on a line that holds its name. -/
theorem Member.render_eq (m : Member) :
    ∃ lead rest, m.render = Text.intercalate "\n" (m.decorators.map indented ++ [lead ++ m.name ++ rest]) := by
  cases m with
  | field f =>
    obtain ⟨words, hwords⟩ := Text.exists_intercalate_concat " " f.modifiers f.name
    unfold render Field.render
    dsimp only
    rw [hwords, ← Text.append_assoc memberIndent, Text.append_assoc _ _ ";"]
    exact ⟨_, _, rfl⟩
  | method m =>
    unfold render Method.render
    dsimp only
    generalize m.modifiers ++ (m.accessor?.map fun a => Text.ofString a.word).toList = words
    generalize Text.ofString (if m.isGenerator then "*" else "") = star
    obtain ⟨before, hbefore⟩ := Text.exists_intercalate_concat " " words
      (star ++ m.name ++ "(" ++ Text.intercalate ", " m.params ++ ")")
    refine ⟨memberIndent ++ before ++ star, "(" ++ Text.intercalate ", " m.params ++ ")" ++ " " ++
      Text.reindent m.body memberIndent, ?_⟩
    rw [hbefore]
    simp only [Text.append_assoc]
    rfl

namespace Component

/-- The fields bound to a store. -/
def storeMembers (c : Component) : List Member :=
  c.stores.map fun b => .field b.toField

/-- The members between those and the watchers. -/
def leadingMembers (c : Component) : List Member :=
  c.data.map .field ++ c.computed.map .method ++ c.props.map .field

/-- The members after the watchers. -/
def trailingMembers (c : Component) : List Member :=
  c.methods ++ c.lifecycleHooks.map .method

/-- The members that are not bound to a store. -/
def ownMembers (c : Component) : List Member :=
  c.leadingMembers ++ c.watch.map .method ++ c.trailingMembers

/-- The members that are no watchers. -/
def otherMembers (c : Component) : List Member :=
  c.storeMembers ++ (c.leadingMembers ++ c.trailingMembers)

/-- All members of the class, in order. -/
def members (c : Component) : List Member :=
  c.storeMembers ++ c.ownMembers

theorem renderMembers_eq (c : Component) :
    c.renderMembers = (memberIndent ++ typingField) :: c.members.map Member.render := by
  simp only [renderMembers, members, storeMembers, ownMembers, leadingMembers, trailingMembers,
    List.map_append, List.map_map, List.append_assoc]
  rfl

/-- Whether the class is written with its members: after the typing of its markup, one after the other, each
below its decorators and with its name. -/
structure WrittenByMember (c : Component) : Prop where
  all : ∀ name, c.renderClass name =
    c.renderDecorator ++ "\nexport default class " ++ name ++ " extends " ++ baseClass ++ " \x7b\n" ++
      Text.intercalate "\n" ((memberIndent ++ typingField) :: c.members.map Member.render) ++ "\n\x7d"
  each : ∀ m ∈ c.members, ∃ lead rest,
    m.render = Text.intercalate "\n" (m.decorators.map indented ++ [lead ++ m.name ++ rest])

theorem writtenByMember (c : Component) : c.WrittenByMember where
  all name := by rw [renderClass, renderMembers_eq]
  each m _ := m.render_eq

theorem members_perm (c : Component) : c.members.Perm (c.watch.map .method ++ c.otherMembers) := by
  have hown : c.ownMembers.Perm (c.watch.map .method ++ (c.leadingMembers ++ c.trailingMembers)) := by
    rw [ownMembers, List.append_assoc]
    exact List.perm_append_comm_assoc _ _ _
  exact (hown.append_left _).trans (List.perm_append_comm_assoc _ _ _)

/-- The name of a member as it is written. -/
def writtenName (c : Component) (m : Member) : Text :=
  Text.restoreLineBreaks m.name c.marker

/-- Whether no watcher is named like another watcher or another member. -/
def WatchersDistinct (c : Component) : Prop :=
  (c.watch.map fun w => c.writtenName (.method w)).Nodup ∧
    ∀ w ∈ c.watch, ∀ m ∈ c.otherMembers, c.writtenName (.method w) ≠ c.writtenName m

/-! ## Names of watchers -/

/-- Every member besides the watchers is known by name, or bound to a store. -/
theorem name_mem_or_store {c : Component} {m : Member} (hm : m ∈ c.otherMembers) :
    m.name ∈ c.memberNames ∨ ∃ b ∈ c.stores, m = .field b.toField := by
  simp only [otherMembers, storeMembers, leadingMembers, trailingMembers, List.mem_append,
    List.mem_map] at hm
  simp only [memberNames, List.mem_append, List.mem_map]
  rcases hm with ⟨b, hb, rfl⟩ | ((⟨f, hf, rfl⟩ | ⟨f, hf, rfl⟩) | ⟨f, hf, rfl⟩) | (hm | ⟨f, hf, rfl⟩)
  · exact .inr ⟨b, hb, rfl⟩
  · exact .inl (.inl (.inl (.inl (.inl (.inl ⟨f, hf, rfl⟩)))))
  · exact .inl (.inl (.inl (.inl (.inl (.inr ⟨f, hf, rfl⟩)))))
  · exact .inl (.inl (.inl (.inr ⟨f, hf, rfl⟩)))
  · exact .inl (.inl (.inl (.inl (.inr ⟨m, hm, rfl⟩))))
  · exact .inl (.inl (.inr ⟨f, hf, rfl⟩))

namespace ReadFrom

variable {s : Situation} {tree : Tree} {c : Component}

theorem isPlain_watch (h : c.ReadFrom s tree) {w : Method} (hw : w ∈ c.watch) : w.name.IsPlain := by
  obtain ⟨watch, hrename, hfits⟩ := h.renamed
  obtain ⟨old, hold, hrenamed⟩ := exists_renamed_of_mem (renameAll?_renamed hrename) hw
  obtain ⟨-, path, hpath⟩ := hfits .watch old hold
  have hplain : old.name.IsPlain := hpath ▸ Text.isPlain_watcherName path
  rcases hrenamed.named with hname | ⟨previous, hname⟩
  · exact hname ▸ hplain
  · rw [hname, nextCandidate]
    exact (hplain.append (by decide)).append (Text.isPlain_short previous)

theorem watch_not_mem (h : c.ReadFrom s tree) {w : Method} (hw : w ∈ c.watch) :
    w.name ∉ c.memberNames := by
  obtain ⟨watch, hrename, -⟩ := h.renamed
  exact renameAll?_not_mem hrename hw

theorem watch_nodup (h : c.ReadFrom s tree) : (c.watch.map (·.name)).Nodup := by
  obtain ⟨watch, hrename, -⟩ := h.renamed
  exact renameAll?_nodup hrename

/-- A watcher is written like another member only if it has the same name. -/
theorem writtenName_eq_iff (h : c.ReadFrom s tree) {source : Text} {tokens : List Tree}
    (ho : Origin.of? source tokens = some s.origin) {w : Method} (hw : w ∈ c.watch) (m : Member) :
    c.writtenName (.method w) = c.writtenName m ↔ w.name = m.name := by
  rw [writtenName, writtenName, h.marker]
  exact Origin.restore_eq_restore_iff ho (h.isPlain_watch hw)

end ReadFrom

end Component

/-- **A watcher clashes with fields bound to a store only.** The members that the class of a script is
written with are the watchers and the other ones, each with its name. No two watchers are written under one
name, and a member that is written like a watcher is a field bound to a store. So watchers are distinct from
all members exactly if no such field has the name of a watcher. -/
theorem watchers_clash_with_stores_only {script : Text} {tree : Tree} {file : Text}
    {keepsUnsupported : Bool} {c : Component} {events : List Event}
    (h : Component.ofScript script tree file keepsUnsupported = .ok (c, events)) :
    c.WrittenByMember ∧ c.members.Perm (c.watch.map .method ++ c.otherMembers) ∧
      (c.watch.map fun w => c.writtenName (.method w)).Nodup ∧
      (∀ w ∈ c.watch, ∀ m ∈ c.otherMembers,
        c.writtenName (.method w) = c.writtenName m →
          ∃ b ∈ c.stores, m = .field b.toField ∧ Text.propertyName b.name = w.name) ∧
      (c.WatchersDistinct ↔ ∀ w ∈ c.watch, ∀ b ∈ c.stores, Text.propertyName b.name ≠ w.name) := by
  obtain ⟨origin, ho, hread⟩ := Component.ofScript_readFrom h
  have hnodup : (c.watch.map fun w => c.writtenName (.method w)).Nodup := by
    refine List.Pairwise.map _ (fun _ _ hne => hne) ?_
    refine (List.pairwise_map.mp hread.watch_nodup).imp_of_mem fun hv hw hne => ?_
    exact fun heq => hne ((hread.writtenName_eq_iff ho hv _).mp heq)
  have hclash : ∀ w ∈ c.watch, ∀ m ∈ c.otherMembers,
      c.writtenName (.method w) = c.writtenName m →
        ∃ b ∈ c.stores, m = .field b.toField ∧ Text.propertyName b.name = w.name := by
    intro w hw m hm heq
    have hname : w.name = m.name := (hread.writtenName_eq_iff ho hw m).mp heq
    rcases Component.name_mem_or_store hm with hmem | ⟨b, hb, rfl⟩
    · exact absurd (hname ▸ hmem) (hread.watch_not_mem hw)
    · exact ⟨b, hb, rfl, hname.symm⟩
  refine ⟨c.writtenByMember, c.members_perm, hnodup, hclash, fun hd w hw b hb hname => ?_,
    fun hne => ⟨hnodup, fun w hw m hm heq => ?_⟩⟩
  · have hm : .field b.toField ∈ c.otherMembers :=
      List.mem_append_left _ (List.mem_map_of_mem hb)
    exact hd.2 w hw _ hm ((hread.writtenName_eq_iff ho hw _).mpr hname.symm)
  · obtain ⟨b, hb, -, hname⟩ := hclash w hw m hm heq
    exact hne w hw b hb hname

/-- A script with a store entry that is named like a watcher. -/
def clashingScript : String :=
  "export default \x7b\n  computed: \x7b ...mapState([\"onCountChange\"]) \x7d,\n" ++
    "  watch: \x7b count() \x7b\x7d \x7d,\n\x7d;\n"

/-- Such a script gives two members of one name. -/
theorem watcher_named_like_store :
    ∃ tree c events, Script.parse clashingScript true = .ok tree ∧
      Component.ofScript clashingScript tree "" true = .ok (c, events) ∧ ¬ c.WatchersDistinct := by
  have hread : (readScript? clashingScript).map
      (fun r => (r.2.watch.map (·.name), r.2.stores.map fun b => Text.propertyName b.name)) =
        some ([Text.ofString "onCountChange"], [Text.ofString "onCountChange"]) := by
    decide +kernel
  obtain ⟨⟨tree, c⟩, hscript, hnames⟩ := Option.map_eq_some_iff.mp hread
  obtain ⟨hwatch, hstores⟩ := Prod.mk.inj hnames
  obtain ⟨w, hw, hwname⟩ := List.mem_map.mp (hwatch ▸ List.mem_singleton_self _)
  obtain ⟨b, hb, hbname⟩ := List.mem_map.mp (hstores ▸ List.mem_singleton_self _)
  obtain ⟨hparse, events, hok⟩ := ofScript_of_readScript? hscript
  refine ⟨tree, c, events, hparse, hok, fun hd => ?_⟩
  exact (watchers_clash_with_stores_only hok).2.2.2.2.mp hd w hw b hb (hbname.trans hwname.symm)

end ClassComponent
