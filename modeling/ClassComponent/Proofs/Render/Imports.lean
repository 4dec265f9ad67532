import ClassComponent.Proofs.Render.Members
import ClassComponent.Proofs.Render.Statements

/-!
# Imports of the class

The imports that are written are those that the decorators of the class need
(`imports_match_decorators`): `Prop` and `Watch` if a member carries them, and from the store each tool
that is used on the whole store, in order of first use, and `namespace` last if a part of the store is
used.

Statements of the script stay outside the class, with the helper for parts of the store replaced by
`namespace`. Whether `namespace` is imported depends on the bindings of the class alone, so a replaced
helper is left unbound if no spread calls a member of what it gives (`namespace_bound_iff`).
-/

namespace ClassComponent

/-! ## Decorators that members carry -/

/-- The decorator that calls `callee`. -/
def decoratorCall (callee argument : Text) : Text :=
  "@" ++ callee ++ "(" ++ argument ++ ")"

/-- What the decorator of a field bound to a store calls: a tool, or the tool of a part of the store. -/
def StoreBinding.callee (b : StoreBinding) : Text :=
  match b.scope? with
  | some part => if part.isEmpty then b.tool.name else part ++ "." ++ b.tool.name
  | none => b.tool.name

theorem StoreBinding.toField_decorators (b : StoreBinding) :
    b.toField.decorators = [decoratorCall b.callee b.getter] := by
  unfold toField callee
  cases b.scope? with
  | none => rfl
  | some part =>
    simp only
    split
    · rfl
    · rw [decoratorCall, Text.append_assoc "@" part, Text.append_assoc "@" (part ++ ".")]

namespace Component

/-- Whether some member of the class carries the decorator `@name(…)`. A field bound to a store carries
the decorator that it calls; its callee can be any text, so that only the whole of it counts. -/
def Carries (c : Component) (name : String) : Prop :=
  (∃ b ∈ c.stores, b.callee = name) ∨
    ∃ m ∈ c.ownMembers, ∃ argument, decoratorCall name argument ∈ m.decorators

theorem carries_of_mem {c : Component} {m : Member} (hm : m ∈ c.ownMembers) {name : String}
    (h : ∃ argument, m.decorators = [decoratorCall name argument]) : c.Carries name := by
  obtain ⟨argument, h⟩ := h
  exact .inr ⟨m, hm, argument, h ▸ List.mem_singleton_self _⟩

end Component

/-- A field bound to a store calls a tool, or something with a dot in its name. -/
theorem StoreBinding.callee_ne (b : StoreBinding) {name : String} (hname : (Text.ofString name).IsPlain)
    (htool : ∀ tool : StoreTool, tool.name ≠ name) : b.callee ≠ name := by
  have hcallee : b.callee = b.tool.name ∨ CodePoint.char '.' ∈ b.callee.points := by
    unfold callee
    split
    · split
      · exact .inl rfl
      · exact .inr (List.mem_append_left _ (List.mem_append_right _ (List.mem_singleton_self _)))
    · exact .inl rfl
  intro heq
  rw [heq] at hcallee
  rcases hcallee with h | h
  · exact htool b.tool (Text.ofString_injective h).symm
  · exact absurd (hname _ h) (by decide)

/-- A plain name is read off the decorator that calls it: it ends at the first parenthesis. -/
theorem decoratorCall_inj {callee callee' argument argument' : Text} (h : callee.IsPlain)
    (h' : callee'.IsPlain) (heq : decoratorCall callee argument = decoratorCall callee' argument') :
    callee = callee' := by
  have hread : ∀ {name rest : Text}, name.IsPlain →
      (decoratorCall name rest).points.tail.takeWhile (· != .char '(') = name.points := by
    intro name rest hplain
    have hpoints : (decoratorCall name rest).points.tail =
        name.points ++ (.char '(' :: (rest.points ++ [.char ')'])) := by
      change name.points ++ [.char '('] ++ rest.points ++ [.char ')'] = _
      simp only [List.append_assoc, List.cons_append, List.nil_append]
    rw [hpoints, List.takeWhile_append_of_pos, List.takeWhile_cons_of_neg (by decide), List.append_nil]
    intro p hp
    have hne : p ≠ .char '(' := by
      rintro rfl
      exact absurd (hplain _ hp) (by decide)
    simpa using hne
  apply Text.eq_of_points
  rw [← hread h, heq, hread h']

namespace Component.ReadFrom

variable {s : Situation} {tree : Tree} {c : Component}

theorem decorators_props (h : c.ReadFrom s tree) {f : Field} (hf : f ∈ c.props) :
    ∃ argument, f.decorators = [decoratorCall "Prop" argument] := by
  obtain ⟨watch, -, hfits⟩ := h.renamed
  exact hfits .props f hf

theorem decorators_watch (h : c.ReadFrom s tree) {w : Method} (hw : w ∈ c.watch) :
    ∃ argument, w.decorators = [decoratorCall "Watch" argument] := by
  obtain ⟨watch, hrename, hfits⟩ := h.renamed
  obtain ⟨old, hold, hrenamed⟩ := exists_renamed_of_mem (renameAll?_renamed hrename) hw
  obtain ⟨⟨argument, hargument⟩, -⟩ := hfits .watch old hold
  exact ⟨argument, (congrArg Method.decorators hrenamed.same).trans hargument⟩

/-- What the members that are not bound to a store carry. -/
theorem decorators_ownMembers (h : c.ReadFrom s tree) {m : Member} (hm : m ∈ c.ownMembers) :
    m.decorators = [] ∨
      (c.props ≠ [] ∧ ∃ argument, m.decorators = [decoratorCall "Prop" argument]) ∨
      (c.watch ≠ [] ∧ ∃ argument, m.decorators = [decoratorCall "Watch" argument]) := by
  obtain ⟨watch, -, hfits⟩ := h.renamed
  simp only [ownMembers, leadingMembers, trailingMembers, List.mem_append, List.mem_map] at hm
  rcases hm with (((⟨f, hf, rfl⟩ | ⟨f, hf, rfl⟩) | ⟨f, hf, rfl⟩) | ⟨w, hw, rfl⟩) | (hm | ⟨f, hf, rfl⟩)
  · exact .inl (hfits .data f hf)
  · exact .inl (hfits .computed f hf)
  · exact .inr (.inl ⟨List.ne_nil_of_mem hf, h.decorators_props hf⟩)
  · exact .inr (.inr ⟨List.ne_nil_of_mem hw, h.decorators_watch hw⟩)
  · exact .inl (hfits .methods m hm)
  · exact .inl (hfits .lifecycleHooks f hf)

/-- Besides tools of the store, only `Prop` and `Watch` are carried. -/
theorem carries_iff (h : c.ReadFrom s tree) {name : String} (hname : (Text.ofString name).IsPlain)
    (htool : ∀ tool : StoreTool, tool.name ≠ name) :
    c.Carries name ↔ name = "Prop" ∧ c.props ≠ [] ∨ name = "Watch" ∧ c.watch ≠ [] := by
  constructor
  · rintro (⟨b, -, hb⟩ | ⟨m, hm, argument, hmem⟩)
    · exact absurd hb (b.callee_ne hname htool)
    · rcases h.decorators_ownMembers hm with hnone | ⟨hprops, other, hother⟩ | ⟨hwatch, other, hother⟩
      · rw [hnone] at hmem
        cases hmem
      · rw [hother, List.mem_singleton] at hmem
        exact .inl ⟨Text.ofString_injective (decoratorCall_inj hname (by decide) hmem), hprops⟩
      · rw [hother, List.mem_singleton] at hmem
        exact .inr ⟨Text.ofString_injective (decoratorCall_inj hname (by decide) hmem), hwatch⟩
  · rintro (⟨rfl, hne⟩ | ⟨rfl, hne⟩)
    · obtain ⟨f, hf⟩ := List.exists_mem_of_ne_nil c.props hne
      have hm : .field f ∈ c.ownMembers := by
        simp only [ownMembers, leadingMembers, List.mem_append, List.mem_map]
        exact .inl (.inl (.inr ⟨f, hf, rfl⟩))
      exact carries_of_mem hm (h.decorators_props hf)
    · obtain ⟨w, hw⟩ := List.exists_mem_of_ne_nil c.watch hne
      have hm : .method w ∈ c.ownMembers := by
        simp only [ownMembers, List.mem_append, List.mem_map]
        exact .inl (.inr ⟨w, hw, rfl⟩)
      exact carries_of_mem hm (h.decorators_watch hw)

end Component.ReadFrom

/-! ## Imports that are written -/

namespace Component

theorem listedNames_decorators (c : Component) :
    listedNames (importLine c.decoratorNames "vue-property-decorator") = c.decoratorNames :=
  listedNames_importLine (by simp [decoratorNames]) (fun _ => isWord_decoratorNames) _

theorem sourceModule_decorators (c : Component) :
    sourceModule (importLine c.decoratorNames "vue-property-decorator") = "vue-property-decorator" :=
  sourceModule_importLine (fun _ => isWord_decoratorNames) (by decide)

theorem sourceModule_of_mem_storeLines {c : Component} {line : String} (h : line ∈ c.storeLines) :
    sourceModule line = "vuex-class" := by
  rw [(mem_storeLines.mp h).2]
  exact sourceModule_importLine (fun _ => isWord_storeNames) (by decide)

namespace ReadFrom

variable {s : Situation} {tree : Tree} {c : Component}

theorem tool_ne_scope (h : c.ReadFrom s tree) {b : StoreBinding} (hb : b ∈ c.stores) :
    b.tool ≠ .scope := by
  obtain ⟨watch, -, hfits⟩ := h.renamed
  exact hfits .stores b hb

/-- A decorator other than that of the class is imported if it is carried. -/
theorem mem_decoratorNames_iff (h : c.ReadFrom s tree) {name : String}
    (hname : (Text.ofString name).IsPlain) (htool : ∀ tool : StoreTool, tool.name ≠ name)
    (hclass : name ≠ "Component" ∧ name ≠ baseClass) : name ∈ c.decoratorNames ↔ c.Carries name := by
  rw [mem_decoratorNames, h.carries_iff hname htool, or_iff_right hclass.1, or_iff_right hclass.2]

/-- The line for the store lists what its bindings need. -/
theorem storeImport (h : c.ReadFrom s tree) {line : String} (hline : line ∈ c.storeLines) :
    StoreImport c.stores (listedNames line) := by
  obtain ⟨hne, rfl⟩ := mem_storeLines.mp hline
  have himport := storeImport_storeNames hne fun _ hb => h.tool_ne_scope hb
  rwa [listedNames_importLine himport.nonempty fun _ => isWord_storeNames]

end ReadFrom

end Component

/-- **Imports match the decorators that are used.** For the class of any script: the module holds the imports
that the class needs, and the class with its members, each with its decorators. `Prop` and `Watch` are
imported if some member carries them; names are imported from the store if there is a field bound to it, on
one line, and then just those that the decorators of these fields call. -/
theorem imports_match_decorators {script : Text} {tree : Tree} {file : Text} {keepsUnsupported : Bool}
    {c : Component} {events : List Event}
    (h : Component.ofScript script tree file keepsUnsupported = .ok (c, events)) :
    (c.isConverted → ∀ fallback, c.render tree script file fallback =
      Text.intercalate "\n" (c.textsAbove tree script ++ keptTexts script (placedStatements tree script) ++
        (c.textsBelow tree script file fallback).map (Text.restoreLineBreaks · c.marker)) ++ "\n") ∧
    c.WrittenByMember ∧
    (∀ b ∈ c.stores, b.toField.decorators = [decoratorCall b.callee b.getter]) ∧
    ∃ decoratorLine storeLines, c.neededLines =
        "import * as tsx from \"vue-tsx-support\";" :: decoratorLine :: storeLines ∧
      sourceModule decoratorLine = "vue-property-decorator" ∧
      ("Prop" ∈ listedNames decoratorLine ↔ c.Carries "Prop") ∧
      ("Watch" ∈ listedNames decoratorLine ↔ c.Carries "Watch") ∧
      (storeLines ≠ [] ↔ c.stores ≠ []) ∧ storeLines.length ≤ 1 ∧
      ∀ line ∈ storeLines, sourceModule line = "vuex-class" ∧ StoreImport c.stores (listedNames line) := by
  obtain ⟨origin, ho, hread⟩ := Component.ofScript_readFrom h
  refine ⟨fun hc fallback => hread.render_eq ho hc file fallback, c.writtenByMember,
    fun b _ => b.toField_decorators, _, _, rfl, c.sourceModule_decorators, ?_, ?_, ?_, ?_,
    fun _ hline => ⟨Component.sourceModule_of_mem_storeLines hline, hread.storeImport hline⟩⟩
  · rw [c.listedNames_decorators]
    exact hread.mem_decoratorNames_iff (by decide) (fun tool => by cases tool <;> decide) (by decide)
  · rw [c.listedNames_decorators]
    exact hread.mem_decoratorNames_iff (by decide) (fun tool => by cases tool <;> decide) (by decide)
  · unfold Component.storeLines
    cases c.stores <;> simp
  · unfold Component.storeLines
    split <;> simp

/-- A script that uses both the whole store and a part of it. -/
def storeScript : String :=
  "export default \x7b props: [\"a\"], watch: \x7b a() \x7b\x7d \x7d,\n" ++
    "computed: \x7b ...mapState([\"b\"]), ...me.mapState([\"c\"]) \x7d \x7d"

/-- The imports that the class of that script needs. -/
def storeImports : List String :=
  ["import * as tsx from \"vue-tsx-support\";",
    "import \x7b Component, Vue, Prop, Watch \x7d from \"vue-property-decorator\";",
    "import \x7b State, namespace \x7d from \"vuex-class\";"]

/-- The class of that script. -/
def storeClass : String :=
  "@Component\nexport default class Component extends Vue \x7b\n" ++
    "    public _tsx!: tsx.DeclareProps<tsx.AutoProps<this>> & tsx.DeclareOnEvents<ComEvents>;\n" ++
    "    @State(\"b\")\n    private b;\n    @me.State(\"c\")\n    private c;\n" ++
    "    @Prop(\x7b required: false \x7d)\n    public a;\n    @Watch(\"a\")\n    private onAChange() \x7b\x7d\n\x7d"

/-- Such a script imports a tool and `namespace`, besides the decorators that it carries. -/
theorem imports_of_storeScript :
    ∃ tree c events, Script.parse storeScript true = .ok tree ∧
      Component.ofScript storeScript tree "" true = .ok (c, events) ∧ c.isConverted ∧
      c.render tree storeScript "" "Component" =
        Text.intercalate "\n" (storeImports.map Text.ofString ++ [Text.ofString storeClass]) ++ "\n" ∧
      c.Carries "Prop" ∧ c.Carries "Watch" ∧ StoreImport c.stores ["State", "namespace"] := by
  have hread : (((readScript? storeScript).filter (·.2.isConverted)).map fun r =>
      (r.2.neededLines,
        [r.2.textsAbove r.1 storeScript, keptTexts storeScript (placedStatements r.1 storeScript),
          (r.2.textsBelow r.1 storeScript "" "Component").map (Text.restoreLineBreaks · r.2.marker)])) =
      some (storeImports, [storeImports.map Text.ofString, [], [Text.ofString storeClass]]) := by
    decide +kernel
  obtain ⟨⟨tree, c⟩, hfilter, hvalue⟩ := Option.map_eq_some_iff.mp hread
  obtain ⟨hscript, hconverted⟩ := Option.filter_eq_some_iff.mp hfilter
  simp only [Prod.mk.injEq, List.cons.injEq, and_true] at hvalue
  obtain ⟨hneeded, habove, hkept, hbelow⟩ := hvalue
  obtain ⟨hparse, events, hok⟩ := ofScript_of_readScript? hscript
  obtain ⟨hrender, -, -, decoratorLine, storeLines, hlines, -, hprop, hwatch, -, -, hstore⟩ :=
    imports_match_decorators hok
  rw [hneeded] at hlines
  simp only [storeImports, List.cons.injEq, true_and] at hlines
  obtain ⟨rfl, rfl⟩ := hlines
  refine ⟨tree, c, events, hparse, hok, hconverted, ?_, hprop.mp (by decide +kernel),
    hwatch.mp (by decide +kernel), ?_⟩
  · have hmodule := hrender hconverted "Component"
    rwa [habove, hkept, hbelow, List.append_nil] at hmodule
  · have hnames : listedNames "import \x7b State, namespace \x7d from \"vuex-class\";" = ["State", "namespace"] := by
      decide +kernel
    exact hnames ▸ (hstore _ (List.mem_singleton_self _)).2

/-! ## Helpers that are replaced -/

/-- Whether the helper for parts of the store is replaced in a statement outside the class. -/
def replacesHelper (tree : Tree) (source : Text) : Bool :=
  (placedStatements tree source).any fun p => isOuterStatement p.node && !(namespaceCallees p.node).isEmpty

/-- A statement in which a callee is replaced holds the name that takes its place. -/
theorem exists_renderStatement_eq {source : Text} {p : Placed} (h : namespaceCallees p.node ≠ []) :
    ∃ lead rest : Text, renderStatement source p = lead ++ StoreTool.scope.name ++ rest := by
  rw [renderStatement, replaceCallees]
  -- Callees are replaced from the last to the first, and nothing is replaced after the first.
  rcases List.eq_nil_or_concat ((namespaceCallees p.node).mergeSort Span.before).reverse with
    hnone | ⟨later, first, hfirst⟩
  · rw [List.reverse_eq_nil_iff, ← List.length_eq_zero_iff, List.length_mergeSort] at hnone
    exact absurd (List.length_eq_zero_iff.mp hnone) h
  · rw [hfirst, List.concat_eq_append, List.foldl_append]
    exact ⟨_, _, rfl⟩

theorem exists_outerStatement_of_replacesHelper {tree : Tree} {source : Text} (h : replacesHelper tree source) :
    ∃ text ∈ outerStatements tree source, ∃ lead rest : Text, text = lead ++ StoreTool.scope.name ++ rest := by
  obtain ⟨p, hp, hreplaced⟩ := List.any_eq_true.mp h
  obtain ⟨houter, hcallees⟩ := Bool.and_eq_true_iff.mp hreplaced
  have hmem : renderStatement source p ∈ outerStatements tree source :=
    List.mem_map_of_mem (List.mem_filter.mpr ⟨hp, houter⟩)
  exact ⟨_, hmem, exists_renderStatement_eq (by simpa using hcallees)⟩

namespace Component

/-- Whether `namespace` is among the names that the class imports for the store. -/
def ImportsNamespace (c : Component) : Prop :=
  ∃ line ∈ c.neededLines, sourceModule line = "vuex-class" ∧ StoreTool.scope.name ∈ listedNames line

theorem mem_storeLines_iff {c : Component} {line : String} :
    line ∈ c.storeLines ↔ line ∈ c.neededLines ∧ sourceModule line = "vuex-class" := by
  have htyping : sourceModule "import * as tsx from \"vue-tsx-support\";" ≠ "vuex-class" := by decide
  constructor
  · intro h
    exact ⟨List.mem_cons_of_mem _ (List.mem_cons_of_mem _ h), sourceModule_of_mem_storeLines h⟩
  · rw [neededLines, List.mem_cons, List.mem_cons]
    rintro ⟨rfl | rfl | h, hmodule⟩
    · exact absurd hmodule htyping
    · rw [sourceModule_decorators] at hmodule
      exact absurd hmodule (by decide)
    · exact h

theorem ReadFrom.importsNamespace_iff {s : Situation} {tree : Tree} {c : Component}
    (h : c.ReadFrom s tree) : c.ImportsNamespace ↔ ∃ b ∈ c.stores, b.isNamespaced := by
  constructor
  · rintro ⟨line, hline, hmodule, hscope⟩
    exact (h.storeImport (mem_storeLines_iff.mpr ⟨hline, hmodule⟩)).scope.mp hscope
  · rintro ⟨b, hb, hpart⟩
    have hline := mem_storeLines.mpr ⟨List.ne_nil_of_mem hb, rfl⟩
    obtain ⟨hneeded, hmodule⟩ := mem_storeLines_iff.mp hline
    exact ⟨_, hneeded, hmodule, (h.storeImport hline).scope.mpr ⟨b, hb, hpart⟩⟩

end Component

/-- Whether a spread calls a helper as a member of a part of the store. -/
def Situation.callsPart (s : Situation) (spread : Tree) : Bool :=
  (s.storeHelper ((spread.get "argument").get "callee")).2.any (!·.isEmpty)

theorem exists_isNamespaced_bindings {s : Situation} {ts : List Tree} :
    (∃ b ∈ s.bindings ts, b.isNamespaced) ↔
      ∃ t ∈ ts, s.callsPart t ∧ (s.storeBindings t).1 ≠ [] := by
  have hpart : ∀ {t : Tree} {b : StoreBinding}, b ∈ (s.storeBindings t).1 →
      b.isNamespaced = s.callsPart t := by
    intro t b hb
    rw [StoreBinding.isNamespaced, (Situation.mem_storeBindings hb).2, Situation.callsPart]
  constructor
  · rintro ⟨b, hb, hnamespaced⟩
    obtain ⟨t, ht, hb⟩ := List.mem_flatMap.mp hb
    exact ⟨t, ht, hpart hb ▸ hnamespaced, List.ne_nil_of_mem hb⟩
  · rintro ⟨t, ht, hcalls, hne⟩
    obtain ⟨b, hb⟩ := List.exists_mem_of_ne_nil _ hne
    exact ⟨b, List.mem_flatMap.mpr ⟨t, ht, hb⟩, hpart hb ▸ hcalls⟩

/-- **When a replaced helper is bound.** `namespace` is imported exactly if an option of the script
spreads a helper that is called as a member of a part of the store, and an entry of it could be read.
Helpers are replaced whether or not they are used that way, and then `namespace` stands in a statement outside
the class. -/
theorem namespace_bound_iff {script : Text} {tree : Tree} {file : Text} {keepsUnsupported : Bool}
    {c : Component} {events : List Event}
    (h : Component.ofScript script tree file keepsUnsupported = .ok (c, events)) :
    ∃ origin, Origin.of? script (tree.get "tokens").items = some origin ∧
      let s : Situation := ⟨origin, file, keepsUnsupported⟩
      (c.ImportsNamespace ↔
        ∃ t ∈ scriptSpreads origin tree, s.callsPart t ∧ (s.storeBindings t).1 ≠ []) ∧
      (replacesHelper tree script →
        ∃ text ∈ outerStatements tree script, ∃ lead rest : Text, text = lead ++ StoreTool.scope.name ++ rest) := by
  obtain ⟨origin, ho, hread⟩ := Component.ofScript_readFrom h
  exact ⟨origin, ho, hread.importsNamespace_iff.trans (hread.stores ▸ exists_isNamespaced_bindings),
    exists_outerStatement_of_replacesHelper⟩

/-- A script that takes the helpers of a part of the store apart, and calls one by its own name. -/
def destructuringScript : String :=
  "const \x7b mapState \x7d = createNamespacedHelpers(\"me\");\n" ++
    "export default \x7b computed: \x7b ...mapState([\"a\"]) \x7d \x7d;\n"

/-- Such a script leaves the name that takes the place of the helper unbound. -/
theorem namespace_unbound_of_destructuring :
    ∃ tree c events, Script.parse destructuringScript true = .ok tree ∧
      Component.ofScript destructuringScript tree "" true = .ok (c, events) ∧ c.isConverted ∧
      replacesHelper tree destructuringScript ∧ ¬ c.ImportsNamespace := by
  have hread : ((readScript? destructuringScript).bind fun r =>
      (Origin.of? destructuringScript (r.1.get "tokens").items).map fun o =>
        (r.2.isConverted && replacesHelper r.1 destructuringScript,
          (scriptSpreads o r.1).any (Situation.callsPart ⟨o, "", true⟩))) = some (true, false) := by
    decide +kernel
  obtain ⟨⟨tree, c⟩, hscript, hvalue⟩ := Option.bind_eq_some_iff.mp hread
  obtain ⟨origin, ho, hvalue⟩ := Option.map_eq_some_iff.mp hvalue
  obtain ⟨hgiven, hspreads⟩ := Prod.mk.inj hvalue
  obtain ⟨hconverted, hreplaces⟩ := Bool.and_eq_true_iff.mp hgiven
  obtain ⟨hparse, events, hok⟩ := ofScript_of_readScript? hscript
  refine ⟨tree, c, events, hparse, hok, hconverted, hreplaces, fun himports => ?_⟩
  obtain ⟨origin', ho', hiff, -⟩ := namespace_bound_iff hok
  rw [ho] at ho'
  cases ho'
  obtain ⟨t, ht, hcalls, -⟩ := hiff.mp himports
  exact List.any_eq_false.mp hspreads t ht hcalls

end ClassComponent
