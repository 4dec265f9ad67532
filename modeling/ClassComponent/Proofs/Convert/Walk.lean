import ClassComponent.Convert.Script
import ClassComponent.Proofs.Convert.Reading

/-!
# The order of the walk

The walk to the component object goes by a queue. Here it is compared with the levels of a tree: the root
is level zero, and the parts of the containers of a level, in order, are the next level.

* **The run of the queue** (`Visits`): which nodes leave the queue, in order, until it is empty. There is
  exactly one run from any queue (`visits_of_level_eq_nil`, `Visits.unique`), and `walk` gives the nodes
  of it that are no containers (`Visits.walk_eq`).
* **Levels** (`level`): they weigh less and less, so only finitely many of them hold a node
  (`level_eq_nil`). The run takes one level after the other (`Visits.level`).
* **Options** (`scriptOptions_eq`): the options of a script are those that stand in its levels. If the script
  exports an object, they are the members of the object (`Tree.ExportsOnly.scriptOptions_eq`).
* **Readers** (`Situation.Handles`): the reader of its kind is called on each option, one option after the other.

So the component of a script and the log are what the readers make of the options in its levels
(`options_in_level_order`).
-/

namespace ClassComponent

namespace Tree

variable {o : Origin}

/-! ## The run of the queue -/

/-- `Visits o queue visited`: the walk from the nodes of `queue` ends, and `visited` are the nodes that it
took off the queue, in order. -/
inductive Visits (o : Origin) : List Tree → List Tree → Prop
  | done : Visits o [] []
  /-- The parts of a container join the queue. -/
  | enter {t : Tree} {queue visited : List Tree} (ht : t.isContainer o)
    (h : Visits o (queue ++ t.children) visited) : Visits o (t :: queue) (t :: visited)
  /-- Any other node only leaves it. -/
  | meet {t : Tree} {queue visited : List Tree} (ht : ¬ t.isContainer o)
    (h : Visits o queue visited) : Visits o (t :: queue) (t :: visited)

theorem Visits.unique {queue visited visited' : List Tree} (h : Visits o queue visited)
    (h' : Visits o queue visited') : visited' = visited := by
  induction h generalizing visited' with
  | done =>
    cases h'
    rfl
  | enter ht _ ih =>
    cases h' with
    | enter _ h' => rw [ih h']
    | meet ht' _ => exact absurd ht ht'
  | meet ht _ ih =>
    cases h' with
    | enter ht' _ => exact absurd ht' ht
    | meet _ h' => rw [ih h']

/-- A run has at most as many turns as there are values in the queue. -/
theorem Visits.length_le {queue visited : List Tree} (h : Visits o queue visited) :
    visited.length ≤ weights queue := by
  induction h with
  | done => exact Nat.le_refl 0
  | @enter t queue visited _ _ ih =>
    have := weights_children_lt t
    rw [weights_append] at ih
    simp only [List.length_cons, weights]
    omega
  | @meet t queue visited _ _ ih =>
    have := one_le_weight t
    simp only [List.length_cons, weights]
    omega

/-- Nodes below other nodes than containers are not visited. -/
theorem Visits.mem {queue visited : List Tree} (h : Visits o queue visited) {t : Tree}
    (ht : t ∈ visited) : t ∈ queue ∨ ∃ u ∈ visited, u.isContainer o ∧ t ∈ u.children := by
  induction h with
  | done => cases ht
  | @enter u queue visited hu _ ih =>
    rcases List.mem_cons.mp ht with rfl | ht
    · exact .inl List.mem_cons_self
    · rcases ih ht with hqueue | ⟨v, hv, hvt⟩
      · rcases List.mem_append.mp hqueue with hqueue | hpart
        · exact .inl (List.mem_cons_of_mem u hqueue)
        · exact .inr ⟨u, List.mem_cons_self, hu, hpart⟩
      · exact .inr ⟨v, List.mem_cons_of_mem u hv, hvt⟩
  | @meet u queue visited _ _ ih =>
    rcases List.mem_cons.mp ht with rfl | ht
    · exact .inl List.mem_cons_self
    · rcases ih ht with hqueue | ⟨v, hv, hvt⟩
      · exact .inl (List.mem_cons_of_mem u hqueue)
      · exact .inr ⟨v, List.mem_cons_of_mem u hv, hvt⟩

/-- The walk gives the visited nodes that it does not go through. -/
theorem Visits.walk_eq {queue visited : List Tree} (h : Visits o queue visited) :
    walk o queue = visited.filter (!·.isContainer o) := by
  induction h with
  | done => rw [walk, List.filter_nil]
  | enter ht _ ih => rw [walk, if_pos ht, ih, List.filter_cons_of_neg (by simpa using ht)]
  | meet ht _ ih => rw [walk, if_neg ht, ih, List.filter_cons_of_pos (by simpa using ht)]

/-! ## Levels -/

/-- The parts of the containers among `ts`, in order. -/
def nextLevel (o : Origin) (ts : List Tree) : List Tree :=
  (ts.filter (·.isContainer o)).flatMap children

/-- The nodes `depth` levels below `ts`. -/
def level (o : Origin) (ts : List Tree) : Nat → List Tree
  | 0 => ts
  | depth + 1 => nextLevel o (level o ts depth)

theorem level_succ (ts : List Tree) (depth : Nat) :
    level o ts (depth + 1) = level o (nextLevel o ts) depth := by
  induction depth with
  | zero => rfl
  | succ depth ih => exact congrArg (nextLevel o) ih

@[simp]
theorem nextLevel_nil : nextLevel o [] = [] := rfl

theorem nextLevel_cons (t : Tree) (ts : List Tree) :
    nextLevel o (t :: ts) = (if t.isContainer o then t.children else []) ++ nextLevel o ts := by
  unfold nextLevel
  by_cases h : t.isContainer o
  · rw [List.filter_cons_of_pos h, List.flatMap_cons, if_pos h]
  · rw [List.filter_cons_of_neg h, if_neg h, List.nil_append]

theorem nextLevel_append (ts us : List Tree) :
    nextLevel o (ts ++ us) = nextLevel o ts ++ nextLevel o us := by
  rw [nextLevel, List.filter_append, List.flatMap_append, nextLevel, nextLevel]

theorem weights_nextLevel_add_le (ts : List Tree) :
    weights (nextLevel o ts) + ts.length ≤ weights ts := by
  induction ts with
  | nil => exact Nat.le_refl 0
  | cons t ts ih =>
    have := one_le_weight t
    have := weights_children_lt t
    rw [nextLevel_cons, weights_append]
    simp only [List.length_cons, weights]
    split
    · omega
    · simp only [weights]
      omega

/-- Levels below the weight of the first one are empty. -/
theorem level_eq_nil {ts : List Tree} {depth : Nat} (h : weights ts ≤ depth) :
    level o ts depth = [] := by
  induction depth generalizing ts with
  | zero =>
    have hlength := weights_nextLevel_add_le (o := o) ts
    have hts : ts.length = 0 := by omega
    exact List.eq_nil_of_length_eq_zero hts
  | succ depth ih =>
    rw [level_succ]
    cases ts with
    | nil => exact ih (Nat.zero_le depth)
    | cons t ts =>
      have hlength := weights_nextLevel_add_le (o := o) (t :: ts)
      rw [List.length_cons] at hlength
      exact ih (by omega)

/-! ## One level after the other -/

/-- The levels from `ts` on that lie above `depth`, one after the other. -/
def listing (o : Origin) (ts : List Tree) (depth : Nat) : List Tree :=
  (List.range depth).flatMap (level o ts)

theorem listing_succ (ts : List Tree) (depth : Nat) :
    listing o ts (depth + 1) = ts ++ listing o (nextLevel o ts) depth := by
  have hlevel : level o ts ∘ Nat.succ = level o (nextLevel o ts) := funext (level_succ ts)
  rw [listing, List.range_succ_eq_map, List.flatMap_cons, List.flatMap_map, listing, ← hlevel]
  rfl

/-- The queue holds the rest of a level, and after it what is known of the next one. -/
theorem Visits.level {ts pending visited : List Tree}
    (h : Visits o (pending ++ nextLevel o ts) visited) : Visits o (ts ++ pending) (ts ++ visited) := by
  induction ts generalizing pending with
  | nil => simpa using h
  | cons t ts ih =>
    rw [nextLevel_cons] at h
    by_cases ht : t.isContainer o
    · rw [if_pos ht, ← List.append_assoc] at h
      have hrest := ih h
      rw [← List.append_assoc] at hrest
      exact .enter ht hrest
    · rw [if_neg ht, List.nil_append] at h
      exact .meet ht (ih h)

theorem visits_of_level_eq_nil {ts : List Tree} {depth : Nat} (h : level o ts depth = []) :
    Visits o ts (listing o ts depth) := by
  induction depth generalizing ts with
  | zero =>
    have hts : ts = [] := h
    rw [hts]
    exact .done
  | succ depth ih =>
    rw [level_succ] at h
    have hrest : Visits o ([] ++ nextLevel o ts) (listing o (nextLevel o ts) depth) := ih h
    have hlevel := hrest.level
    rwa [List.append_nil, ← listing_succ] at hlevel

end Tree

/-! ## Options -/

/-- The option that a node is when the walk meets it. -/
def optionAt? (o : Origin) (t : Tree) : Option (OptionKind × Tree) :=
  if t.isContainer o then none else t.optionKind?.map (·, t)

/-- The options among nodes that the walk visits. -/
def optionsAmong (o : Origin) (ts : List Tree) : List (OptionKind × Tree) :=
  ts.filterMap (optionAt? o)

theorem optionsAmong_eq (o : Origin) (ts : List Tree) :
    optionsAmong o ts =
      (ts.filter (!·.isContainer o)).filterMap fun t => t.optionKind?.map (·, t) := by
  have hmeet : optionAt? o =
      fun t => if !t.isContainer o then t.optionKind?.map (·, t) else none := by
    funext t
    unfold optionAt?
    cases t.isContainer o <;> rfl
  rw [List.filterMap_filter, optionsAmong, hmeet]

/-- The options of a script stand in its levels, however many levels are looked at beyond the last. -/
theorem scriptOptions_eq {o : Origin} {tree : Tree} {depth : Nat}
    (h : Tree.level o [tree] depth = []) :
    scriptOptions o tree = optionsAmong o (Tree.listing o [tree] depth) := by
  rw [scriptOptions, (Tree.visits_of_level_eq_nil h).walk_eq, optionsAmong_eq]

/-! ## Scripts that export an object -/

namespace Tree

/-- The kinds of nodes that the walk may go through, and of members of objects. -/
def walkedKinds : List String :=
  ["Program", "ObjectExpression", "ExportDefaultDeclaration", "CallExpression", "Property", "SpreadElement"]

/-- Whether a node is an ordinary statement. -/
def isOrdinary (t : Tree) : Bool :=
  !walkedKinds.contains t.kind

/-- The object that a statement exports. -/
def exportedObject (t : Tree) : Tree :=
  t.get "declaration"

/-- The members of an object. -/
def members (t : Tree) : List Tree :=
  (t.get "properties").items

/-- Whether `statement` exports an object, and the other statements of the script are ordinary ones. -/
structure ExportsOnly (tree statement : Tree) : Prop where
  program : tree.kind = "Program"
  only : (statements tree).filter (·.kind == "ExportDefaultDeclaration") = [statement]
  ordinary : ∀ t ∈ statements tree, t.kind ≠ "ExportDefaultDeclaration" → t.isOrdinary
  object : statement.exportedObject.kind = "ObjectExpression"
  members : ∀ m ∈ statement.exportedObject.members, m.kind = "Property" ∨ m.kind = "SpreadElement"

/-- Of ordinary statements the walk neither goes through one nor finds an option in one. -/
theorem IsOrdinary.unwalked {t : Tree} (h : t.isOrdinary) :
    t.isContainer o = false ∧ t.optionKind? = none := by
  simp only [isOrdinary, walkedKinds, Bool.not_eq_true', List.contains_eq_mem, List.mem_cons,
    List.not_mem_nil, decide_eq_false_iff_not, not_or] at h
  obtain ⟨h₁, h₂, h₃, h₄, h₅, h₆, -⟩ := h
  constructor
  · unfold isContainer
    split <;> simp_all
  · unfold optionKind?
    split <;> simp_all

theorem isContainer_of_member {t : Tree} (h : t.kind = "Property" ∨ t.kind = "SpreadElement") :
    t.isContainer o = false := by
  unfold isContainer
  rcases h with h | h <;> simp [h]

theorem optionKind?_of_member {t : Tree} (h : t.kind = "Property" ∨ t.kind = "SpreadElement") :
    ∃ kind, t.optionKind? = some kind := by
  unfold optionKind?
  rcases h with h | h
  · simp only [h]
    repeat' split
    all_goals exact ⟨_, rfl⟩
  · simp only [h]
    exact ⟨_, rfl⟩

namespace ExportsOnly

variable {tree statement : Tree}

theorem kind_statement (h : tree.ExportsOnly statement) :
    statement.kind = "ExportDefaultDeclaration" := by
  have hmem : statement ∈ (statements tree).filter (·.kind == "ExportDefaultDeclaration") :=
    h.only ▸ List.mem_singleton_self statement
  simpa using (List.mem_filter.mp hmem).2

theorem isContainer_statement (h : tree.ExportsOnly statement) : statement.isContainer o := by
  have hobject : (statement.get "declaration").kind = "ObjectExpression" := h.object
  unfold isContainer
  simp [h.kind_statement, hobject]

/-- Only the export leads on from the statements. -/
theorem filter_isContainer (h : tree.ExportsOnly statement) :
    ((statements tree).filter isFilled).filter (·.isContainer o) = [statement] := by
  rw [List.filter_filter, ← h.only]
  refine List.filter_congr fun t ht => ?_
  by_cases hkind : t.kind = "ExportDefaultDeclaration"
  · have hmem : t ∈ (statements tree).filter (·.kind == "ExportDefaultDeclaration") :=
      List.mem_filter.mpr ⟨ht, by simpa using hkind⟩
    rw [h.only, List.mem_singleton] at hmem
    have hfilled : statement.isFilled := isFilled_of_kind (by simp [h.kind_statement])
    rw [hmem, h.isContainer_statement, hfilled, h.kind_statement]
    rfl
  · rw [(IsOrdinary.unwalked (h.ordinary t ht hkind)).1, Bool.false_and]
    simpa using hkind

theorem nextLevel_statements (h : tree.ExportsOnly statement) :
    nextLevel o ((statements tree).filter isFilled) = [statement.exportedObject] := by
  have hfilled : (statement.get "declaration").isFilled :=
    isFilled_of_kind (by rw [show (statement.get "declaration").kind = _ from h.object]; decide)
  rw [nextLevel, h.filter_isContainer, List.flatMap_singleton, children, parts, h.kind_statement]
  exact List.filter_cons_of_pos hfilled

theorem nextLevel_object (h : tree.ExportsOnly statement) :
    nextLevel o [statement.exportedObject] = statement.exportedObject.members := by
  have hcontainer : statement.exportedObject.isContainer o := by
    unfold isContainer
    simp [h.object]
  have hfilled : ∀ m ∈ statement.exportedObject.members, m.isFilled := by
    intro m hm
    apply isFilled_of_kind
    rcases h.members m hm with hkind | hkind <;> simp [hkind]
  rw [nextLevel_cons, if_pos hcontainer, nextLevel_nil, List.append_nil, children, parts, h.object]
  exact List.filter_eq_self.mpr hfilled

theorem nextLevel_members (h : tree.ExportsOnly statement) :
    nextLevel o statement.exportedObject.members = [] := by
  have hnone : statement.exportedObject.members.filter (·.isContainer o) = [] := by
    refine List.filter_eq_nil_iff.mpr fun m hm => ?_
    rw [isContainer_of_member (h.members m hm)]
    exact Bool.false_ne_true
  rw [nextLevel, hnone, List.flatMap_nil]

/-- The levels of such a script: itself, its statements, the object, the members. -/
theorem listing_eq (h : tree.ExportsOnly statement) :
    level o [tree] 4 = [] ∧
      listing o [tree] 4 = tree :: (statements tree).filter isFilled ++
        statement.exportedObject :: statement.exportedObject.members := by
  have hroot : nextLevel o [tree] = (statements tree).filter isFilled := by
    have hcontainer : tree.isContainer o := by
      unfold isContainer
      simp [h.program]
    rw [nextLevel_cons, if_pos hcontainer, nextLevel_nil, List.append_nil, children, parts, h.program]
    rfl
  constructor
  · rw [level_succ, hroot, level_succ, h.nextLevel_statements, level_succ, h.nextLevel_object, level_succ,
      h.nextLevel_members, level]
  · rw [listing_succ, hroot, listing_succ, h.nextLevel_statements, listing_succ, h.nextLevel_object,
      listing_succ, h.nextLevel_members]
    simp [listing]

/-- The options of such a script are the members of the object. -/
theorem scriptOptions_eq (h : tree.ExportsOnly statement) :
    scriptOptions o tree = optionsAmong o statement.exportedObject.members := by
  have hprogram : optionAt? o tree = none := by
    unfold optionAt? isContainer
    simp [h.program]
  have hobject : optionAt? o statement.exportedObject = none := by
    unfold optionAt? isContainer
    simp [h.object]
  have hstatements : ((statements tree).filter isFilled).filterMap (optionAt? o) = [] := by
    refine List.filterMap_eq_nil_iff.mpr fun t ht => ?_
    by_cases hkind : t.kind = "ExportDefaultDeclaration"
    · unfold optionAt? optionKind?
      simp [hkind]
    · have hordinary := h.ordinary t (List.mem_filter.mp ht).1 hkind
      obtain ⟨hcontainer, hnone⟩ := IsOrdinary.unwalked (o := o) hordinary
      rw [optionAt?, hcontainer, hnone]
      rfl
  rw [ClassComponent.scriptOptions_eq h.listing_eq.1, h.listing_eq.2, optionsAmong, List.cons_append,
    List.filterMap_cons_none hprogram, List.filterMap_append, hstatements, List.nil_append,
    List.filterMap_cons_none hobject, optionsAmong]

end ExportsOnly

end Tree

theorem optionKind?_of_mem {o : Origin} {ts : List Tree} {option : OptionKind × Tree}
    (h : option ∈ optionsAmong o ts) : option.2.optionKind? = some option.1 := by
  obtain ⟨t, -, ht⟩ := List.mem_filterMap.mp h
  unfold optionAt? at ht
  split at ht
  · cases ht
  · obtain ⟨kind, hkind, rfl⟩ := Option.map_eq_some_iff.mp ht
    exact hkind

/-- Every member of an object is an option. -/
theorem optionsAmong_members {o : Origin} {ts : List Tree}
    (h : ∀ t ∈ ts, t.kind = "Property" ∨ t.kind = "SpreadElement") :
    (optionsAmong o ts).map (·.2) = ts := by
  induction ts with
  | nil => rfl
  | cons t ts ih =>
    have ht := h t List.mem_cons_self
    obtain ⟨kind, hkind⟩ := Tree.optionKind?_of_member ht
    have hmeet : optionAt? o t = some (kind, t) := by
      rw [optionAt?, Tree.isContainer_of_member ht, hkind]
      rfl
    rw [optionsAmong, List.filterMap_cons_some hmeet, List.map_cons, ← optionsAmong,
      ih fun u hu => h u (List.mem_cons_of_mem t hu)]

/-! ## Readers -/

namespace Situation

variable {s : Situation}

/-- `Handles s options state state'`: the reader of its kind is called on each of `options`, once and in order. The
calls take the component and the log from `state` to `state'`. -/
inductive Handles (s : Situation) :
    List (OptionKind × Tree) → Component × List Event → Component × List Event → Prop
  | done (state : Component × List Event) : Handles s [] state state
  | call {kind : OptionKind} {node : Tree} {options : List (OptionKind × Tree)} {c : Component}
      {log : List Event} {finding : Finding} {state' : Component × List Event}
      (hread : s.readOption c.hoisted.length kind node = finding)
      (h : Handles s options (c.applyAll finding.updates,
        log ++ .optionFound kind (s.origin.line? node) :: finding.events) state') :
      Handles s ((kind, node) :: options) (c, log) state'

/-- There is one such run, and it is the fold over the options. -/
theorem handles_iff {options : List (OptionKind × Tree)} {state state' : Component × List Event} :
    s.Handles options state state' ↔ state' = options.foldl s.addOption state := by
  constructor
  · intro h
    induction h with
    | done state => rfl
    | call hread _ ih =>
      subst hread
      exact ih
  · rintro rfl
    induction options generalizing state with
    | nil => exact .done state
    | cons option options ih => exact .call rfl ih

end Situation

/-- **Options are met in level order.** From any tree the walk ends, in one way only; it visits the levels
of the tree one after the other, and no node but the root and parts of containers; the options of the
script are those that it visits. The reader of its kind is called on each of them, once and in order, and
that is all: the component of the script is what these calls make of an empty one, with watchers renamed, and
the log is what they add to an empty one, between the events of beginning and end. If the script exports an
object and is otherwise made of ordinary statements, its options are the members of that object, each once
and in order. -/
theorem options_in_level_order (o : Origin) (tree : Tree) :
    (∃ visited, Tree.Visits o [tree] visited ∧
      (∀ visited', Tree.Visits o [tree] visited' → visited' = visited) ∧
      visited.length ≤ tree.weight ∧
      (∀ depth, tree.weight ≤ depth →
        Tree.level o [tree] depth = [] ∧ visited = (List.range depth).flatMap (Tree.level o [tree])) ∧
      (∀ t ∈ visited, t = tree ∨ ∃ u ∈ visited, u.isContainer o ∧ t ∈ u.children) ∧
      scriptOptions o tree = optionsAmong o visited ∧
      ∀ script file keepsUnsupported, Origin.of? script (tree.get "tokens").items = some o →
        let s : Situation := ⟨o, file, keepsUnsupported⟩
        ∃ read log, s.Handles (optionsAmong o visited) ({ marker := o.marker }, []) (read, log) ∧
          (read, log) = (optionsAmong o visited).foldl s.addOption ({ marker := o.marker }, []) ∧
          ∀ c events, Component.ofScript script tree file keepsUnsupported = .ok (c, events) ↔
            read.renameWatchers? Digest.short = some c ∧
              events = .readingStarted file :: log ++ [.readingFinished c.isConverted]) ∧
    ∀ statement, tree.ExportsOnly statement →
      (scriptOptions o tree).map (·.2) = statement.exportedObject.members ∧
        ∀ option ∈ scriptOptions o tree, option.2.optionKind? = some option.1 := by
  have hweights : Tree.weights [tree] = tree.weight := by simp [Tree.weights]
  have hempty : ∀ {depth : Nat}, tree.weight ≤ depth → Tree.level o [tree] depth = [] := fun h =>
    Tree.level_eq_nil (hweights ▸ h)
  have hrun := Tree.visits_of_level_eq_nil (hempty (Nat.le_refl tree.weight))
  have hoptions := scriptOptions_eq (hempty (Nat.le_refl tree.weight))
  refine ⟨⟨_, hrun, fun _ h => hrun.unique h, ?_, fun depth hdepth => ?_, fun t ht => ?_, hoptions, ?_⟩, ?_⟩
  · exact hweights ▸ hrun.length_le
  · exact ⟨hempty hdepth, (Tree.visits_of_level_eq_nil (hempty hdepth)).unique hrun⟩
  · exact (hrun.mem ht).imp_left List.mem_singleton.mp
  · intro script file keepsUnsupported horigin s
    refine ⟨_, _, Situation.handles_iff.mpr rfl, rfl, fun c events => ?_⟩
    rw [Component.ofScript_of_origin horigin, Component.ofOrigin_eq_ok_iff, hoptions]
    exact Iff.rfl
  · intro statement h
    rw [h.scriptOptions_eq]
    exact ⟨optionsAmong_members h.members, fun _ => optionKind?_of_mem⟩

/-- A script with an import, a declaration and an exported object. -/
def exportingScript : String :=
  "import a from \"b\";\nconst c = f(\x7b d: 1 \x7d);\n" ++
    "export default \x7b name: \"e\", data() \x7b return \x7b\x7d; \x7d, ...g \x7d;\n"

/-- The options of that script are the three members of the object, and its component is what reading these three
gives. -/
theorem options_of_exportingScript :
    ∃ tree statement, Script.parse exportingScript true = .ok tree ∧ tree.ExportsOnly statement ∧
      statement.exportedObject.members.map (·.kind) = ["Property", "Property", "SpreadElement"] ∧
      (∀ o, (scriptOptions o tree).map (·.2) = statement.exportedObject.members) ∧
      ∃ o c read log, Component.ofScript exportingScript tree "Demo.vue" true =
          .ok (c, .readingStarted "Demo.vue" :: log ++ [.readingFinished c.isConverted]) ∧
        Situation.Handles ⟨o, "Demo.vue", true⟩ (scriptOptions o tree) ({ marker := o.marker }, []) (read, log) ∧
        read.renameWatchers? Digest.short = some c ∧ c.name = "e" ∧ c.unsupportedOptions.length = 1 := by
  have hread : (Script.parse exportingScript true).toOption.map
      (fun tree => (tree.kind, (statements tree).map (fun t =>
          (t.kind, t.exportedObject.kind, t.exportedObject.members.map (·.kind))),
        (Component.ofScript exportingScript tree "Demo.vue" true).toOption.any fun r =>
          r.1.name == Text.ofString "e" && r.1.unsupportedOptions.length == 1)) =
      some ("Program", [("ImportDeclaration", "", []), ("VariableDeclaration", "", []),
        ("ExportDefaultDeclaration", "ObjectExpression", ["Property", "Property", "SpreadElement"])], true) := by
    decide +kernel
  cases hparse : Script.parse exportingScript true with
  | error fault =>
    rw [hparse] at hread
    cases hread
  | ok tree =>
    rw [hparse] at hread
    obtain ⟨hprogram, hrest⟩ := Prod.mk.inj (Option.some.inj hread)
    obtain ⟨hstatements, hcomponent⟩ := Prod.mk.inj hrest
    rcases hs : statements tree with _ | ⟨first, _ | ⟨second, _ | ⟨third, _ | ⟨fourth, rest⟩⟩⟩⟩
    all_goals simp only [hs, List.map_cons, List.map_nil, List.cons.injEq, Prod.mk.injEq, reduceCtorEq,
      and_false] at hstatements
    obtain ⟨⟨hfirst, -⟩, ⟨hsecond, -⟩, ⟨hthird, hobject, hmembers⟩, -⟩ := hstatements
    have hexports : tree.ExportsOnly third := {
      program := hprogram
      only := by simp [hs, hfirst, hsecond, hthird]
      ordinary := by simp [hs, hfirst, hsecond, hthird, Tree.isOrdinary, Tree.walkedKinds]
      object := hobject
      members := by
        intro m hm
        have hkind : m.kind ∈ third.exportedObject.members.map (·.kind) := List.mem_map_of_mem hm
        rw [hmembers] at hkind
        simpa using hkind }
    obtain ⟨⟨c, events⟩, hok, hc⟩ := (Option.any_eq_true _ _).mp hcomponent
    obtain ⟨hname, hunsupported⟩ : c.name = "e" ∧ c.unsupportedOptions.length = 1 := by simpa using hc
    have hscript : Component.ofScript exportingScript tree "Demo.vue" true = .ok (c, events) :=
      eq_ok_of_toOption hok
    obtain ⟨o, horigin, -⟩ := Component.ofScript_eq_ok hscript
    obtain ⟨⟨visited, -, -, -, -, -, hoptions, hreads⟩, -⟩ := options_in_level_order o tree
    obtain ⟨read, log, hhandles, -, hresult⟩ := hreads exportingScript "Demo.vue" true horigin
    obtain ⟨hrenamed, rfl⟩ := (hresult c events).mp hscript
    exact ⟨tree, third, rfl, hexports, hmembers, fun o =>
      ((options_in_level_order o tree).2 third hexports).1,
      o, c, read, log, hscript, hoptions ▸ hhandles, hrenamed, hname, hunsupported⟩

end ClassComponent
