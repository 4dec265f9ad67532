import ClassComponent.Proofs.Convert.Walk

/-!
# Exchanging members of an object

Two members that stand next to each other in an object trade places, in an object to which the walk may
come (`Tree.Exchanged`). This shows in one level of the tree only: above it a node is replaced by one that
looks the same, below it nothing changes (`Tree.Differ`, `Tree.Differ.nextLevel`). So the options of the
script are the same, or the two members trade places among them (`scriptOptions_exchanged`).
-/

namespace ClassComponent

namespace Tree

/-! ## Replacing an attribute -/

theorem lookup_replaced (attrs : List (String × Tree)) (name other : String) (value : Tree) :
    (attrs.map fun (n, v) => if n == name then (n, value) else (n, v)).lookup other =
      if other = name then (attrs.lookup other).map fun _ => value else attrs.lookup other := by
  induction attrs with
  | nil =>
    split
    · rfl
    · rfl
  | cons attr attrs ih =>
    obtain ⟨n, v⟩ := attr
    have hfirst : (if n == name then (n, value) else (n, v)) = (n, if n = name then value else v) := by
      by_cases hn : n = name
      · simp [hn]
      · simp [hn]
    simp only [List.map_cons, hfirst, List.lookup_cons, ih]
    by_cases ho : other = n
    · simp only [ho, beq_self_eq_true]
      split
      · rfl
      · rfl
    · simp only [beq_false_of_ne ho]

theorem get?_set_of_ne (t value : Tree) {name other : String} (h : other ≠ name) :
    (t.set name value).get? other = t.get? other := by
  simp only [get?, set, attributes, lookup_replaced, if_neg h]

theorem get_set_of_ne (t value : Tree) {name other : String} (h : other ≠ name) :
    (t.set name value).get other = t.get other := by
  rw [get, get, get?_set_of_ne t value h]

theorem get_set_self {t : Tree} {name : String} (h : t.get name ≠ .null) (value : Tree) :
    (t.set name value).get name = value := by
  have hlookup : t.attributes.lookup name ≠ none := by
    intro hnone
    exact h (by rw [get, get?, hnone]; rfl)
  obtain ⟨old, hold⟩ := Option.ne_none_iff_exists'.mp hlookup
  simp only [get, get?, set, attributes, lookup_replaced, if_true] at hold ⊢
  rw [hold]
  rfl

/-! ## Exchanged members -/

/-- The attributes that hold lists of nodes that the walk may go through. -/
def listParts : List (String × String) :=
  [("Program", "body"), ("ObjectExpression", "properties"), ("CallExpression", "arguments")]

/-- `Exchanged a b t t'`: `t'` is `t` with the members `a` and `b`, in this order next to each other in an
object, exchanged. Only nodes that the walk may go through lead to the object. -/
inductive Exchanged (a b : Tree) : Tree → Tree → Prop
  | members {t : Tree} {before after : List Tree} (hkind : t.kind = "ObjectExpression")
    (h : t.get "properties" = .list (before ++ a :: b :: after)) :
    Exchanged a b t (t.set "properties" (.list (before ++ b :: a :: after)))
  | part {t u u' : Tree} {name : String} {before after : List Tree} (hname : (t.kind, name) ∈ listParts)
    (h : t.get name = .list (before ++ u :: after)) (hu : Exchanged a b u u') :
    Exchanged a b t (t.set name (.list (before ++ u' :: after)))
  | declaration {t u' : Tree} (hkind : t.kind = "ExportDefaultDeclaration")
    (hu : Exchanged a b (t.get "declaration") u') : Exchanged a b t (t.set "declaration" u')

/-- The kinds of nodes in which members can be exchanged, each with the attribute that changes. -/
def exchangeParts : List (String × String) :=
  ("ExportDefaultDeclaration", "declaration") :: listParts

namespace Exchanged

variable {o : Origin} {a b t t' : Tree}

/-- One attribute changes. -/
theorem exists_set (h : Exchanged a b t t') :
    ∃ name value, (t.kind, name) ∈ exchangeParts ∧ t' = t.set name value := by
  cases h with
  | members hkind _ => exact ⟨_, _, by simp [hkind, exchangeParts, listParts], rfl⟩
  | part hname _ _ => exact ⟨_, _, List.mem_cons_of_mem _ hname, rfl⟩
  | declaration hkind _ => exact ⟨_, _, by simp [hkind, exchangeParts], rfl⟩

theorem get_eq (h : Exchanged a b t t') {name : String}
    (hname : name ∉ exchangeParts.map (·.2)) : t'.get name = t.get name := by
  obtain ⟨changed, value, hpart, rfl⟩ := h.exists_set
  refine get_set_of_ne t value fun heq => hname ?_
  exact List.mem_map.mpr ⟨_, hpart, heq.symm⟩

theorem kind_mem (h : Exchanged a b t t') : t.kind ∈ exchangeParts.map (·.1) := by
  obtain ⟨name, value, hpart, -⟩ := h.exists_set
  exact List.mem_map.mpr ⟨_, hpart, rfl⟩

theorem kind_eq (h : Exchanged a b t t') : t'.kind = t.kind := by
  rw [kind, kind, h.get_eq (by decide)]

theorem span?_eq (h : Exchanged a b t t') : t'.span? = t.span? := by
  rw [span?, span?, h.get_eq (by decide)]

theorem isFilled_left (h : Exchanged a b t t') : t.isFilled := by
  refine isFilled_of_kind fun hkind => ?_
  have hmem := h.kind_mem
  rw [hkind] at hmem
  exact absurd hmem (by decide)

theorem isFilled_right (h : Exchanged a b t t') : t'.isFilled := by
  refine isFilled_of_kind fun hkind => ?_
  have hmem := h.kind_mem
  rw [← h.kind_eq, hkind] at hmem
  exact absurd hmem (by decide)

theorem ne_null (h : Exchanged a b t t') : t ≠ .null := by
  rintro rfl
  cases h.isFilled_left

/-- The declaration of an export changes only in its members. -/
theorem kind_declaration (h : Exchanged a b t t') :
    (t'.get "declaration").kind = (t.get "declaration").kind := by
  cases h with
  | members _ _ => rw [get_set_of_ne _ _ (by decide)]
  | @part _ u u' name before after hname _ _ =>
    have hne : "declaration" ≠ name := by
      rintro rfl
      simp [listParts] at hname
    rw [get_set_of_ne _ _ hne]
  | declaration _ hu => rw [get_set_self hu.ne_null, hu.kind_eq]

theorem isContainer_eq (h : Exchanged a b t t') : t'.isContainer o = t.isContainer o := by
  have hcallee : t'.get "callee" = t.get "callee" := h.get_eq (by decide)
  simp only [isContainer, h.kind_eq, h.kind_declaration, hcallee]

end Exchanged

/-! ## Levels -/

/-- How a level changes when the members `a` and `b` are exchanged: not at all, in a node in which they are
exchanged, or because they are in the level. -/
inductive Differ (a b : Tree) : List Tree → List Tree → Prop
  | same (ts : List Tree) : Differ a b ts ts
  | within (before after : List Tree) {u u' : Tree} (h : Exchanged a b u u') :
    Differ a b (before ++ u :: after) (before ++ u' :: after)
  | swapped (before after : List Tree) :
    Differ a b (before ++ a :: b :: after) (before ++ b :: a :: after)

variable {o : Origin} {a b : Tree}

theorem Differ.surround {ts ts' : List Tree} (h : Differ a b ts ts') (front back : List Tree) :
    Differ a b (front ++ ts ++ back) (front ++ ts' ++ back) := by
  cases h with
  | same => exact .same _
  | within before after hu =>
    simp only [← List.append_assoc, List.append_assoc _ (_ :: _) back, List.cons_append]
    exact .within (front ++ before) (after ++ back) hu
  | swapped before after =>
    simp only [← List.append_assoc, List.append_assoc _ (_ :: _) back, List.cons_append]
    exact .swapped (front ++ before) (after ++ back)

theorem Differ.filter_isFilled {ts ts' : List Tree} (h : Differ a b ts ts') :
    Differ a b (ts.filter isFilled) (ts'.filter isFilled) := by
  cases h with
  | same => exact .same _
  | within before after hu =>
    simp only [List.filter_append, List.filter_cons_of_pos hu.isFilled_left,
      List.filter_cons_of_pos hu.isFilled_right]
    exact .within _ _ hu
  | swapped before after =>
    simp only [List.filter_append, List.filter_cons]
    split
    · split
      · exact .swapped _ _
      · exact .same _
    · exact .same _

theorem parts_of_listParts {t : Tree} {name : String} (hname : (t.kind, name) ∈ listParts) :
    t.parts = (if t.kind = "CallExpression" then [t.get "callee"] else []) ++ (t.get name).items := by
  simp only [listParts, List.mem_cons, Prod.mk.injEq, List.not_mem_nil, or_false] at hname
  rcases hname with ⟨hkind, rfl⟩ | ⟨hkind, rfl⟩ | ⟨hkind, rfl⟩
  · simp [parts, hkind]
  · simp [parts, hkind]
  · simp [parts, hkind]

/-- Replacing a list changes the parts of a node like the list. -/
theorem Differ.parts_set {t : Tree} {name : String} (hname : (t.kind, name) ∈ listParts)
    {ts ts' : List Tree} (hts : t.get name = .list ts) (h : Differ a b ts ts') :
    Differ a b t.parts (t.set name (.list ts')).parts := by
  have hother : ∀ other ∈ ["type", "callee"], (t.set name (.list ts')).get other = t.get other := by
    intro other hmem
    refine get_set_of_ne t _ ?_
    rintro rfl
    simp only [listParts, List.mem_cons, Prod.mk.injEq, List.not_mem_nil, or_false] at hname hmem
    rcases hmem with rfl | rfl
    · simp at hname
    · simp at hname
  have hkind : (t.set name (.list ts')).kind = t.kind := by
    rw [kind, kind, hother "type" (by simp)]
  have hget : (t.set name (.list ts')).get name = .list ts' :=
    get_set_self (by rw [hts]; exact nofun) _
  rw [parts_of_listParts hname, parts_of_listParts (hkind ▸ hname), hkind, hother "callee" (by simp), hts,
    hget]
  have hsurround := h.surround (if t.kind = "CallExpression" then [t.get "callee"] else []) []
  rwa [List.append_nil, List.append_nil] at hsurround

theorem Exchanged.differ_parts {t t' : Tree} (h : Exchanged a b t t') : Differ a b t.parts t'.parts := by
  cases h with
  | members hkind h =>
    exact .parts_set (by simp [hkind, listParts]) h (.swapped _ _)
  | part hname h hu =>
    exact .parts_set hname h (.within _ _ hu)
  | @declaration _ u' hkind hu =>
    have hkind' : (t.set "declaration" u').kind = "ExportDefaultDeclaration" :=
      (Exchanged.declaration hkind hu).kind_eq.trans hkind
    have hget : (t.set "declaration" u').get "declaration" = u' :=
      get_set_self hu.ne_null u'
    have hparts : t.parts = [t.get "declaration"] := by simp [parts, hkind]
    have hparts' : (t.set "declaration" u').parts = [u'] := by simp [parts, hkind', hget]
    rw [hparts, hparts']
    exact .within [] [] hu

theorem Exchanged.differ_children {t t' : Tree} (h : Exchanged a b t t') :
    Differ a b t.children t'.children :=
  h.differ_parts.filter_isFilled

/-- Below the exchanged members nothing changes, since at most one of them is a container. -/
theorem nextLevel_swapped (before after : List Tree)
    (hone : a.isContainer o = false ∨ b.isContainer o = false) :
    nextLevel o (before ++ b :: a :: after) = nextLevel o (before ++ a :: b :: after) := by
  simp only [nextLevel_append, nextLevel_cons]
  rcases hone with hone | hone
  · simp [hone]
  · simp [hone]

/-- A difference between two levels goes down to the next ones, until the exchanged members are reached. -/
theorem Differ.nextLevel {ts ts' : List Tree} (h : Differ a b ts ts')
    (hone : a.isContainer o = false ∨ b.isContainer o = false) :
    Differ a b (nextLevel o ts) (nextLevel o ts') := by
  cases h with
  | same => exact .same _
  | @within before after u u' hu =>
    simp only [nextLevel_append, nextLevel_cons, hu.isContainer_eq]
    split
    · simpa only [List.append_assoc] using
        hu.differ_children.surround (Tree.nextLevel o before) (Tree.nextLevel o after)
    · exact .same _
  | swapped before after =>
    rw [nextLevel_swapped before after hone]
    exact .same _

/-- Members are no containers. -/
theorem isContainer_of_optionKind? {t : Tree} {kind : OptionKind} (h : t.optionKind? = some kind) :
    t.isContainer o = false := by
  unfold optionKind? at h
  split at h
  · exact isContainer_of_member (.inr ‹_›)
  · exact isContainer_of_member (.inl ‹_›)
  · cases h

theorem isContainer_or_of_ne (h : a.optionKind? ≠ b.optionKind?) :
    a.isContainer o = false ∨ b.isContainer o = false := by
  cases ha : a.optionKind? with
  | some kind => exact .inl (isContainer_of_optionKind? ha)
  | none =>
    obtain ⟨kind, hb⟩ := Option.ne_none_iff_exists'.mp (ha ▸ h.symm)
    exact .inr (isContainer_of_optionKind? hb)

/-- Nodes in which members are exchanged are no options. -/
theorem optionKind?_of_exchangeParts {t : Tree} (h : t.kind ∈ exchangeParts.map (·.1)) :
    t.optionKind? = none := by
  unfold optionKind?
  split
  · rename_i hkind
    rw [hkind] at h
    exact absurd h (by decide)
  · rename_i hkind
    rw [hkind] at h
    exact absurd h (by decide)
  · rfl

end Tree

/-! ## Options -/

theorem optionAt?_eq (o : Origin) (t : Tree) : optionAt? o t = t.optionKind?.map (·, t) := by
  rw [optionAt?]
  cases h : t.optionKind? with
  | some kind => rw [Tree.isContainer_of_optionKind? h, if_neg Bool.false_ne_true]
  | none => exact ite_self _

/-- Options are the same, or the options `a` and `b`, next to each other, are exchanged. -/
inductive OptionsDiffer (a b : Tree) : List (OptionKind × Tree) → List (OptionKind × Tree) → Prop
  | same (options : List (OptionKind × Tree)) : OptionsDiffer a b options options
  | swapped (before after : List (OptionKind × Tree)) {k l : OptionKind}
    (ha : a.optionKind? = some k) (hb : b.optionKind? = some l) :
    OptionsDiffer a b (before ++ (k, a) :: (l, b) :: after) (before ++ (l, b) :: (k, a) :: after)

section

variable {o : Origin} {a b : Tree}

theorem OptionsDiffer.surround {options options' : List (OptionKind × Tree)}
    (h : OptionsDiffer a b options options') (front back : List (OptionKind × Tree)) :
    OptionsDiffer a b (front ++ options ++ back) (front ++ options' ++ back) := by
  cases h with
  | same => exact .same _
  | swapped before after ha hb =>
    simp only [← List.append_assoc, List.append_assoc _ (_ :: _) back, List.cons_append]
    exact .swapped (front ++ before) (after ++ back) ha hb

theorem optionsAmong_append (ts us : List Tree) :
    optionsAmong o (ts ++ us) = optionsAmong o ts ++ optionsAmong o us :=
  List.filterMap_append

theorem optionsAmong_within {u u' : Tree} (h : Tree.Exchanged a b u u') (before after : List Tree) :
    optionsAmong o (before ++ u' :: after) = optionsAmong o (before ++ u :: after) := by
  have hnone : optionAt? o u = none := by
    rw [optionAt?_eq, Tree.optionKind?_of_exchangeParts h.kind_mem, Option.map_none]
  have hnone' : optionAt? o u' = none := by
    rw [optionAt?_eq, Tree.optionKind?_of_exchangeParts (h.kind_eq ▸ h.kind_mem), Option.map_none]
  rw [optionsAmong_append, optionsAmong_append, optionsAmong, optionsAmong, optionsAmong,
    List.filterMap_cons_none hnone, List.filterMap_cons_none hnone']

theorem optionsAmong_swapped (before after : List Tree) :
    OptionsDiffer a b (optionsAmong o (before ++ a :: b :: after))
      (optionsAmong o (before ++ b :: a :: after)) := by
  rw [optionsAmong_append, optionsAmong_append]
  simp only [optionsAmong, List.filterMap_cons, optionAt?_eq]
  cases ha : a.optionKind? with
  | none => exact .same _
  | some k =>
    cases hb : b.optionKind? with
    | none => exact .same _
    | some l => exact .swapped _ _ ha hb

/-- Above the level of the members the options are the same, and so they are below it. -/
theorem optionsAmong_listing {ts ts' : List Tree} (h : Tree.Differ a b ts ts')
    (hone : a.isContainer o = false ∨ b.isContainer o = false) (depth : Nat) :
    OptionsDiffer a b (optionsAmong o (Tree.listing o ts depth))
      (optionsAmong o (Tree.listing o ts' depth)) := by
  induction depth generalizing ts ts' with
  | zero => exact .same _
  | succ depth ih =>
    have hnext := h.nextLevel hone
    rw [Tree.listing_succ, Tree.listing_succ, optionsAmong_append, optionsAmong_append]
    cases h with
    | same => exact .same _
    | within before after hu =>
      rw [optionsAmong_within hu]
      simpa only [List.append_nil] using (ih hnext).surround (optionsAmong o (before ++ _ :: after)) []
    | swapped before after =>
      rw [Tree.nextLevel_swapped before after hone]
      exact (optionsAmong_swapped before after).surround [] _

/-- The options of a script in which members are exchanged. -/
theorem scriptOptions_exchanged {tree tree' : Tree} (h : Tree.Exchanged a b tree tree')
    (hne : a.optionKind? ≠ b.optionKind?) :
    OptionsDiffer a b (scriptOptions o tree) (scriptOptions o tree') := by
  -- Enough levels for both trees.
  let depth := max (Tree.weights [tree]) (Tree.weights [tree'])
  rw [scriptOptions_eq (Tree.level_eq_nil (Nat.le_max_left _ _ : _ ≤ depth)),
    scriptOptions_eq (Tree.level_eq_nil (Nat.le_max_right _ _ : _ ≤ depth))]
  exact optionsAmong_listing (.within [] [] h) (Tree.isContainer_or_of_ne hne) depth

end

end ClassComponent
