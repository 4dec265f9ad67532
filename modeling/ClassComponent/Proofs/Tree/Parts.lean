import ClassComponent.Convert.Component

/-!
# Parts of a tree

What readers of a tree see of it: values that are reached by taking attributes and elements (`Tree.Part`). All of them
are listed by `Tree.subtrees`, apart from `null` for what is missing (`Tree.Part.mem_subtrees`), so that a condition on
all parts of a tree can be evaluated.
-/

namespace ClassComponent

namespace Tree

/-- What is reached from a tree by taking attributes and elements. -/
inductive Part (root : Tree) : Tree → Prop
  | root : Part root root
  | null : Part root .null
  | get {t : Tree} (h : Part root t) (name : String) : Part root (t.get name)
  | item {t u : Tree} (h : Part root t) (hu : u ∈ t.items) : Part root u

namespace Part

variable {root t u : Tree}

theorem get? {name : String} (h : root.Part t) (hu : t.get? name = some u) : root.Part u := by
  have hget : t.get name = u := by rw [Tree.get, hu]; rfl
  exact hget ▸ h.get name

theorem headD {ts : List Tree} (h : ∀ t ∈ ts, root.Part t) : root.Part (ts.headD .null) := by
  cases ts with
  | nil => exact .null
  | cons first rest => exact h first (.head _)

/-! ## The walk -/

theorem children (h : root.Part t) (hu : u ∈ t.children) : root.Part u := by
  have hparts : u ∈ t.parts := (List.mem_filter.mp hu).1
  unfold Tree.parts at hparts
  split at hparts
  · exact (h.get "body").item hparts
  · exact (h.get "properties").item hparts
  · exact List.mem_singleton.mp hparts ▸ h.get "declaration"
  · rcases List.mem_cons.mp hparts with rfl | hparts
    · exact h.get "callee"
    · exact (h.get "arguments").item hparts
  · cases hparts

theorem walk {o : Origin} {queue : List Tree} (h : ∀ u ∈ queue, root.Part u) (ht : t ∈ Tree.walk o queue) :
    root.Part t := by
  fun_induction Tree.walk o queue with
  | case1 => cases ht
  | case2 u queue hu ih =>
    refine ih (fun v hv => ?_) ht
    rcases List.mem_append.mp hv with hv | hv
    · exact h v (.tail _ hv)
    · exact (h u (.head _)).children hv
  | case3 u queue hu ih =>
    rcases List.mem_cons.mp ht with rfl | ht
    · exact h _ (.head _)
    · exact ih (fun v hv => h v (.tail _ hv)) ht

theorem option {o : Origin} {kind : OptionKind} {option : Tree} (h : (kind, option) ∈ scriptOptions o root) :
    root.Part option := by
  obtain ⟨t, ht, hkind⟩ := List.mem_filterMap.mp h
  obtain ⟨_, _, heq⟩ := Option.map_eq_some_iff.mp hkind
  cases heq
  exact walk (fun u hu => List.mem_singleton.mp hu ▸ .root) ht

end Part

/-! ## Subtrees -/

mutual

/-- All values in a tree, the tree first. -/
def subtrees : Tree → List Tree
  | .list ts => .list ts :: itemSubtrees ts
  | .node attrs => .node attrs :: attributeSubtrees attrs
  | t => [t]

def itemSubtrees : List Tree → List Tree
  | [] => []
  | t :: ts => subtrees t ++ itemSubtrees ts

def attributeSubtrees : List (String × Tree) → List Tree
  | [] => []
  | (_, t) :: attrs => subtrees t ++ attributeSubtrees attrs

end

/-- All texts in a tree. -/
def texts (t : Tree) : List Text :=
  t.subtrees.filterMap text?

theorem mem_subtrees_self (t : Tree) : t ∈ t.subtrees := by
  cases t with
  | list ts => exact .head _
  | node attrs => exact .head _
  | null => exact .head _
  | flag value => exact .head _
  | number mantissa exponent => exact .head _
  | text value => exact .head _

theorem subtrees_subset_of_item {t u : Tree} (h : u ∈ t.items) : u.subtrees ⊆ t.subtrees := by
  cases t with
  | list ts =>
    have hitems : ∀ {ts : List Tree}, u ∈ ts → u.subtrees ⊆ itemSubtrees ts := by
      intro ts hu
      induction ts with
      | nil => cases hu
      | cons t ts ih =>
        rcases List.mem_cons.mp hu with rfl | hu
        · exact List.subset_append_left _ _
        · exact List.Subset.trans (ih hu) (List.subset_append_right _ _)
    exact List.Subset.trans (hitems h) (List.subset_cons_self _ _)
  | _ => cases h

theorem subtrees_subset_of_get? {t u : Tree} {name : String} (h : t.get? name = some u) :
    u.subtrees ⊆ t.subtrees := by
  cases t with
  | node attrs =>
    have hattrs : ∀ {attrs : List (String × Tree)}, attrs.lookup name = some u →
        u.subtrees ⊆ attributeSubtrees attrs := by
      intro attrs hu
      induction attrs with
      | nil => cases hu
      | cons attr attrs ih =>
        rw [List.lookup_cons] at hu
        split at hu
        · cases hu
          exact List.subset_append_left _ _
        · exact List.Subset.trans (ih hu) (List.subset_append_right _ _)
    exact List.Subset.trans (hattrs h) (List.subset_cons_self _ _)
  | _ => cases h

/-- All parts of a tree are listed, apart from what is missing. -/
theorem Part.mem_subtrees {root t : Tree} (h : root.Part t) : t = .null ∨ t ∈ root.subtrees := by
  have hsubset : t = .null ∨ t.subtrees ⊆ root.subtrees := by
    induction h with
    | root => exact .inr fun _ ht => ht
    | null => exact .inl rfl
    | @get t _ name ih =>
      cases hget : t.get? name with
      | none => exact .inl (by rw [Tree.get, hget]; rfl)
      | some u =>
        rcases ih with rfl | ih
        · cases hget
        · refine .inr (List.Subset.trans ?_ ih)
          rw [Tree.get, hget]
          exact subtrees_subset_of_get? hget
    | @item t u _ hu ih =>
      rcases ih with rfl | ih
      · cases hu
      · exact .inr (List.Subset.trans (subtrees_subset_of_item hu) ih)
  exact hsubset.imp id fun hsubset => hsubset (mem_subtrees_self t)

theorem Part.mem_texts {root t : Tree} {x : Text} (h : root.Part t) (hx : t.text? = some x) : x ∈ root.texts := by
  rcases h.mem_subtrees with rfl | hmem
  · cases hx
  · exact List.mem_filterMap.mpr ⟨t, hmem, hx⟩

end Tree

end ClassComponent
