import ClassComponent.Convert.Origin
import ClassComponent.Text.LetterCase

/-!
# Walk to the component object

The options of a component are the members of one object. The walk looks for it breadth-first, and only
through nodes that can lead to it:

    Program      export default {…}      export default Vue.extend({…})      {…}

`walk` gives every other node that it meets, in the order in which it meets them. It never looks into
these; what an option holds is for the reader of the option.

The walk ends because each step takes a node off the queue and puts back at most its parts, which
together weigh less (`weights_children_lt`).
-/

namespace ClassComponent

namespace Tree

/-! ## Containers -/

/-- The factory that a component object may be passed to, in lower case. -/
def factory : String := "vue.extend"

/-- Whether the walk goes on through a node. -/
def isContainer (o : Origin) (t : Tree) : Bool :=
  match t.kind with
  | "Program" => true
  | "ObjectExpression" => true
  | "ExportDefaultDeclaration" =>
    let kind := (t.get "declaration").kind
    kind == "ObjectExpression" || kind == "CallExpression"
  | "CallExpression" =>
    let callee := t.get "callee"
    callee.kind == "MemberExpression" && (o.text callee).toString?.any (LetterCase.lower · == factory)
  | _ => false

/-- The parts of a container. -/
def parts (t : Tree) : List Tree :=
  match t.kind with
  | "Program" => (t.get "body").items
  | "ObjectExpression" => (t.get "properties").items
  | "ExportDefaultDeclaration" => [t.get "declaration"]
  | "CallExpression" => t.get "callee" :: (t.get "arguments").items
  | _ => []

/-- The parts of a container that the walk goes on to. -/
def children (t : Tree) : List Tree :=
  t.parts.filter isFilled

/-! ## Weights -/

theorem weights_append (ts us : List Tree) : weights (ts ++ us) = weights ts + weights us := by
  induction ts with
  | nil => simp [weights]
  | cons t ts ih => simp [weights, ih, Nat.add_assoc]

theorem weights_filter_le (p : Tree → Bool) (ts : List Tree) : weights (ts.filter p) ≤ weights ts := by
  induction ts with
  | nil => simp
  | cons t ts ih =>
    by_cases h : p t
    · simp [weights, h]; omega
    · simp [weights, h]; omega

/-- The weight of an attribute that may be missing. -/
def lookupWeight (attrs : List (String × Tree)) (name : String) : Nat :=
  match attrs.lookup name with
  | some t => weight t
  | none => 0

theorem lookupWeight_cons (attr : String × Tree) (attrs : List (String × Tree)) (name : String) :
    lookupWeight (attr :: attrs) name =
      if name == attr.1 then weight attr.2 else lookupWeight attrs name := by
  obtain ⟨n, t⟩ := attr
  by_cases h : name == n <;> simp [lookupWeight, List.lookup_cons, h]

theorem lookupWeight_le (attrs : List (String × Tree)) (name : String) :
    lookupWeight attrs name ≤ attributeWeights attrs := by
  induction attrs with
  | nil => simp [lookupWeight]
  | cons attr attrs ih =>
    rw [lookupWeight_cons]
    obtain ⟨n, t⟩ := attr
    simp only [attributeWeights]
    split <;> omega

theorem lookupWeight_add_le (attrs : List (String × Tree)) {a b : String} (h : a ≠ b) :
    lookupWeight attrs a + lookupWeight attrs b ≤ attributeWeights attrs := by
  induction attrs with
  | nil => simp [lookupWeight]
  | cons attr attrs ih =>
    rw [lookupWeight_cons, lookupWeight_cons]
    obtain ⟨n, t⟩ := attr
    simp only [attributeWeights]
    have ha := lookupWeight_le attrs a
    have hb := lookupWeight_le attrs b
    by_cases h₁ : a = n
    · have h₂ : ¬ b = n := fun hb => h (h₁.trans hb.symm)
      simp only [beq_iff_eq, h₁, h₂, if_true, if_false]; omega
    · by_cases h₂ : b = n
      · simp only [beq_iff_eq, h₁, h₂, if_true, if_false]; omega
      · simp only [beq_iff_eq, h₁, h₂, if_false]; omega

theorem one_le_weight (t : Tree) : 1 ≤ weight t := by
  cases t <;> simp [weight]

theorem weights_items_lt (t : Tree) : weights t.items < weight t := by
  cases t <;> simp [items, weights, weight]

theorem weight_get (t : Tree) (name : String) :
    (t.get name = .null ∧ t.get? name = none) ∨ weight (t.get name) = lookupWeight t.attributes name := by
  unfold get get? lookupWeight
  cases h : t.attributes.lookup name with
  | none => left; simp
  | some u => right; simp

theorem weights_items_get_le (t : Tree) (name : String) :
    weights (t.get name).items ≤ lookupWeight t.attributes name := by
  rcases weight_get t name with ⟨h, _⟩ | h
  · simp [h, items, weights]
  · have := weights_items_lt (t.get name); omega

theorem attributeWeights_lt (t : Tree) (h : t.kind ≠ "") : attributeWeights t.attributes < weight t := by
  cases t with
  | node attrs => simp [attributes, weight]
  | _ => exact absurd rfl h

theorem weights_filled_le (t : Tree) (name : String) :
    weights ([t.get name].filter isFilled) ≤ lookupWeight t.attributes name := by
  rcases weight_get t name with ⟨h, _⟩ | h
  · simp [h, isFilled, weights]
  · have := weights_filter_le isFilled [t.get name]
    simp only [weights] at this ⊢; omega

/-- The parts of a container weigh less than the container. -/
theorem weights_children_lt (t : Tree) : weights t.children < weight t := by
  by_cases hk : t.kind = ""
  · simp only [children, parts, hk]
    have := one_le_weight t
    simp [weights]; omega
  have hw := attributeWeights_lt t hk
  unfold children parts
  split
  · have := weights_filter_le isFilled (t.get "body").items
    have := weights_items_get_le t "body"
    have := lookupWeight_le t.attributes "body"
    omega
  · have := weights_filter_le isFilled (t.get "properties").items
    have := weights_items_get_le t "properties"
    have := lookupWeight_le t.attributes "properties"
    omega
  · have := weights_filled_le t "declaration"
    have := lookupWeight_le t.attributes "declaration"
    omega
  · have h₁ := weights_filled_le t "callee"
    have h₂ := weights_filter_le isFilled (t.get "arguments").items
    have h₃ := weights_items_get_le t "arguments"
    have h₄ := lookupWeight_add_le t.attributes (show "callee" ≠ "arguments" by decide)
    have h₅ : (t.get "callee" :: (t.get "arguments").items).filter isFilled =
        [t.get "callee"].filter isFilled ++ (t.get "arguments").items.filter isFilled := by
      simp [List.filter_cons]; split <;> rfl
    simp only [h₅, weights_append]
    omega
  · have := one_le_weight t
    simp [weights]; omega

/-! ## The walk -/

/-- The nodes that a walk from the nodes of `queue` meets and does not go through, in order. -/
def walk (o : Origin) : List Tree → List Tree
  | [] => []
  | t :: queue => if t.isContainer o then walk o (queue ++ t.children) else t :: walk o queue
termination_by queue => weights queue
decreasing_by
  · have := weights_children_lt t
    simp only [weights_append, weights]; omega
  · have := one_le_weight t
    simp only [weights]; omega

end Tree

end ClassComponent
