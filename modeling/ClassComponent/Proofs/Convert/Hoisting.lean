import ClassComponent.Proofs.Convert.Entries

/-!
# Hoisted statements and returns

The statements of a data function besides its returns are hoisted out of it, and its fields are those of the object
that its first return gives. Only the statements of the body are looked at, so a return that stands deeper inside one,
in a branch or in a loop, is hoisted with it.

* **Returns** (`Tree.ownReturns`): the returns in a statement, at any depth, that end the function around it. Functions
  inside the statement have returns of their own.
* **Runs** (`CanReturn`): the returns that a run of the function can end with, whichever branches it takes.
* **Hoisting** (`hoisted_returns_iff`): what is hoisted holds no return exactly if all returns of the function are
  statements of its body. Then its fields are all that it can return.
-/

namespace ClassComponent

namespace Tree

/-! ## Returns -/

/-- Whether a statement returns. -/
def isReturn (t : Tree) : Bool :=
  t.kind == "ReturnStatement"

/-- Whether a node is a function, with returns of its own. -/
def isFunctionNode (t : Tree) : Bool :=
  t.isFunction || t.kind == "FunctionDeclaration"

mutual

/-- The returns in a tree, at any depth outside functions, in order. -/
def ownReturns : Tree → List Tree
  | .list ts => itemReturns ts
  | .node attrs =>
    if isReturn (.node attrs) then [.node attrs]
    else if isFunctionNode (.node attrs) then []
    else attributeReturns attrs
  | _ => []

def itemReturns : List Tree → List Tree
  | [] => []
  | t :: ts => ownReturns t ++ itemReturns ts

def attributeReturns : List (String × Tree) → List Tree
  | [] => []
  | (_, t) :: attrs => ownReturns t ++ attributeReturns attrs

end

theorem ownReturns_of_isReturn {t : Tree} (h : t.isReturn) : t.ownReturns = [t] := by
  cases t with
  | node attrs => rw [ownReturns, if_pos h]
  | _ => cases h

end Tree

/-- Whether a run of statements can end with a return, whichever branches it takes: no run gets past a statement that
returns. -/
inductive CanReturn : List Tree → Tree → Prop
  | inside {t r : Tree} {ts : List Tree} (h : r ∈ t.ownReturns) : CanReturn (t :: ts) r
  | later {t r : Tree} {ts : List Tree} (h : t.isReturn = false) (hr : CanReturn ts r) : CanReturn (t :: ts) r

/-- A run ends with the first statement that returns, or inside a statement before it. -/
theorem canReturn_iff {ts : List Tree} {r : Tree} :
    CanReturn ts r ↔
      ts.find? Tree.isReturn = some r ∨ ∃ t ∈ ts.takeWhile (!·.isReturn), r ∈ t.ownReturns := by
  induction ts with
  | nil =>
    constructor
    · intro h
      cases h
    · simp
  | cons t ts ih =>
    have hcases : CanReturn (t :: ts) r ↔ r ∈ t.ownReturns ∨ t.isReturn = false ∧ CanReturn ts r := by
      constructor
      · intro h
        cases h with
        | inside h => exact .inl h
        | later h hr => exact .inr ⟨h, hr⟩
      · rintro (h | ⟨h, hr⟩)
        · exact .inside h
        · exact .later h hr
    rw [hcases, ih]
    by_cases h : t.isReturn
    · simp [h, Tree.ownReturns_of_isReturn h, eq_comm]
    · simp only [Bool.not_eq_true] at h
      simp only [h, List.find?_cons, List.takeWhile_cons, Bool.not_false, if_true, List.exists_mem_cons_iff, true_and]
      tauto

/-- Statements have at least the returns that they are themselves. -/
theorem length_filter_isReturn_le (ts : List Tree) :
    (ts.filter Tree.isReturn).length ≤ (ts.flatMap Tree.ownReturns).length := by
  induction ts with
  | nil => simp
  | cons t ts ih =>
    rw [List.flatMap_cons, List.length_append]
    by_cases h : t.isReturn
    · rw [List.filter_cons_of_pos h, Tree.ownReturns_of_isReturn h, List.length_cons, List.length_singleton]
      omega
    · rw [List.filter_cons_of_neg h]
      omega

/-- The statements that do not return themselves hold no return exactly if there are no returns but statements. -/
theorem ownReturns_eq_nil_iff {ts : List Tree} :
    (∀ t ∈ ts.filter (!·.isReturn), t.ownReturns = []) ↔
      ts.flatMap Tree.ownReturns = ts.filter Tree.isReturn := by
  induction ts with
  | nil => simp
  | cons t ts ih =>
    by_cases h : t.isReturn
    · simpa [h, Tree.ownReturns_of_isReturn h] using ih
    · have hle := length_filter_isReturn_le ts
      simp only [h, List.filter_cons, List.flatMap_cons, Bool.not_false, if_true, List.forall_mem_cons, ih,
        Bool.false_eq_true, if_false]
      constructor
      · rintro ⟨hnone, hsame⟩
        rw [hnone, hsame, List.nil_append]
      · intro hsame
        have hlength := congrArg List.length hsame
        rw [List.length_append] at hlength
        have hnone : t.ownReturns = [] := List.length_eq_zero_iff.mp (by omega)
        exact ⟨hnone, by rwa [hnone, List.nil_append] at hsame⟩

namespace Situation

variable {s : Situation}

/-! ## Data functions -/

/-- The statements of a data function; none if the option is no function, or one without a block. -/
def dataStatements (s : Situation) (option : Tree) : List Tree :=
  match FunctionForm.ofMember? s.origin option with
  | some f => if f.body.kind = "BlockStatement" then (f.body.get "body").items else []
  | none => []

/-- The statements of a data function that are hoisted. -/
def hoistedStatements (s : Situation) (option : Tree) : List Tree :=
  (s.dataStatements option).filter (!·.isReturn)

theorem hoistedBy_eq (option : Tree) : s.hoistedBy (.data, option) = (s.hoistedStatements option).map s.text := by
  unfold hoistedBy hoistedStatements dataStatements
  cases FunctionForm.ofMember? s.origin option with
  | none => rfl
  | some f =>
    by_cases hkind : f.body.kind = "BlockStatement"
    · simp [dataParts, hkind, Tree.isReturn]
    · simp [dataParts, hkind]

theorem returnedObject_eq {option r : Tree} (h : (s.dataStatements option).find? Tree.isReturn = some r) :
    s.returnedObject option = r.get "argument" := by
  unfold dataStatements at h
  unfold returnedObject
  cases hform : FunctionForm.ofMember? s.origin option with
  | none => simp [hform] at h
  | some f =>
    by_cases hkind : f.body.kind = "BlockStatement"
    · have hfind : (f.body.get "body").items.find? (fun t => t.kind == "ReturnStatement") = some r := by
        rw [hform] at h
        simp only [hkind, if_true] at h
        exact h
      simp [dataParts, hkind, hfind]
    · simp [hform, hkind] at h

theorem hoisted_addOption (option : Tree) (c : Component) (log : List Event) :
    (s.addOption (c, log) (.data, option)).1.hoisted =
      if (s.hoistedStatements option).isEmpty then c.hoisted else (s.hoistedStatements option).map s.text := by
  rw [addOption_component, optionUpdates, readOption, readData_updates, hoistedBy_eq, Component.applyAll_append,
    List.isEmpty_map]
  -- The fields are stored last, and leave the hoisted statements alone.
  have hfields (c : Component) (isObject : Prop) [Decidable isObject] (fields : List Field) :
      (c.applyAll (if isObject then [.put (.list .data) fields] else [])).hoisted = c.hoisted := by
    split
    · rfl
    · rfl
  rw [hfields]
  split
  · rfl
  · rfl

end Situation

/-- **Returns are hoisted unless they are statements of their own.** A data option hoists the statements of its
function besides its returns, and takes its fields from the first of these. No hoisted statement holds a return, at
any depth outside functions, exactly if there are no returns in the function but statements of its body. A run of the
function ends with the first of these, or inside a statement before it; so if no hoisted statement holds a return,
the first one is the only one that a run can end with. -/
theorem hoisted_returns_iff (s : Situation) (option : Tree) (c : Component) (log : List Event) :
    let statements := s.dataStatements option
    let hoisted := s.hoistedStatements option
    let after := (s.addOption (c, log) (.data, option)).1
    after.hoisted = (if hoisted.isEmpty then c.hoisted else hoisted.map s.text) ∧
      ((∀ t ∈ hoisted, t.ownReturns = []) ↔
        statements.flatMap Tree.ownReturns = statements.filter Tree.isReturn) ∧
      (∀ r, CanReturn statements r ↔ statements.find? Tree.isReturn = some r ∨
        ∃ t ∈ statements.takeWhile (!·.isReturn), r ∈ t.ownReturns) ∧
      ∀ r, statements.find? Tree.isReturn = some r →
        s.returnedObject option = r.get "argument" ∧
          ((∀ t ∈ hoisted, t.ownReturns = []) → ∀ r', CanReturn statements r' → r' = r) := by
  refine ⟨s.hoisted_addOption option c log, ownReturns_eq_nil_iff, fun r => canReturn_iff, fun r hr => ?_⟩
  refine ⟨Situation.returnedObject_eq hr, fun hnone r' hr' => ?_⟩
  rcases canReturn_iff.mp hr' with hfirst | ⟨t, ht, hinside⟩
  · exact Option.some.inj (hfirst.symm.trans hr)
  · have hhoisted : t ∈ s.hoistedStatements option :=
      List.mem_filter.mpr ⟨List.takeWhile_subset _ ht, List.all_eq_true.mp List.all_takeWhile t ht⟩
    rw [hnone t hhoisted] at hinside
    cases hinside

/-- A script whose data function returns inside a branch, after a function with a return of its own. -/
def branchingScript : String :=
  "export default \x7b\n  data() \x7b\n    const f = () => \x7b return 1; \x7d;\n" ++
    "    if (f()) \x7b return \x7b b: 1 \x7d; \x7d\n    return \x7b b: 2 \x7d;\n  \x7d,\n\x7d;\n"

theorem returns_of_branchingScript :
    ∃ tree origin option, Script.parse branchingScript true = .ok tree ∧
      Origin.of? branchingScript (tree.get "tokens").items = some origin ∧
      scriptOptions origin tree = [(.data, option)] ∧
      let s : Situation := ⟨origin, "Demo.vue", true⟩
      (s.addOption ({}, []) (.data, option)).1.hoisted =
          [Text.ofString "const f = () => \x7b return 1; \x7d;",
            Text.ofString "if (f()) \x7b return \x7b b: 1 \x7d; \x7d"] ∧
        (s.hoistedStatements option).map (·.ownReturns.map s.text) =
          [[], [Text.ofString "return \x7b b: 1 \x7d;"]] ∧
        ∃ r, CanReturn (s.dataStatements option) r ∧ s.text r = "return \x7b b: 1 \x7d;" := by
  have hread : (soleOption? branchingScript).any (fun (_, origin, option) =>
      let s : Situation := ⟨origin, "Demo.vue", true⟩
      option.1 = .data ∧ (s.hoistedStatements option.2).map s.text =
          [Text.ofString "const f = () => \x7b return 1; \x7d;",
            Text.ofString "if (f()) \x7b return \x7b b: 1 \x7d; \x7d"] ∧
        (s.hoistedStatements option.2).map (·.ownReturns.map s.text) =
          [[], [Text.ofString "return \x7b b: 1 \x7d;"]] ∧
        ((s.dataStatements option.2).takeWhile (!·.isReturn)).map (·.ownReturns.map s.text) =
          [[], [Text.ofString "return \x7b b: 1 \x7d;"]]) = true := by
    decide +kernel
  obtain ⟨⟨tree, origin, kind, option⟩, hscript, hvalues⟩ := (Option.any_eq_true _ _).mp hread
  obtain ⟨htree, horigin, hoptions⟩ := of_soleOption? hscript
  obtain ⟨rfl, hhoisted, hreturns, hbefore⟩ := of_decide_eq_true hvalues
  obtain ⟨hafter, -, hruns, -⟩ := hoisted_returns_iff ⟨origin, "Demo.vue", true⟩ option {} []
  refine ⟨tree, origin, option, htree, horigin, hoptions, ?_, hreturns, ?_⟩
  · have hsome : (Situation.hoistedStatements ⟨origin, "Demo.vue", true⟩ option).isEmpty = false := by
      rw [← List.isEmpty_map, hhoisted]
      rfl
    rw [hafter, hsome]
    exact hhoisted
  · obtain ⟨_, _, hstatements, -, hrest⟩ := List.map_eq_cons_iff.mp hbefore
    obtain ⟨branch, _, rfl, hbranch, -⟩ := List.map_eq_cons_iff.mp hrest
    obtain ⟨r, _, hown, htext, -⟩ := List.map_eq_cons_iff.mp hbranch
    refine ⟨r, (hruns r).mpr (.inr ⟨branch, ?_, ?_⟩), htext⟩
    · simp [hstatements]
    · simp [hown]

end ClassComponent
