import ClassComponent.Proofs.Render.Statements

/-!
# Callees that are replaced at once

A statement is written with another name in the place of some callees. They are replaced one after the other, and
each replacement moves what follows it; the result is the same as if all of them were replaced at once.

* **At once** (`replacedAtOnce`): the name stands where a callee starts, and a code point is kept unless a callee
  holds it. No order of the callees plays a part in this (`replacedAtOnce_perm`).
* **From callee to callee** (`respelled_eq_replacedAtOnce`): up to the next callee all is kept (`replacedAtOnce_gap`),
  and a callee gives way to the name (`replacedAtOnce_callee`).
* **Statements** (`callees_replaced_at_once`): the callees are those of the declarators whose value is made by the
  helper for parts of the store.
-/

namespace ClassComponent

open Text

/-! ## At once -/

/-- The name, once for every callee that starts at offset `pos`. -/
def namesAt (name : List CodePoint) (callees : List Span) (pos : Nat) : List CodePoint :=
  (List.replicate (callees.countP (·.start == pos)) name).flatten

/-- Whether one of the callees holds the offset `pos`. -/
def holdsOffset (callees : List Span) (pos : Nat) : Bool :=
  callees.any fun c => c.start ≤ pos && pos < c.stop

/-- `text`, which begins at offset `pos`, with `name` in the place of all `callees` at once. -/
def replacedAtOnce (name : List CodePoint) (callees : List Span) : Nat → List CodePoint → List CodePoint
  | pos, [] => namesAt name callees pos
  | pos, p :: text =>
    namesAt name callees pos ++ (if holdsOffset callees pos then [] else [p]) ++
      replacedAtOnce name callees (pos + 1) text

section

variable {name : List CodePoint} {c : Span} {callees : List Span} {pos : Nat}

theorem namesAt_of_later (h : ∀ c ∈ callees, pos < c.start) : namesAt name callees pos = [] := by
  have hcount : callees.countP (·.start == pos) = 0 := by
    refine List.countP_eq_zero.mpr fun c hc => ?_
    have := h c hc
    simp only [beq_iff_eq]
    omega
  rw [namesAt, hcount]
  rfl

theorem holdsOffset_of_later (h : ∀ c ∈ callees, pos < c.start) : holdsOffset callees pos = false := by
  refine List.any_eq_false.mpr fun c hc => ?_
  have := h c hc
  simp only [Bool.and_eq_true, decide_eq_true_eq]
  omega

theorem namesAt_cons_self : namesAt name (c :: callees) c.start = name ++ namesAt name callees c.start := by
  rw [namesAt, List.countP_cons_of_pos (by simp), List.replicate_succ, List.flatten_cons]
  rfl

theorem namesAt_cons_of_ne (h : c.start ≠ pos) : namesAt name (c :: callees) pos = namesAt name callees pos := by
  rw [namesAt, List.countP_cons_of_neg (by simpa using h)]
  rfl

theorem holdsOffset_cons_of_stop_le (h : c.stop ≤ pos) :
    holdsOffset (c :: callees) pos = holdsOffset callees pos := by
  have hc : (decide (c.start ≤ pos) && decide (pos < c.stop)) = false := by
    simp only [Bool.and_eq_false_iff, decide_eq_false_iff_not]
    omega
  rw [holdsOffset, List.any_cons, hc, Bool.false_or]
  rfl

theorem holdsOffset_cons_of_holds (hstart : c.start ≤ pos) (hstop : pos < c.stop) :
    holdsOffset (c :: callees) pos = true := by
  simp [holdsOffset, hstart, hstop]

/-! ## From callee to callee -/

/-- Up to the first callee everything is kept. -/
theorem replacedAtOnce_gap {lead : List CodePoint} (h : ∀ c ∈ callees, pos + lead.length ≤ c.start)
    (rest : List CodePoint) :
    replacedAtOnce name callees pos (lead ++ rest) =
      lead ++ replacedAtOnce name callees (pos + lead.length) rest := by
  induction lead generalizing pos with
  | nil => rfl
  | cons p lead ih =>
    have hnext : pos + (p :: lead).length = pos + 1 + lead.length := by
      rw [List.length_cons]
      omega
    rw [hnext] at h ⊢
    have hlater : ∀ c ∈ callees, pos < c.start := by
      intro c hc
      have := h c hc
      omega
    rw [List.cons_append, replacedAtOnce, namesAt_of_later hlater, holdsOffset_of_later hlater, ih h]
    rfl

/-- A callee that has come to its end plays no part any more. -/
theorem replacedAtOnce_past (hstart : c.start < pos) (hstop : c.stop ≤ pos) (rest : List CodePoint) :
    replacedAtOnce name (c :: callees) pos rest = replacedAtOnce name callees pos rest := by
  induction rest generalizing pos with
  | nil => exact namesAt_cons_of_ne (Nat.ne_of_lt hstart)
  | cons p rest ih =>
    rw [replacedAtOnce, namesAt_cons_of_ne (Nat.ne_of_lt hstart), holdsOffset_cons_of_stop_le hstop,
      ih (by omega) (by omega)]
    rfl

/-- What a callee holds is left out. -/
theorem replacedAtOnce_inside {held : List CodePoint} (hstart : c.start < pos)
    (hheld : pos + held.length = c.stop) (h : ∀ d ∈ callees, c.stop ≤ d.start) (rest : List CodePoint) :
    replacedAtOnce name (c :: callees) pos (held ++ rest) = replacedAtOnce name callees c.stop rest := by
  induction held generalizing pos with
  | nil =>
    obtain rfl : pos = c.stop := hheld
    exact replacedAtOnce_past hstart (Nat.le_refl _) rest
  | cons p held ih =>
    rw [List.length_cons] at hheld
    have hstop : pos < c.stop := by omega
    have hlater : ∀ d ∈ callees, pos < d.start := fun d hd => Nat.lt_of_lt_of_le hstop (h d hd)
    rw [List.cons_append, replacedAtOnce, namesAt_cons_of_ne (Nat.ne_of_lt hstart), namesAt_of_later hlater,
      holdsOffset_cons_of_holds (Nat.le_of_lt hstart) hstop, ih (by omega) (by omega)]
    rfl

/-- A callee gives way to the name. -/
theorem replacedAtOnce_callee {held : List CodePoint} (hheld : c.start + held.length = c.stop)
    (h : ∀ d ∈ callees, c.stop ≤ d.start) (rest : List CodePoint) :
    replacedAtOnce name (c :: callees) c.start (held ++ rest) =
      name ++ replacedAtOnce name callees c.stop rest := by
  cases held with
  | nil =>
    -- An empty callee holds nothing, so the name is put before what stands there.
    have hempty : c.start = c.stop := hheld
    rw [List.nil_append, ← hempty]
    cases rest with
    | nil => exact namesAt_cons_self
    | cons p rest =>
      rw [replacedAtOnce, replacedAtOnce, namesAt_cons_self, holdsOffset_cons_of_stop_le (Nat.le_of_eq hempty.symm),
        replacedAtOnce_past (by omega) (by omega)]
      simp only [List.append_assoc]
  | cons p held =>
    rw [List.length_cons] at hheld
    have hstop : c.start < c.stop := by omega
    have hlater : ∀ d ∈ callees, c.start < d.start := fun d hd => Nat.lt_of_lt_of_le hstop (h d hd)
    rw [List.cons_append, replacedAtOnce, namesAt_cons_self, namesAt_of_later hlater,
      holdsOffset_cons_of_holds (Nat.le_refl _) hstop, replacedAtOnce_inside (by omega) (by omega) h]
    simp only [List.append_nil, if_true]

/-- Without callees all is kept. -/
theorem replacedAtOnce_nil (text : List CodePoint) : replacedAtOnce name [] pos text = text := by
  induction text generalizing pos with
  | nil => rfl
  | cons p text ih =>
    rw [replacedAtOnce, ih]
    rfl

/-- A text in which a callee lies: what precedes the callee, what it holds and what follows it. -/
theorem exists_split_at {text : List CodePoint} (hpos : pos ≤ c.start) (hforward : c.start ≤ c.stop)
    (hlength : c.stop ≤ pos + text.length) :
    ∃ lead held rest, text = lead ++ (held ++ rest) ∧ pos + lead.length = c.start ∧
      c.start + held.length = c.stop := by
  refine ⟨text.take (c.start - pos), (text.drop (c.start - pos)).take (c.stop - c.start),
    (text.drop (c.start - pos)).drop (c.stop - c.start), ?_, ?_, ?_⟩
  · rw [List.take_append_drop, List.take_append_drop]
  · rw [List.length_take]
    omega
  · rw [List.length_take, List.length_drop]
    omega

end

/-- Callees that follow each other can be replaced from the first to the last. -/
theorem respelled_eq_replacedAtOnce {pos : Nat} {text : List CodePoint} {callees : List Span}
    (hin : ∀ c ∈ callees, pos ≤ c.start ∧ c.start ≤ c.stop ∧ c.stop ≤ pos + text.length)
    (hfollow : callees.Pairwise fun c d => c.stop ≤ d.start) :
    respelled pos text callees = replacedAtOnce replacement callees pos text := by
  induction callees generalizing pos text with
  | nil => exact (replacedAtOnce_nil text).symm
  | cons c callees ih =>
    obtain ⟨hpos, hforward, hlength⟩ := hin c (by simp)
    obtain ⟨hnext, hfollow⟩ := List.pairwise_cons.mp hfollow
    obtain ⟨lead, held, rest, rfl, hlead, hheld⟩ := exists_split_at hpos hforward hlength
    have hstart : c.start - pos = lead.length := by omega
    have hstop : c.stop - pos = (lead ++ held).length := by
      rw [List.length_append]
      omega
    have hfirst : ∀ d ∈ c :: callees, pos + lead.length ≤ d.start := by
      intro d hd
      rcases List.mem_cons.mp hd with rfl | hd
      · exact Nat.le_of_eq hlead
      · have := hnext d hd
        omega
    have hrest : respelled c.stop rest callees = replacedAtOnce replacement callees c.stop rest := by
      refine ih (fun d hd => ?_) hfollow
      have hd' := hin d (List.mem_cons_of_mem c hd)
      simp only [List.length_append] at hd'
      exact ⟨hnext d hd, hd'.2.1, by omega⟩
    rw [replacedAtOnce_gap hfirst, hlead, replacedAtOnce_callee hheld hnext, ← hrest, respelled, hstart, hstop,
      List.take_left, ← List.append_assoc lead held rest, List.drop_left, List.append_assoc]

/-- The order of the callees plays no part. -/
theorem replacedAtOnce_perm (name : List CodePoint) {callees callees' : List Span} (h : callees.Perm callees')
    (pos : Nat) (text : List CodePoint) :
    replacedAtOnce name callees pos text = replacedAtOnce name callees' pos text := by
  have hnames (pos : Nat) : namesAt name callees pos = namesAt name callees' pos := by
    rw [namesAt, namesAt, h.countP_eq]
  have hholds (pos : Nat) : holdsOffset callees pos = holdsOffset callees' pos :=
    h.any_eq
  induction text generalizing pos with
  | nil => exact hnames pos
  | cons p text ih => rw [replacedAtOnce, replacedAtOnce, hnames, hholds, ih]

/-- Callees that lie apart from each other inside the text are replaced at once, whatever their order. -/
theorem replaceCallees_eq_replacedAtOnce {start : Nat} {text : Text} {callees : List Span}
    (hin : ∀ c ∈ callees, start ≤ c.start ∧ c.start ≤ c.stop ∧ c.stop ≤ start + text.length)
    (hapart : callees.Pairwise Span.Apart) :
    replaceCallees start text callees = ⟨replacedAtOnce replacement callees start text.points⟩ := by
  have hin' : ∀ c ∈ callees.mergeSort Span.before,
      start ≤ c.start ∧ c.start ≤ c.stop ∧ c.stop ≤ start + text.points.length :=
    fun c hc => hin c (List.mem_mergeSort.mp hc)
  have hfollow := Span.pairwise_follow_mergeSort (fun c hc => (hin c hc).2.1) hapart
  refine eq_of_points ?_
  rw [replaceCallees_points hin hapart, respelled_eq_replacedAtOnce hin' hfollow,
    replacedAtOnce_perm _ (List.mergeSort_perm _ _)]

/-! ## Statements -/

/-- The declarators of a statement that declares variables, perhaps while exporting them. -/
def declaratorsOf (t : Tree) : List Tree :=
  if (declarationOf t).kind == "VariableDeclaration" then ((declarationOf t).get "declarations").items else []

/-- The value of a declarator is made by the helper for parts of the store, which is called at `callee`. -/
structure CallsHelperAt (declarator : Tree) (callee : Span) : Prop where
  isCall : (declarator.get "init").kind = "CallExpression"
  name : ((declarator.get "init").get "callee").get "name" = .text "createNamespacedHelpers"
  place : ((declarator.get "init").get "callee").span? = some callee

theorem Tree.isWord_iff {t : Tree} {word : String} : t.isWord word ↔ t = .text word := by
  cases t <;> simp [isWord, text?]

theorem namespaceCallee?_eq_some_iff {declarator : Tree} {callee : Span} :
    namespaceCallee? declarator = some callee ↔ CallsHelperAt declarator callee := by
  simp only [namespaceCallee?, Option.ite_none_right_eq_some, Bool.and_eq_true, beq_iff_eq, Tree.isWord_iff]
  exact ⟨fun h => ⟨h.1.1, h.1.2, h.2⟩, fun h => ⟨⟨h.isCall, h.name⟩, h.place⟩⟩

theorem namespaceCallees_eq_filterMap (t : Tree) :
    namespaceCallees t = (declaratorsOf t).filterMap namespaceCallee? := by
  by_cases h : (declarationOf t).kind == "VariableDeclaration"
  · simp only [namespaceCallees, declaratorsOf, if_pos h]
  · simp only [namespaceCallees, declaratorsOf, if_neg h, List.filterMap_nil]

theorem mem_namespaceCallees_iff {t : Tree} {callee : Span} :
    callee ∈ namespaceCallees t ↔ ∃ declarator ∈ declaratorsOf t, CallsHelperAt declarator callee := by
  simp only [namespaceCallees_eq_filterMap, List.mem_filterMap, namespaceCallee?_eq_some_iff]

/-- **Callees are replaced at once.** Let a statement begin, with its comments, at offset `start`. Its callees are
those of the declarators whose value is made by the helper for parts of the store. If they lie apart from each other
inside the text, it is written with `namespace` in the place of all of them at once, and everything else is kept in
order. Another order of the declarators makes no difference. -/
theorem callees_replaced_at_once {t : Tree} {start : Nat} {text : Text}
    (hin : ∀ c ∈ namespaceCallees t, start ≤ c.start ∧ c.start ≤ c.stop ∧ c.stop ≤ start + text.length)
    (hapart : (namespaceCallees t).Pairwise Span.Apart) :
    (∀ c, c ∈ namespaceCallees t ↔ ∃ declarator ∈ declaratorsOf t, CallsHelperAt declarator c) ∧
    replaceCallees start text (namespaceCallees t) =
      ⟨replacedAtOnce (ofString "namespace").points (namespaceCallees t) start text.points⟩ ∧
    ∀ t', (declaratorsOf t').Perm (declaratorsOf t) →
      replaceCallees start text (namespaceCallees t') = replaceCallees start text (namespaceCallees t) := by
  have hall := replaceCallees_eq_replacedAtOnce hin hapart
  refine ⟨fun c => mem_namespaceCallees_iff, hall, fun t' hdeclarators => ?_⟩
  have hperm : (namespaceCallees t').Perm (namespaceCallees t) := by
    rw [namespaceCallees_eq_filterMap, namespaceCallees_eq_filterMap]
    exact hdeclarators.filterMap _
  have hall' := replaceCallees_eq_replacedAtOnce (fun c hc => hin c (hperm.mem_iff.mp hc))
    ((hperm.pairwise_iff Or.symm).mpr hapart)
  rw [hall, hall', replacedAtOnce_perm _ hperm]

/-- A declarator whose value is made by the helper, called at `callee`. -/
def helperDeclarator (callee : Span) : Tree :=
  .node [("init", .make "CallExpression" callee [
    ("callee", .make "Identifier" callee [("name", .text "createNamespacedHelpers")])])]

/-- Two callees behind a comment, in a text that begins in the middle of a script; the declarators are given from the
last to the first. -/
theorem callees_replaced_behind_comment :
    let text : Text := "// s\nconst b = createNamespacedHelpers(\"y\"), a = createNamespacedHelpers(\"x\");"
    let t : Tree := .make "VariableDeclaration" ⟨12, 84⟩
      [("declarations", .list [helperDeclarator ⟨56, 79⟩, helperDeclarator ⟨22, 45⟩])]
    namespaceCallees t = [⟨56, 79⟩, ⟨22, 45⟩] ∧
      replaceCallees 7 text (namespaceCallees t) = "// s\nconst b = namespace(\"y\"), a = namespace(\"x\");" := by
  intro text t
  have hcallees : namespaceCallees t = [⟨56, 79⟩, ⟨22, 45⟩] := by decide +kernel
  have hin : ∀ c ∈ namespaceCallees t, 7 ≤ c.start ∧ c.start ≤ c.stop ∧ c.stop ≤ 7 + text.length := by
    rw [hcallees]
    decide +kernel
  have hapart : (namespaceCallees t).Pairwise Span.Apart := by
    rw [hcallees]
    simp [Span.Apart]
  obtain ⟨-, hreplaced, -⟩ := callees_replaced_at_once hin hapart
  refine ⟨hcallees, ?_⟩
  rw [hreplaced, hcallees]
  decide +kernel

end ClassComponent
