import ClassComponent.Proofs.Convert.Entries
import ClassComponent.Proofs.Text.Key
import ClassComponent.Proofs.Text.Lines

/-!
# Watchers and what they watch

A watcher is a method that is named after the path that it watches; the path itself is the first argument of its
decorator.

* **Names** (`watcherName_namedAfter`): the letters and digits of the path, step by step, with the first one of each
  step in upper case. Such a name is an identifier, and it stays one when a digest is put after it.
* **Paths** (`Method.Watches`): the path is written as a string literal, which can be read back.
* **Options** (`watchers_named_after_paths`): both hold of all watchers of an option, in the order of its entries,
  and renaming keeps them.
-/

namespace ClassComponent

namespace Text

/-! ## Names -/

/-- The ASCII letters and digits among code points, in order. -/
def alnums (ps : List CodePoint) : List Char :=
  ps.filterMap fun p => p.char?.filter isAlnum

/-- Characters, with the first one in upper case. -/
def initialUpper : List Char → List Char
  | [] => []
  | c :: cs => c.toUpper :: cs

/-- The name `on…Change` for a path: in between stand the ASCII letters and digits of the path, in order, with
the first one of each step in upper case. The steps are what stands between dots. -/
def NamedAfter (path name : Text) : Prop :=
  ∃ steps : List (List CodePoint), steps ≠ [] ∧ (∀ step ∈ steps, CodePoint.char '.' ∉ step) ∧
    path.points = [CodePoint.char '.'].intercalate steps ∧
    name = "on" ++ ofChars (steps.flatMap fun step => initialUpper (alnums step)) ++ "Change"

theorem isAlnum_of_mem_alnums {ps : List CodePoint} {c : Char} (h : c ∈ alnums ps) : isAlnum c := by
  obtain ⟨p, -, hp⟩ := List.mem_filterMap.mp h
  exact (Option.filter_eq_some_iff.mp hp).2

theorem points_alnumOnly (ps : List CodePoint) : (alnumOnly ⟨ps⟩).points = (alnums ps).map .char := by
  have hstep (p : CodePoint) :
      Option.guard (·.satisfies isAlnum) p = (p.char?.filter isAlnum).map .char := by
    cases p with
    | half offset => rfl
    | char c =>
      have hkept : (CodePoint.char c).satisfies isAlnum = isAlnum c := rfl
      have hchar : (CodePoint.char c).char?.filter isAlnum = if isAlnum c then some c else none :=
        Option.filter_some
      rw [hchar, Option.guard, hkept]
      split <;> rfl
  show ps.filter (·.satisfies isAlnum) = _
  rw [alnums, List.map_filterMap, ← List.filterMap_eq_filter]
  exact congrArg (List.filterMap · ps) (funext hstep)

theorem capitalize_alnumOnly (ps : List CodePoint) :
    capitalize (alnumOnly ⟨ps⟩) = ofChars (initialUpper (alnums ps)) := by
  have halnum : ∀ c ∈ alnums ps, isAlnum c := fun c => isAlnum_of_mem_alnums
  refine eq_of_points ?_
  rw [capitalize, points_alnumOnly]
  cases h : alnums ps with
  | nil => rfl
  | cons c cs =>
    rw [h] at halnum
    show upperPoint (.char c) ++ _ = _
    rw [upperPoint_of_isAlnum (halnum c List.mem_cons_self)]
    rfl

theorem concat_map_ofChars (words : List (List Char)) : concat (words.map ofChars) = ofChars words.flatten := by
  refine eq_of_points ?_
  simp only [concat, ofChars, List.flatMap_map, List.map_flatten]
  rfl

/-- The name of a watcher is made from the steps of its path. -/
theorem watcherName_namedAfter (path : Text) : NamedAfter path (watcherName path) := by
  have hsplit := splitAt_eq_splitOn (CodePoint.char '.') path.points
  refine ⟨splitAt (.char '.') path.points, ?_, fun step hstep => not_mem_of_mem_splitAt hstep, ?_, ?_⟩
  · rw [hsplit]
    exact List.splitOn_ne_nil _ _
  · rw [hsplit, List.intercalate_splitOn]
  · rw [List.flatMap_def, ← concat_map_ofChars, List.map_map]
    simp only [watcherName, capitalize_alnumOnly]
    rfl

/-- An identifier goes on with plain characters. -/
theorem isName_append {name rest : Text} (hname : name.isName) (hrest : rest.IsPlain) : (name ++ rest).isName := by
  obtain ⟨hplain, p, hp, hdigit⟩ := isName_iff.mp hname
  refine isName_iff.mpr ⟨hplain.append hrest, p, ?_, hdigit⟩
  show (name.points ++ rest.points).head? = some p
  rw [List.head?_append, hp, Option.some_or]

theorem isName_watcherName (path : Text) : (watcherName path).isName :=
  isName_iff.mpr ⟨isPlain_watcherName path, .char 'o', rfl, by decide⟩

/-! ## Paths -/

/-- Nothing is joined where no two neighbours make a character. -/
theorem pairHalves_of_isChain {ps : List CodePoint} (h : ps.IsChain (CodePoint.pair? · · = none)) :
    pairHalves ps = ps := by
  fun_induction pairHalves ps with
  | case1 => rfl
  | case2 p => rfl
  | case3 p q rest c hpair ih =>
    rw [(List.isChain_cons_cons.mp h).1] at hpair
    cases hpair
  | case4 p q rest hpair ih => rw [ih (List.isChain_cons_cons.mp h).2]

end Text

/-- Whether a method watches `path`: the first argument of its decorator is a string literal that stands for the
path, and at most one more argument follows. Texts are compared by their units, in which a pair of halves is the
same as the character that it makes; a path without such a pair is what the literal reads as. -/
def Method.Watches (m : Method) (path : Text) : Prop :=
  ∃ literal rest value : Text, m.decorators = ["@Watch(" ++ literal ++ rest] ∧
    (rest = ")" ∨ ∃ settings : Text, rest = ", " ++ settings ++ ")") ∧
    literal.unquote? = some value ∧ value.units = path.units ∧
    (path.points.IsChain (CodePoint.pair? · · = none) → value = path)

namespace Situation

variable {s : Situation}

theorem watches_of_decorators {m : Method} {path : Text} {settings : List Tree}
    (h : m.decorators = [s.watchDecorator path settings]) : m.Watches path := by
  have hread : (Text.quote path).unquote? = some ⟨Text.pairHalves path.points⟩ := Text.unquote?_quote path
  have hunits : (⟨Text.pairHalves path.points⟩ : Text).units = path.units := Text.units_pairHalves path.points
  have hsame : path.points.IsChain (CodePoint.pair? · · = none) →
      (⟨Text.pairHalves path.points⟩ : Text) = path :=
    fun halone => Text.eq_of_points (Text.pairHalves_of_isChain halone)
  unfold watchDecorator at h
  split at h
  · exact ⟨Text.quote path, ")", _, h, .inl rfl, hread, hunits, hsame⟩
  · rw [Text.append_assoc, Text.append_assoc, ← Text.append_assoc ", "] at h
    exact ⟨Text.quote path, _, _, h, .inr ⟨_, rfl⟩, hread, hunits, hsame⟩

/-! ## Entries -/

/-- Whether an entry of `watch` becomes a watcher. -/
def isWatched (s : Situation) (entry : Tree) : Bool :=
  entry.kind == "Property" && s.isHandled entry

end Situation

/-- The items are those of the accepted entries, in their order. -/
theorem Accounts.forall₂ {α : Type} {accepted : Tree → Bool} {IsItem : Tree → α → Prop}
    {IsReport : Tree → Diagnostic → Prop} {entries : List Tree} {items : List α} {reports : List Diagnostic}
    (h : Accounts (fun entry => GivesOne (accepted entry) (IsItem entry) (IsReport entry)) entries items
      reports) : List.Forall₂ IsItem (entries.filter accepted) items := by
  induction h with
  | nil => exact .nil
  | cons hentry _ ih =>
    cases hentry with
    | item haccepted hitem =>
      rw [List.filter_cons_of_pos haccepted]
      exact .cons hitem ih
    | report haccepted _ =>
      rw [List.filter_cons_of_neg (by simp [haccepted])]
      exact ih

/-! ## Renaming -/

/-- A name with four digits put after it. -/
def IsExtendedBy (digits : List Char) (name fresh : Text) : Prop :=
  digits.length = 4 ∧ (∀ d ∈ digits, Digest.isHexDigit d) ∧ fresh = name ++ "_" ++ Text.ofChars digits

theorem Renamed.cases_short {old new : Method} (h : Renamed Digest.short old new) :
    new.name = old.name ∨ ∃ digits, IsExtendedBy digits old.name new.name := by
  rcases h.named with hsame | ⟨previous, hnext⟩
  · exact .inl hsame
  · refine .inr ⟨(Digest.digits previous).take 4, ?_, fun d hd => ?_, hnext⟩
    · simp [Digest.isDigest_digits.length previous]
    · exact Digest.isDigest_digits.hex previous d (List.mem_of_mem_take hd)

theorem Renamed.isName {old new : Method} (h : Renamed Digest.short old new) (hold : old.name.isName) :
    new.name.isName := by
  rcases h.named with hsame | ⟨previous, hnext⟩
  · rwa [hsame]
  · rw [hnext, nextCandidate]
    exact Text.isName_append (Text.isName_append hold (by decide)) (Text.isPlain_short previous)

theorem forall₂_renamed {α : Type} {R S : α → Method → Prop} {digest : Text → Text}
    (hstep : ∀ {entry old new}, R entry old → Renamed digest old new → S entry new) {entries : List α}
    {watch renamed : List Method} (h : List.Forall₂ R entries watch)
    (hrenamed : List.Forall₂ (Renamed digest) watch renamed) : List.Forall₂ S entries renamed := by
  induction h generalizing renamed with
  | nil =>
    cases hrenamed
    exact .nil
  | cons hentry _ ih =>
    cases hrenamed with
    | cons hfirst hrest => exact .cons (hstep hentry hfirst) (ih hrest)

/-- **Watchers are named after their paths, and the paths survive.** The watchers of an option are those of its
entries that become one, in order. Whatever the key of an entry is, the watcher is named `on…Change` after the
ASCII letters and digits of the key, with the first one of each step in upper case, and its decorator has a string
literal as first argument that stands for the key. When the watchers of a component are renamed later on, each of
them keeps its decorator, and its name is an identifier: that name, or that name with four digits of a digest
put after it. -/
theorem watchers_named_after_paths {s : Situation} {option : Tree}
    (hvalue : (option.get "value").kind = "ObjectExpression") (c : Component) (log : List Event) :
    let watched := ((option.get "value").get "properties").items.filter s.isWatched
    let after := (s.addOption (c, log) (.watch, option)).1
    List.Forall₂ (fun entry m =>
      Text.NamedAfter (s.origin.memberName entry) m.name ∧ m.Watches (s.origin.memberName entry))
      watched after.watch ∧
    ∀ later renamed : Component, later.watch = after.watch →
      later.renameWatchers? Digest.short = some renamed →
      List.Forall₂ (fun entry m => m.name.isName ∧ m.Watches (s.origin.memberName entry) ∧
        ∃ name, Text.NamedAfter (s.origin.memberName entry) name ∧
          (m.name = name ∨ ∃ digits, IsExtendedBy digits name m.name))
        watched renamed.watch := by
  intro watched after
  have haccounts : Accounts s.watchGives ((option.get "value").get "properties").items after.watch
      (s.optionReports (.watch, option)) := by
    refine Situation.accounts_of_ofEntries .watch Situation.watchEntry_gives ?_ c log
    simp only [Situation.readOption, Situation.readWatch, hvalue, beq_self_eq_true, if_true]
  have hmade : List.Forall₂ (fun entry (m : Method) => m.name = Text.watcherName (s.origin.memberName entry) ∧
      m.Watches (s.origin.memberName entry)) watched after.watch := by
    refine List.Forall₂.imp ?_ haccounts.forall₂
    rintro entry m ⟨hname, hdecorators⟩
    exact ⟨hname, Situation.watches_of_decorators hdecorators⟩
  refine ⟨List.Forall₂.imp ?_ hmade, fun later renamed hwatch hrename => ?_⟩
  · rintro entry m ⟨hname, hwatches⟩
    exact ⟨hname ▸ Text.watcherName_namedAfter _, hwatches⟩
  · obtain ⟨watch, hall, rfl⟩ := Component.renameWatchers?_eq_some hrename
    rw [hwatch] at hall
    refine forall₂_renamed ?_ hmade (renameAll?_renamed hall)
    rintro entry old new ⟨hname, hwatches⟩ hnew
    have hpath : Text.NamedAfter (s.origin.memberName entry) old.name :=
      hname ▸ Text.watcherName_namedAfter _
    refine ⟨hnew.isName (hname ▸ Text.isName_watcherName _), ?_, old.name, hpath, hnew.cases_short⟩
    rw [hnew.same]
    exact hwatches

/-- A script with an empty step, a key that is no word and two paths that give the same name. -/
def pathsScript : String :=
  "export default \x7b\n  watch: \x7b\n    \"a.b-c\"() \x7b\x7d,\n" ++
    "    \"a..bc\": \x7b handler() \x7b\x7d, deep: true \x7d,\n    [é.x]() \x7b\x7d,\n  \x7d,\n\x7d;\n"

theorem watchers_of_pathsScript :
    ∃ tree origin option renamed, Script.parse pathsScript true = .ok tree ∧
      Origin.of? pathsScript (tree.get "tokens").items = some origin ∧
      scriptOptions origin tree = [(.watch, option)] ∧
      let s : Situation := ⟨origin, "Demo.vue", true⟩
      let after := (s.addOption ({}, []) (.watch, option)).1
      let entries := ((option.get "value").get "properties").items.filter s.isWatched
      (option.get "value").kind = "ObjectExpression" ∧ after.renameWatchers? Digest.short = some renamed ∧
        entries.map s.origin.memberName = [Text.ofString "a.b-c", "a..bc", "[é.x]"] ∧
        renamed.watch.map Method.name = [Text.ofString "onABcChange", "onABcChange_fc4a", "onXChange"] ∧
        List.Forall₂ (fun entry m => m.name.isName ∧ m.Watches (s.origin.memberName entry) ∧
          ∃ name, Text.NamedAfter (s.origin.memberName entry) name ∧
            (m.name = name ∨ ∃ digits, IsExtendedBy digits name m.name)) entries renamed.watch := by
  have hread : (soleOption? pathsScript).any (fun (_, origin, option) =>
      let s : Situation := ⟨origin, "Demo.vue", true⟩
      option.1 = .watch ∧ (option.2.get "value").kind = "ObjectExpression" ∧
        (((option.2.get "value").get "properties").items.filter s.isWatched).map s.origin.memberName =
          [Text.ofString "a.b-c", "a..bc", "[é.x]"] ∧
        ((s.addOption ({}, []) option).1.renameWatchers? Digest.short).map
          (fun renamed => renamed.watch.map Method.name) =
            some [Text.ofString "onABcChange", "onABcChange_fc4a", "onXChange"]) = true := by
    decide +kernel
  obtain ⟨⟨tree, origin, kind, option⟩, hscript, hvalues⟩ := (Option.any_eq_true _ _).mp hread
  obtain ⟨htree, horigin, hoptions⟩ := of_soleOption? hscript
  obtain ⟨rfl, hvalue, hpaths, hnames⟩ := of_decide_eq_true hvalues
  obtain ⟨renamed, hrename, hnames⟩ := Option.map_eq_some_iff.mp hnames
  exact ⟨tree, origin, option, renamed, htree, horigin, hoptions, hvalue, hrename, hpaths, hnames,
    (watchers_named_after_paths hvalue {} []).2 _ renamed rfl hrename⟩

end ClassComponent
