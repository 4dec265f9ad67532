import ClassComponent.Proofs.Text.Lines
import ClassComponent.Proofs.Text.Name
import ClassComponent.Render.Import

/-!
# Import lines

What the lines say that import names for the class.

* **Names for the store** (`storeImport_storeNames`): each tool that is used on the whole store, in order
  of first use, and `namespace` last if a part of the store is used.
* **Lines** (`listedNames_importLine`, `sourceModule_importLine`): the names and the module can be read
  back from a line.
-/

namespace ClassComponent

/-! ## Order of first use -/

theorem idxOf_lt_of_idxOf_filter {α : Type} [BEq α] [LawfulBEq α] (p : α → Bool) {a b : α} (ha : p a)
    (hb : p b) {l : List α} (h : (l.filter p).idxOf a < (l.filter p).idxOf b) :
    l.idxOf a < l.idxOf b := by
  induction l with
  | nil => exact h
  | cons x l ih =>
    by_cases hx : p x
    · rw [List.filter_cons_of_pos hx] at h
      simp only [List.idxOf_cons] at h ⊢
      grind
    · have hxa : x ≠ a := fun e => hx (e ▸ ha)
      have hxb : x ≠ b := fun e => hx (e ▸ hb)
      rw [List.filter_cons_of_neg hx] at h
      rw [List.idxOf_cons_ne _ hxa, List.idxOf_cons_ne _ hxb]
      exact Nat.succ_lt_succ (ih h)

/-- Without repetitions, a list is in the order of first occurrences. -/
theorem pairwise_eraseDups {α : Type} [BEq α] [LawfulBEq α] (l : List α) :
    l.eraseDups.Pairwise fun a b => l.idxOf a < l.idxOf b := by
  match l with
  | [] => exact .nil
  | a :: l =>
    -- The list without its first element gets shorter by `filter`, so the recursion is on the length.
    have ih := pairwise_eraseDups (l.filter fun b => !b == a)
    have hne : ∀ {b : α}, b ∈ (l.filter fun b => !b == a).eraseDups → (!b == a) = true := fun hb =>
      (List.mem_filter.mp (List.mem_eraseDups.mp hb)).2
    rw [List.eraseDups_cons]
    refine List.pairwise_cons.mpr ⟨fun b hb => ?_, ih.imp_of_mem fun hb hc hlt => ?_⟩
    · have hb := hne hb
      rw [List.idxOf_cons_self, List.idxOf_cons_ne _ (by grind)]
      exact Nat.succ_pos _
    · have hb := hne hb
      have hc := hne hc
      rw [List.idxOf_cons_ne _ (by grind), List.idxOf_cons_ne _ (by grind)]
      exact Nat.succ_lt_succ (idxOf_lt_of_idxOf_filter (fun b => !b == a) hb hc hlt)
termination_by l.length
decreasing_by
  exact Nat.lt_succ_of_le (List.length_filter_le _ l)

/-! ## Names imported for the store -/

/-- The names of the tools used on the whole store, in order and with repetitions. -/
def wholeStoreTools (bindings : List StoreBinding) : List String :=
  (bindings.filter (!·.isNamespaced)).map (·.tool.name)

/-- Whether `names` is what has to be imported for `bindings`. -/
structure StoreImport (bindings : List StoreBinding) (names : List String) : Prop where
  nonempty : names ≠ []
  nodup : names.Nodup
  known : ∀ name ∈ names, ∃ tool : StoreTool, name = tool.name
  /-- A tool is imported if it is used on the whole store. -/
  tools : ∀ tool : StoreTool, tool ≠ .scope →
    (tool.name ∈ names ↔ ∃ b ∈ bindings, b.isNamespaced = false ∧ b.tool = tool)
  /-- Tools are imported in order of first use. -/
  order : names.Pairwise fun a b =>
    b = StoreTool.scope.name ∨ (wholeStoreTools bindings).idxOf a < (wholeStoreTools bindings).idxOf b
  /-- `namespace` is imported, as the last name, if a part of the store is used. -/
  scope : StoreTool.scope.name ∈ names ↔ ∃ b ∈ bindings, b.isNamespaced
  scope_last : StoreTool.scope.name ∈ names → names.getLast? = some StoreTool.scope.name

theorem StoreTool.name_injective {a b : StoreTool} (h : a.name = b.name) : a = b := by
  cases a <;> cases b <;> first | rfl | exact absurd h (by decide)

theorem mem_wholeStoreTools {bindings : List StoreBinding} {tool : StoreTool} :
    tool.name ∈ (wholeStoreTools bindings).eraseDups ↔
      ∃ b ∈ bindings, b.isNamespaced = false ∧ b.tool = tool := by
  simp only [List.mem_eraseDups, wholeStoreTools, List.mem_map, List.mem_filter, Bool.not_eq_true',
    and_assoc]
  constructor
  · rintro ⟨b, hb, hwhole, hname⟩
    exact ⟨b, hb, hwhole, StoreTool.name_injective hname⟩
  · rintro ⟨b, hb, hwhole, rfl⟩
    exact ⟨b, hb, hwhole, rfl⟩

/-- The name for parts of the store, if one is used. -/
def scopeNames (bindings : List StoreBinding) : List String :=
  if bindings.any (·.isNamespaced) then [StoreTool.scope.name] else []

theorem storeNames_eq (bindings : List StoreBinding) :
    storeNames bindings = (wholeStoreTools bindings).eraseDups ++ scopeNames bindings := rfl

theorem mem_scopeNames {bindings : List StoreBinding} {name : String} :
    name ∈ scopeNames bindings ↔ name = StoreTool.scope.name ∧ ∃ b ∈ bindings, b.isNamespaced := by
  unfold scopeNames
  split
  · rename_i h
    simp [List.any_eq_true.mp h]
  · rename_i h
    simp only [List.any_eq_true, not_exists, not_and] at h
    simp only [List.not_mem_nil, false_iff, not_and, not_exists]
    exact fun _ b hb => h b hb

theorem pairwise_scopeNames {bindings : List StoreBinding} {R : String → String → Prop} :
    (scopeNames bindings).Pairwise R := by
  unfold scopeNames
  split
  · exact List.pairwise_singleton _ _
  · exact .nil

/-- Bindings by tools for entries import what they need. -/
theorem storeImport_storeNames {bindings : List StoreBinding} (hne : bindings ≠ [])
    (htool : ∀ b ∈ bindings, b.tool ≠ .scope) : StoreImport bindings (storeNames bindings) := by
  have hscope : StoreTool.scope.name ∉ (wholeStoreTools bindings).eraseDups := by
    rw [mem_wholeStoreTools]
    rintro ⟨b, hb, -, h⟩
    exact htool b hb h
  have hmem : ∀ {name : String}, name ∈ storeNames bindings ↔
      name ∈ (wholeStoreTools bindings).eraseDups ∨
        name = StoreTool.scope.name ∧ ∃ b ∈ bindings, b.isNamespaced := by
    intro name
    rw [storeNames_eq, List.mem_append, mem_scopeNames]
  exact {
    nonempty := by
      obtain ⟨b, hb⟩ := List.exists_mem_of_ne_nil bindings hne
      by_cases h : b.isNamespaced
      · exact List.ne_nil_of_mem (hmem.mpr (.inr ⟨rfl, b, hb, h⟩))
      · have hb' := mem_wholeStoreTools.mpr ⟨b, hb, by simpa using h, rfl⟩
        exact List.ne_nil_of_mem (hmem.mpr (.inl hb'))
    nodup := by
      rw [storeNames_eq, List.nodup_append]
      refine ⟨(pairwise_eraseDups _).imp fun h e => ?_, pairwise_scopeNames, fun a ha b hb e => ?_⟩
      · rw [e] at h
        exact Nat.lt_irrefl _ h
      · rw [e, (mem_scopeNames.mp hb).1] at ha
        exact hscope ha
    known := by
      intro name hname
      rcases hmem.mp hname with h | ⟨rfl, -⟩
      · obtain ⟨b, -, rfl⟩ := List.mem_map.mp (List.mem_eraseDups.mp h)
        exact ⟨b.tool, rfl⟩
      · exact ⟨.scope, rfl⟩
    tools := by
      intro tool hne
      rw [hmem, mem_wholeStoreTools, or_iff_left]
      exact fun h => hne (StoreTool.name_injective h.1)
    order := by
      rw [storeNames_eq, List.pairwise_append]
      refine ⟨(pairwise_eraseDups _).imp fun h => .inr h, pairwise_scopeNames, fun a _ b hb => ?_⟩
      exact .inl (mem_scopeNames.mp hb).1
    scope := by
      rw [hmem, or_iff_right hscope]
      exact and_iff_right rfl
    scope_last := by
      intro h
      have hpart := ((hmem.mp h).resolve_left hscope).2
      have hlast : scopeNames bindings = [StoreTool.scope.name] :=
        if_pos (List.any_eq_true.mpr hpart)
      rw [storeNames_eq, hlast, List.getLast?_concat] }

/-! ## Lines that import names -/

/-- What stands between the first `opening` and the first `closing` after it. -/
def between (opening closing : Char) (cs : List Char) : List Char :=
  ((cs.dropWhile (· != opening)).drop 1).takeWhile (· != closing)

/-- The names that an import lists: they stand between braces, with commas between them. -/
def listedNames (line : String) : List String :=
  (((between '\x7b' '\x7d' line.toList).filter (!·.isWhitespace)).splitOn ',').map String.ofList

/-- The module that an import names: it stands between quotes. -/
def sourceModule (line : String) : String :=
  String.ofList (between '"' '"' line.toList)

theorem between_append {opening closing : Char} {before inside after : List Char}
    (hbefore : opening ∉ before) (hinside : closing ∉ inside) :
    between opening closing (before ++ opening :: (inside ++ closing :: after)) = inside := by
  have hskip : ∀ d ∈ before, (d != opening) = true := fun d hd => bne_iff_ne.mpr fun h => hbefore (h ▸ hd)
  have htake : ∀ d ∈ inside, (d != closing) = true := fun d hd => bne_iff_ne.mpr fun h => hinside (h ▸ hd)
  rw [between, List.dropWhile_append_of_pos hskip, List.dropWhile_cons_of_neg (by simp), List.drop_one,
    List.tail_cons, List.takeWhile_append_of_pos htake, List.takeWhile_cons_of_neg (by simp), List.append_nil]

/-- Names with commas and blanks between them. -/
def listing (names : List String) : List Char :=
  [',', ' '].intercalate (names.map String.toList)

/-- What stands before the module in an import of names. -/
def importHead (names : List String) : List Char :=
  ['i', 'm', 'p', 'o', 'r', 't', ' ', '\x7b', ' '] ++ listing names ++
    [' ', '\x7d', ' ', 'f', 'r', 'o', 'm', ' ']

theorem toList_importLine (names : List String) (module : String) :
    (importLine names module).toList = importHead names ++ '"' :: (module.toList ++ ['"', ';']) := by
  have hopening : "import \x7b ".toList = ['i', 'm', 'p', 'o', 'r', 't', ' ', '\x7b', ' '] := by decide
  have hclosing : " \x7d from \"".toList = [' ', '\x7d', ' ', 'f', 'r', 'o', 'm', ' ', '"'] := by decide
  have hseparator : ", ".toList = [',', ' '] := by decide
  have hend : "\";".toList = ['"', ';'] := by decide
  unfold importLine importHead listing
  rw [String.toList_append, String.toList_append, String.toList_append, String.toList_append,
    String.toList_intercalate, hopening, hclosing, hseparator, hend]
  simp only [List.append_assoc, List.cons_append, List.nil_append]

/-- Whether a name is made of characters of identifiers. -/
def isWord (name : String) : Bool :=
  name.toList.all Text.continuesIdentifier

section Words

variable {name : String} (h : isWord name)
include h

theorem not_mem_of_isWord {d : Char} (hd : Text.continuesIdentifier d = false) : d ∉ name.toList := by
  intro hmem
  have hplain := List.all_eq_true.mp h d hmem
  rw [hd] at hplain
  cases hplain

theorem not_isWhitespace_of_isWord {d : Char} (hd : d ∈ name.toList) : d.isWhitespace = false := by
  have hall : ∀ n < 128, Text.continuesIdentifier (Char.ofNat n) → (Char.ofNat n).isWhitespace = false := by
    decide
  have hplain := List.all_eq_true.mp h d hd
  exact Text.forall_ascii (fun d => Text.continuesIdentifier d → d.isWhitespace = false) hall
    (Text.toNat_lt_of_continuesIdentifier hplain) hplain

end Words

theorem mem_intercalate {α : Type} {separator : List α} {pieces : List (List α)} {x : α}
    (h : x ∈ separator.intercalate pieces) : x ∈ separator ∨ ∃ piece ∈ pieces, x ∈ piece := by
  induction pieces with
  | nil => cases h
  | cons piece pieces ih =>
    cases pieces with
    | nil => exact .inr ⟨piece, List.mem_singleton_self _, by simpa using h⟩
    | cons next pieces =>
      rw [List.intercalate_cons_cons, List.mem_append, List.mem_append] at h
      rcases h with (h | h) | h
      · exact .inr ⟨piece, List.mem_cons_self, h⟩
      · exact .inl h
      · exact (ih h).imp_right fun ⟨other, hother, hx⟩ => ⟨other, List.mem_cons_of_mem _ hother, hx⟩

theorem mem_listing {names : List String} {d : Char} (h : d ∈ listing names) :
    d ∈ [',', ' '] ∨ ∃ name ∈ names, d ∈ name.toList := by
  refine (mem_intercalate h).imp_right fun ⟨_, hpiece, hd⟩ => ?_
  obtain ⟨name, hname, rfl⟩ := List.mem_map.mp hpiece
  exact ⟨name, hname, hd⟩

theorem mem_importHead {names : List String} {d : Char} (h : d ∈ importHead names) :
    d ∈ ',' :: importHead [] ∨ ∃ name ∈ names, d ∈ name.toList := by
  rcases List.mem_append.mp h with h | h
  · rcases List.mem_append.mp h with h | h
    · exact .inl (List.mem_cons_of_mem _ (List.mem_append_left _ (List.mem_append_left _ h)))
    · refine (mem_listing h).imp_left fun hd => ?_
      rcases List.mem_pair.mp hd with rfl | rfl <;> decide
  · exact .inl (List.mem_cons_of_mem _ (List.mem_append_right _ h))

/-- Without blanks, words are listed with commas alone between them. -/
theorem filter_listing {names : List String} (h : ∀ name ∈ names, isWord name) :
    (listing names).filter (!·.isWhitespace) = [','].intercalate (names.map String.toList) := by
  induction names with
  | nil => rfl
  | cons name names ih =>
    have hname : name.toList.filter (!·.isWhitespace) = name.toList :=
      List.filter_eq_self.mpr fun d hd => by rw [not_isWhitespace_of_isWord (h name List.mem_cons_self) hd]; rfl
    have hrest := ih fun other hother => h other (List.mem_cons_of_mem _ hother)
    cases names with
    | nil => simpa [listing] using hname
    | cons next names =>
      rw [listing, List.map_cons, List.map_cons, List.intercalate_cons_cons, List.intercalate_cons_cons,
        List.filter_append, List.filter_append, hname, ← List.map_cons, ← listing, hrest]
      rfl

/-- The names of an import can be read back from it. -/
theorem listedNames_importLine {names : List String} (hne : names ≠ []) (h : ∀ name ∈ names, isWord name)
    (module : String) : listedNames (importLine names module) = names := by
  have hclosing : '\x7d' ∉ ' ' :: listing names ++ [' '] := by
    rw [List.cons_append, List.mem_cons, List.mem_append, List.mem_singleton]
    rintro (hmem | hmem | hmem)
    · exact absurd hmem (by decide)
    · rcases mem_listing hmem with hmem | ⟨name, hname, hmem⟩
      · exact absurd hmem (by decide)
      · exact not_mem_of_isWord (h name hname) (by decide) hmem
    · exact absurd hmem (by decide)
  have hcomma : ∀ piece ∈ names.map String.toList, ',' ∉ piece := by
    intro piece hpiece
    obtain ⟨name, hname, rfl⟩ := List.mem_map.mp hpiece
    exact not_mem_of_isWord (h name hname) (by decide)
  have hfilter : (' ' :: listing names ++ [' ']).filter (!·.isWhitespace) =
      [','].intercalate (names.map String.toList) := by
    rw [← filter_listing h, List.filter_append, List.filter_cons_of_neg (by decide)]
    exact List.append_nil _
  have hsplit : (importLine names module).toList =
      ['i', 'm', 'p', 'o', 'r', 't', ' '] ++ '\x7b' :: ((' ' :: listing names ++ [' ']) ++
        '\x7d' :: ([' ', 'f', 'r', 'o', 'm', ' ', '"'] ++ (module.toList ++ ['"', ';']))) := by
    rw [toList_importLine, importHead]
    simp only [List.append_assoc, List.cons_append, List.nil_append]
  rw [listedNames, hsplit, between_append (by decide) hclosing, hfilter,
    List.splitOn_intercalate ',' hcomma (by simpa using hne), List.map_map]
  exact (List.map_congr_left fun name _ => String.ofList_toList).trans (List.map_id _)

/-- So can its module. -/
theorem sourceModule_importLine {names : List String} (h : ∀ name ∈ names, isWord name) {module : String}
    (hmodule : '"' ∉ module.toList) : sourceModule (importLine names module) = module := by
  have hhead : '"' ∉ importHead names := by
    intro hmem
    rcases mem_importHead hmem with hmem | ⟨name, hname, hmem⟩
    · exact absurd hmem (by decide)
    · exact not_mem_of_isWord (h name hname) (by decide) hmem
  rw [sourceModule, toList_importLine, between_append hhead hmodule, String.ofList_toList]

/-! ## Lines that the class needs -/

namespace Component

theorem mem_decoratorNames {c : Component} {name : String} :
    name ∈ c.decoratorNames ↔ name = "Component" ∨ name = baseClass ∨ name = "Prop" ∧ c.props ≠ [] ∨
      name = "Watch" ∧ c.watch ≠ [] := by
  unfold decoratorNames
  cases c.props <;> cases c.watch <;> simp

theorem isWord_decoratorNames {c : Component} {name : String} (h : name ∈ c.decoratorNames) : isWord name := by
  rcases mem_decoratorNames.mp h with rfl | rfl | ⟨rfl, -⟩ | ⟨rfl, -⟩
  all_goals decide +kernel

theorem mem_storeLines {c : Component} {line : String} :
    line ∈ c.storeLines ↔ c.stores ≠ [] ∧ line = importLine (storeNames c.stores) "vuex-class" := by
  unfold storeLines
  cases c.stores <;> simp

end Component

theorem isWord_storeNames {bindings : List StoreBinding} {name : String} (h : name ∈ storeNames bindings) :
    isWord name := by
  have hall : ∀ tool : StoreTool, isWord tool.name := by
    intro tool
    cases tool <;> decide +kernel
  rw [storeNames_eq, List.mem_append, mem_scopeNames] at h
  rcases h with h | ⟨rfl, -⟩
  · obtain ⟨b, -, rfl⟩ := List.mem_map.mp (List.mem_eraseDups.mp h)
    exact hall b.tool
  · exact hall .scope

theorem toNat_lt_of_mem_importLine {names : List String} (h : ∀ name ∈ names, isWord name) {module : String}
    (hmodule : module.toList.all (·.toNat < 128) = true) {d : Char} (hd : d ∈ (importLine names module).toList) :
    d.toNat < 128 := by
  have hfixed : ((',' :: importHead []) ++ ['"', ';']).all (·.toNat < 128) = true := by decide
  rw [toList_importLine, List.mem_append, List.mem_cons, List.mem_append] at hd
  rcases hd with hd | rfl | hd | hd
  · rcases mem_importHead hd with hd | ⟨name, hname, hd⟩
    · exact of_decide_eq_true (List.all_eq_true.mp hfixed d (List.mem_append_left _ hd))
    · exact Text.toNat_lt_of_continuesIdentifier (List.all_eq_true.mp (h name hname) d hd)
  · decide
  · exact of_decide_eq_true (List.all_eq_true.mp hmodule d hd)
  · exact of_decide_eq_true (List.all_eq_true.mp hfixed d (List.mem_append_right _ hd))

/-- The lines that the class needs are in ASCII. -/
theorem Component.toNat_lt_of_mem_neededLines {c : Component} {line : String} (h : line ∈ c.neededLines)
    {d : Char} (hd : d ∈ line.toList) : d.toNat < 128 := by
  rw [neededLines, List.mem_cons, List.mem_cons] at h
  rcases h with rfl | rfl | h
  · have htyping : "import * as tsx from \"vue-tsx-support\";".toList.all (·.toNat < 128) = true := by
      decide +kernel
    exact of_decide_eq_true (List.all_eq_true.mp htyping d hd)
  · exact toNat_lt_of_mem_importLine (fun _ => isWord_decoratorNames) (by decide +kernel) hd
  · rw [(mem_storeLines.mp h).2] at hd
    exact toNat_lt_of_mem_importLine (fun _ => isWord_storeNames) (by decide +kernel) hd

end ClassComponent
