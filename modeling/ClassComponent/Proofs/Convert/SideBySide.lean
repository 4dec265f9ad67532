import ClassComponent.Proofs.Component.Matching
import ClassComponent.Proofs.Convert.Reading
import ClassComponent.Proofs.Tree.Parts

/-!
# Readings side by side

Two readings of one tree whose texts are paired point by point.

* **Origins** (`Pairing.Origins`): texts and names of nodes are paired if the masked scripts are, and values of the tree
  are paired with themselves.
* **Readings** (`Pairing.Readings`): names that are quoted are shown alike, and line breaks are put back to the same
  script. Then functions are written alike, and a report on a node is the same in both readings.
* **Watchers** (`Readings.report_lead_iff`): a report that ends in a name is the same if and only if the name is shown
  alike.
-/

namespace ClassComponent

open Text

/-! ## Watchers -/

/-- The entries of the watch options of a script. -/
def watchEntries (o : Origin) (tree : Tree) : List Tree :=
  (scriptOptions o tree).flatMap fun (kind, option) =>
    if kind = .watch ∧ (option.get "value").kind = "ObjectExpression" then
      ((option.get "value").get "properties").items
    else []

theorem mem_watchEntries {o : Origin} {tree entry : Tree} :
    entry ∈ watchEntries o tree ↔ ∃ option, (.watch, option) ∈ scriptOptions o tree ∧
      (option.get "value").kind = "ObjectExpression" ∧
      entry ∈ ((option.get "value").get "properties").items := by
  rw [watchEntries, List.mem_flatMap]
  constructor
  · rintro ⟨⟨kind, option⟩, hoption, hentry⟩
    dsimp only at hentry
    split at hentry
    · next hwatch => exact ⟨option, hwatch.1 ▸ hoption, hwatch.2, hentry⟩
    · cases hentry
  · rintro ⟨option, hoption, hvalue, hentry⟩
    refine ⟨_, hoption, ?_⟩
    dsimp only
    rw [if_pos ⟨rfl, hvalue⟩]
    exact hentry

theorem watchEntry_part {root entry : Tree} {o : Origin} (h : entry ∈ watchEntries o root) :
    root.Part entry := by
  obtain ⟨option, hoption, -, hentry⟩ := mem_watchEntries.mp h
  exact (((Tree.Part.option hoption).get "value").get "properties").item hentry

/-- Whether an entry is an object in which no function is the handler. -/
def Situation.LacksHandler (s : Situation) (entry : Tree) : Prop :=
  entry.kind = "Property" ∧ entry.has "method" = false ∧ (entry.get "value").kind = "ObjectExpression" ∧
    FunctionForm.ofMember? s.origin (s.splitHandler ((entry.get "value").get "properties").items).1 = none

theorem Situation.watchEntry_of_lacksHandler {s : Situation} {entry : Tree} (h : s.LacksHandler entry) :
    s.watchEntry entry = .error
      (s.report entry ("watcher dropped, no handler function found: " ++ s.origin.memberName entry)) := by
  obtain ⟨hkind, hmethod, hvalue, hhandler⟩ := h
  unfold Situation.watchEntry
  simp only [hkind, hmethod, hvalue, hhandler]
  rfl

/-! ## Functions of members -/

/-- A member has a function in all readings or in none, and it differs in its name only. -/
theorem FunctionForm.ofMember?_cases (t : Tree) :
    (∀ o : Origin, ofMember? o t = none) ∨
      ∀ o : Origin, ofMember? o t = some (.ofNode (o.memberName t) (t.get "value")) := by
  unfold ofMember?
  dsimp only
  split
  · exact .inl fun _ => rfl
  · split
    · exact .inr fun _ => rfl
    · exact .inl fun _ => rfl

namespace Pairing

/-! ## Texts and names -/

/-- Whether two origins give texts that are paired. -/
structure Origins (P : Pairing) (o o' : Origin) (root : Tree) : Prop where
  masked : Pointwise P.read o.masked o'.masked
  /-- Values of the tree are paired with themselves. -/
  texts : ∀ {t : Tree} {x : Text}, root.Part t → t.text? = some x → Pointwise P.read x x

namespace Origins

variable {P : Pairing} {o o' : Origin} {root : Tree} (h : P.Origins o o' root)
include h

theorem text (t : Tree) : Pointwise P.read (o.text t) (o'.text t) := by
  unfold Origin.text
  split
  · exact h.masked.of _
  · exact .nil

theorem nameText? {t : Tree} (ht : root.Part t) :
    Option.Rel (Pointwise P.read) (o.nameText? t) (o'.nameText? t) := by
  unfold Origin.nameText?
  split
  · split
    · exact .some .nil
    · next name hname =>
      cases htext : name.text? with
      | none => exact .none
      | some x => exact .some (h.texts (ht.get? hname) htext)
  · split
    · next x hvalue => exact .some (h.texts (ht.get "value") (by rw [hvalue]; rfl))
    · split
      · next raw hraw =>
        split
        · exact .some (h.text t)
        · exact .some (h.texts (ht.get "raw") (by rw [hraw]; rfl))
      · exact .some (h.text t)
  · exact .some (h.text t)

theorem nameText {t : Tree} (ht : root.Part t) : Pointwise P.read (o.nameText t) (o'.nameText t) := by
  have hname := h.nameText? ht
  unfold Origin.nameText
  generalize o.nameText? t = name? at hname
  generalize o'.nameText? t = name?' at hname
  cases hname with
  | none => exact .nil
  | some hname => exact hname

theorem memberName {t : Tree} (ht : root.Part t) : Pointwise P.read (o.memberName t) (o'.memberName t) := by
  unfold Origin.memberName Origin.memberName?
  dsimp only
  split
  · exact ((P.literal rfl).append (h.text _)).append (P.literal rfl)
  · exact h.nameText (ht.get "key")

end Origins

/-! ## Two readings -/

/-- Whether two situations read texts of a tree that are paired, and show line breaks alike. -/
structure Readings (P : Pairing) (s s' : Situation) (root : Tree) : Prop
    extends P.Origins s.origin s'.origin root where
  file : s'.file = s.file
  keepsUnsupported : s'.keepsUnsupported = s.keepsUnsupported
  source : s'.origin.source = s.origin.source
  /-- Names that are quoted are shown alike. -/
  quoted : ∀ {t : Tree}, root.Part t → (s.origin.memberName t).isQuoted →
    Pointwise P.shown (quote (s.origin.memberName t)) (quote (s'.origin.memberName t))
  /-- So are the names of what is watched. -/
  watched : ∀ {t : Tree}, t ∈ watchEntries s.origin root →
    Pointwise P.shown (quote (s.origin.memberName t)) (quote (s'.origin.memberName t))
  /-- Line breaks are put back point by point, and give the script in both readings. -/
  restored : ∃ f f' : CodePoint → CodePoint, (∀ x, (s.origin.restore x).points = x.points.map f) ∧
    (∀ x, (s'.origin.restore x).points = x.points.map f') ∧
    (∀ p : CodePoint, p.toNat < 0xE000 → f p = p ∧ f' p = p) ∧
    s'.origin.masked.points.map f' = s.origin.masked.points.map f

namespace Readings

variable {P : Pairing} {s s' : Situation} {root : Tree} (h : P.Readings s s' root)
include h

/-! ## Reports -/

theorem restore_append {x x' y y' : Text} (hx : s'.origin.restore x' = s.origin.restore x)
    (hy : s'.origin.restore y' = s.origin.restore y) :
    s'.origin.restore (x' ++ y') = s.origin.restore (x ++ y) := by
  obtain ⟨f, f', hf, hf', -⟩ := h.restored
  have hx := congrArg Text.points hx
  have hy := congrArg Text.points hy
  rw [hf, hf'] at hx hy
  refine eq_of_points ?_
  rw [hf, hf']
  exact List.map_append.trans ((congrArg₂ (· ++ ·) hx hy).trans List.map_append.symm)

theorem restore_literal {cs : List Char} (hcs : cs.all (·.toNat < 0xE000) = true) :
    s'.origin.restore (ofString (String.ofList cs)) = s.origin.restore (ofString (String.ofList cs)) := by
  obtain ⟨f, f', hf, hf', hfixed, -⟩ := h.restored
  refine eq_of_points ?_
  rw [hf, hf']
  refine List.map_congr_left fun p hp => ?_
  rw [ofString, String.toList_ofList] at hp
  obtain ⟨c, hc, rfl⟩ := List.mem_map.mp hp
  obtain ⟨hsame, hsame'⟩ := hfixed (.char c) (of_decide_eq_true (List.all_eq_true.mp hcs c hc))
  rw [hsame, hsame']

theorem restore_text (t : Tree) : s'.origin.restore (s'.text t) = s.origin.restore (s.text t) := by
  obtain ⟨f, f', hf, hf', -, hmasked⟩ := h.restored
  refine eq_of_points ?_
  rw [hf, hf']
  unfold Situation.text Origin.text
  split
  · next span _ =>
    change (span.slice s'.origin.masked.points).map f' = (span.slice s.origin.masked.points).map f
    simp only [Span.slice, List.map_drop, List.map_take, hmasked]
  · rfl

theorem report {x x' : Text} (hx : s'.origin.restore x' = s.origin.restore x) (t : Tree) :
    s.report t x = s'.report t x' := by
  rw [Situation.report, Situation.report, h.file, hx, Origin.line?, Origin.line?, h.source]

theorem report_literal {cs : List Char} (hcs : cs.all (·.toNat < 0xE000) = true) (t : Tree) :
    s.report t (ofString (String.ofList cs)) = s'.report t (ofString (String.ofList cs)) :=
  h.report (h.restore_literal hcs) t

theorem report_text {cs : List Char} (hcs : cs.all (·.toNat < 0xE000) = true) (t u : Tree) :
    s.report t (ofString (String.ofList cs) ++ s.text u) =
      s'.report t (ofString (String.ofList cs) ++ s'.text u) :=
  h.report (h.restore_append (h.restore_literal hcs) (h.restore_text u)) t

/-- Reports that begin alike are the same if their ends are shown alike. -/
theorem report_lead_iff {cs : List Char} (hcs : cs.all (·.toNat < 0xE000) = true) {x x' : Text} (t : Tree) :
    s.report t (ofString (String.ofList cs) ++ x) = s'.report t (ofString (String.ofList cs) ++ x') ↔
      s'.origin.restore x' = s.origin.restore x := by
  have hlead := h.restore_literal hcs
  refine ⟨fun heq => ?_, fun hx => h.report (h.restore_append hlead hx) t⟩
  obtain ⟨f, f', hf, hf', -⟩ := h.restored
  have hlead := congrArg Text.points hlead
  have hmessage := congrArg (fun d : Diagnostic => d.message.points) heq
  simp only [Situation.report] at hmessage
  rw [hf, hf'] at hlead hmessage
  change List.map f (_ ++ _) = List.map f' (_ ++ _) at hmessage
  rw [List.map_append, List.map_append, hlead] at hmessage
  refine eq_of_points ?_
  rw [hf, hf']
  exact (List.append_cancel_left hmessage).symm

/-! ## Functions -/

theorem texts_read (ts : List Tree) : List.Forall₂ (Pointwise P.read) (ts.map s.text) (ts.map s'.text) :=
  forall₂_map_same fun t _ => h.text t

theorem blockText (body : Tree) :
    Pointwise P.read (blockText s.origin body) (blockText s'.origin body) := by
  unfold ClassComponent.blockText
  split
  · exact P.literal rfl
  · split
    · exact h.text body
    · exact ((P.literal rfl).append (reindent_read (h.text body) (P.literal rfl))).append (P.literal rfl)

theorem arrowBodyText (body : Tree) :
    Pointwise P.read (arrowBodyText s.origin body) (arrowBodyText s'.origin body) := by
  unfold ClassComponent.arrowBodyText
  split
  · exact h.blockText body
  · split
    · exact ((P.literal rfl).append (h.text body)).append (P.literal rfl)
    · exact h.text body

theorem arrowText (name name' : Text) (value : Tree) :
    Pointwise P.read ((FunctionForm.ofNode name value).arrowText s.origin)
      ((FunctionForm.ofNode name' value).arrowText s'.origin) := by
  have hparams := Pointwise.intercalate (P.literal rfl : Pointwise P.read (ofString ", ") (ofString ", "))
    (h.texts_read (value.get "params").items)
  unfold FunctionForm.arrowText FunctionForm.paramTexts FunctionForm.ofNode
  dsimp only
  refine ((Pointwise.append (.append ?_ (P.literal rfl)) hparams).append (P.literal rfl)).append
    (h.arrowBodyText _)
  split
  · exact P.literal rfl
  · exact P.literal rfl

/-- A function becomes methods that match, if their names and decorators do. -/
theorem toMethod {name name' : Text} (hname : P.SameName name name') (value : Tree)
    {access decorators decorators' : List Text} (haccess : P.ShownAll access access)
    (hdecorators : P.ShownAll decorators decorators') (accessor? : Option Accessor) :
    P.MethodsMatch ((FunctionForm.ofNode name value).toMethod s.origin access decorators accessor?)
      ((FunctionForm.ofNode name' value).toMethod s'.origin access decorators' accessor?) where
  name := hname
  params := List.Forall₂.imp (fun _ _ hx => hx.mono P.shown_of_read) (h.texts_read (value.get "params").items)
  body := (h.blockText _).mono P.shown_of_read
  decorators := hdecorators
  modifiers := by
    refine List.rel_append haccess ?_
    unfold FunctionForm.modifiers FunctionForm.ofNode
    dsimp only
    split
    · exact .cons (P.literal_shown rfl) .nil
    · exact .nil
  accessor? := rfl
  isGenerator := rfl

/-- Names of members as they are written. -/
theorem propertyName {t : Tree} (ht : root.Part t) :
    P.SameName (propertyName (s.origin.memberName t)) (propertyName (s'.origin.memberName t)) :=
  sameName_propertyName (h.memberName ht) (h.quoted ht)

end Readings

end Pairing

end ClassComponent
