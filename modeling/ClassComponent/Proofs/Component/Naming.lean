import ClassComponent.Component.Naming
import ClassComponent.Proofs.Text.Name
import Mathlib.Data.List.Forall2

/-!
# Renaming watchers

What making names unique does to a list of methods, for any digest (`renameAll?`):

* only names change, and a name at most gets a digest put after it (`Renamed`);
* no new name is taken, and no two of them are equal.

Each method is renamed with the names before it among the taken ones, so both halves of the second point
are one induction with the taken names left open. The same induction shows that the taken names count as a
set only (`renameAll?_congr`).

Which names change is read off one method at a time (`renameAll?_getElem?`): a name is kept exactly if it is
free (`uniqueName?_eq_iff`). Free and distinct names are all kept (`renameAll?_of_nodup`), so renaming
twice is renaming once (`watchers_renamed_minimally`).
-/

namespace ClassComponent

/-! ## One name -/

theorem freeCandidate?_not_mem {digest : Text → Text} {taken : List Text} {name : Text} {count : Nat}
    {candidate fresh : Text} (h : freeCandidate? digest taken name count candidate = some fresh) :
    fresh ∉ taken := by
  induction count generalizing candidate with
  | zero => cases h
  | succ count ih =>
    rw [freeCandidate?] at h
    split at h
    · exact ih h
    · rename_i hfree
      cases h
      exact fun hmem => hfree (List.contains_iff_mem.mpr hmem)

theorem freeCandidate?_eq_or {digest : Text → Text} {taken : List Text} {name : Text} {count : Nat}
    {candidate fresh : Text} (h : freeCandidate? digest taken name count candidate = some fresh) :
    fresh = candidate ∨ ∃ previous, fresh = nextCandidate digest name previous := by
  induction count generalizing candidate with
  | zero => cases h
  | succ count ih =>
    rw [freeCandidate?] at h
    split at h
    · rcases ih h with rfl | hnext
      · exact .inr ⟨candidate, rfl⟩
      · exact .inr hnext
    · cases h
      exact .inl rfl

theorem freeCandidate?_congr {taken taken' : List Text} (h : ∀ x, x ∈ taken' ↔ x ∈ taken)
    (digest : Text → Text) (name : Text) (count : Nat) (candidate : Text) :
    freeCandidate? digest taken' name count candidate = freeCandidate? digest taken name count candidate := by
  induction count generalizing candidate with
  | zero => rfl
  | succ count ih =>
    have hcontains : taken'.contains candidate = taken.contains candidate := by
      rw [Bool.eq_iff_iff, List.contains_iff_mem, List.contains_iff_mem, h]
    rw [freeCandidate?, freeCandidate?, ih, hcontains]

theorem uniqueName?_of_not_mem {digest : Text → Text} {taken : List Text} {name : Text} (h : name ∉ taken) :
    uniqueName? digest taken name = some name := by
  rw [uniqueName?, candidateCount, freeCandidate?, if_neg (by simpa using h)]

/-- A name is kept exactly if it is free. -/
theorem uniqueName?_eq_iff {digest : Text → Text} {taken : List Text} {name fresh : Text}
    (h : uniqueName? digest taken name = some fresh) :
    fresh = name ↔ name ∉ taken := by
  constructor
  · rintro rfl
    exact freeCandidate?_not_mem h
  · intro hfree
    rw [uniqueName?_of_not_mem hfree] at h
    exact (Option.some.inj h).symm

/-! ## All names -/

/-- `new` is `old` with its name kept, or with a digest put after it. -/
structure Renamed (digest : Text → Text) (old new : Method) : Prop where
  same : new = { old with name := new.name }
  named : new.name = old.name ∨ ∃ previous, new.name = nextCandidate digest old.name previous

/-- What renaming a list of at least one method takes. -/
theorem renameAll?_cons {digest : Text → Text} {taken : List Text} {m : Method} {ms renamed : List Method}
    (h : renameAll? digest taken (m :: ms) = some renamed) :
    ∃ name rest, uniqueName? digest taken m.name = some name ∧
      renameAll? digest (name :: taken) ms = some rest ∧ renamed = { m with name } :: rest := by
  rw [renameAll?] at h
  obtain ⟨name, hname, h⟩ := Option.bind_eq_some_iff.mp h
  obtain ⟨rest, hrest, h⟩ := Option.bind_eq_some_iff.mp h
  cases h
  exact ⟨name, rest, hname, hrest, rfl⟩

theorem renameAll?_renamed {digest : Text → Text} {taken : List Text} {ms renamed : List Method}
    (h : renameAll? digest taken ms = some renamed) : List.Forall₂ (Renamed digest) ms renamed := by
  induction ms generalizing taken renamed with
  | nil =>
    cases h
    exact .nil
  | cons m ms ih =>
    obtain ⟨name, rest, hname, hrest, rfl⟩ := renameAll?_cons h
    exact .cons ⟨rfl, freeCandidate?_eq_or hname⟩ (ih hrest)

theorem exists_renamed_of_mem {digest : Text → Text} {ms renamed : List Method}
    (h : List.Forall₂ (Renamed digest) ms renamed) {m : Method} (hm : m ∈ renamed) :
    ∃ old ∈ ms, Renamed digest old m := by
  induction h with
  | nil => cases hm
  | cons hfirst _ ih =>
    rcases List.mem_cons.mp hm with rfl | hm
    · exact ⟨_, List.mem_cons_self, hfirst⟩
    · obtain ⟨old, hold, h⟩ := ih hm
      exact ⟨old, List.mem_cons_of_mem _ hold, h⟩

theorem renameAll?_not_mem {digest : Text → Text} {taken : List Text} {ms renamed : List Method}
    (h : renameAll? digest taken ms = some renamed) {m : Method} (hm : m ∈ renamed) :
    m.name ∉ taken := by
  induction ms generalizing taken renamed with
  | nil =>
    cases h
    cases hm
  | cons first ms ih =>
    obtain ⟨name, rest, hname, hrest, rfl⟩ := renameAll?_cons h
    rcases List.mem_cons.mp hm with rfl | hm
    · exact freeCandidate?_not_mem hname
    · exact fun htaken => ih hrest hm (List.mem_cons_of_mem name htaken)

theorem renameAll?_nodup {digest : Text → Text} {taken : List Text} {ms renamed : List Method}
    (h : renameAll? digest taken ms = some renamed) : (renamed.map (·.name)).Nodup := by
  induction ms generalizing taken renamed with
  | nil =>
    cases h
    exact List.nodup_nil
  | cons first ms ih =>
    obtain ⟨name, rest, -, hrest, rfl⟩ := renameAll?_cons h
    refine List.nodup_cons.mpr ⟨?_, ih hrest⟩
    -- The name of the first method is taken for all others.
    intro hmem
    obtain ⟨m, hm, hname⟩ := List.mem_map.mp hmem
    exact renameAll?_not_mem hrest hm (hname ▸ List.mem_cons_self)

theorem renameAll?_congr {taken taken' : List Text} (h : ∀ x, x ∈ taken' ↔ x ∈ taken)
    (digest : Text → Text) (ms : List Method) :
    renameAll? digest taken' ms = renameAll? digest taken ms := by
  induction ms generalizing taken taken' with
  | nil => rfl
  | cons m ms ih =>
    have hrest : ∀ name, renameAll? digest (name :: taken') ms = renameAll? digest (name :: taken) ms := by
      intro name
      exact ih fun x => by rw [List.mem_cons, List.mem_cons, h]
    rw [renameAll?, renameAll?, uniqueName?, uniqueName?, freeCandidate?_congr h]
    simp only [hrest]

/-- Each method is renamed with the new names of those before it among the taken ones. -/
theorem renameAll?_getElem? {digest : Text → Text} {taken : List Text} {ms renamed : List Method}
    (h : renameAll? digest taken ms = some renamed) {i : Nat} {old new : Method}
    (hold : ms[i]? = some old) (hnew : renamed[i]? = some new) :
    uniqueName? digest ((renamed.take i).map (·.name) ++ taken) old.name = some new.name ∧
      new = { old with name := new.name } := by
  induction ms generalizing taken renamed i with
  | nil => cases hold
  | cons m ms ih =>
    obtain ⟨name, rest, hname, hrest, rfl⟩ := renameAll?_cons h
    cases i with
    | zero =>
      cases hold
      cases hnew
      exact ⟨hname, rfl⟩
    | succ i =>
      obtain ⟨hunique, hsame⟩ := ih hrest hold hnew
      refine ⟨?_, hsame⟩
      rw [← hunique, uniqueName?, uniqueName?]
      apply freeCandidate?_congr
      intro x
      simp only [List.take_succ_cons, List.map_cons, List.cons_append, List.mem_append, List.mem_cons]
      exact or_left_comm

/-- Methods whose names are free and distinct keep them. -/
theorem renameAll?_of_nodup {digest : Text → Text} {taken : List Text} {ms : List Method}
    (hnodup : (ms.map (·.name)).Nodup) (hfree : ∀ m ∈ ms, m.name ∉ taken) :
    renameAll? digest taken ms = some ms := by
  induction ms generalizing taken with
  | nil => rfl
  | cons m ms ih =>
    rw [List.map_cons, List.nodup_cons] at hnodup
    have hrest : ∀ m' ∈ ms, m'.name ∉ m.name :: taken := by
      intro m' hm' hmem
      rcases List.mem_cons.mp hmem with heq | hmem
      · exact hnodup.1 (heq ▸ List.mem_map_of_mem hm')
      · exact hfree m' (List.mem_cons_of_mem m hm') hmem
    rw [renameAll?, uniqueName?_of_not_mem (hfree m List.mem_cons_self)]
    simp only [Option.bind_eq_bind, Option.bind_some, ih hnodup.2 hrest]
    rfl

namespace Component

/-- Renaming watchers changes the watchers only. -/
theorem renameWatchers?_eq_some {digest : Text → Text} {c renamed : Component}
    (h : c.renameWatchers? digest = some renamed) :
    ∃ watch, renameAll? digest c.memberNames c.watch = some watch ∧ renamed = { c with watch } := by
  obtain ⟨watch, hwatch, h⟩ := Option.bind_eq_some_iff.mp h
  cases h
  exact ⟨watch, hwatch, rfl⟩

/-- Components with the same watchers, and the same names for them to clash with, get the same new ones. -/
theorem renameWatchers?_related {c c' : Component} {R : Component → Component → Prop}
    (hwatch : c'.watch = c.watch) (hnames : ∀ x, x ∈ c'.memberNames ↔ x ∈ c.memberNames)
    (h : ∀ watch, R { c with watch } { c' with watch }) (digest : Text → Text) :
    Option.Rel R (c.renameWatchers? digest) (c'.renameWatchers? digest) := by
  rw [renameWatchers?, renameWatchers?, hwatch, renameAll?_congr hnames]
  cases renameAll? digest c.memberNames c.watch with
  | none => exact .none
  | some watch => exact .some (h watch)

end Component

/-! ## Watchers -/

theorem mem_names_take {ms : List Method} {i : Nat} {name : Text} :
    name ∈ (ms.take i).map (·.name) ↔ ∃ j < i, ∃ m, ms[j]? = some m ∧ m.name = name := by
  rw [List.mem_map]
  constructor
  · rintro ⟨m, hm, hname⟩
    obtain ⟨j, hj⟩ := List.mem_iff_getElem?.mp hm
    rw [List.getElem?_take] at hj
    split at hj
    · exact ⟨j, ‹_›, m, hj, hname⟩
    · cases hj
  · rintro ⟨j, hj, m, hm, hname⟩
    refine ⟨m, List.mem_iff_getElem?.mpr ⟨j, ?_⟩, hname⟩
    rw [List.getElem?_take, if_pos hj, hm]

/-- **Watchers are renamed as little as possible.** Whatever the digest, renaming the watchers of a
component changes nothing but their names. Afterwards these are distinct, and none is the name of another
member. A name changes exactly if it is the name of another member, or the new name of a watcher before it; a
low line and four digits of the digest are put after it then. So renaming again changes nothing. -/
theorem watchers_renamed_minimally {digits : Text → List Char} (hdigits : Digest.IsDigest digits)
    {c renamed : Component} (h : c.renameWatchers? (Digest.leading digits) = some renamed) :
    (renamed.watch.map (·.name)).Nodup ∧ (∀ m ∈ renamed.watch, m.name ∉ c.memberNames) ∧
      renamed = { c with watch := renamed.watch } ∧ renamed.watch.length = c.watch.length ∧
      (∀ (i : Nat) (old new : Method), c.watch[i]? = some old → renamed.watch[i]? = some new →
        new = { old with name := new.name } ∧
        (new.name ≠ old.name ↔ old.name ∈ c.memberNames ∨
          ∃ j < i, ∃ m, renamed.watch[j]? = some m ∧ m.name = old.name) ∧
        (new.name ≠ old.name → ∃ ds : List Char, ds.length = 4 ∧ (∀ d ∈ ds, Digest.isHexDigit d) ∧
          new.name = old.name ++ "_" ++ Text.ofChars ds)) ∧
      renamed.renameWatchers? (Digest.leading digits) = some renamed := by
  obtain ⟨watch, hwatch, rfl⟩ := Component.renameWatchers?_eq_some h
  have hnodup := renameAll?_nodup hwatch
  have hfree : ∀ m ∈ watch, m.name ∉ c.memberNames := fun m hm => renameAll?_not_mem hwatch hm
  refine ⟨hnodup, hfree, rfl, (renameAll?_renamed hwatch).length_eq.symm, ?_, ?_⟩
  · intro i old new hold hnew
    obtain ⟨hunique, hsame⟩ := renameAll?_getElem? hwatch hold hnew
    refine ⟨hsame, ?_, fun hne => ?_⟩
    · rw [ne_eq, uniqueName?_eq_iff hunique, not_not, List.mem_append, mem_names_take, or_comm]
    · rcases freeCandidate?_eq_or hunique with heq | ⟨previous, heq⟩
      · exact absurd heq hne
      · refine ⟨(digits previous).take 4, by simp [hdigits.length], fun d hd => ?_, heq⟩
        exact hdigits.hex previous d (List.mem_of_mem_take hd)
  · have hagain : renameAll? (Digest.leading digits) c.memberNames watch = some watch :=
      renameAll?_of_nodup hnodup hfree
    exact Option.bind_eq_some_iff.mpr ⟨watch, hagain, rfl⟩

/-- A component with watchers that clash: the first one with a field, the second one with the new name of the
first, and the third one with nothing. -/
def clashingWatchers : Component where
  data := [{ name := "onAChange" }]
  watch := [{ name := "onAChange" }, { name := "onAChange_8452" }, { name := "onBChange" }]

theorem watchers_of_clashingWatchers :
    ∃ renamed, clashingWatchers.renameWatchers? (Digest.leading Digest.digits) = some renamed ∧
      renamed.watch.map (·.name) =
        [Text.ofString "onAChange_8452", Text.ofString "onAChange_8452_d9c9", Text.ofString "onBChange"] ∧
      renamed.renameWatchers? (Digest.leading Digest.digits) = some renamed := by
  have hnames : (clashingWatchers.renameWatchers? (Digest.leading Digest.digits)).map
      (fun c => c.watch.map (·.name)) =
        some [Text.ofString "onAChange_8452", Text.ofString "onAChange_8452_d9c9",
          Text.ofString "onBChange"] := by
    decide +kernel
  obtain ⟨renamed, hrenamed, hwatch⟩ := Option.map_eq_some_iff.mp hnames
  obtain ⟨-, -, -, -, -, hagain⟩ := watchers_renamed_minimally Digest.isDigest_digits hrenamed
  exact ⟨renamed, hrenamed, hwatch, hagain⟩

end ClassComponent
