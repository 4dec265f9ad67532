import ClassComponent.Files.Disk
import ClassComponent.Proofs.Files.Path
import Mathlib.Data.List.Induction

/-!
# What actions leave on a disk

* **Sound disks** (`Sound`): whatever stands somewhere stands in a directory. Every action keeps this.
* **Making directories** (`extends_ensureDirectory`) leaves everything as it is and adds only directories
  (`Extends`), so the files stay the same (`Extends.fileAt?_eq`).
* **Writing to a free path** (`writeText_cases`): a path that leads to nothing still leads to no file after
  the directories for it are made. A normal path passes only places that lie above its own, so whatever
  stood there would have been found.
-/

namespace ClassComponent.Disk

open Text

variable {d d' d'' : Disk} {place other : Place} {entry : Entry}

/-! ## Entries -/

/-- The bytes of the file at a place. -/
def fileAt? (d : Disk) (place : Place) : Option ByteArray :=
  match d.at? place with
  | some (.file bytes) => some bytes
  | _ => none

theorem fileAt?_eq_some_iff {bytes : ByteArray} :
    d.fileAt? place = some bytes ↔ d.at? place = some (.file bytes) := by
  unfold fileAt?
  split <;> simp_all

theorem isDirectoryAt_iff : d.isDirectoryAt place ↔ d.at? place = some .directory := by
  unfold isDirectoryAt
  split <;> simp_all

theorem at?_of_prefix_home (h : place <+: d.home) : d.at? place = some .directory :=
  if_pos (List.isPrefixOf_iff_prefix.mpr h)

/-- What stands on a disk after something is put where nothing stood. -/
theorem at?_put (h : d.at? place = none) :
    (d.put place entry).at? other = if other = place then some entry else d.at? other := by
  obtain ⟨hhome, hlookup⟩ : ¬ place.isPrefixOf d.home ∧ d.entries.lookup place = none := by
    unfold at? at h
    split at h
    · cases h
    · exact ⟨‹_›, h⟩
  have hany : d.entries.any (·.1 == place) = false := by
    rw [List.any_eq_false]
    intro e he hplace
    have := List.lookup_eq_none_iff.mp hlookup e he
    simp_all
  have hput : d.put place entry = { d with entries := d.entries ++ [(place, entry)] } := by
    rw [put, if_neg (by simp [hany])]
  rw [hput]
  change (if other.isPrefixOf d.home then some .directory
    else (d.entries ++ [(place, entry)]).lookup other) = _
  rw [List.lookup_append]
  by_cases hother : other = place
  · subst hother
    rw [if_neg hhome, hlookup, if_pos rfl]
    simp
  · have hlast : [(place, entry)].lookup other = none := by
      rw [List.lookup_cons, beq_false_of_ne hother]
      rfl
    rw [if_neg hother, hlast, Option.or_none]
    rfl

/-- What stands somewhere else stays. -/
theorem at?_put_of_some {entry' : Entry} (h : d.at? place = none) (hother : d.at? other = some entry') :
    (d.put place entry).at? other = some entry' := by
  have hne : other ≠ place := by
    rintro rfl
    rw [h] at hother
    cases hother
  rw [at?_put h, if_neg hne]
  exact hother

theorem current_put : (d.put place entry).current = d.current := by
  unfold put
  split <;> rfl

/-! ## Sound disks -/

/-- What disks are like: the current directory has a path from the root, and whatever stands somewhere
stands in a directory. -/
structure Sound (d : Disk) : Prop where
  rooted : Path.isRooted d.current
  grounded : ∀ (place : Place) (name : String), (d.at? (place ++ [name])).isSome →
    d.at? place = some .directory

/-- Whether something can be put at a place: if it is not the root, it lies in a directory. -/
def Reaches (d : Disk) (place : Place) : Prop :=
  ∀ (above : Place) (name : String), place = above ++ [name] → d.at? above = some .directory

/-- A disk is sound if each of its entries stands in a directory. -/
theorem Sound.of_entries (hrooted : Path.isRooted d.current)
    (hentries : ∀ e ∈ d.entries, d.isDirectoryAt e.1.dropLast) : d.Sound where
  rooted := hrooted
  grounded := by
    intro place name h
    by_cases hhome : (place ++ [name]).isPrefixOf d.home = true
    · exact at?_of_prefix_home
        ((List.prefix_append place [name]).trans (List.isPrefixOf_iff_prefix.mp hhome))
    · rw [at?, if_neg hhome, List.lookup_isSome_iff] at h
      obtain ⟨e, he, hplace⟩ := h
      have hdirectory := isDirectoryAt_iff.mp (hentries e he)
      rw [← beq_iff_eq.mp hplace, List.dropLast_concat] at hdirectory
      exact hdirectory

theorem Sound.reaches (hd : d.Sound) (h : (d.at? place).isSome) : d.Reaches place := by
  rintro above name rfl
  exact hd.grounded above name h

/-- All places above one where something stands are directories. -/
theorem Sound.above (hd : d.Sound) (h : (d.at? place).isSome) (hother : other <+: place)
    (hne : other ≠ place) : d.at? other = some .directory := by
  obtain ⟨rest, rfl⟩ := hother
  induction rest using List.reverseRecOn with
  | nil => simp at hne
  | append_singleton rest name ih =>
    have hlast : d.at? (other ++ rest) = some .directory := by
      rw [← List.append_assoc] at h
      exact hd.grounded _ name h
    by_cases hrest : rest = []
    · simpa [hrest] using hlast
    · exact ih (by simp [hlast]) (by simpa using hrest)

theorem Sound.put (hd : d.Sound) (hnone : d.at? place = none) (hreaches : d.Reaches place)
    (entry : Entry) : (d.put place entry).Sound where
  rooted := by
    rw [current_put]
    exact hd.rooted
  grounded := by
    intro above name h
    rw [at?_put hnone] at h ⊢
    by_cases hplace : above ++ [name] = place
    · have habove : above ≠ place := by
        rintro rfl
        simp at hplace
      rw [if_neg habove]
      exact hreaches above name hplace.symm
    · rw [if_neg hplace] at h
      rw [← at?_put hnone]
      exact at?_put_of_some hnone (hd.grounded above name h)

/-! ## More directories -/

/-- Whether a disk holds everything that another one holds, and besides only directories. -/
structure Extends (d d' : Disk) : Prop where
  keeps : ∀ (place : Place) (entry : Entry), d.at? place = some entry → d'.at? place = some entry
  adds : ∀ (place : Place) (bytes : ByteArray),
    d'.at? place = some (.file bytes) → d.at? place = some (.file bytes)

namespace Extends

theorem refl (d : Disk) : d.Extends d :=
  ⟨fun _ _ => id, fun _ _ => id⟩

theorem trans (h : d.Extends d') (h' : d'.Extends d'') : d.Extends d'' where
  keeps place entry hentry := h'.keeps place entry (h.keeps place entry hentry)
  adds place bytes hbytes := h.adds place bytes (h'.adds place bytes hbytes)

theorem put (h : d.at? place = none) : d.Extends (d.put place .directory) where
  keeps other entry hother := at?_put_of_some h hother
  adds other bytes hother := by
    rw [at?_put h] at hother
    split at hother
    · cases hother
    · exact hother

theorem at?_eq_none (h : d.Extends d') (hnone : d'.at? place = none) : d.at? place = none := by
  cases hplace : d.at? place with
  | none => rfl
  | some entry =>
    rw [h.keeps place entry hplace] at hnone
    cases hnone

/-- The files are the same. -/
theorem fileAt?_eq (h : d.Extends d') : d'.fileAt? = d.fileAt? := by
  funext place
  refine Option.ext fun bytes => ?_
  rw [fileAt?_eq_some_iff, fileAt?_eq_some_iff]
  exact ⟨h.adds place bytes, h.keeps place _⟩

end Extends

/-! ## Ways to a place -/

theorem bind_eq_ok {ε α β : Type} {x : Except ε α} {f : α → Except ε β} {b : β} :
    x >>= f = .ok b ↔ ∃ a, x = .ok a ∧ f a = .ok b := by
  cases x with
  | error e => exact ⟨fun h => (by cases h), fun ⟨_, h, _⟩ => (by cases h)⟩
  | ok a => exact ⟨fun h => ⟨a, rfl, h⟩, fun ⟨_, ha, h⟩ => by cases ha; exact h⟩

variable {part : String} {parts : List String} {next last : Place}

/-- What a part of a path leads to. -/
theorem enter_cases (h : d.enter place part = .ok next) :
    d.at? place = some .directory ∧
      (next = place ∨ part = ".." ∧ next = place.dropLast ∨ next = place ++ [part]) := by
  unfold enter at h
  split at h
  · cases h
  · cases h
  · next hplace =>
    refine ⟨hplace, ?_⟩
    split at h
    · cases h
      exact .inl rfl
    · split at h
      · next hpart =>
        cases h
        exact .inr (.inl ⟨beq_iff_eq.mp hpart, rfl⟩)
      · split at h
        · cases h
        · cases h
          exact .inr (.inr rfl)

theorem enter_congr (h : d.at? place = d'.at? place) : d.enter place part = d'.enter place part := by
  unfold enter
  rw [h]

theorem foldlM_enter_cons :
    (part :: parts).foldlM d.enter place = .ok last ↔
      ∃ next, d.enter place part = .ok next ∧ parts.foldlM d.enter next = .ok last := by
  rw [List.foldlM_cons]
  exact bind_eq_ok

/-- A way ends in a directory, wherever it leads. -/
theorem Sound.reaches_of_foldlM (hd : d.Sound) (hplace : d.Reaches place)
    (h : parts.foldlM d.enter place = .ok last) : d.Reaches last := by
  induction parts generalizing place with
  | nil =>
    cases h
    exact hplace
  | cons part parts ih =>
    obtain ⟨next, hnext, h⟩ := foldlM_enter_cons.mp h
    refine ih ?_ h
    obtain ⟨hdirectory, rfl | ⟨-, rfl⟩ | rfl⟩ := enter_cases hnext
    · exact hplace
    · refine hd.reaches ?_
      rcases List.eq_nil_or_concat' place with rfl | ⟨above, name, rfl⟩
      · simp [hdirectory]
      · rw [List.dropLast_concat, hplace above name rfl]
        rfl
    · intro above name heq
      obtain ⟨rfl, -⟩ := List.append_inj' heq rfl
      exact hdirectory

/-- A way that does not lead back ends below its start. -/
theorem prefix_of_foldlM (hparts : ∀ part ∈ parts, part ≠ "..") (h : parts.foldlM d.enter place = .ok last) :
    place <+: last := by
  induction parts generalizing place with
  | nil =>
    cases h
    exact List.prefix_rfl
  | cons part parts ih =>
    obtain ⟨next, hnext, h⟩ := foldlM_enter_cons.mp h
    have hrest := ih (fun other hother => hparts other (List.mem_cons_of_mem _ hother)) h
    obtain ⟨-, rfl | ⟨hback, -⟩ | rfl⟩ := enter_cases hnext
    · exact hrest
    · exact absurd hback (hparts part (by simp))
    · exact (List.prefix_append place [part]).trans hrest

/-- A way that does not lead back is there on another disk too, if the directories above its end are. -/
theorem foldlM_enter_of_directories (hparts : ∀ part ∈ parts, part ≠ "..")
    (h : parts.foldlM d.enter place = .ok last)
    (hdirectories : ∀ above, above <+: last → d.at? above = some .directory →
      d'.at? above = some .directory) :
    parts.foldlM d'.enter place = .ok last := by
  induction parts generalizing place with
  | nil => exact h
  | cons part parts ih =>
    -- The way only goes down, so `place` lies above its end.
    have hplace := prefix_of_foldlM hparts h
    obtain ⟨next, hnext, h⟩ := foldlM_enter_cons.mp h
    have hdirectory := (enter_cases hnext).1
    have hsame : d'.at? place = d.at? place := (hdirectories place hplace hdirectory).trans hdirectory.symm
    refine foldlM_enter_cons.mpr ⟨next, (enter_congr hsame).trans hnext, ?_⟩
    exact ih (fun other hother => hparts other (List.mem_cons_of_mem _ hother)) h

theorem at?_start (path : String) : d.at? (d.start path) = some .directory := by
  unfold start
  split
  · exact at?_of_prefix_home List.nil_prefix
  · exact at?_of_prefix_home List.prefix_rfl

theorem follow_eq_ok_iff {path : String} :
    d.follow path = .ok place ↔ path ≠ "" ∧ (names path).foldlM d.enter (d.start path) = .ok place := by
  unfold follow
  split
  · next h => simp [beq_iff_eq.mp h]
  · next h => simp [beq_iff_eq.not.mp h]

theorem place_eq_ok_iff {path : Text} :
    d.place path = .ok place ↔ ∃ s, pathString path = .ok s ∧ d.follow s = .ok place :=
  bind_eq_ok

theorem Sound.reaches_of_follow {path : String} (hd : d.Sound) (h : d.follow path = .ok place) :
    d.Reaches place :=
  hd.reaches_of_foldlM (hd.reaches (by rw [at?_start]; rfl)) (follow_eq_ok_iff.mp h).2

theorem Sound.reaches_of_place {path : Text} (hd : d.Sound) (h : d.place path = .ok place) :
    d.Reaches place := by
  obtain ⟨s, -, hfollow⟩ := place_eq_ok_iff.mp h
  exact hd.reaches_of_follow hfollow

/-! ## Making directories -/

theorem makeDirectory_cases {path : Text} (hd : d.Sound) (h : d.makeDirectory path = .ok d') :
    ∃ place, d.at? place = none ∧ d.Reaches place ∧ d' = d.put place .directory := by
  unfold makeDirectory at h
  obtain ⟨whole, -, h⟩ := bind_eq_ok.mp h
  obtain ⟨place, hplace, h⟩ := bind_eq_ok.mp h
  by_cases htaken : (d.at? place).isSome = true
  · rw [if_pos htaken] at h
    cases h
  by_cases hrefused : d.refuses place = true
  · rw [if_neg htaken, if_pos hrefused] at h
    cases h
  rw [if_neg htaken, if_neg hrefused] at h
  cases h
  exact ⟨place, Option.not_isSome_iff_eq_none.mp htaken, hd.reaches_of_follow hplace, rfl⟩

/-- Making directories leaves everything as it is and adds directories. -/
theorem extends_makeDirectories {fuel : Nat} {path : Text} {fault? : Option DiskFault} (hd : d.Sound)
    (h : d.makeDirectories fuel path = (d', fault?)) : d.Extends d' ∧ d'.Sound := by
  induction fuel generalizing d d' path fault? with
  | zero =>
    cases h
    exact ⟨.refl d, hd⟩
  | succ fuel ih =>
    rw [makeDirectories] at h
    generalize (if (Path.fileName path).isEmpty then Path.directory path else path) = whole at h
    split at h
    next d₁ fault₁ isDone habove =>
      have hd₁ : d.Extends d₁ ∧ d₁.Sound := by
        split at habove
        · split at habove
          · next hrec =>
            cases habove
            exact ih hd hrec
          · next hrec =>
            cases habove
            exact ih hd hrec
        · cases habove
          exact ⟨.refl d, hd⟩
      split at h
      · cases h
        exact hd₁
      · split at h
        · next d₂ hmade =>
          cases h
          obtain ⟨place, hnone, hreaches, rfl⟩ := makeDirectory_cases hd₁.2 hmade
          exact ⟨hd₁.1.trans (.put hnone), hd₁.2.put hnone hreaches _⟩
        · split at h
          · cases h
            exact hd₁
          · cases h
            exact hd₁

theorem extends_ensureDirectory {path : Text} {result : Except Flaw Bool} {events : List Event}
    (hd : d.Sound) (h : d.ensureDirectory path = (d', result, events)) : d.Extends d' ∧ d'.Sound := by
  unfold ensureDirectory at h
  split at h
  · cases h
    exact ⟨.refl d, hd⟩
  · split at h
    all_goals
      next hmade =>
        cases h
        exact extends_makeDirectories hd hmade

/-- A directory that is there is not made. -/
theorem ensureDirectory_of_has {path : Text} (h : d.has path) :
    d.ensureDirectory path = (d, .ok true, []) := by
  rw [ensureDirectory, h, Bool.or_true]
  rfl

/-! ## Free paths -/

theorem pathString_eq_ok_iff {path : Text} {s : String} :
    pathString path = .ok s ↔
      path = ofString s ∧ s.toList.contains '\x00' = false ∧ s.utf8ByteSize ≤ pathLimit := by
  unfold pathString
  cases hs : path.toString? with
  | none =>
    have hne : path ≠ ofString s := fun h => by simp [toString?_eq_some_iff.mpr h] at hs
    simp [hne]
  | some t =>
    rw [toString?_eq_some_iff] at hs
    subst hs
    have hinj : ofString t = ofString s ↔ t = s := ⟨ofString_injective, congrArg ofString⟩
    rw [hinj]
    grind

theorem map_ofString_names (s : String) : (names s).map ofString = Path.parts (ofString s) := by
  have hsplit : Text.splitAt Path.slash (s.toList.map CodePoint.char) =
      (Text.splitAt '/' s.toList).map (List.map CodePoint.char) :=
    splitAt_map (fun _ _ => CodePoint.char.inj) '/' s.toList
  rw [names, Path.parts, List.map_map]
  change _ = (Text.splitAt Path.slash (s.toList.map CodePoint.char)).map Text.mk
  rw [hsplit, List.map_map]
  refine List.map_congr_left fun cs _ => ?_
  refine eq_of_points ?_
  simp [ofString, ofChars]

/-- No part of a normal path leads back. -/
theorem ne_above_of_mem_names {p : Path.Normal} {s : String} (hs : p.text = ofString s)
    (h : part ∈ names s) : part ≠ ".." := by
  rintro rfl
  have hmem := List.mem_map_of_mem (f := ofString) h
  rw [map_ofString_names, ← hs] at hmem
  exact Path.Normal.ne_above_of_mem_parts hmem rfl

theorem start_eq_nil {p : Path.Normal} {s : String} (hs : p.text = ofString s) : d.start s = [] := by
  have hrooted := Path.isRooted_text p
  rw [hs] at hrooted
  refine if_pos ?_
  change ((s.toList.map CodePoint.char).head? == some (.char '/')) = true at hrooted
  cases hchars : s.toList with
  | nil => simp [hchars] at hrooted
  | cons c cs => simpa [hchars] using hrooted

/-- A normal path is followed from the root. -/
theorem place_text_eq_ok_iff {p : Path.Normal} :
    d.place p.text = .ok place ↔
      ∃ s, pathString p.text = .ok s ∧ (names s).foldlM d.enter [] = .ok place := by
  rw [place_eq_ok_iff]
  refine exists_congr fun s => and_congr_right fun hs => ?_
  have htext := (pathString_eq_ok_iff.mp hs).1
  have hne : s ≠ "" := by
    rintro rfl
    have hrooted := Path.isRooted_text p
    rw [htext] at hrooted
    cases hrooted
  rw [follow_eq_ok_iff, start_eq_nil htext, and_iff_right hne]

/-- A normal path leads to the same place on another disk, if the directories above it are there. -/
theorem place_text_of_directories {p : Path.Normal} (h : d.place p.text = .ok place)
    (hdirectories : ∀ above, above <+: place → d.at? above = some .directory →
      d'.at? above = some .directory) :
    d'.place p.text = .ok place := by
  obtain ⟨s, hs, hway⟩ := place_text_eq_ok_iff.mp h
  have hparts : ∀ part ∈ names s, part ≠ ".." := fun part =>
    ne_above_of_mem_names (pathString_eq_ok_iff.mp hs).1
  exact place_text_eq_ok_iff.mpr ⟨s, hs, foldlM_enter_of_directories hparts hway hdirectories⟩

theorem at?_eq_none_of_not_has {path : Text} (hfree : d.has path = false)
    (h : d.place path = .ok place) : d.at? place = none := by
  simpa [has, find?, h] using hfree

/-- If a normal path leads nowhere, then it leads to no file after directories are made. -/
theorem Extends.ne_file_of_free {p : Path.Normal} {bytes : ByteArray} (h : d.Extends d') (hd : d.Sound)
    (hfree : d.has p.text = false) (hplace : d'.place p.text = .ok place) :
    d'.at? place ≠ some (.file bytes) := by
  intro hfile
  -- Only directories are new, so the file stood there before, and in directories that were there too.
  have hold : d.at? place = some (.file bytes) := h.adds place bytes hfile
  have hfound : d.place p.text = .ok place := by
    refine place_text_of_directories hplace fun above habove hdirectory => ?_
    refine hd.above (by simp [hold]) habove ?_
    rintro rfl
    rw [hfile] at hdirectory
    cases hdirectory
  rw [at?_eq_none_of_not_has hfree hfound] at hold
  cases hold

/-! ## Writing -/

theorem fileAt?_put {bytes : ByteArray} (h : d.at? place = none) :
    (d.put place (.file bytes)).fileAt? other = if other = place then some bytes else d.fileAt? other := by
  unfold fileAt?
  rw [at?_put h]
  by_cases hother : other = place
  · rw [if_pos hother, if_pos hother]
  · rw [if_neg hother, if_neg hother]

/-- A file that is put where a normal path leads is found there. -/
theorem place_text_put {p : Path.Normal} {bytes : ByteArray} (h : d.place p.text = .ok place)
    (hnone : d.at? place = none) : (d.put place (.file bytes)).place p.text = .ok place :=
  place_text_of_directories h fun _ _ hdirectory => at?_put_of_some hnone hdirectory

theorem write_cases {path : Text} {bytes : ByteArray} (h : d.write path bytes = .ok d') :
    ∃ place, d.place path = .ok place ∧ d.at? place ≠ some .directory ∧
      d' = d.put place (.file bytes) := by
  unfold write at h
  obtain ⟨place, hplace, h⟩ := bind_eq_ok.mp h
  by_cases hdirectory : d.isDirectoryAt place = true
  · rw [if_pos hdirectory] at h
    cases h
  by_cases hrefused : d.refuses place = true
  · rw [if_neg hdirectory, if_pos hrefused] at h
    cases h
  rw [if_neg hdirectory, if_neg hrefused] at h
  cases h
  exact ⟨place, hplace, fun hd => hdirectory (isDirectoryAt_iff.mpr hd), rfl⟩

theorem writeFile_cases {path content : Text} {result : Except Flaw Bool} {events : List Event}
    (h : d.writeFile path content = (d', result, events)) :
    d' = d ∧ result ≠ .ok true ∨
      d.write path (content.toString?.getD "").toUTF8 = .ok d' ∧
        result = if content.hasHalf then .error .half else .ok true := by
  unfold writeFile at h
  split at h
  · next hwritten =>
    refine .inr ?_
    split at h
    · next hhalf =>
      cases h
      exact ⟨hwritten, (if_pos hhalf).symm⟩
    · next hwhole =>
      cases h
      exact ⟨hwritten, (if_neg hwhole).symm⟩
  · cases h
    exact .inl ⟨rfl, by simp⟩
  · cases h
    exact .inl ⟨rfl, by simp⟩

/-- **Writing to a free path.** First directories are made, unless the directory of the path is there.
Then either nothing is written, or a file is put at a place where nothing stood: the whole text, or no
bytes if it holds half of a surrogate pair. -/
theorem writeText_cases {p : Path.Normal} {content : Text} {result : Except Flaw Bool}
    {events : List Event} (hd : d.Sound) (hfree : d.has p.text = false)
    (h : d.writeText p.text content = (d'', result, events)) :
    ∃ d', d.Extends d' ∧ d'.Sound ∧ (d.has p.up.text → d' = d) ∧
      (d'' = d' ∧ result ≠ .ok true ∨
        ∃ place, d'.place p.text = .ok place ∧ d'.at? place = none ∧
          d'' = d'.put place (.file (content.toString?.getD "").toUTF8) ∧
          result = if content.hasHalf then .error .half else .ok true) := by
  have hmade : ∀ {d' result events}, d.ensureDirectory (Path.directory p.text) = (d', result, events) →
      d.Extends d' ∧ d'.Sound ∧ (d.has p.up.text → d' = d) := by
    intro d' result events hensured
    obtain ⟨hextends, hd'⟩ := extends_ensureDirectory hd hensured
    refine ⟨hextends, hd', fun hhas => ?_⟩
    rw [Path.Normal.directory_text, ensureDirectory_of_has hhas] at hensured
    cases hensured
    rfl
  unfold writeText at h
  split at h
  · next d' f made hensured =>
    cases h
    obtain ⟨hextends, hd', hsame⟩ := hmade hensured
    exact ⟨_, hextends, hd', hsame, .inl ⟨rfl, by simp⟩⟩
  · next d' ensured made hensured =>
    obtain ⟨hextends, hd', hsame⟩ := hmade hensured
    refine ⟨d', hextends, hd', hsame, ?_⟩
    cases hwritten : d'.writeFile p.text content with
    | mk d'' rest =>
      rw [hwritten] at h
      cases h
      rcases writeFile_cases hwritten with hfailed | ⟨hwrite, hresult⟩
      · exact .inl hfailed
      · obtain ⟨place, hplace, hdirectory, rfl⟩ := write_cases hwrite
        refine .inr ⟨place, hplace, ?_, rfl, hresult⟩
        cases hat : d'.at? place with
        | none => rfl
        | some entry =>
          cases entry with
          | directory => exact absurd hat hdirectory
          | file bytes => exact absurd hat (hextends.ne_file_of_free hd hfree hplace)

/-! ## Directories above -/

/-- What a path starts with is a path as well. -/
theorem pathString_of_prefix {path start : Text} {s : String} (h : pathString path = .ok s)
    (hstart : start.points <+: path.points) : ∃ s', pathString start = .ok s' := by
  obtain ⟨rfl, hnul, hsize⟩ := pathString_eq_ok_iff.mp h
  have htake : start.points = (s.toList.take start.points.length).map .char := by
    rw [List.map_take]
    exact List.prefix_iff_eq_take.mp hstart
  generalize start.points.length = n at htake
  refine ⟨String.ofList (s.toList.take n), pathString_eq_ok_iff.mpr ⟨eq_of_points ?_, ?_, ?_⟩⟩
  · rw [htake]
    simp [ofString, ofChars]
  · rw [String.toList_ofList, Bool.eq_false_iff]
    intro hcontains
    have hmem := List.mem_of_mem_take (List.contains_iff_mem.mp hcontains)
    rw [List.contains_iff_mem.mpr hmem] at hnul
    cases hnul
  · have hwhole : String.ofList (s.toList.take n) ++ String.ofList (s.toList.drop n) = s := by
      rw [← String.ofList_append, List.take_append_drop, String.ofList_toList]
    have hsum := congrArg String.utf8ByteSize hwhole
    rw [String.utf8ByteSize_append] at hsum
    omega

theorem hasDirectory_iff {path : Text} :
    d.hasDirectory path ↔ ∃ place, d.place path = .ok place ∧ d.at? place = some .directory := by
  unfold hasDirectory find?
  cases d.place path with
  | error fault => simp
  | ok place =>
    simp only [Except.ok.injEq, exists_eq_left']
    split <;> simp_all

theorem has_of_hasDirectory {path : Text} (h : d.hasDirectory path) : d.has path := by
  obtain ⟨place, hplace, hdirectory⟩ := hasDirectory_iff.mp h
  simp [has, find?, hplace, hdirectory]

/-- If a normal path leads to a directory, then so does the path above it. -/
theorem hasDirectory_up {p : Path.Normal} (h : d.hasDirectory p.text) : d.hasDirectory p.up.text := by
  obtain ⟨-, hup⟩ | ⟨name, -, hnames, -⟩ := p.root_or_below
  · rw [hup]
    exact h
  obtain ⟨place, hplace, -⟩ := hasDirectory_iff.mp h
  obtain ⟨s, hs, hway⟩ := place_text_eq_ok_iff.mp hplace
  obtain ⟨s', hs'⟩ := pathString_of_prefix hs p.text_up_prefix
  -- The last part of the way is `name`, and what comes before it is the way to the directory above.
  have hparts : (names s).map ofString = p.start ++ p.up.names ++ [name] := by
    rw [map_ofString_names, ← (pathString_eq_ok_iff.mp hs).1, p.parts_text, hnames]
    simp
  obtain ⟨before, lasts, hsplit, hbefore, hlasts⟩ := List.map_eq_append_iff.mp hparts
  obtain ⟨last, rfl, -⟩ := List.map_eq_singleton_iff.mp hlasts
  rw [hsplit, List.foldlM_append] at hway
  obtain ⟨above, habove, hlast⟩ := bind_eq_ok.mp hway
  obtain ⟨next, hnext, -⟩ := foldlM_enter_cons.mp hlast
  have hdirectory := (enter_cases hnext).1
  have hparts' : (names s').map ofString =
      p.start ++ if p.up.names.isEmpty then [Text.ofString ""] else p.up.names := by
    rw [map_ofString_names, ← (pathString_eq_ok_iff.mp hs').1, p.up.parts_text]
    rfl
  have hinj : Function.Injective (List.map ofString) :=
    List.map_injective_iff.mpr fun _ _ => ofString_injective
  have hway' : (names s').foldlM d.enter [] = .ok above := by
    by_cases hroot : p.up.names = []
    · have hnames' : names s' = before ++ [""] := hinj (by
        rw [hparts', hroot, List.map_append, hbefore, hroot]
        simp)
      rw [hnames', List.foldlM_append, habove]
      exact foldlM_enter_cons.mpr ⟨above, by simp [enter, hdirectory], rfl⟩
    · have hnames' : names s' = before := hinj (by rw [hparts', hbefore]; simp [hroot])
      rw [hnames']
      exact habove
  exact hasDirectory_iff.mpr ⟨above, place_text_eq_ok_iff.mpr ⟨s', hs', hway'⟩, hdirectory⟩

/-! ## Paths for new files -/

/-- What a path for a new file is like. -/
theorem freePathFrom?_cases {directory base extension path target : Text} {suffixes left : List String}
    {events : List Event}
    (h : d.freePathFrom? directory base extension path suffixes = some (target, left, events)) :
    d.has target = false ∧ left <:+ suffixes ∧
      (target = path ∨ ∃ suffix ∈ suffixes,
        target = Path.absolute d.current (Path.join directory (base ++ suffix ++ "." ++ extension))) := by
  induction suffixes generalizing path events with
  | nil =>
    rw [freePathFrom?] at h
    split at h
    · cases h
    · next hfree =>
      cases h
      exact ⟨Bool.eq_false_iff.mpr hfree, List.suffix_rfl, .inl rfl⟩
  | cons suffix suffixes ih =>
    rw [freePathFrom?] at h
    split at h
    · obtain ⟨⟨target', left', events'⟩, hrec, heq⟩ := Option.map_eq_some_iff.mp h
      cases heq
      obtain ⟨hfree, hleft, htarget⟩ := ih hrec
      refine ⟨hfree, hleft.trans (List.suffix_cons _ _), .inr ?_⟩
      rcases htarget with rfl | ⟨later, hlater, rfl⟩
      · exact ⟨suffix, by simp, rfl⟩
      · exact ⟨later, by simp [hlater], rfl⟩
    · next hfree =>
      cases h
      exact ⟨Bool.eq_false_iff.mpr hfree, List.suffix_rfl, .inl rfl⟩

/-- The names that are tried for a new file: the plain one, and those with a suffix. -/
def candidates (base extension : Text) (suffixes : List String) : List Text :=
  (base ++ "." ++ extension) :: suffixes.map fun suffix => base ++ ofString suffix ++ "." ++ extension

theorem freePath_cases {directory base extension target : Text} {suffixes left : List String}
    {events : List Event} (h : d.freePath directory base extension suffixes = .ok (target, left, events)) :
    d.hasDirectory directory ∧ d.has target = false ∧ left <:+ suffixes ∧
      ∃ name ∈ candidates base extension suffixes,
        target = Path.absolute d.current (Path.join directory name) := by
  unfold freePath at h
  split at h
  · cases h
  · next hdirectory =>
    dsimp only at h
    split at h
    · next found hfound =>
      cases h
      obtain ⟨hfree, hleft, htarget⟩ := freePathFrom?_cases hfound
      refine ⟨by simpa using hdirectory, hfree, hleft, ?_⟩
      rcases htarget with rfl | ⟨suffix, hsuffix, rfl⟩
      · exact ⟨_, List.mem_cons_self, rfl⟩
      · exact ⟨_, List.mem_cons_of_mem _ (List.mem_map_of_mem hsuffix), rfl⟩
    · cases h

end ClassComponent.Disk
