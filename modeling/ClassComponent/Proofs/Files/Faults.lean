import ClassComponent.Proofs.Files.Conversion

/-!
# Faults of conversions

A file that fails is reported, and the others are converted nevertheless, unless its fault is fatal
(`FileFault.isFatal`). Nothing comes after a conversion that never ends, so that is fatal too
(`NoResult.isFatal`).

* **Fatal faults** (`Workspace.convertFile_isFatal_iff`): `Workspace.Breaks` lists their causes, in terms of the
  path, the bytes of the file and its code.
* **Other faults** (`Workspace.convertFile_of_reported`): they leave the workspace as it is, unless the code of a
  file could not be written; even then no file is new.
-/

namespace ClassComponent

open Text

/-! ## Faults that end a session -/

namespace FileFault

/-- Whether a fault ends a session. -/
def isFatal : FileFault → Bool
  | .undecodable | .flawed _ | .component _ | .noTarget _ => true
  | .unreadable _ | .script _ | .language _ | .unwritable _ => false

/-- All other faults are reported. -/
theorem isSome_report? (fault : FileFault) (path : Text) :
    (fault.report? path).isSome = !fault.isFatal := by
  cases fault <;> rfl

end FileFault

/-- Whether nothing comes after a file without a result. -/
def NoResult.isFatal : NoResult FileFault → Bool
  | .fault f => f.isFatal
  | .endless => true

/-- A session goes on after every other file. -/
theorem Session.goesOn_error (reason : NoResult FileFault) (path : Text) :
    goesOn path (.error reason) = !reason.isFatal := by
  cases reason with
  | fault fault => exact fault.isSome_report? path
  | endless => rfl

namespace FileOutcome

/-- Whether a file has no result. -/
def isFailure (o : FileOutcome) : Bool :=
  match o.result with
  | .ok _ => false
  | .error _ => true

/-- Whether nothing comes after a file. -/
def isFatal (o : FileOutcome) : Bool :=
  match o.result with
  | .ok _ => false
  | .error reason => reason.isFatal

theorem isFailure_iff {o : FileOutcome} : o.isFailure ↔ ∃ reason, o.result = .error reason := by
  unfold isFailure
  split <;> simp_all

theorem isFatal_iff {o : FileOutcome} : o.isFatal ↔ ∃ reason, o.result = .error reason ∧ reason.isFatal := by
  unfold isFatal
  split <;> simp_all

end FileOutcome

/-! ## What ends a session -/

theorem bind_eq_error {ε α β : Type} {x : Except ε α} {f : α → Except ε β} {e : ε} :
    x >>= f = .error e ↔ x = .error e ∨ ∃ a, x = .ok a ∧ f a = .error e := by
  cases x with
  | error e' => exact ⟨fun h => .inl (by cases h; rfl), fun h => by
      rcases h with h | ⟨_, h, _⟩
      · cases h
        rfl
      · cases h⟩
  | ok a => exact ⟨fun h => .inr ⟨a, rfl, h⟩, fun h => by
      rcases h with h | ⟨_, ha, h⟩
      · cases h
      · cases ha
        exact h⟩

namespace Disk

variable {d : Disk}

theorem enter_ne_flawed {place : Place} {part : String} {f : Flaw} :
    d.enter place part ≠ .error (.flawed f) := by
  unfold enter
  split
  · simp
  · simp
  · split
    · simp
    · split
      · simp
      · split <;> simp

/-- Only the characters of a path can be flawed, not the way that it leads. -/
theorem follow_ne_flawed {path : String} {f : Flaw} : d.follow path ≠ .error (.flawed f) := by
  have hway : ∀ (parts : List String) (place : Place), parts.foldlM d.enter place ≠ .error (.flawed f) := by
    intro parts
    induction parts with
    | nil => exact fun _ => nofun
    | cons part parts ih =>
      intro place h
      rw [List.foldlM_cons] at h
      rcases bind_eq_error.mp h with hfirst | ⟨next, -, hrest⟩
      · exact enter_ne_flawed hfirst
      · exact ih next hrest
  unfold follow
  split
  · simp
  · exact hway _ _

theorem read_eq_flawed_iff {path : Text} {f : Flaw} :
    d.read path = .error (.flawed f) ↔ pathString path = .error (.flawed f) := by
  unfold read place
  rw [bind_eq_error, bind_eq_error]
  constructor
  · rintro ((hpath | ⟨s, -, hfollow⟩) | ⟨place, -, hentry⟩)
    · exact hpath
    · exact absurd hfollow follow_ne_flawed
    · split at hentry <;> cases hentry
  · exact fun hpath => .inl (.inl hpath)

/-- The place where a file can be written. -/
def writable (d : Disk) (path : Text) : Except DiskFault Place := do
  let place ← d.place path
  if d.isDirectoryAt place then throw .isDirectory
  if d.refuses place then throw .refused
  return place

theorem write_eq_map (path : Text) (bytes : ByteArray) :
    d.write path bytes = (d.writable path).map fun place => d.put place (.file bytes) := by
  unfold write writable
  cases d.place path with
  | error fault => rfl
  | ok place =>
    simp only [bind, Except.bind]
    cases d.isDirectoryAt place with
    | true => rfl
    | false => cases d.refuses place <;> rfl

/-- Halves are found only once a file is there: up to then all texts are alike. -/
theorem writeFile_result (path content : Text) :
    (d.writeFile path content).2.1 =
      if (d.writeFile path "").2.1 = .ok true ∧ content.hasHalf then .error .half
      else (d.writeFile path "").2.1 := by
  have hwhole : (Text.ofString "").hasHalf = false := rfl
  unfold writeFile
  rw [write_eq_map, write_eq_map]
  cases d.writable path with
  | ok place =>
    simp only [Except.map, hwhole]
    cases content.hasHalf <;> simp
  | error fault => cases fault <;> simp [Except.map]

theorem writeText_result (path content : Text) :
    (d.writeText path content).2.1 =
      if (d.writeText path "").2.1 = .ok true ∧ content.hasHalf then .error .half
      else (d.writeText path "").2.1 := by
  unfold writeText
  match d.ensureDirectory (Path.directory path) with
  | (d', .error f, events) => simp
  | (d', .ok made, events) => exact writeFile_result path content

theorem readText_eq_flawed_iff {path : Text} {f : Flaw} :
    (d.readText path).1 = .flawed f ↔ pathString path = .error (.flawed f) := by
  rw [← read_eq_flawed_iff, readText]
  cases d.read path with
  | error fault => cases fault <;> simp
  | ok bytes => cases hdecode : Utf8.decode? bytes <;> simp [hdecode]

theorem readText_eq_undecodable_iff {path : Text} :
    (d.readText path).1 = .undecodable ↔ ∃ bytes, d.read path = .ok bytes ∧ ¬ bytes.IsValidUTF8 := by
  unfold readText Utf8.decode? String.fromUTF8?
  cases d.read path with
  | error fault => cases fault <;> simp
  | ok bytes =>
    by_cases hvalid : bytes.IsValidUTF8
    · simp [hvalid]
    · simp [hvalid]

end Disk

/-- The only fatal fault of a document is that its script leaves no character to mask line breaks. -/
theorem documentCode_fatal_iff {style : Style} {dumps : Bool} {path : Text} {content : String} :
    (∃ fault, (documentCode style dumps path content).1 = .error (.fault fault) ∧ fault.isFatal) ↔
      ∃ block tree, Document.filledBlock? content = some block ∧ block.lang ∈ scriptLanguages ∧
        Script.parse block.content true = .ok tree ∧ Origin.of? block.content (tree.get "tokens").items = none := by
  simp only [documentCode_error_iff, scriptCode_error_iff]
  constructor
  · rintro ⟨fault, ⟨block, hblock, ⟨hlang, ⟨_, -, h⟩ | ⟨tree, cause, hparse, hscript, h⟩⟩ | ⟨-, -, h⟩⟩, hfatal⟩
    · cases h
      cases hfatal
    · cases cause with
      | fault cause => exact ⟨block, tree, hblock, hlang, hparse, Component.ofScript_eq_fault_iff.mp ⟨_, hscript⟩⟩
      | endless => cases h
    · cases h
      cases hfatal
  · rintro ⟨block, tree, hblock, hlang, hparse, horigin⟩
    obtain ⟨fault, hscript⟩ := Component.ofScript_eq_fault_iff.mpr horigin
    exact ⟨.component fault, ⟨block, hblock, .inl ⟨hlang, .inr ⟨tree, _, hparse, hscript, rfl⟩⟩⟩, rfl⟩

namespace Workspace

variable {w : Workspace} {settings : Settings} {dumps : Bool} {extension path : Text}

/-- The path for the code of a document, with the suffixes that are left. -/
def targetFor (w : Workspace) (extension path : Text) : Except Disk.PathFault (Text × List String × List Event) :=
  w.disk.freePath (Path.directory (Path.absolute w.disk.current path)) (Path.stem path) extension w.suffixes

/-- What saving code fails of, as far as it ends a session: there is no path for the new file, it is no
path, or the code cannot be written there. -/
theorem save_isFatal_iff {code : Text} :
    (w.save extension path code).isFatal ↔
      (∃ fault, w.targetFor extension path = .error fault) ∨
      ∃ target left events, w.targetFor extension path = .ok (target, left, events) ∧
        ((∃ f, (w.disk.writeText target "").2.1 = .error f) ∨
          (w.disk.writeText target "").2.1 = .ok true ∧ code.hasHalf) := by
  unfold save targetFor
  dsimp only
  cases w.disk.freePath (Path.directory (Path.absolute w.disk.current path)) (Path.stem path) extension
    w.suffixes with
  | error fault => simp [FileOutcome.isFatal, NoResult.isFatal, FileFault.isFatal]
  | ok found =>
    obtain ⟨target, left, events⟩ := found
    have hresult := w.disk.writeText_result target code
    cases hempty : (w.disk.writeText target "").2.1 with
    | error f =>
      simp only [hempty, reduceCtorEq, false_and, if_false] at hresult
      simp [hresult, hempty, FileOutcome.isFatal, NoResult.isFatal, FileFault.isFatal]
    | ok isWritten =>
      cases isWritten with
      | false =>
        simp only [hempty, Except.ok.injEq, Bool.false_eq_true, false_and, if_false] at hresult
        simp [hresult, hempty, FileOutcome.isFatal, NoResult.isFatal, FileFault.isFatal]
      | true =>
        simp only [hempty, true_and] at hresult
        cases hhalf : code.hasHalf <;>
          simp [hresult, hempty, hhalf, FileOutcome.isFatal, NoResult.isFatal, FileFault.isFatal]

/-- What keeps a session from going on when a file is converted. -/
inductive Breaks (w : Workspace) (settings : Settings) (dumps : Bool) (path : Text) : Prop where
  /-- The path is no path. -/
  | path {f : Flaw} (h : Disk.pathString path = .error (.flawed f))
  /-- The file is no text. -/
  | bytes {bytes : ByteArray} (hread : w.disk.read path = .ok bytes) (h : ¬ bytes.IsValidUTF8)
  /-- No private-use character is left to mask the line breaks of the script. -/
  | marker {content : String} {block : ScriptBlock} {tree : Tree}
      (hread : (w.disk.readText path).1 = .text content)
      (hblock : Document.filledBlock? content = some block) (hlang : block.lang ∈ scriptLanguages)
      (hparse : Script.parse block.content true = .ok tree)
      (h : Origin.of? block.content (tree.get "tokens").items = none)
  /-- The conversion never ends. -/
  | endless (h : w.Stalls settings path)
  /-- There is no path for the code. -/
  | target {code : Text} {fault : Disk.PathFault} (hcode : w.codeFor? settings dumps path = some code)
      (h : w.targetFor settings.extension.toText path = .error fault)
  /-- The path for the code is no path. -/
  | targetPath {code target : Text} {left : List String} {events : List Event} {f : Flaw}
      (hcode : w.codeFor? settings dumps path = some code)
      (htarget : w.targetFor settings.extension.toText path = .ok (target, left, events))
      (h : (w.disk.writeText target "").2.1 = .error f)
  /-- A file can be written, but the code holds half of a surrogate pair. -/
  | half {code target : Text} {left : List String} {events : List Event}
      (hcode : w.codeFor? settings dumps path = some code)
      (htarget : w.targetFor settings.extension.toText path = .ok (target, left, events))
      (hwritten : (w.disk.writeText target "").2.1 = .ok true) (h : code.hasHalf)

theorem convertFile_isFatal_iff :
    (w.convertFile settings dumps path).isFatal ↔ w.Breaks settings dumps path := by
  rw [FileOutcome.isFatal_iff]
  constructor
  · rintro ⟨fault | -, hresult, hfatal⟩
    · obtain ⟨-, h⟩ | ⟨hbytes, -⟩ | ⟨f, hpath, -⟩ | ⟨content, hread, hdocument⟩ | ⟨code, hcode, hsaved⟩ :=
        convertFile_error_iff.mp hresult
      · cases h
        cases hfatal
      · obtain ⟨bytes, hread, hvalid⟩ := Disk.readText_eq_undecodable_iff.mp hbytes
        exact .bytes hread hvalid
      · exact .path (Disk.readText_eq_flawed_iff.mp hpath)
      · obtain ⟨block, tree, hblock, hlang, hparse, horigin⟩ := documentCode_fatal_iff.mp ⟨fault, hdocument, hfatal⟩
        exact .marker hread hblock hlang hparse horigin
      · obtain ⟨fault, hfault⟩ | ⟨target, left, events, htarget, ⟨f, hflaw⟩ | ⟨hwritten, hhalf⟩⟩ :=
          save_isFatal_iff.mp (FileOutcome.isFatal_iff.mpr ⟨_, hsaved, hfatal⟩)
        · exact .target hcode hfault
        · exact .targetPath hcode htarget hflaw
        · exact .half hcode htarget hwritten hhalf
    · exact .endless (convertFile_eq_endless_iff.mp hresult)
  · have hsave : ∀ {code}, w.codeFor? settings dumps path = some code →
        (w.save settings.extension.toText path code).isFatal →
        ∃ reason, (w.convertFile settings dumps path).result = .error reason ∧ reason.isFatal := by
      intro code hcode h
      obtain ⟨reason, hsaved, hfatal⟩ := FileOutcome.isFatal_iff.mp h
      exact ⟨reason, convertFile_error_iff.mpr (.inr (.inr (.inr (.inr ⟨code, hcode, hsaved⟩)))), hfatal⟩
    rintro (hpath | ⟨hread, hvalid⟩ | ⟨hread, hblock, hlang, hparse, horigin⟩ | hstalls | ⟨hcode, hfault⟩ |
      ⟨hcode, htarget, hflaw⟩ | ⟨hcode, htarget, hwritten, hhalf⟩)
    · have hread := (Disk.readText_eq_flawed_iff (d := w.disk)).mpr hpath
      exact ⟨_, convertFile_error_iff.mpr (.inr (.inr (.inl ⟨_, hread, rfl⟩))), rfl⟩
    · have hread := Disk.readText_eq_undecodable_iff.mpr ⟨_, hread, hvalid⟩
      exact ⟨_, convertFile_error_iff.mpr (.inr (.inl ⟨hread, rfl⟩)), rfl⟩
    · obtain ⟨fault, hdocument, hfatal⟩ := documentCode_fatal_iff.mpr ⟨_, _, hblock, hlang, hparse, horigin⟩
      exact ⟨_, convertFile_error_iff.mpr (.inr (.inr (.inr (.inl ⟨_, hread, hdocument⟩)))), hfatal⟩
    · exact ⟨_, convertFile_eq_endless_iff.mpr hstalls, rfl⟩
    · exact hsave hcode (save_isFatal_iff.mpr (.inl ⟨_, hfault⟩))
    · exact hsave hcode (save_isFatal_iff.mpr (.inr ⟨_, _, _, htarget, .inl ⟨_, hflaw⟩⟩))
    · exact hsave hcode (save_isFatal_iff.mpr (.inr ⟨_, _, _, htarget, .inr ⟨hwritten, hhalf⟩⟩))

/-- What a file leaves that fails without ending the session: nothing, unless its code could not be
written. Then no file is new. -/
theorem convertFile_of_reported {reason : NoResult FileFault}
    (hresult : (w.convertFile settings dumps path).result = .error reason) (h : reason.isFatal = false) :
    (w.convertFile settings dumps path).workspace = w ∨
      (∃ target, reason = .fault (.unwritable target)) ∧ (w.disk.Sound →
        (w.convertFile settings dumps path).workspace.disk.fileAt? = w.disk.fileAt?) := by
  obtain ⟨-, hworkspace, -⟩ | ⟨code, -, hworkspace, hsaved⟩ := w.convertFile_cases settings dumps path
  · exact .inl hworkspace
  rw [hworkspace]
  rw [hsaved] at hresult
  have hunwritable : (w.save settings.extension.toText path code).workspace = w ∨
      ∃ target, reason = .fault (.unwritable target) := by
    unfold save at hresult ⊢
    dsimp only at hresult ⊢
    split
    · exact .inl rfl
    · next target left events hfree =>
      rw [hfree] at hresult
      dsimp only at hresult
      split at hresult
      · cases hresult
      · cases hresult
        exact .inr ⟨target, rfl⟩
      · cases hresult
        cases h
  refine hunwritable.imp id fun ⟨target, htarget⟩ => ⟨⟨target, htarget⟩, fun hw => ?_⟩
  obtain ⟨-, d, hextends, -, -, ⟨hdisk, -⟩ | ⟨p, place, -, -, -, -, hpath⟩⟩ :=
    save_cases hw settings.extension.toText path code
  · rw [hdisk]
    exact hextends.fileAt?_eq
  · rw [hresult, htarget] at hpath
    split at hpath <;> cases hpath

end Workspace

end ClassComponent
