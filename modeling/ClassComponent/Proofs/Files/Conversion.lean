import ClassComponent.CommandLine.Session
import ClassComponent.Proofs.Component.Candidates
import ClassComponent.Proofs.Convert.Reading
import ClassComponent.Proofs.Files.Disk

/-!
# Conversions and the files on a disk

A conversion reads a document, and writes at most one file. Everything else is left as it is, also by any
number of conversions one after the other (`files_never_overwritten`).

* **Scripts without a result** (`documentCode_error_iff`): why a document gives no code.
* **No code** (`convertFile_cases`): all faults up to the code of a document leave the workspace as it is.
* **No end** (`convertFile_eq_endless_iff`): a conversion neither fails nor gives a path exactly if all names for a
  watcher of the script are taken (`Stalls`).
* **Code that is saved** (`save_cases`): a path for a new file leads nowhere before the file is written. It
  may lie in a directory that is made for it, but only if a slash stands in the extension or in a suffix.
* **Steps and runs** (`convertFile_keeps`, `convertFiles_keeps`): whatever stands on the disk stays there.
-/

namespace ClassComponent

open Text

/-! ## Scripts without a result -/

/-- What keeps a script from being converted: it cannot be parsed, or no component can be read. -/
theorem scriptCode_error_iff {style : Style} {dumps : Bool} {path : Text} {script : String}
    {reason : NoResult FileFault} :
    (scriptCode style dumps path script).1 = .error reason ↔
      (∃ fault, Script.parse script true = .error fault ∧ reason = .fault (.script fault)) ∨
      ∃ tree cause, Script.parse script true = .ok tree ∧
        Component.ofScript script tree path style.keepsUnsupported = .error cause ∧
        reason = cause.map .component := by
  unfold scriptCode
  cases Script.parse script true with
  | error fault => simp [eq_comm]
  | ok tree =>
    simp only [convertTree]
    cases hread : Component.ofScript script tree path style.keepsUnsupported with
    | error cause => simp [hread, Except.map, eq_comm]
    | ok reading => simp [hread, Except.map]

/-- The script of a document, if it is not blank. -/
def Document.filledBlock? (content : String) : Option ScriptBlock :=
  (scriptBlock? content).filter (!·.content.toList.all isBlank)

/-- What keeps a document from being converted: its script, or the language of its script. -/
theorem documentCode_error_iff {style : Style} {dumps : Bool} {path : Text} {content : String}
    {reason : NoResult FileFault} :
    (documentCode style dumps path content).1 = .error reason ↔
      ∃ block, Document.filledBlock? content = some block ∧
        (block.lang ∈ scriptLanguages ∧ (scriptCode style dumps path block.content).1 = .error reason ∨
          block.lang ∉ scriptLanguages ∧ block.lang ∉ classLanguages ∧ reason = .fault (.language block.lang)) := by
  unfold documentCode Document.filledBlock?
  cases (Document.scriptBlock? content).filter (!·.content.toList.all isBlank) with
  | none => simp
  | some block =>
    simp only [List.contains_iff_mem]
    by_cases hlang : block.lang ∈ scriptLanguages
    · cases hcode : (scriptCode style dumps path block.content).1 <;> simp [hlang, hcode, Except.map]
    · by_cases hclass : block.lang ∈ classLanguages <;> simp [hlang, hclass, eq_comm]

namespace Workspace

variable {w : Workspace} {settings : Settings} {dumps : Bool} {path extension code : Text}

/-! ## One file -/

/-- The code that a file is converted to, if there is something to write. -/
def codeFor? (w : Workspace) (settings : Settings) (dumps : Bool) (path : Text) : Option Text :=
  match (w.disk.readText path).1 with
  | .text content =>
    match (documentCode settings.style dumps path content).1 with
    | .ok (some code) => (some (Text.trimStart code)).filter (!·.isEmpty)
    | _ => none
  | _ => none

/-- A file that gives no code changes nothing. The code of any other one is saved. -/
theorem convertFile_cases (w : Workspace) (settings : Settings) (dumps : Bool) (path : Text) :
    w.codeFor? settings dumps path = none ∧ (w.convertFile settings dumps path).workspace = w ∧
        (∀ target, (w.convertFile settings dumps path).result ≠ .ok (some target)) ∨
      ∃ code, w.codeFor? settings dumps path = some code ∧
        (w.convertFile settings dumps path).workspace =
          (w.save settings.extension.toText path code).workspace ∧
        (w.convertFile settings dumps path).result =
          (w.save settings.extension.toText path code).result := by
  unfold codeFor? convertFile
  cases w.disk.readText path with
  | mk content events =>
    cases content with
    | failed => exact .inl ⟨rfl, rfl, by simp⟩
    | undecodable => exact .inl ⟨rfl, rfl, by simp⟩
    | flawed f => exact .inl ⟨rfl, rfl, by simp⟩
    | text content =>
      dsimp only
      cases documentCode settings.style dumps path content with
      | mk result outputs =>
        match result with
        | .error reason => exact .inl ⟨rfl, rfl, by simp⟩
        | .ok none => exact .inl ⟨rfl, rfl, by simp⟩
        | .ok (some code) =>
          cases hempty : (Text.trimStart code).isEmpty with
          | true => exact .inl ⟨by simp [hempty], by simp [hempty], by simp [hempty]⟩
          | false => exact .inr ⟨Text.trimStart code, by simp [hempty], by simp [hempty], by simp [hempty]⟩

/-- Where a conversion gets stuck: at reading the document, at its code, or at saving. -/
theorem convertFile_error_iff {reason : NoResult FileFault} :
    (w.convertFile settings dumps path).result = .error reason ↔
      (w.disk.readText path).1 = .failed ∧ reason = .fault (.unreadable path) ∨
      (w.disk.readText path).1 = .undecodable ∧ reason = .fault .undecodable ∨
      (∃ f, (w.disk.readText path).1 = .flawed f ∧ reason = .fault (.flawed f)) ∨
      (∃ content, (w.disk.readText path).1 = .text content ∧
        (documentCode settings.style dumps path content).1 = .error reason) ∨
      ∃ code, w.codeFor? settings dumps path = some code ∧
        (w.save settings.extension.toText path code).result = .error reason := by
  unfold codeFor? convertFile
  cases w.disk.readText path with
  | mk content events =>
    cases content with
    | failed => simp [eq_comm]
    | undecodable => simp [eq_comm]
    | flawed f => simp [eq_comm]
    | text content =>
      dsimp only
      cases hdocument : documentCode settings.style dumps path content with
      | mk result outputs =>
        match result with
        | .error reason => simp [hdocument]
        | .ok none => simp [hdocument]
        | .ok (some code) =>
          cases hempty : (Text.trimStart code).isEmpty with
          | true => simp [hdocument, hempty]
          | false => simp [hdocument, hempty]

theorem save_ne_endless : (w.save extension path code).result ≠ .error .endless := by
  unfold save
  dsimp only
  split
  · simp
  · dsimp only
    split <;> simp

/-- The conversion of a file never ends: its script can be read, but it has a watcher for which all names are
taken. -/
inductive Stalls (w : Workspace) (settings : Settings) (path : Text) : Prop where
  | intro {content : String} {block : ScriptBlock} {tree : Tree} {origin : Origin}
      (hread : (w.disk.readText path).1 = .text content)
      (hblock : Document.filledBlock? content = some block) (hlang : block.lang ∈ scriptLanguages)
      (hparse : Script.parse block.content true = .ok tree)
      (horigin : Origin.of? block.content (tree.get "tokens").items = some origin)
      (h : (Situation.gather ⟨origin, path, settings.style.keepsUnsupported⟩
        (scriptOptions origin tree)).LacksName Digest.short)

theorem convertFile_eq_endless_iff :
    (w.convertFile settings dumps path).result = .error .endless ↔ w.Stalls settings path := by
  constructor
  · intro h
    obtain ⟨-, h⟩ | ⟨-, h⟩ | ⟨_, -, h⟩ | ⟨content, hread, hdocument⟩ | ⟨code, -, hsaved⟩ := convertFile_error_iff.mp h
    · cases h
    · cases h
    · cases h
    · obtain ⟨block, hblock, ⟨hlang, hcode⟩ | ⟨-, -, h⟩⟩ := documentCode_error_iff.mp hdocument
      · obtain ⟨fault, -, h⟩ | ⟨tree, cause, hparse, hscript, hcause⟩ := scriptCode_error_iff.mp hcode
        · cases h
        · cases cause with
          | fault fault => cases hcause
          | endless =>
            obtain ⟨origin, horigin, hnames⟩ := Component.ofScript_eq_endless_iff.mp hscript
            exact .intro hread hblock hlang hparse horigin
              ((Component.renameWatchers?_eq_none_iff Digest.isShort_short).mp hnames)
      · cases h
    · exact absurd hsaved save_ne_endless
  · rintro ⟨hread, hblock, hlang, hparse, horigin, hnames⟩
    have hscript := Component.ofScript_eq_endless_iff.mpr
      ⟨_, horigin, (Component.renameWatchers?_eq_none_iff Digest.isShort_short).mpr hnames⟩
    refine convertFile_error_iff.mpr (.inr (.inr (.inr (.inl ⟨_, hread, ?_⟩))))
    refine documentCode_error_iff.mpr ⟨_, hblock, .inl ⟨hlang, ?_⟩⟩
    exact scriptCode_error_iff.mpr (.inr ⟨_, _, hparse, hscript, rfl⟩)

/-- A conversion that never ends changes nothing. -/
theorem convertFile_of_endless (h : (w.convertFile settings dumps path).result = .error .endless) :
    (w.convertFile settings dumps path).workspace = w := by
  obtain ⟨-, hworkspace, -⟩ | ⟨code, -, -, hresult⟩ := w.convertFile_cases settings dumps path
  · exact hworkspace
  · exact absurd (hresult.symm.trans h) save_ne_endless

/-- Whether new files stand beside their documents: no name that is tried for one holds a slash. -/
def WritesBeside (w : Workspace) (extension : Text) : Prop :=
  Path.slash ∉ extension.points ∧ ∀ suffix ∈ w.suffixes, Path.slash ∉ (ofString suffix).points

instance : Decidable (w.WritesBeside extension) :=
  inferInstanceAs (Decidable (_ ∧ _))

theorem WritesBeside.slash_not_mem (h : w.WritesBeside extension) {name : Text}
    (hname : name ∈ Disk.candidates (Path.stem path) extension w.suffixes) : Path.slash ∉ name.points := by
  have hstem := Path.slash_not_mem_stem path
  have hdot : Path.slash ∉ (ofString ".").points := by decide
  rcases List.mem_cons.mp hname with rfl | hname
  · exact List.not_mem_append (List.not_mem_append hstem hdot) h.1
  · obtain ⟨suffix, hsuffix, rfl⟩ := List.mem_map.mp hname
    exact List.not_mem_append (List.not_mem_append (List.not_mem_append hstem (h.2 suffix hsuffix)) hdot) h.1

/-- What saving code leaves. Directories can be made for it, but not if no name that is tried holds a
slash. Then either nothing is written, or a file is put at a place where nothing stood. -/
theorem save_cases (hw : w.disk.Sound) (extension path code : Text) :
    (w.save extension path code).workspace.suffixes <:+ w.suffixes ∧
    ∃ d, w.disk.Extends d ∧ d.Sound ∧ (w.WritesBeside extension → d = w.disk) ∧
      ((w.save extension path code).workspace.disk = d ∧
          (∀ target, (w.save extension path code).result ≠ .ok (some target)) ∨
        ∃ (p : Path.Normal) (place : Place), w.disk.has p.text = false ∧ d.place p.text = .ok place ∧
          d.at? place = none ∧
          (w.save extension path code).workspace.disk =
            d.put place (.file (code.toString?.getD "").toUTF8) ∧
          (w.save extension path code).result =
            if code.hasHalf then .error (.fault (.flawed .half)) else .ok (some p.text)) := by
  unfold save
  have habsolute := Path.absolute_eq_text hw.rooted path
  generalize Path.Normal.of _ = document at habsolute
  rw [habsolute, document.directory_text]
  dsimp only
  cases hfree : w.disk.freePath document.up.text (Path.stem path) extension w.suffixes with
  | error fault => exact ⟨List.suffix_rfl, w.disk, .refl _, hw, fun _ => rfl, .inl ⟨rfl, by simp⟩⟩
  | ok found =>
    obtain ⟨target, left, taken⟩ := found
    obtain ⟨hdirectory, htarget, hleft, name, hname, rfl⟩ := Disk.freePath_cases hfree
    rw [Path.absolute_join_text] at htarget ⊢
    cases hwritten : w.disk.writeText (Path.Normal.of (Path.join document.up.text name)).text code with
    | mk disk rest =>
      obtain ⟨result, events⟩ := rest
      simp only [hwritten]
      obtain ⟨d, hextends, hd, hsame, hcases⟩ := Disk.writeText_cases hw htarget hwritten
      refine ⟨hleft, d, hextends, hd, fun hnames => hsame ?_, ?_⟩
      · -- A name leads to something in the directory, since the directory and the one above are taken.
        rcases Path.of_join_text document.up (hnames.slash_not_mem hname) with heq | heq | heq
        · rw [heq, Disk.has_of_hasDirectory hdirectory] at htarget
          cases htarget
        · rw [heq, Disk.has_of_hasDirectory (Disk.hasDirectory_up hdirectory)] at htarget
          cases htarget
        · rw [heq]
          exact Disk.has_of_hasDirectory hdirectory
      · rcases hcases with ⟨rfl, hresult⟩ | ⟨place, hplace, hnone, rfl, rfl⟩
        · refine .inl ⟨rfl, fun target => ?_⟩
          split <;> simp_all
        · refine .inr ⟨_, place, htarget, hplace, hnone, rfl, ?_⟩
          cases code.hasHalf <;> rfl

/-- A conversion keeps the disk sound and whatever stands on it, and takes suffixes from the front of the
supply. -/
theorem convertFile_keeps (hw : w.disk.Sound) (settings : Settings) (dumps : Bool) (path : Text) :
    (w.convertFile settings dumps path).workspace.disk.Sound ∧
      (w.convertFile settings dumps path).workspace.suffixes <:+ w.suffixes ∧
      ∀ place entry, w.disk.at? place = some entry →
        (w.convertFile settings dumps path).workspace.disk.at? place = some entry := by
  obtain ⟨-, hworkspace, -⟩ | ⟨code, -, hworkspace, -⟩ := w.convertFile_cases settings dumps path
  · rw [hworkspace]
    exact ⟨hw, List.suffix_rfl, fun _ _ => id⟩
  · rw [hworkspace]
    obtain ⟨hsuffixes, d, hextends, hd, -, ⟨hdisk, -⟩ | ⟨p, place, -, hplace, hnone, hdisk, -⟩⟩ :=
      save_cases hw settings.extension.toText path code
    · rw [hdisk]
      exact ⟨hd, hsuffixes, hextends.keeps⟩
    · rw [hdisk]
      refine ⟨hd.put hnone (hd.reaches_of_place hplace) _, hsuffixes, fun other entry hentry => ?_⟩
      exact Disk.at?_put_of_some hnone (hextends.keeps other entry hentry)

/-! ## Many files -/

/-- The workspace after files are converted one after the other, whether they fail or not. -/
def convertFiles (w : Workspace) (settings : Settings) (dumps : Bool) (paths : List Text) : Workspace :=
  paths.foldl (fun w path => (w.convertFile settings dumps path).workspace) w

/-- Any number of conversions keep the disk sound and whatever stands on it. -/
theorem convertFiles_keeps (hw : w.disk.Sound) (settings : Settings) (dumps : Bool) (paths : List Text) :
    (w.convertFiles settings dumps paths).disk.Sound ∧
      (w.convertFiles settings dumps paths).suffixes <:+ w.suffixes ∧
      ∀ place entry, w.disk.at? place = some entry →
        (w.convertFiles settings dumps paths).disk.at? place = some entry := by
  induction paths generalizing w with
  | nil => exact ⟨hw, List.suffix_rfl, fun _ _ => id⟩
  | cons path paths ih =>
    obtain ⟨hstep, hleft, hkeeps⟩ := convertFile_keeps hw settings dumps path
    obtain ⟨hrest, hleft', hkeeps'⟩ := ih hstep
    exact ⟨hrest, hleft'.trans hleft, fun place entry h => hkeeps' place entry (hkeeps place entry h)⟩

theorem WritesBeside.of_suffix {w' : Workspace} (h : w.WritesBeside extension)
    (hsuffixes : w'.suffixes <:+ w.suffixes) : w'.WritesBeside extension :=
  ⟨h.1, fun suffix hsuffix => h.2 suffix (hsuffixes.subset hsuffix)⟩

end Workspace

/-- A session converts its files one after the other, up to one that ends it. -/
theorem Session.exists_runFiles_eq (s : Session) (w : Workspace) (paths : List Text) :
    ∃ n, (s.runFiles w paths).2.1 = w.convertFiles s.settings s.dumps (paths.take n) := by
  induction paths generalizing w with
  | nil => exact ⟨0, rfl⟩
  | cons path paths ih =>
    obtain ⟨n, hn⟩ := ih (s.step w path).workspace
    rw [runFiles]
    dsimp only
    split
    · exact ⟨n + 1, hn⟩
    · split
      · exact ⟨n + 1, hn⟩
      · exact ⟨1, rfl⟩

/-- A conversion that ends without a path gives nothing or fails. -/
theorem eq_none_or_fault {result : Except (NoResult FileFault) (Option Text)} (hends : result ≠ .error .endless)
    (h : ∀ target, result ≠ .ok (some target)) :
    result = .ok none ∨ ∃ fault, result = .error (.fault fault) := by
  match result with
  | .error (.fault fault) => exact .inr ⟨fault, rfl⟩
  | .error .endless => exact absurd rfl hends
  | .ok none => exact .inl rfl
  | .ok (some target) => exact absurd rfl (h target)

/-- **No file is ever replaced, and a failed conversion leaves no file.** Let files be converted one after
the other on a sound disk. Whatever stands on the disk at some point stays the same until the end. A
conversion never ends exactly if all names for a watcher of its script are taken, and then it changes nothing.
Any other conversion whose code can be written ends in one of two ways. Either it gives no path, and the files
are the same as before. Or it gives a path that led nowhere before: there stands the only new file, and it
holds the code. If new files stand beside their documents, no directory is made either. A session is such a
run, up to a file after which it does not go on. -/
theorem files_never_overwritten {w : Workspace} (hw : w.disk.Sound) (settings : Settings) (dumps : Bool)
    (before : List Text) (path : Text) (after : List Text) :
    let w₁ := w.convertFiles settings dumps before
    let outcome := w₁.convertFile settings dumps path
    let d := w₁.disk
    let d' := outcome.workspace.disk
    (∀ place entry, d.at? place = some entry →
      (w.convertFiles settings dumps (before ++ path :: after)).disk.at? place = some entry) ∧
    (outcome.result = .error .endless ↔ w₁.Stalls settings path) ∧
    (w₁.Stalls settings path → outcome.workspace = w₁) ∧
    (¬ w₁.Stalls settings path → (∀ code, w₁.codeFor? settings dumps path = some code → code.hasHalf = false) →
      (outcome.result = .ok none ∨ ∃ fault, outcome.result = .error (.fault fault)) ∧
          d'.fileAt? = d.fileAt? ∧ (w.WritesBeside settings.extension.toText → d' = d) ∨
        ∃ target place content, outcome.result = .ok (some target) ∧ d.has target = false ∧
          d.at? place = none ∧ d'.place target = .ok place ∧
          w₁.codeFor? settings dumps path = some (ofString content) ∧
          (∀ other, d'.fileAt? other = if other = place then some content.toUTF8 else d.fileAt? other) ∧
          (w.WritesBeside settings.extension.toText → d' = d.put place (.file content.toUTF8))) ∧
    ∀ threshold paths, ∃ n, (Session.runFiles ⟨settings, dumps, threshold⟩ w paths).2.1 =
      w.convertFiles settings dumps (paths.take n) := by
  intro w₁ outcome d d'
  have hearlier := Workspace.convertFiles_keeps hw settings dumps before
  have hd : w₁.disk.Sound := hearlier.1
  have hbeside : w.WritesBeside settings.extension.toText → w₁.WritesBeside settings.extension.toText :=
    fun h => h.of_suffix hearlier.2.1
  have hendless : outcome.result = .error .endless ↔ w₁.Stalls settings path :=
    Workspace.convertFile_eq_endless_iff
  refine ⟨fun place entry hentry => ?_, hendless, fun hstalls => ?_, fun hends hwhole => ?_, fun threshold paths => ?_⟩
  · rw [Workspace.convertFiles, List.foldl_append]
    exact (Workspace.convertFiles_keeps hd settings dumps (path :: after)).2.2 place entry hentry
  · exact Workspace.convertFile_of_endless (hendless.mpr hstalls)
  · have hends : outcome.result ≠ .error .endless := mt hendless.mp hends
    obtain ⟨-, hworkspace, hresult⟩ | ⟨code, hcode, hworkspace, hresult⟩ :=
      w₁.convertFile_cases settings dumps path
    · have hdisk : d' = d := congrArg Workspace.disk hworkspace
      exact .inl ⟨eq_none_or_fault hends hresult, congrArg Disk.fileAt? hdisk, fun _ => hdisk⟩
    · obtain ⟨-, made, hextends, -, hsame, hcases⟩ :=
        Workspace.save_cases hd settings.extension.toText path code
      have hdisk : d' = (w₁.save settings.extension.toText path code).workspace.disk :=
        congrArg Workspace.disk hworkspace
      obtain ⟨content, rfl⟩ := exists_eq_ofString (hwhole code hcode)
      rcases hcases with ⟨hmade, hnone⟩ | ⟨p, place, hfree, hplace, hnone, hput, hpath⟩
      · rw [hmade] at hdisk
        rw [← hresult] at hnone
        refine .inl ⟨eq_none_or_fault hends hnone, ?_, fun h => hdisk.trans (hsame (hbeside h))⟩
        rw [hdisk]
        exact hextends.fileAt?_eq
      · rw [hput, toString?_ofString, Option.getD_some] at hdisk
        rw [hwhole _ hcode, if_neg Bool.false_ne_true] at hpath
        refine .inr ⟨p.text, place, content, hresult.trans hpath, hfree, hextends.at?_eq_none hnone, ?_,
          hcode, fun other => ?_, fun h => ?_⟩
        · rw [hdisk]
          exact Disk.place_text_put hplace hnone
        · rw [hdisk, Disk.fileAt?_put hnone, hextends.fileAt?_eq]
        · rw [hdisk, hsame (hbeside h)]
  · exact Session.exists_runFiles_eq ⟨settings, dumps, threshold⟩ w paths

/-- A document on a disk. -/
def documentWorkspace : Workspace where
  disk := { current := "/d", entries := [(["d", "A.vue"], .file "<script lang=\"tsx\"> a</script>".toUTF8)] }
  suffixes := ["1"]

/-- If the document is converted twice, the second file gets another name than the first. -/
theorem files_of_documentWorkspace :
    let w₁ := documentWorkspace.convertFiles {} false [Text.ofString "A.vue"]
    let outcome := w₁.convertFile {} false "A.vue"
    documentWorkspace.disk.Sound ∧ documentWorkspace.WritesBeside (Settings.extension {}).toText ∧
      w₁.disk.has "/d/A.tsx" ∧ outcome.result.toOption = some (some (Text.ofString "/d/A1.tsx")) ∧
      ∃ place, w₁.disk.at? place = none ∧
        outcome.workspace.disk = w₁.disk.put place (.file "a".toUTF8) := by
  intro w₁ outcome
  have hsound : documentWorkspace.disk.Sound := .of_entries (by decide +kernel) (by decide +kernel)
  have hbeside : documentWorkspace.WritesBeside (Settings.extension {}).toText := by decide +kernel
  have hcode : w₁.codeFor? {} false "A.vue" = some (Text.ofString "a") := by decide +kernel
  have hresult : outcome.result.toOption = some (some (Text.ofString "/d/A1.tsx")) := by decide +kernel
  refine ⟨hsound, hbeside, by decide +kernel, hresult, ?_⟩
  obtain ⟨-, hendless, -, hcases, -⟩ := files_never_overwritten hsound {} false [Text.ofString "A.vue"] "A.vue" []
  have hwhole : ∀ code, w₁.codeFor? {} false "A.vue" = some code → code.hasHalf = false := by
    intro code h
    rw [← Option.some.inj (hcode.symm.trans h)]
    decide
  have hends : ¬ w₁.Stalls {} "A.vue" := fun hstalls =>
    absurd (hresult.symm.trans (congrArg Except.toOption (hendless.mpr hstalls))) nofun
  obtain ⟨hnone | ⟨fault, hfault⟩, -⟩ | ⟨target, place, content, -, -, hplace, -, hcontent, -, hdisk⟩ :=
    hcases hends hwhole
  · exact absurd (hresult.symm.trans (congrArg Except.toOption hnone)) nofun
  · exact absurd (hresult.symm.trans (congrArg Except.toOption hfault)) nofun
  · rw [ofString_injective (Option.some.inj (hcode.symm.trans hcontent))]
    exact ⟨place, hplace, hdisk hbeside⟩

/-- A script with a watcher whose two candidates are methods. The digest of the second name is in that name already. -/
def stalledScript : String :=
  "export default \x7b methods: \x7b onLowfChange() \x7b\x7d, onLowfChange_7275() \x7b\x7d \x7d, watch: \x7b lowf() \x7b\x7d \x7d \x7d;"

/-- A document with that script. -/
def stalledWorkspace : Workspace where
  disk := {
    current := "/d"
    entries := [(["d", "A.vue"], .file ("<script>" ++ stalledScript ++ "</script>").toUTF8)] }
  suffixes := []

/-- The conversion of that document never ends, so it neither fails nor gives a path. -/
theorem conversion_of_stalledWorkspace :
    (stalledWorkspace.convertFile {} false "A.vue").result = .error .endless ∧
      (stalledWorkspace.convertFile {} false "A.vue").workspace = stalledWorkspace := by
  have hread : (stalledWorkspace.disk.readText "A.vue").1 = .text ("<script>" ++ stalledScript ++ "</script>") := by
    decide +kernel
  have hblock : Document.filledBlock? ("<script>" ++ stalledScript ++ "</script>") =
      some ⟨stalledScript, "js", 8, 8 + stalledScript.length⟩ := by
    decide +kernel
  have hscript : (Script.parse stalledScript true).toOption.any (fun tree =>
      (Origin.of? stalledScript (tree.get "tokens").items).any fun origin =>
        let c := Situation.gather ⟨origin, "A.vue", true⟩ (scriptOptions origin tree)
        c.watch.map (·.name) == [Text.ofString "onLowfChange"] &&
          c.memberNames == [Text.ofString "onLowfChange", Text.ofString "onLowfChange_7275"]) = true := by
    decide +kernel
  obtain ⟨tree, htree, hscript⟩ := (Option.any_eq_true _ _).mp hscript
  obtain ⟨origin, horigin, hnames⟩ := (Option.any_eq_true _ _).mp hscript
  rw [Bool.and_eq_true, beq_iff_eq, beq_iff_eq] at hnames
  obtain ⟨watcher, hwatch, hname⟩ := List.map_eq_singleton_iff.mp hnames.1
  have hlacks : (Situation.gather ⟨origin, "A.vue", true⟩ (scriptOptions origin tree)).LacksName Digest.short := by
    refine ⟨[], watcher, [], [], hwatch, rfl, fun k => ?_⟩
    rw [hname, hnames.2]
    exact candidateAt_mem (by decide) (by decide +kernel) k
  have hstalls : stalledWorkspace.Stalls {} "A.vue" :=
    .intro hread hblock (by decide) (eq_ok_of_toOption htree) horigin hlacks
  have hendless : (stalledWorkspace.convertFile {} false "A.vue").result = .error .endless :=
    Workspace.convertFile_eq_endless_iff.mpr hstalls
  exact ⟨hendless, Workspace.convertFile_of_endless hendless⟩

end ClassComponent
