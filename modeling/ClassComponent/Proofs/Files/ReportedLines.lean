import ClassComponent.Files.Conversion
import ClassComponent.Proofs.Convert.Unsupported
import ClassComponent.Proofs.Document.Scan
import Mathlib.Data.List.Count

/-!
# Lines in reports

A report names a file and a line. The script of a document is read by itself, so its lines are counted from the end
of the opening tag on, and the line in a report is one of the script, not one of the file that the report names.

* **Nodes** (`Situation.Records`): a report about a script is about one of its nodes: an option, or a part of an
  option that the message quotes or names.
* **Lines** (`lineAt_of_scriptBlock?`): a line of the script is a line of the document if the line breaks before the
  script are added.
* **Warnings** (`warnings_count_lines_of_script`): what is logged when a file is converted. The line is right exactly
  if the script starts on the first line of the document.
-/

namespace ClassComponent

/-! ## Nodes -/

namespace Situation

variable {s : Situation} {tree : Tree}

/-- Whether a message about a script is recorded for the node `t`. -/
inductive Records (s : Situation) (tree : Tree) : Tree → Text → Prop
  /-- An option that no reader knows is quoted. -/
  | unsupported {kind : OptionKind} {option : Tree} (h : (kind, option) ∈ scriptOptions s.origin tree) {lead : Text}
      (hlead : lead ∈ [Text.ofString "unsupported option api, kept in @Component options: ",
        "unsupported option api, dropped: "]) :
    s.Records tree option (lead ++ s.text option)
  /-- An option of the wrong form is rejected. -/
  | rejected {kind : OptionKind} {option : Tree} (h : (kind, option) ∈ scriptOptions s.origin tree)
      {lead : RefusalLead} (hwhole : lead.isWhole = true) {message : Text}
      (hmessage : message.startsWith lead.text) : s.Records tree option message
  /-- A part of an option is quoted or named. -/
  | refused {kind : OptionKind} {option t : Tree} (h : (kind, option) ∈ scriptOptions s.origin tree)
      (ht : option.Part t) {lead : RefusalLead} (hwhole : lead.isWhole = false) {message : Text}
      (habout : s.Says lead t message) : s.Records tree t message

/-- All reports about an option are recorded for a node. -/
theorem exists_records {option : OptionKind × Tree} (h : option ∈ scriptOptions s.origin tree) {d : Diagnostic}
    (hd : d ∈ s.optionReports option) : ∃ t message, s.Records tree t message ∧ d = s.report t message := by
  obtain ⟨kind, node⟩ := option
  cases hunsupported : isUnsupported s.origin (kind, node) with
  | true =>
    rw [optionReports_of_isUnsupported hunsupported, List.mem_singleton, unsupportedReport] at hd
    refine ⟨node, _, ?_, hd⟩
    split
    · exact .unsupported h (.head _)
    · exact .unsupported h (.tail _ (.head _))
  | false =>
    have hd := mem_diagnostics.mp hd
    rcases readOption_rejects_or hunsupported 0 with hrejects | hparts
    · obtain ⟨lead, message, hwhole, hmessage, hevents⟩ := hrejects.report
      rw [hevents] at hd
      cases List.mem_singleton.mp hd
      exact ⟨node, message, .rejected h hwhole hmessage, rfl⟩
    · obtain ⟨t, lead, message, ht, hwhole, habout, rfl⟩ := hparts d hd
      exact ⟨t, message, .refused h ht hwhole habout, rfl⟩

end Situation

/-! ## Lines -/

/-- The line of a text at an offset, counted from one. -/
def Text.lineAt (t : Text) (offset : Nat) : Nat :=
  (t.points.take offset).count Text.lineBreak + 1

theorem Text.lineAt_ofString (text : String) (offset : Nat) :
    (Text.ofString text).lineAt offset = (text.toList.take offset).count '\n' + 1 := by
  have hinjective : Function.Injective CodePoint.char := fun _ _ => CodePoint.char.inj
  have hpoints : (Text.ofString text).points.take offset = (text.toList.take offset).map .char :=
    (List.map_take).symm
  rw [lineAt, hpoints, lineBreak, List.count_map_of_injective _ _ hinjective]

theorem Origin.source_of? {source : Text} {tokens : List Tree} {o : Origin} (h : of? source tokens = some o) :
    o.source = source := by
  simp only [of?] at h
  split at h
  · obtain ⟨marker, -, rfl⟩ := Option.map_eq_some_iff.mp h
    rfl
  · cases h
    rfl

theorem Origin.line?_eq (o : Origin) (t : Tree) :
    o.line? t = t.span?.map fun span => Int.ofNat (o.source.lineAt span.start) :=
  rfl

namespace Document

/-- The content of the script block is a stretch of the document. -/
theorem slice_of_scriptBlock? {document : String} {block : ScriptBlock} (h : scriptBlock? document = some block) :
    block.start ≤ block.stop ∧
      block.content.toList = (⟨block.start, block.stop⟩ : Span).slice document.toList := by
  obtain ⟨passed, pos, hscan, hpassed, hend⟩ := exists_scan document.toList 0
  have hfrom : scriptBlock? document = blockFrom? document.toList.length (document.toList.drop pos) :=
    blockFrom?_of_scan hscan hpassed _
  rw [hfrom] at h
  rcases hend with hnone | ⟨found, hfound, hmarked⟩
  · rw [hnone.blockFrom?_eq_none] at h
    cases h
  · rw [hfound.blockFrom?_of_unmarked hmarked] at h
    cases h
    exact ⟨hfound.opening_le_closing, String.toList_ofList⟩

/-- A line of the script is a line of the document if the line breaks before the script are added. -/
theorem lineAt_of_scriptBlock? {document : String} {block : ScriptBlock} (h : scriptBlock? document = some block)
    (offset : Nat) :
    (Text.ofString document).lineAt (min (block.start + offset) block.stop) =
      (Text.ofString block.content).lineAt offset + (document.toList.take block.start).count '\n' := by
  obtain ⟨hle, hcontent⟩ := slice_of_scriptBlock? h
  have hbefore : document.toList.take (min (block.start + offset) block.stop) =
      document.toList.take block.start ++ block.content.toList.take offset := by
    rw [hcontent, Span.slice, ← List.take_take, List.take_add, List.take_take, Nat.min_eq_left hle]
  rw [Text.lineAt_ofString, Text.lineAt_ofString, hbefore, List.count_append]
  omega

end Document

/-! ## Warnings -/

theorem mem_map_logged {events : List Event} {d : Diagnostic} :
    Output.logged (.warned d) ∈ events.map Output.logged ↔ d ∈ diagnostics events := by
  rw [mem_diagnostics, List.mem_map]
  constructor
  · rintro ⟨e, he, heq⟩
    cases heq
    exact he
  · exact fun h => ⟨_, h, rfl⟩

theorem convertTree_eq_ok {style : Style} {script : Text} {tree : Tree} {file : Text} {conversion : Conversion}
    (h : convertTree style script tree file = .ok conversion) :
    ∃ c events, Component.ofScript script tree file style.keepsUnsupported = .ok (c, events) ∧
      conversion.events = events ++ c.renderEvents file style.fallbackName := by
  unfold convertTree at h
  cases hscript : Component.ofScript script tree file style.keepsUnsupported with
  | error fault =>
    rw [hscript] at h
    cases h
  | ok result =>
    rw [hscript] at h
    cases h
    exact ⟨result.1, result.2, rfl, rfl⟩

theorem diagnostics_renderEvents (c : Component) (file fallback : Text) :
    diagnostics (c.renderEvents file fallback) = [] := by
  unfold Component.renderEvents
  split
  · rfl
  · rfl

/-- What is reported when a script is converted is reported about its options. -/
theorem exists_option_of_mem_scriptCode {style : Style} {dumps : Bool} {path : Text} {script : String}
    {d : Diagnostic} (h : .logged (.warned d) ∈ (scriptCode style dumps path script).2) :
    ∃ tree origin, Script.parse script true = .ok tree ∧
      Origin.of? script (tree.get "tokens").items = some origin ∧
      ∃ option ∈ scriptOptions origin tree,
        d ∈ Situation.optionReports ⟨origin, path, style.keepsUnsupported⟩ option := by
  unfold scriptCode at h
  split at h
  · cases List.mem_singleton.mp h
  · next tree htree =>
    have hdump : Output.logged (.warned d) ∉ (if dumps then [Output.printed (dumpText tree)] else []) := by
      split
      · exact fun h => nomatch List.mem_singleton.mp h
      · exact List.not_mem_nil
    simp only at h
    split at h
    · exact absurd h hdump
    · next conversion hconversion =>
      rcases List.mem_append.mp h with h | h
      · exact absurd h hdump
      · obtain ⟨c, events, hscript, hevents⟩ := convertTree_eq_ok hconversion
        obtain ⟨origin, horigin, -, hreports⟩ := Component.ofScript_eq_ok hscript
        have hd := mem_map_logged.mp h
        rw [hevents, diagnostics_append, diagnostics_renderEvents, List.append_nil, hreports] at hd
        exact ⟨tree, origin, htree, horigin, List.mem_flatMap.mp hd⟩

/-- What is reported when a document is converted is reported about its script. -/
theorem exists_block_of_mem_documentCode {style : Style} {dumps : Bool} {path : Text} {content : String}
    {d : Diagnostic} (h : .logged (.warned d) ∈ (documentCode style dumps path content).2) :
    ∃ block, Document.scriptBlock? content = some block ∧ block.lang ∈ scriptLanguages ∧
      .logged (.warned d) ∈ (scriptCode style dumps path block.content).2 := by
  unfold documentCode at h
  split at h
  · cases List.mem_singleton.mp h
  · next block hblock =>
    split at h
    · next hlang =>
      exact ⟨block, (Option.filter_eq_some_iff.mp hblock).1, List.contains_iff_mem.mp hlang, h⟩
    · split at h
      · cases h
      · cases h

namespace Disk

theorem diagnostics_readText (d : Disk) (path : Text) : diagnostics (d.readText path).2 = [] := by
  unfold readText
  split
  · rfl
  · rfl
  · split
    · rfl
    · rfl

theorem diagnostics_writeText (d : Disk) (path content : Text) :
    diagnostics (d.writeText path content).2.2 = [] := by
  have hdirectory (path : Text) : diagnostics (d.ensureDirectory path).2.2 = [] := by
    unfold ensureDirectory
    split
    · rfl
    · split
      · rfl
      · rfl
      · rfl
  have hfile (d : Disk) : diagnostics (d.writeFile path content).2.2 = [] := by
    unfold writeFile
    split
    · split
      · rfl
      · rfl
    · rfl
    · rfl
  have hdirectory := hdirectory (Path.directory path)
  unfold writeText
  split
  · next hensured => rwa [hensured] at hdirectory
  · next hensured =>
    rw [hensured] at hdirectory
    simp only [diagnostics_append]
    rw [hdirectory, hfile, List.append_nil]

theorem diagnostics_freePathFrom? {d : Disk} {directory base extension path target : Text}
    {suffixes left : List String} {events : List Event}
    (h : d.freePathFrom? directory base extension path suffixes = some (target, left, events)) :
    diagnostics events = [] := by
  induction suffixes generalizing path events with
  | nil =>
    unfold freePathFrom? at h
    split at h
    · cases h
    · cases h
      rfl
  | cons suffix suffixes ih =>
    unfold freePathFrom? at h
    split at h
    · obtain ⟨⟨target', left', events'⟩, hrest, heq⟩ := Option.map_eq_some_iff.mp h
      cases heq
      show diagnostics events' = []
      exact ih hrest
    · cases h
      rfl

end Disk

namespace Workspace

theorem not_warned_save (w : Workspace) (extension path code : Text) (d : Diagnostic) :
    .logged (.warned d) ∉ (w.save extension path code).outputs := by
  unfold save
  simp only
  split
  · exact List.not_mem_nil
  · next target suffixes taken hfree =>
    have htaken : diagnostics taken = [] := by
      unfold Disk.freePath at hfree
      split at hfree
      · cases hfree
      · simp only at hfree
        split at hfree
        · next hfound =>
          cases hfree
          exact Disk.diagnostics_freePathFrom? hfound
        · cases hfree
    rw [mem_map_logged, diagnostics_append, htaken, Disk.diagnostics_writeText, List.append_nil]
    exact List.not_mem_nil

/-- What is reported when a file is converted is reported about the document in it. -/
theorem exists_content_of_mem_convertFile {w : Workspace} {settings : Settings} {dumps : Bool} {path : Text}
    {d : Diagnostic} (h : .logged (.warned d) ∈ (w.convertFile settings dumps path).outputs) :
    ∃ content, (w.disk.readText path).1 = .text content ∧
      .logged (.warned d) ∈ (documentCode settings.style dumps path content).2 := by
  have hopening : .logged (.warned d) ∉
      (Event.conversionStarted path :: (w.disk.readText path).2).map Output.logged := by
    rw [mem_map_logged]
    show d ∉ diagnostics (w.disk.readText path).2
    rw [Disk.diagnostics_readText]
    exact List.not_mem_nil
  unfold convertFile at h
  simp only at h
  split at h
  · exact absurd h hopening
  · exact absurd h hopening
  · exact absurd h hopening
  · next content hcontent =>
    refine ⟨content, hcontent, ?_⟩
    split at h
    · next hcode =>
      rw [hcode]
      exact (List.mem_append.mp h).resolve_left hopening
    · next hcode =>
      rw [hcode]
      exact (List.mem_append.mp h).resolve_left hopening
    · next code outputs hcode =>
      rw [hcode]
      rcases List.mem_append.mp h with h | h
      · rcases List.mem_append.mp h with h | h
        · exact (List.mem_append.mp h).resolve_left hopening
        · split at h
          · cases h
          · exact absurd h (not_warned_save w _ _ _ d)
      · split at h
        · cases List.mem_singleton.mp h
        · cases h

end Workspace

/-- **Reports count the lines of the script, not of the file that they name.** Whenever a file is converted, every
report that is logged names that file and is recorded for a node of its script. The line of the report is the line
on which the node starts in the script alone. In the document the node starts further down, by as many lines as
there are line breaks before the script; so the line is right exactly if there are none. -/
theorem warnings_count_lines_of_script {w : Workspace} {settings : Settings} {dumps : Bool} {path : Text}
    {d : Diagnostic} (h : .logged (.warned d) ∈ (w.convertFile settings dumps path).outputs) :
    ∃ content block tree origin t message, (w.disk.readText path).1 = .text content ∧
      Document.scriptBlock? content = some block ∧ block.lang ∈ scriptLanguages ∧
      Script.parse block.content true = .ok tree ∧
      Origin.of? block.content (tree.get "tokens").items = some origin ∧
      let s : Situation := ⟨origin, path, settings.style.keepsUnsupported⟩
      s.Records tree t message ∧ d = s.report t message ∧ d.file = path ∧
      ∀ span, t.span? = some span →
        let line := (Text.ofString content).lineAt (min (block.start + span.start) block.stop)
        let before := (content.toList.take block.start).count '\n'
        d.line? = some (line - before : Int) ∧ (d.line? = some (line : Int) ↔ before = 0) := by
  obtain ⟨content, hcontent, hdocument⟩ := Workspace.exists_content_of_mem_convertFile h
  obtain ⟨block, hblock, hlang, hscript⟩ := exists_block_of_mem_documentCode hdocument
  obtain ⟨tree, origin, htree, horigin, option, hoption, hd⟩ := exists_option_of_mem_scriptCode hscript
  obtain ⟨t, message, hrecords, rfl⟩ := Situation.exists_records hoption hd
  refine ⟨content, block, tree, origin, t, message, hcontent, hblock, hlang, htree, horigin, hrecords, rfl, rfl,
    fun span hspan => ?_⟩
  intro line before
  have hsource : origin.source = Text.ofString block.content := Origin.source_of? horigin
  have hline : (line : Int) = (Text.ofString block.content).lineAt span.start + before := by
    exact_mod_cast Document.lineAt_of_scriptBlock? hblock span.start
  have hreport : origin.line? t = some ((Text.ofString block.content).lineAt span.start : Int) := by
    rw [Origin.line?_eq, hspan, hsource]
    rfl
  rw [Situation.report, hreport, Option.some.injEq, Option.some.injEq]
  constructor
  · omega
  · omega

/-- A document whose script starts on its second line. -/
def secondLineDocument : String :=
  "<template></template>\n<script>\nexport default \x7b\n  props: 1,\n\x7d;\n</script>\n"

/-- The document on a disk. -/
def secondLineWorkspace : Workspace where
  disk := { current := "/d", entries := [(["d", "A.vue"], .file secondLineDocument.toUTF8)] }
  suffixes := []

/-- The option stands on line 4 of the document, and the report says 3. -/
theorem warnings_of_secondLineWorkspace :
    let d : Diagnostic := ⟨"A.vue", some 3, "unsupported props declaration"⟩
    .logged (.warned d) ∈ (secondLineWorkspace.convertFile {} false "A.vue").outputs ∧
      ∃ (block : ScriptBlock) (tree : Tree) (origin : Origin) (t : Tree) (message : Text) (span : Span),
        Document.scriptBlock? secondLineDocument = some block ∧ Script.parse block.content true = .ok tree ∧
        Situation.Records ⟨origin, "A.vue", true⟩ tree t message ∧
        d = Situation.report ⟨origin, "A.vue", true⟩ t message ∧ t.span? = some span ∧
        (Text.ofString secondLineDocument).lineAt (min (block.start + span.start) block.stop) = 4 := by
  intro d
  have hlogged : .logged (.warned d) ∈ (secondLineWorkspace.convertFile {} false "A.vue").outputs := by
    decide +kernel
  refine ⟨hlogged, ?_⟩
  obtain ⟨content, block, tree, origin, t, message, hcontent, hblock, -, htree, -, hrecords, hd, -, hline⟩ :=
    warnings_count_lines_of_script hlogged
  have hread : (secondLineWorkspace.disk.readText "A.vue").1 = .text secondLineDocument := by decide +kernel
  cases hread.symm.trans hcontent
  obtain ⟨span, hspan, -⟩ := Option.map_eq_some_iff.mp (congrArg Diagnostic.line? hd).symm
  refine ⟨block, tree, origin, t, message, span, hblock, htree, hrecords, hd, hspan, ?_⟩
  have hbefore : (secondLineDocument.toList.take block.start).count '\n' = 1 := by
    have hcount : (Document.scriptBlock? secondLineDocument).map (fun block =>
        (secondLineDocument.toList.take block.start).count '\n') = some 1 := by
      decide +kernel
    rw [hblock] at hcount
    exact Option.some.inj hcount
  have hsame := (hline span hspan).1
  rw [hbefore, Option.some.injEq] at hsame
  omega

end ClassComponent
