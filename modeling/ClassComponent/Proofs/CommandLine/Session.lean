import ClassComponent.Proofs.Files.Faults

/-!
# Sessions and files that fail

A session converts its files one after the other, up to one whose fault is fatal or whose conversion never ends.

* **Outcomes** (`Session.outcomes`): what becomes of all files if nothing ends the session.
* **One file** (`Session.runFiles_cons`, `Session.runFiles_cons_of_fatal`): a failure is remembered, or ends the
  session.
* **Runs** (`Session.runFiles_append`): a run can be cut in two before anything fatal happens.
-/

namespace ClassComponent

open Text

/-! ## Runs -/

namespace Session

variable {s : Session} {w : Workspace} {before paths : List Text} {path : Text}

/-- What becomes of files that are converted one after the other, whatever happens to them. -/
def outcomes (s : Session) (w : Workspace) : List Text → List FileOutcome
  | [] => []
  | path :: paths => s.step w path :: s.outcomes (s.step w path).workspace paths

theorem outcomes_append (s : Session) (w : Workspace) (before after : List Text) :
    s.outcomes w (before ++ after) =
      s.outcomes w before ++ s.outcomes (w.convertFiles s.settings s.dumps before) after := by
  induction before generalizing w with
  | nil => rfl
  | cons path before ih => exact congrArg (s.step w path :: ·) (ih (s.step w path).workspace)

theorem length_outcomes (s : Session) (w : Workspace) (paths : List Text) :
    (s.outcomes w paths).length = paths.length := by
  induction paths generalizing w with
  | nil => rfl
  | cons path paths ih => exact congrArg (· + 1) (ih (s.step w path).workspace)

theorem runFiles_cons_of_fatal {reason : NoResult FileFault} (hresult : (s.step w path).result = .error reason)
    (hfatal : reason.isFatal) (paths : List Text) :
    s.runFiles w (path :: paths) = (.error reason, (s.step w path).workspace, (s.step w path).outputs) := by
  have hends : goesOn path (.error reason) = false := by
    rw [goesOn_error, hfatal]
    rfl
  rw [runFiles]
  simp only [hresult, hends, Bool.false_eq_true, if_false]

theorem map_false_or (ending : Except (NoResult FileFault) Bool) : ending.map (false || ·) = ending := by
  cases ending <;> rfl

theorem map_or_map_or (a b : Bool) (ending : Except (NoResult FileFault) Bool) :
    (ending.map (b || ·)).map (a || ·) = ending.map (a || b || ·) := by
  cases ending with
  | error reason => rfl
  | ok hasFailed => exact congrArg Except.ok (Bool.or_assoc a b hasFailed).symm

/-- One step of a run: unless it is fatal, a failure is remembered and the run goes on. -/
theorem runFiles_cons (h : (s.step w path).isFatal = false) (paths : List Text) :
    let rest := s.runFiles (s.step w path).workspace paths
    s.runFiles w (path :: paths) =
      (rest.1.map ((s.step w path).isFailure || ·), rest.2.1, (s.step w path).outputs ++ rest.2.2) := by
  rw [runFiles]
  dsimp only
  cases hresult : (s.step w path).result with
  | ok output =>
    simp only [FileOutcome.isFailure, hresult, map_false_or]
  | error reason =>
    have hgoes : goesOn path (.error reason) = true := by
      have hreported : reason.isFatal = false := by simpa only [FileOutcome.isFatal, hresult] using h
      rw [goesOn_error, hreported]
      rfl
    simp only [FileOutcome.isFailure, hresult, hgoes, if_true, Bool.true_or]

/-- A run can be cut in two as long as nothing fatal happens in the first part. -/
theorem runFiles_append (h : ∀ o ∈ s.outcomes w before, o.isFatal = false) (after : List Text) :
    let rest := s.runFiles (w.convertFiles s.settings s.dumps before) after
    s.runFiles w (before ++ after) =
      (rest.1.map ((s.outcomes w before).any (·.isFailure) || ·), rest.2.1,
        (s.outcomes w before).flatMap (·.outputs) ++ rest.2.2) := by
  induction before generalizing w with
  | nil =>
    simp only [outcomes, List.any_nil, map_false_or]
    rfl
  | cons path before ih =>
    obtain ⟨hfirst, hrest⟩ := List.forall_mem_cons.mp h
    have hstep := runFiles_cons hfirst (before ++ after)
    rw [ih hrest] at hstep
    simp only [map_or_map_or, ← List.append_assoc] at hstep
    exact hstep

/-- A file that leaves the workspace as it is changes nothing for the others. -/
theorem outcomes_eraseIdx (h : (s.step (w.convertFiles s.settings s.dumps before) path).workspace =
      w.convertFiles s.settings s.dumps before) (after : List Text) :
    (s.outcomes w (before ++ path :: after)).eraseIdx before.length = s.outcomes w (before ++ after) := by
  rw [outcomes_append, outcomes_append, List.eraseIdx_append_of_length_le (length_outcomes s w before).le,
    length_outcomes, Nat.sub_self, outcomes, List.eraseIdx_cons_zero, h]

end Session

/-- The settings of a session: what is loaded, and what the command line overrides. -/
def Arguments.adjust (arguments : Arguments) (loaded : Settings) : Settings :=
  if arguments.dropsUnsupported then { loaded with keepsUnsupported := .flag false } else loaded

/-- How a session starts once its settings are loaded. -/
theorem Session.start_of_load {arguments : Arguments} {fromEnvironment : Option String} {d : Disk}
    {loaded : Settings} {events : List Event}
    (hload : Settings.load d arguments.config? fromEnvironment = .ok (loaded, events)) :
    start arguments fromEnvironment d =
      match (thresholdName arguments (arguments.adjust loaded)).text? with
      | none => (.error .threshold, events)
      | some level =>
        (.ok ⟨arguments.adjust loaded, arguments.dumpsTree, (threshold? level).getD defaultThreshold⟩,
          events ++ if (threshold? level).isSome then [] else [.thresholdUnknown level]) := by
  have hadjust : (if arguments.dropsUnsupported then { loaded with keepsUnsupported := .flag false }
      else loaded) = arguments.adjust loaded := rfl
  rw [start, hload]
  simp only [hadjust]
  cases (thresholdName arguments (arguments.adjust loaded)).text? with
  | none => rfl
  | some level => cases hlevel : threshold? level <;> simp [hlevel]

/-- **A session ends at the first fatal fault, and no other failure stops it.** Let the settings be loaded.
If their threshold is no text, the session ends before any file. Otherwise its files are converted in order.
If no outcome is fatal, all files are converted, and the status is 1 if one of them failed, else 0. The first
fatal outcome ends the session, or keeps it from ending if it is a conversion that never ends: no later file is
converted and there is no status. An outcome is fatal exactly if one of the causes in `Workspace.Breaks` holds, and
it is a conversion that never ends exactly if `Workspace.Stalls` holds. A file that fails otherwise leaves the outcomes of all other
files as they would be without it, unless its code could not be written; even then no file is new. -/
theorem session_ends_at_fatal_fault (arguments : Arguments) (fromEnvironment : Option String) (w : Workspace)
    {loaded : Settings} {events : List Event}
    (hload : Settings.load w.disk arguments.config? fromEnvironment = .ok (loaded, events)) :
    let outcome := runSession arguments fromEnvironment w
    let settings := arguments.adjust loaded
    let paths := arguments.files.map ofString
    ((Session.thresholdName arguments settings).text? = none →
      outcome = ⟨.error (.fault .threshold), w, openingOutputs events⟩) ∧
    ∀ level, (Session.thresholdName arguments settings).text? = some level →
      let s : Session := ⟨settings, arguments.dumpsTree, (threshold? level).getD defaultThreshold⟩
      let opening := openingOutputs
        (events ++ if (threshold? level).isSome then [] else [.thresholdUnknown level])
      ((∀ o ∈ s.outcomes w paths, o.isFatal = false) →
        outcome = ⟨.ok (if (s.outcomes w paths).any (·.isFailure) then 1 else 0),
          w.convertFiles s.settings s.dumps paths,
          opening ++ (s.outcomes w paths).flatMap (·.outputs) ++ s.closing⟩) ∧
      ∀ before path after, paths = before ++ path :: after →
        let w₁ := w.convertFiles s.settings s.dumps before
        let o := s.step w₁ path
        (∀ reason : NoResult FileFault,
          (∀ o ∈ s.outcomes w before, o.isFatal = false) → o.result = .error reason → reason.isFatal →
          outcome = ⟨.error (reason.map .file), o.workspace,
            opening ++ (s.outcomes w (before ++ [path])).flatMap (·.outputs)⟩) ∧
        (o.isFatal ↔ w₁.Breaks s.settings s.dumps path) ∧
        (o.result = .error .endless ↔ w₁.Stalls s.settings path) ∧
        (o.isFailure → o.isFatal = false →
          (s.outcomes w paths).eraseIdx before.length = s.outcomes w (before ++ after) ∨
            (∃ target, o.result = .error (.fault (.unwritable target))) ∧
              (w₁.disk.Sound → o.workspace.disk.fileAt? = w₁.disk.fileAt?)) := by
  intro outcome settings paths
  have hstart := Session.start_of_load hload
  refine ⟨fun hnone => ?_, fun level hlevel => ?_⟩
  · rw [hnone] at hstart
    simp only [outcome, runSession, hstart, Session.StartFault.ending, List.append_nil]
  rw [hlevel] at hstart
  intro s opening
  refine ⟨fun hnone => ?_, fun before path after hpaths => ⟨fun reason hbefore hresult hfatal => ?_, ?_, ?_, ?_⟩⟩
  · have hrun := Session.runFiles_append hnone []
    rw [List.append_nil] at hrun
    simp only [outcome, runSession, hstart]
    rw [hrun]
    simp only [Session.runFiles, Except.map, Bool.or_false, List.append_nil]
    rfl
  · have hrun := Session.runFiles_append hbefore (path :: after)
    rw [Session.runFiles_cons_of_fatal hresult hfatal, ← hpaths] at hrun
    simp only [outcome, runSession, hstart]
    rw [hrun]
    simp only [Except.map, Session.outcomes_append, Session.outcomes, List.flatMap_append, List.flatMap_singleton]
    rfl
  · exact Workspace.convertFile_isFatal_iff
  · exact Workspace.convertFile_eq_endless_iff
  · intro hfailure hreported
    obtain ⟨reason, hresult⟩ := FileOutcome.isFailure_iff.mp hfailure
    have hreason : reason.isFatal = false := by simpa only [FileOutcome.isFatal, hresult] using hreported
    obtain hsame | ⟨⟨target, rfl⟩, hfiles⟩ := Workspace.convertFile_of_reported hresult hreason
    · rw [hpaths]
      exact .inl (Session.outcomes_eraseIdx hsame after)
    · exact .inr ⟨⟨target, hresult⟩, hfiles⟩

/-- A file that is no text, and a document after it. -/
def brokenWorkspace : Workspace where
  disk := {
    current := "/d"
    entries := [(["d", "A.vue"], .file ⟨#[0xFF]⟩),
      (["d", "B.vue"], .file "<script lang=\"tsx\"> a</script>".toUTF8)] }
  suffixes := []

/-- A session ends at the file that is no text, and the document is not converted. If there is no file at all,
it is. -/
theorem runSession_brokenWorkspace :
    (runSession { files := ["A.vue", "B.vue"] } none brokenWorkspace).ending =
        .error (.fault (.file .undecodable)) ∧
      (runSession { files := ["A.vue", "B.vue"] } none brokenWorkspace).workspace = brokenWorkspace ∧
      (runSession { files := ["C.vue", "B.vue"] } none brokenWorkspace).ending = .ok 1 ∧
      (runSession { files := ["C.vue", "B.vue"] } none brokenWorkspace).workspace.disk.has "/d/B.tsx" := by
  let s : Session := ⟨{}, false, defaultThreshold⟩
  have hload : Settings.load brokenWorkspace.disk none none = .ok ({}, []) := rfl
  have hlevel : threshold? "INFO" = some defaultThreshold := by decide +kernel
  obtain ⟨-, hstops⟩ :=
    session_ends_at_fatal_fault { files := ["A.vue", "B.vue"] } none brokenWorkspace hload
  obtain ⟨-, hgoes⟩ :=
    session_ends_at_fatal_fault { files := ["C.vue", "B.vue"] } none brokenWorkspace hload
  have hfirst := ((hstops "INFO" rfl).2 [] "A.vue" ["B.vue"] rfl).1
  have hall := (hgoes "INFO" rfl).1
  simp only [hlevel, Option.getD_some] at hfirst hall
  have hbroken : (s.step brokenWorkspace "A.vue").result = .error (.fault .undecodable) := rfl
  have hreported : (s.outcomes brokenWorkspace [Text.ofString "C.vue", Text.ofString "B.vue"]).all
      (!·.isFatal) := by decide +kernel
  have hstop := hfirst (.fault .undecodable) nofun hbroken rfl
  have hrun := hall fun o ho => by simpa using List.all_eq_true.mp hreported o ho
  refine ⟨congrArg SessionOutcome.ending hstop, congrArg SessionOutcome.workspace hstop, ?_, ?_⟩
  · rw [hrun]
    have hfailed : (s.outcomes brokenWorkspace [Text.ofString "C.vue", Text.ofString "B.vue"]).any
      (·.isFailure) := by decide +kernel
    exact congrArg Except.ok (if_pos hfailed)
  · rw [hrun]
    have hwritten : (brokenWorkspace.convertFiles {} false
        [Text.ofString "C.vue", Text.ofString "B.vue"]).disk.has "/d/B.tsx" := by
      decide +kernel
    exact hwritten

end ClassComponent
