import ClassComponent.Files.Path
import ClassComponent.Proofs.Text.Lines
import ClassComponent.Proofs.Text.Name
import Mathlib.Data.List.TakeWhile

/-!
# Normal paths

A path from the root in normal form is a list of names, each after a slash (`Normal`). Such a path names
the directories that it passes one after the other: it holds no `..` that would lead back.

* **Normal form** (`normalize_eq_text`): `normalize` brings every path from the root into this form.
* **The directory above** (`directory_text`): `directory` leaves out the last name.
* **One part more** (`of_join_text`): a part below a path leads to the path itself, to the
  directory above it, or to something that has the path as its directory.
-/

namespace ClassComponent.Path

open Text

/-- Whether a part of a path is a name, and not one of the parts that lead nowhere or back. -/
structure IsName (part : Text) : Prop where
  ne_empty : part ≠ ""
  ne_here : part ≠ "."
  ne_above : part ≠ ".."
  no_slash : slash ∉ part.points

/-- Names, each after a slash. -/
def trail (names : List Text) : List CodePoint :=
  names.flatMap fun name => slash :: name.points

theorem trail_concat (names : List Text) (name : Text) :
    trail (names ++ [name]) = trail names ++ slash :: name.points := by
  simp [trail]

/-- A path from the root in normal form. -/
@[ext]
structure Normal where
  /-- Whether the path starts with two slashes. -/
  isDouble : Bool
  names : List Text
  isName : ∀ name ∈ names, IsName name

namespace Normal

/-- The first of two slashes at the start. -/
def extra (p : Normal) : List CodePoint :=
  if p.isDouble then [slash] else []

/-- The text of a path. -/
def text (p : Normal) : Text :=
  ⟨p.extra ++ if p.names.isEmpty then [slash] else trail p.names⟩

/-- The directory above; the root is above itself. -/
def up (p : Normal) : Normal where
  isDouble := p.isDouble
  names := p.names.dropLast
  isName name h := p.isName name (List.dropLast_subset p.names h)

theorem text_of_names_eq_nil {p : Normal} (h : p.names = []) : p.text.points = p.extra ++ [slash] := by
  simp [text, h]

theorem text_of_names_ne_nil {p : Normal} (h : p.names ≠ []) : p.text.points = p.extra ++ trail p.names := by
  simp [text, h]

/-- A path is the root, or a name below a directory. -/
theorem root_or_below (p : Normal) :
    p.names = [] ∧ p.up = p ∨
      ∃ name, IsName name ∧ p.names = p.up.names ++ [name] ∧
        p.text.points = p.up.extra ++ trail p.up.names ++ slash :: name.points := by
  rcases List.eq_nil_or_concat' p.names with hnil | ⟨names, name, hnames⟩
  · exact .inl ⟨hnil, Normal.ext rfl (by simp [up, hnil])⟩
  · have hup : p.up.names = names := by simp [up, hnames]
    refine .inr ⟨name, p.isName name (by simp [hnames]), by rw [hup, hnames], ?_⟩
    rw [text_of_names_ne_nil (by simp [hnames]), hnames, trail_concat, hup, ← List.append_assoc]
    rfl

/-- A path below the root ends with a name. -/
theorem exists_last {p : Normal} (h : p.names ≠ []) :
    ∃ before last, p.text.points = before ++ [last] ∧ last ≠ slash := by
  obtain ⟨hnil, -⟩ | ⟨name, hname, -, htext⟩ := p.root_or_below
  · exact absurd hnil h
  · rcases List.eq_nil_or_concat' name.points with hnil | ⟨before, last, hlast⟩
    · exact absurd (eq_of_points hnil) hname.ne_empty
    · refine ⟨p.up.extra ++ trail p.up.names ++ slash :: before, last, by simp [htext, hlast], ?_⟩
      rintro rfl
      exact hname.no_slash (by simp [hlast])

/-! ## The directory above -/

/-- The text of the directory above is the start of the text. -/
theorem text_up_prefix (p : Normal) : p.up.text.points <+: p.text.points := by
  obtain ⟨-, hup⟩ | ⟨name, -, -, htext⟩ := p.root_or_below
  · simp [hup]
  · rw [htext]
    by_cases hnames : p.up.names = []
    · rw [text_of_names_eq_nil hnames, hnames]
      exact ⟨name.points, by simp [trail]⟩
    · rw [text_of_names_ne_nil hnames]
      exact List.prefix_append _ _

theorem dropWhile_append_slash {ps : List CodePoint} (qs : List CodePoint) (hps : slash ∉ ps) :
    (qs ++ slash :: ps).reverse.dropWhile (· != slash) = (qs ++ [slash]).reverse := by
  have hdrop : ps.reverse.dropWhile (· != slash) = [] := by
    rw [List.dropWhile_eq_nil_iff]
    intro p hp
    simp only [bne_iff_ne]
    rintro rfl
    exact hps (List.mem_reverse.mp hp)
  simp [List.dropWhile_append, hdrop]

/-- The directory of a path is the path without its last name. -/
theorem directory_text (p : Normal) : directory p.text = p.up.text := by
  obtain ⟨hroot, hup⟩ | ⟨name, hname, -, htext⟩ := p.root_or_below
  · have htext := text_of_names_eq_nil hroot
    rw [hup]
    refine eq_of_points ?_
    cases hdouble : p.isDouble <;> simp [directory, htext, extra, hdouble]
  · have hhead : (p.text.points.reverse.dropWhile (· != slash)).reverse =
        p.up.extra ++ trail p.up.names ++ [slash] := by
      rw [htext, dropWhile_append_slash _ hname.no_slash, List.reverse_reverse]
    rw [directory, hhead]
    by_cases hnames : p.up.names = []
    · have hall : (p.up.extra ++ trail p.up.names ++ [slash]).all (· == slash) := by
        rw [hnames, extra]
        split <;> simp [trail]
      rw [if_pos hall]
      refine eq_of_points ?_
      rw [text_of_names_eq_nil hnames, hnames]
      simp [trail]
    · obtain ⟨before, last, hlast, hne⟩ := exists_last hnames
      rw [← text_of_names_ne_nil hnames, hlast]
      have hall : ¬ (before ++ [last] ++ [slash]).all (· == slash) := by simp [hne]
      rw [if_neg hall]
      refine eq_of_points ?_
      rw [hlast]
      simp [withoutSlashes, hne]

end Normal

/-! ## Parts -/

/-- Parts, each after a slash, are parts of the path. -/
theorem splitAt_append_trail {ps : List CodePoint} {names : List Text} (hps : slash ∉ ps)
    (hnames : ∀ name ∈ names, slash ∉ name.points) :
    splitAt slash (ps ++ trail names) = ps :: names.map points := by
  induction names generalizing ps with
  | nil =>
    rw [splitAt_eq_splitOn]
    simpa [trail] using List.splitOn_eq_singleton hps
  | cons name names ih =>
    have hrest := ih (hnames name (by simp)) fun other h => hnames other (List.mem_cons_of_mem _ h)
    rw [splitAt_eq_splitOn] at hrest ⊢
    exact (List.splitOn_append_cons_self_of_not_mem hps _).trans (congrArg (ps :: ·) hrest)

namespace Normal

/-- The parts before the first name, which are empty. -/
def start (p : Normal) : List Text :=
  if p.isDouble then ["", ""] else [""]

theorem parts_trail (p : Normal) {names : List Text} (h : ∀ name ∈ names, slash ∉ name.points) :
    parts ⟨p.extra ++ trail names⟩ = p.start ++ names := by
  have hsplit : splitAt slash ([] ++ trail names) = [] :: names.map points :=
    splitAt_append_trail (by simp) h
  rw [List.nil_append] at hsplit
  have hback : (names.map points).map Text.mk = names := by
    rw [List.map_map]
    exact List.map_id _
  rw [parts, extra, start]
  split
  · rw [List.singleton_append, splitAt, if_pos (beq_self_eq_true slash), hsplit, List.map_cons,
      List.map_cons, hback]
    rfl
  · rw [List.nil_append, hsplit, List.map_cons, hback]
    rfl

/-- The names in a path after its start; the root has an empty one. -/
theorem parts_text (p : Normal) :
    parts p.text = p.start ++ if p.names.isEmpty then [Text.ofString ""] else p.names := by
  have hempty : ∀ name ∈ [Text.ofString ""], slash ∉ name.points := by decide
  rw [text]
  split
  · exact p.parts_trail hempty
  · exact p.parts_trail fun name h => (p.isName name h).no_slash

/-- No part leads back. -/
theorem ne_above_of_mem_parts {p : Normal} {part : Text} (h : part ∈ parts p.text) : part ≠ ".." := by
  rw [parts_text, start] at h
  rcases List.mem_append.mp h with h | h
  · rintro rfl
    revert h
    split <;> decide
  · split at h
    · rw [List.mem_singleton.mp h]
      decide
    · exact (p.isName part h).ne_above

end Normal

theorem slash_not_mem_of_mem_parts {path part : Text} (h : part ∈ parts path) : slash ∉ part.points := by
  obtain ⟨piece, hpiece, rfl⟩ := List.mem_map.mp h
  exact not_mem_of_mem_splitAt hpiece

/-- The parts of a path from the root, last one first, after one more part. -/
def resolveStep (done : List Text) (part : Text) : List Text :=
  if part.isEmpty || part == "." then done
  else if part == ".." then done.tail
  else part :: done

theorem isName_of_mem_resolveStep {done : List Text} {part name : Text}
    (hdone : ∀ name ∈ done, IsName name) (hpart : slash ∉ part.points)
    (h : name ∈ resolveStep done part) : IsName name := by
  unfold resolveStep at h
  split at h
  · exact hdone name h
  · next hskipped =>
    split at h
    · exact hdone name (List.mem_of_mem_tail h)
    · next habove =>
      rcases List.mem_cons.mp h with rfl | h
      · simp only [Bool.or_eq_true, beq_iff_eq, not_or] at hskipped habove
        refine ⟨?_, hskipped.2, habove, hpart⟩
        rintro rfl
        exact hskipped.1 rfl
      · exact hdone name h

theorem isName_of_mem_foldl {done parts : List Text} {name : Text}
    (hdone : ∀ name ∈ done, IsName name) (hparts : ∀ part ∈ parts, slash ∉ part.points)
    (h : name ∈ parts.foldl resolveStep done) : IsName name := by
  induction parts generalizing done with
  | nil => exact hdone name h
  | cons part parts ih =>
    exact ih (fun _ => isName_of_mem_resolveStep hdone (hparts part (by simp)))
      (fun other hother => hparts other (List.mem_cons_of_mem _ hother)) h

/-- Below the root, parts are resolved one after the other. -/
theorem resolveParts_eq_foldl {done parts : List Text} (hdone : ∀ name ∈ done, IsName name)
    (hparts : ∀ part ∈ parts, slash ∉ part.points) :
    resolveParts true done parts = (parts.foldl resolveStep done).reverse := by
  induction parts generalizing done with
  | nil => rfl
  | cons part parts ih =>
    have hstep := ih (fun _ => isName_of_mem_resolveStep hdone (hparts part (by simp)))
      fun other hother => hparts other (List.mem_cons_of_mem _ hother)
    rw [List.foldl_cons, ← hstep, resolveStep]
    conv_lhs => rw [resolveParts.eq_def]
    dsimp only
    by_cases hskipped : (part.isEmpty || part == ".") = true
    · rw [if_pos hskipped, if_pos hskipped]
    rw [if_neg hskipped, if_neg hskipped]
    by_cases habove : (part == "..") = true
    · rw [if_pos habove, if_pos habove]
      cases done with
      | nil => rfl
      | cons last rest =>
        -- All parts so far are names, so `..` always takes one of them away.
        have hlast : ¬ (last == "..") = true := fun h => (hdone last (by simp)).ne_above (beq_iff_eq.mp h)
        exact if_neg hlast
    · rw [if_neg habove, if_neg habove]

theorem foldl_resolveStep_of_isName {done names : List Text} (h : ∀ name ∈ names, IsName name) :
    names.foldl resolveStep done = names.reverse ++ done := by
  induction names generalizing done with
  | nil => rfl
  | cons name names ih =>
    have hname := h name (by simp)
    have hstep : resolveStep done name = name :: done := by
      have hempty : name.isEmpty = false := by
        rw [Text.isEmpty, List.isEmpty_eq_false_iff]
        exact fun hnil => hname.ne_empty (eq_of_points hnil)
      simp [resolveStep, hempty, hname.ne_here, hname.ne_above]
    rw [List.foldl_cons, hstep, ih fun other hother => h other (List.mem_cons_of_mem _ hother)]
    simp

/-! ## Normal form -/

/-- The normal form of a path from the root. -/
def Normal.of (path : Text) : Normal where
  isDouble := (path.points.takeWhile (· == slash)).length == 2
  names := ((parts path).foldl resolveStep []).reverse
  isName name h :=
    isName_of_mem_foldl (by simp) (fun _ => slash_not_mem_of_mem_parts) (List.mem_reverse.mp h)

theorem normalize_eq_text {path : Text} (h : isRooted path) : normalize path = (Normal.of path).text := by
  have hslashes : (path.points.takeWhile (· == slash)).isEmpty = false := by
    cases hpath : path.points with
    | nil => simp [isRooted, hpath] at h
    | cons first rest =>
      have hfirst : first = slash := by simpa [isRooted, hpath] using h
      simp [hfirst]
  have hnames : resolveParts true [] (parts path) = (Normal.of path).names :=
    resolveParts_eq_foldl (by simp) fun _ => slash_not_mem_of_mem_parts
  have hlead : (if (path.points.takeWhile (· == slash)).length == 2 then Text.ofString "//"
      else if (path.points.takeWhile (· == slash)).isEmpty then Text.ofString "" else Text.ofString "/") =
      ⟨(Normal.of path).extra ++ [slash]⟩ := by
    rw [hslashes, Normal.extra, Normal.of]
    split <;> rfl
  have hwhole : Text.mk ((Normal.of path).extra ++ [slash]) ++
      Text.intercalate "/" (Normal.of path).names = (Normal.of path).text := by
    refine eq_of_points ?_
    rw [Normal.text]
    cases (Normal.of path).names with
    | nil => exact List.append_nil _
    | cons name names =>
      have hjoin := intercalate_cons slash name.points (names.map points)
      change (Normal.of path).extra ++ [slash] ++ [slash].intercalate (name.points :: names.map points) = _
      rw [hjoin]
      simp [trail, List.flatMap_map]
  have hfilled : (Normal.of path).text.isEmpty = false := by
    rw [Text.isEmpty, Normal.text]
    cases (Normal.of path).names <;> simp [trail]
  have hrooted : (!(path.points.takeWhile (· == slash)).isEmpty) = true := by rw [hslashes, Bool.not_false]
  simp only [normalize, hlead, hrooted, hnames, hwhole, hfilled]
  rfl

theorem isRooted_text (p : Normal) : isRooted p.text := by
  cases hdouble : p.isDouble <;> cases hnames : p.names <;>
    simp [isRooted, Normal.text, Normal.extra, hdouble, hnames, trail]

theorem isRooted_join {current path : Text} (h : isRooted current) : isRooted (join current path) := by
  have happend : ∀ t : Text, isRooted (current ++ t) := by
    intro t
    change (current.points ++ t.points).head? == some slash
    rw [isRooted] at h
    cases hc : current.points with
    | nil => simp [hc] at h
    | cons first rest => simpa [hc] using h
  unfold join
  split
  · assumption
  · split
    · exact happend path
    · rw [append_assoc]
      exact happend _

/-- A part stands below a path after a slash. -/
theorem points_join_text (p : Normal) {part : Text} (hpart : slash ∉ part.points) :
    (join p.text part).points = p.extra ++ trail (p.names ++ [part]) := by
  have hrooted : isRooted part = false := by
    rw [isRooted, beq_eq_false_iff_ne]
    exact fun h => hpart (List.mem_of_mem_head? h)
  have hfilled : p.text.isEmpty = false := by
    have h := isRooted_text p
    rw [isRooted] at h
    cases hpoints : p.text.points <;> simp_all [Text.isEmpty]
  rw [join, hrooted, hfilled, trail_concat]
  by_cases hnames : p.names = []
  · have hlast : (p.text.points.getLast? == some slash) = true := by
      simp [Normal.text_of_names_eq_nil hnames]
    simp only [hlast, Bool.or_true, if_true]
    change p.text.points ++ part.points = _
    rw [Normal.text_of_names_eq_nil hnames, hnames]
    simp [trail]
  · obtain ⟨before, last, htext, hne⟩ := Normal.exists_last hnames
    have hlast : (p.text.points.getLast? == some slash) = false := by simp [htext, hne]
    simp only [hlast, Bool.or_false]
    change p.text.points ++ [slash] ++ part.points = _
    rw [Normal.text_of_names_ne_nil hnames]
    simp

/-- No slash follows those at the start. -/
theorem takeWhile_append_trail (p : Normal) {part : Text} (hpart : slash ∉ part.points) :
    (p.extra ++ trail (p.names ++ [part])).takeWhile (· == slash) = p.extra ++ [slash] := by
  have hnone : ∀ (name : Text) (rest : List CodePoint), slash ∉ name.points →
      (name = "" → rest = []) → (name.points ++ rest).takeWhile (· == slash) = [] := by
    intro name rest hname hrest
    cases hpoints : name.points with
    | nil => simp [hrest (eq_of_points hpoints)]
    | cons first others =>
      have hfirst : first ≠ slash := by
        rintro rfl
        exact hname (by simp [hpoints])
      simp [hfirst]
  have htrail : (trail (p.names ++ [part])).takeWhile (· == slash) = [slash] := by
    cases hnames : p.names with
    | nil => simpa [trail] using hnone part [] hpart fun _ => rfl
    | cons name names =>
      have hname := p.isName name (by simp [hnames])
      change (slash :: (name.points ++ trail (names ++ [part]))).takeWhile (· == slash) = _
      rw [List.takeWhile_cons, if_pos (beq_self_eq_true slash),
        hnone name _ hname.no_slash fun h => absurd h hname.ne_empty]
  unfold Normal.extra
  split <;> simp [htrail]

theorem foldl_parts_join_text (p : Normal) {part : Text} (hpart : slash ∉ part.points) :
    (parts (join p.text part)).foldl resolveStep [] = resolveStep p.names.reverse part := by
  have hslashless : ∀ name ∈ p.names ++ [part], slash ∉ name.points := by
    intro name hname
    rcases List.mem_append.mp hname with hname | hname
    · exact (p.isName name hname).no_slash
    · rw [List.mem_singleton.mp hname]
      exact hpart
  have hstart : p.start.foldl resolveStep [] = [] := by
    rw [Normal.start]
    split <;> rfl
  rw [eq_of_points (t := ⟨_⟩) (points_join_text p hpart), p.parts_trail hslashless, List.foldl_append,
    hstart, List.foldl_append, foldl_resolveStep_of_isName p.isName, List.append_nil]
  rfl

/-- A part below a path leads to the path itself, to the directory above it, or to something in it. -/
theorem of_join_text (p : Normal) {part : Text} (hpart : slash ∉ part.points) :
    Normal.of (join p.text part) = p ∨ Normal.of (join p.text part) = p.up ∨
      (Normal.of (join p.text part)).up = p := by
  have hdouble : (Normal.of (join p.text part)).isDouble = p.isDouble := by
    rw [Normal.of, points_join_text p hpart, takeWhile_append_trail p hpart, Normal.extra]
    split <;> simp_all
  have hnames : (Normal.of (join p.text part)).names = (resolveStep p.names.reverse part).reverse :=
    congrArg List.reverse (foldl_parts_join_text p hpart)
  unfold resolveStep at hnames
  split at hnames
  · exact .inl (Normal.ext hdouble (hnames.trans (List.reverse_reverse _)))
  · split at hnames
    · exact .inr (.inl (Normal.ext hdouble (hnames.trans (by simp [Normal.up]))))
    · exact .inr (.inr (Normal.ext hdouble (by simp [Normal.up, hnames])))

/-! ## Absolute paths -/

/-- The path from the root is normal, if that of the current directory starts from the root. -/
theorem absolute_eq_text {current : Text} (h : isRooted current) (path : Text) :
    absolute current path = (Normal.of (join current path)).text :=
  normalize_eq_text (isRooted_join h)

theorem absolute_join_text (current : Text) (p : Normal) (part : Text) :
    absolute current (join p.text part) = (Normal.of (join p.text part)).text := by
  have hrooted : isRooted (join p.text part) := isRooted_join (isRooted_text p)
  rw [absolute, join, if_pos hrooted, normalize_eq_text hrooted]

/-- The stem of a path is a part of it. -/
theorem slash_not_mem_stem (path : Text) : slash ∉ (stem path).points := by
  have hname : slash ∉ (fileName path).points := by
    intro h
    have := List.mem_takeWhile_imp (List.mem_reverse.mp h)
    simp at this
  unfold stem withoutExtension
  split
  · exact hname
  · next first rest hdrop =>
    dsimp only
    split
    · exact hname
    · intro h
      refine hname (List.mem_reverse.mp ?_)
      refine (List.dropWhile_suffix (· != dot)).subset ?_
      rw [hdrop]
      exact List.mem_cons_of_mem _ (List.mem_reverse.mp h)

end ClassComponent.Path
