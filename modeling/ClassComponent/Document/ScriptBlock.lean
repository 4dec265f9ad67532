import ClassComponent.Text.Blank
import ClassComponent.Text.LetterCase
import ClassComponent.Text.Word

/-!
# The script block of a document

A component document holds its script between `<script …>` and `</script>`. `scriptBlock?` finds the
first block that is not marked `setup`. Tags and attributes are matched without regard to case; a
comment or a string that looks like a tag counts as one.

A block is searched for from left to right: the next opening tag, then the next closing tag after it. A
document where either is missing has no block from there on.
-/

namespace ClassComponent

/-- The script of a document: its text, its language, and where it stands. -/
structure ScriptBlock where
  content : String
  lang : String
  start : Nat
  stop : Nat
deriving DecidableEq, Repr, Inhabited

namespace Document

/-! ## Tags -/

/-- The attributes of the opening tag that `cs` starts with, and what follows the tag. -/
def openTag? (cs : List Char) : Option (List Char × List Char) :=
  match Text.dropCaseless? "<script".toList cs with
  | some (c :: rest) =>
    if c == '>' then some ([], rest)
    else if Text.isBlank c then
      match rest.dropWhile (· != '>') with
      | _ :: after => some (c :: rest.takeWhile (· != '>'), after)
      | [] => none
    else none
  | _ => none

/-- What follows the closing tag that `cs` starts with. -/
def closeTag? (cs : List Char) : Option (List Char) :=
  match Text.dropCaseless? "</script".toList cs with
  | some rest =>
    match rest.dropWhile Text.isBlank with
    | c :: after => if c == '>' then some after else none
    | [] => none
  | none => none

/-- The first opening tag in `cs`: its attributes and what follows it. -/
def findOpen? : List Char → Option (List Char × List Char)
  | [] => none
  | c :: cs =>
    match openTag? (c :: cs) with
    | some found => some found
    | none => findOpen? cs

/-- The first closing tag in `cs`: what precedes it and what follows it. -/
def findClose? : List Char → Option (List Char × List Char)
  | [] => none
  | c :: cs =>
    match closeTag? (c :: cs) with
    | some after => some ([], after)
    | none => (findClose? cs).map fun (content, after) => (c :: content, after)

/-! ## Attributes -/

/-- Whether the word `setup` stands in `cs`; `before` is the character before `cs`. -/
def hasSetupFrom (before : Option Char) : List Char → Bool
  | [] => false
  | c :: cs =>
    let isHere := match Text.dropCaseless? "setup".toList (c :: cs) with
      | some rest => Text.wordEdge before (some c) && Text.wordEdge (some 'p') rest.head?
      | none => false
    isHere || hasSetupFrom (some c) cs

/-- Whether attributes mark a block as `setup`. -/
def hasSetup (attributes : List Char) : Bool :=
  hasSetupFrom none attributes

/-- Characters of the name of a language. -/
def isLangChar (c : Char) : Bool :=
  Text.isWord c || c == '-'

/-- The value of the attribute `lang` that `cs` starts with, up to the end of the name. -/
def langValue? (cs : List Char) : Option (List Char) :=
  match Text.dropCaseless? "lang".toList cs with
  | some rest =>
    match rest.dropWhile Text.isBlank with
    | '=' :: value =>
      let value := match value.dropWhile Text.isBlank with
        | c :: inner => if c == '"' || c == '\'' then inner else c :: inner
        | [] => []
      let name := value.takeWhile isLangChar
      if name.isEmpty then none else some name
    | _ => none
  | none => none

/-- The value of the first attribute `lang` in `cs`; `before` is the character before `cs`. -/
def langFrom? (before : Option Char) : List Char → Option (List Char)
  | [] => none
  | c :: cs =>
    match if Text.wordEdge before (some c) then langValue? (c :: cs) else none with
    | some name => some name
    | none => langFrom? (some c) cs

/-- The language that attributes name, in lower case; `js` if they name none. -/
def lang (attributes : List Char) : String :=
  match langFrom? none attributes with
  | some name => LetterCase.lower (String.ofList name)
  | none => "js"

/-! ## Lengths -/

theorem length_dropCaseless? {word cs rest : List Char} (h : Text.dropCaseless? word cs = some rest) :
    rest.length + word.length = cs.length := by
  induction word generalizing cs with
  | nil =>
    cases h
    rfl
  | cons w word ih =>
    cases cs with
    | nil => cases h
    | cons c cs =>
      rw [Text.dropCaseless?] at h
      split at h
      · rw [List.length_cons, List.length_cons, ← ih h]
        omega
      · cases h

theorem length_openTag? {cs attributes rest : List Char} (h : openTag? cs = some (attributes, rest)) :
    rest.length < cs.length := by
  unfold openTag? at h
  split at h
  · next c tail htag =>
    have hlength := length_dropCaseless? htag
    rw [List.length_cons] at hlength
    split at h
    · cases h
      omega
    · split at h
      · split at h
        · next hend =>
          cases h
          have hle : (tail.dropWhile (· != '>')).length ≤ tail.length := (List.dropWhile_sublist _).length_le
          rw [hend, List.length_cons] at hle
          omega
        · cases h
      · cases h
  · cases h

theorem length_closeTag? {cs rest : List Char} (h : closeTag? cs = some rest) :
    rest.length < cs.length := by
  unfold closeTag? at h
  split at h
  · next tail htag =>
    have hlength := length_dropCaseless? htag
    split at h
    · next hend =>
      split at h
      · cases h
        have hle : (tail.dropWhile Text.isBlank).length ≤ tail.length := (List.dropWhile_sublist _).length_le
        rw [hend, List.length_cons] at hle
        omega
      · cases h
    · cases h
  · cases h

theorem length_findOpen? {cs attributes rest : List Char}
    (h : findOpen? cs = some (attributes, rest)) : rest.length < cs.length := by
  induction cs with
  | nil => cases h
  | cons c cs ih =>
    rw [findOpen?] at h
    split at h
    · next htag =>
      cases h
      exact length_openTag? htag
    · exact Nat.lt_succ_of_lt (ih h)

theorem length_findClose? {cs content rest : List Char}
    (h : findClose? cs = some (content, rest)) : rest.length < cs.length := by
  induction cs generalizing content with
  | nil => cases h
  | cons c cs ih =>
    rw [findClose?] at h
    split at h
    · next htag =>
      cases h
      exact length_closeTag? htag
    · obtain ⟨found, hfound, heq⟩ := Option.map_eq_some_iff.mp h
      cases heq
      exact Nat.lt_succ_of_lt (ih hfound)

/-! ## Blocks -/

/-- The first block in `cs` that is not marked `setup`; `cs` is the end of a document of `size`
characters. -/
def blockFrom? (size : Nat) (cs : List Char) : Option ScriptBlock :=
  match _hopen : findOpen? cs with
  | none => none
  | some (attributes, inner) =>
    match _hclose : findClose? inner with
    | none => none
    | some (content, after) =>
      if hasSetup attributes then blockFrom? size after
      else
        let start := size - inner.length
        some ⟨String.ofList content, lang attributes, start, start + content.length⟩
termination_by cs.length
decreasing_by
  have hinner := length_findOpen? _hopen
  have hafter := length_findClose? _hclose
  omega

/-- The script block of a document. -/
def scriptBlock? (document : String) : Option ScriptBlock :=
  let cs := document.toList
  blockFrom? cs.length cs

end Document

end ClassComponent
