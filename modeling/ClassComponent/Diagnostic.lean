import ClassComponent.Text.Basic

/-!
# Diagnostics

What is reported about a part of a script that is not converted, and where it stands.
-/

namespace ClassComponent

/-- A report: the file, the line if it is known, and what is wrong. -/
structure Diagnostic where
  file : Text
  line? : Option Int
  message : Text
deriving DecidableEq, Repr, Inhabited

/-- A report as one line of text. -/
def Diagnostic.text (d : Diagnostic) : Text :=
  let line := match d.line? with
    | some n => toString n
    | none => "null"
  "[" ++ d.file ++ ":" ++ line ++ "] " ++ d.message

end ClassComponent
