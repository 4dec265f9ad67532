import ClassComponent.Text.Basic

/-!
# Faults in scripts

Why a script cannot be read, and on which line. Faults that a reader can pass over, such as a
missing comma between properties, do not appear here: the grammar goes on after them.
-/

namespace ClassComponent.Script

/-- Why reading stopped. -/
inductive Cause where
  /-- The script ends where more is expected. -/
  | unexpectedEnd
  /-- A token stands where it cannot. -/
  | unexpected (token : Text)
  /-- Characters that make no token. -/
  | illegal
  /-- A regular expression without its end. -/
  | openRegex
  /-- A constant without a value. -/
  | bareConstant
  /-- A jump to a label that does not enclose it. -/
  | unknownLabel (name : Text)
  /-- A label inside a statement with the same label. -/
  | repeatedLabel (name : Text)
  /-- A jump outside the statements that it could leave. -/
  | strayJump (keyword : String)
  /-- A second default clause of a switch. -/
  | repeatedDefault
  /-- A line break between `throw` and its argument. -/
  | brokenThrow
  /-- A try statement with neither a handler nor a finalizer. -/
  | bareTry
  /-- A rest element with a default value or with more after it. -/
  | misplacedRest
  /-- An import or export inside a function. -/
  | nestedModuleItem
  /-- A module that is not named by a string. -/
  | unnamedModule
  /-- Two parameters of an arrow function with one name. -/
  | repeatedParameter
  /-- A class member that may not have its name. -/
  | refusedMember
  /-- A fault that could be passed over, at a number too long for the report of it. -/
  | longNumber
  /-- Nesting beyond what the length of the script allows. -/
  | tooDeep
deriving DecidableEq, Repr

/-- A cause and the line it was met on. -/
structure Fault where
  line : Nat
  cause : Cause
deriving DecidableEq, Repr

/-- The wording of a cause. -/
def Cause.message : Cause → Text
  | .unexpectedEnd => "Unexpected end of input"
  | .unexpected token => "Unexpected token " ++ token
  | .illegal => "Unexpected token ILLEGAL"
  | .openRegex => "Invalid regular expression: missing /"
  | .bareConstant => "Missing initializer in const declaration"
  | .unknownLabel name => "Undefined label '" ++ name ++ "'"
  | .repeatedLabel name => "Label '" ++ name ++ "' has already been declared"
  | .strayJump keyword => "Illegal " ++ keyword ++ " statement"
  | .repeatedDefault => "More than one default clause in switch statement"
  | .brokenThrow => "Illegal newline after throw"
  | .bareTry => "Missing catch or finally after try"
  | .misplacedRest => "Rest element must be last and have no default"
  | .nestedModuleItem => "Unexpected module declaration"
  | .unnamedModule => "Unexpected token"
  | .repeatedParameter => "Strict mode function may not have duplicate parameter names"
  | .refusedMember => "Class member may not have this name"
  | .longNumber => "Unexpected number of more digits than can be written"
  | .tooDeep => "Script is nested too deeply"

/-- The wording of a fault. -/
def Fault.message (f : Fault) : Text :=
  "Line " ++ toString f.line ++ ": " ++ f.cause.message

end ClassComponent.Script
