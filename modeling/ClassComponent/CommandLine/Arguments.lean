import ClassComponent.Text.Category

/-!
# Arguments of the command line

    [-h] [-c CONFIG] [--log-level LEVEL] [--drop-unsupported] [--dump-ast] FILE...

Long options may be shortened to any start that fits only one of them, and take their value after `=` or
as the next argument; `-c` also takes it without a space. The files stand together, in one place. After
`--` everything is a file.

`Arguments.parse` first says what each argument is, which already fails if a shortened option fits
several; then it takes them in order.
-/

namespace ClassComponent

/-- What the command line asks for. -/
structure Arguments where
  files : List String
  config? : Option String := none
  logLevel? : Option String := none
  dropsUnsupported : Bool := false
  dumpsTree : Bool := false
deriving DecidableEq, Repr, Inhabited

/-- Why nothing is converted. -/
inductive Dismissal where
  /-- Help was asked for. -/
  | help
  /-- The arguments do not fit. -/
  | misuse
deriving DecidableEq, Repr

/-- The status that a dismissal ends with. -/
def Dismissal.status : Dismissal → Nat
  | .help => 0
  | .misuse => 2

namespace Arguments

/-- The options. -/
inductive Flag where
  | help
  | config
  | logLevel
  | dropUnsupported
  | dumpTree
deriving DecidableEq, Repr

/-- Whether an option takes a value. -/
def Flag.takesValue : Flag → Bool
  | .config => true
  | .logLevel => true
  | _ => false

/-- The names of the options. -/
def flags : List (String × Flag) :=
  [("-h", .help), ("--help", .help), ("-c", .config), ("--config", .config),
   ("--log-level", .logLevel), ("--drop-unsupported", .dropUnsupported), ("--dump-ast", .dumpTree)]

/-! ## What an argument is -/

/-- A use of an option: `value?` is what stands in the same argument, and `isAttached` says that it does so
without `=`. -/
structure Use where
  flag : Flag
  value? : Option String
  isAttached : Bool := false
deriving DecidableEq, Repr

/-- What an argument is. -/
inductive Mark where
  | plain
  /-- The argument `--`. -/
  | divider
  | use (u : Use)
  /-- It looks like an option, but there is none like it. -/
  | unknown
deriving DecidableEq, Repr

/-- A text cut at its first `=`. -/
def cutAtEquals (cs : List Char) : List Char × Option (List Char) :=
  match cs.dropWhile (· != '=') with
  | [] => (cs, none)
  | _ :: value => (cs.takeWhile (· != '='), some value)

/-- The uses that an argument with two dashes can be. -/
def longUses (cs : List Char) : List Use :=
  let (name, value?) := cutAtEquals cs
  (flags.filter fun (full, _) => name.isPrefixOf full.toList).map fun (_, flag) =>
    ⟨flag, value?.map String.ofList, false⟩

/-- The uses that an argument with one dash can be. -/
def shortUses (cs : List Char) : List Use :=
  (flags.filter fun (full, _) => full.toList == cs.take 2).map fun (_, flag) =>
    ⟨flag, some (String.ofList (cs.drop 2)), true⟩

/-- Whether a text is a dash and a number; a line break may follow it. -/
def isNegativeNumber (cs : List Char) : Bool :=
  let line := if cs.getLast? == some '\n' then cs.dropLast else cs
  match line with
  | '-' :: number =>
    match number.dropWhile Category.isDecimal with
    | [] => !number.isEmpty
    | '.' :: fraction => !fraction.isEmpty && fraction.all Category.isDecimal
    | _ => false
  | _ => false

/-- The option whose whole name stands in an argument, perhaps before `=`. -/
def exactUse? (cs : List Char) : Option Use :=
  match flags.lookup (String.ofList cs) with
  | some flag => some ⟨flag, none, false⟩
  | none =>
    match cutAtEquals cs with
    | (name, some value) =>
      (flags.lookup (String.ofList name)).map fun flag => ⟨flag, some (String.ofList value), false⟩
    | (_, none) => none

/-- What an argument before any divider is. -/
def mark (argument : String) : Except Dismissal Mark :=
  let cs := argument.toList
  if cs.head? != some '-' || cs.length == 1 then .ok .plain
  else match exactUse? cs with
    | some u => .ok (.use u)
    | none =>
      match if cs[1]? == some '-' then longUses cs else shortUses cs with
      | [u] => .ok (.use u)
      | _ :: _ :: _ => .error .misuse
      | [] =>
        if isNegativeNumber cs || cs.contains ' ' then .ok .plain else .ok .unknown

/-- What the arguments are; after a divider all are plain. -/
def marks : List String → Except Dismissal (List (String × Mark))
  | [] => .ok []
  | argument :: rest =>
    if argument == "--" then .ok ((argument, .divider) :: rest.map (·, .plain))
    else do
      let m ← mark argument
      return (argument, m) :: (← marks rest)

/-! ## Taking arguments in order -/

/-- What was taken so far. -/
structure Progress where
  taken : Arguments := { files := [] }
  /-- The plain arguments that stand together at the moment. -/
  run : List (String × Mark) := []
  hasFiles : Bool := false
  /-- Whether something stands where nothing fits. -/
  hasExtra : Bool := false
  /-- An option that waits for its value, and whether help was asked for in the same argument. -/
  awaits? : Option (Flag × Bool) := none
deriving Inhabited

/-- Ends a run of plain arguments: the first one that is not empty holds the files, without the first
divider. -/
def Progress.closeRun (p : Progress) : Progress :=
  if p.run.isEmpty then p
  else if p.hasFiles || !p.run.any (·.2 == .plain) then { p with run := [], hasExtra := true }
  else
    let files := (p.run.map (·.1)).erase "--"
    { p with taken := { p.taken with files }, run := [], hasFiles := true }

/-- Takes an option with its value. -/
def Progress.takeValue (p : Progress) (flag : Flag) (value : String) : Progress :=
  match flag with
  | .config => { p with taken := { p.taken with config? := some value } }
  | .logLevel => { p with taken := { p.taken with logLevel? := some value } }
  | _ => p

/-- Takes an option without a value. -/
def Progress.takeFlag (p : Progress) (flag : Flag) : Except Dismissal Progress :=
  match flag with
  | .help => .error .help
  | .dropUnsupported => .ok { p with taken := { p.taken with dropsUnsupported := true } }
  | .dumpTree => .ok { p with taken := { p.taken with dumpsTree := true } }
  | _ => .ok p

/-- Takes `-h` with more characters. Letters are short options, of which the first that takes a value takes
the rest as its value; any other character ends them. Neither a dash nor `=` may follow `-h`. -/
def takeLetters (p : Progress) : List Char → Except Dismissal Progress
  | [] => .error .help
  | '-' :: _ => .error .misuse
  | 'h' :: '=' :: _ => .error .misuse
  | 'h' :: rest => takeLetters p rest
  | 'c' :: [] => .ok { p with awaits? := some (.config, true) }
  | _ :: _ => .error .help

/-- Takes an option. -/
def Progress.takeUse (p : Progress) (u : Use) : Except Dismissal Progress :=
  match u.value? with
  | some value =>
    if u.flag.takesValue then .ok (p.takeValue u.flag value)
    else if u.isAttached then takeLetters p value.toList
    else .error .misuse
  | none =>
    if u.flag.takesValue then .ok { p with awaits? := some (u.flag, false) } else p.takeFlag u.flag

/-- Takes an argument. -/
def Progress.take (p : Progress) (argument : String × Mark) : Except Dismissal Progress :=
  match p.awaits?, argument.2 with
  | some (flag, asksHelp), .plain =>
    if asksHelp then .error .help
    else .ok ({ p with awaits? := none }.takeValue flag argument.1)
  | some _, _ => .error .misuse
  | none, .use u => p.closeRun.takeUse u
  | none, .unknown => .ok { p.closeRun with hasExtra := true }
  | none, _ => .ok { p with run := p.run ++ [argument] }

/-- What the command line asks for. -/
def parse (arguments : List String) : Except Dismissal Arguments := do
  let p ← (← marks arguments).foldlM Progress.take {}
  let p := p.closeRun
  if p.awaits?.isSome || p.hasExtra || !p.hasFiles then throw .misuse
  return p.taken

end Arguments

end ClassComponent
