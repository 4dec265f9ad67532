import ClassComponent.Component.Basic
import ClassComponent.Text.Digest

/-!
# Names of watchers

A watcher is a method named after what it watches, so its name can clash with another member. A name
that is taken gets the digest of the last try appended, until one is free. The digests have four hexadecimal
digits, so after 65536 of them they repeat: a free name is among the first 65537 candidates, or all are
taken and the search never ends. No name (`none`) stands for a search that never ends.

All of this takes the digest as an argument.
-/

namespace ClassComponent

/-- The candidate after `candidate` for the name `name`. -/
def nextCandidate (digest : Text → Text) (name candidate : Text) : Text :=
  name ++ "_" ++ digest candidate

/-- The first of `count` candidates from `candidate` on that is not taken. -/
def freeCandidate? (digest : Text → Text) (taken : List Text) (name : Text) :
    Nat → Text → Option Text
  | 0, _ => none
  | count + 1, candidate =>
    if taken.contains candidate then
      freeCandidate? digest taken name count (nextCandidate digest name candidate)
    else some candidate

/-- The number of candidates that can differ. -/
def candidateCount : Nat := 65537

/-- A name that is not taken: `name` itself, or `name` with a digest; `none` if the search for it never
ends. -/
def uniqueName? (digest : Text → Text) (taken : List Text) (name : Text) : Option Text :=
  freeCandidate? digest taken name candidateCount name

/-- The names of `methods` made unique one after the other, none of them in `taken`. -/
def renameAll? (digest : Text → Text) (taken : List Text) : List Method → Option (List Method)
  | [] => some []
  | m :: ms => do
    let name ← uniqueName? digest taken m.name
    let rest ← renameAll? digest (name :: taken) ms
    return { m with name } :: rest

namespace Component

/-- The names that a watcher could clash with. -/
def memberNames (c : Component) : List Text :=
  c.data.map (·.name) ++ c.computed.map (·.name) ++ c.methods.map (·.name) ++ c.props.map (·.name) ++
    c.lifecycleHooks.map (·.name) ++ c.registeredNames

/-- `memberNames` in order and each once. -/
def sortedNames (c : Component) : List Text :=
  c.memberNames.eraseDups.mergeSort Text.before

/-- The component with watchers that clash with no other member and with each other; `none` if the search
for one of their names never ends. -/
def renameWatchers? (digest : Text → Text) (c : Component) : Option Component := do
  return { c with watch := ← renameAll? digest c.memberNames c.watch }

end Component

end ClassComponent
