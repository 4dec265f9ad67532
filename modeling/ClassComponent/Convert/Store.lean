import ClassComponent.Convert.Finding
import ClassComponent.Convert.Function

/-!
# Store helpers

Spreads of store helpers inside `computed` and `methods`,

    ...mapState({ isPartner: state => state.me.partner }),
    ...topologyStore.mapState(["connectivity"]),

become store bindings, one for each entry of the helper's argument.
-/

namespace ClassComponent

namespace Situation

/-- The binding of an entry of an object argument: a function, or a name that stands for one. -/
def storeEntry (s : Situation) (tool : StoreTool) (scope? : Option Text) (entry : Tree) :
    Except Diagnostic StoreBinding :=
  let value := entry.get "value"
  match FunctionForm.ofMember? s.origin entry with
  | some f => .ok ⟨tool, f.name, scope?, f.arrowText s.origin⟩
  | none =>
    if entry.kind == "Property" && value.kind == "Identifier" then
      .ok ⟨tool, s.origin.memberName entry, scope?, s.origin.nameText value⟩
    else
      .error (s.report entry
        ("unsupported store mapping, only functions are converted: " ++ s.text entry))

/-- The binding of an element of an array argument, which must be a string. -/
def storeElement (s : Situation) (tool : StoreTool) (scope? : Option Text) (list element : Tree) :
    Except Diagnostic StoreBinding :=
  match element.kind, element.get "value" with
  | "Literal", .text name => .ok ⟨tool, name, scope?, s.text element⟩
  | _, _ =>
    .error (s.report (if element.isFilled then element else list)
      ("unsupported store mapping: " ++ s.text element))

/-- The bindings of a helper's argument; `none` if it is neither an object nor an array. -/
def storeEntries? (s : Situation) (tool : StoreTool) (scope? : Option Text) (argument : Tree) :
    Option (List (Except Diagnostic StoreBinding)) :=
  if argument.kind == "ObjectExpression" then
    some ((argument.get "properties").items.map (s.storeEntry tool scope?))
  else if argument.kind == "ArrayExpression" then
    some ((argument.get "elements").items.map (s.storeElement tool scope? argument))
  else none

/-- A helper as it is called: its name, and the part of the store that it belongs to. -/
def storeHelper (s : Situation) (callee : Tree) : Text × Option Text :=
  if callee.kind == "MemberExpression" && !callee.has "computed" then
    (s.origin.nameText (callee.get "property"), some (s.text (callee.get "object")))
  else (s.origin.nameText callee, none)

/-- The bindings that a spread stands for, and the events of reading it. -/
def storeBindings (s : Situation) (spread : Tree) : List StoreBinding × List Event :=
  let expression := spread.get "argument"
  let refusal := ([], [Event.warned (s.report spread ("unsupported spread: " ++ s.text spread))])
  if expression.kind != "CallExpression" then refusal
  else
    let (helper, scope?) := s.storeHelper (expression.get "callee")
    match if StoreTool.isMapHelper helper then StoreTool.ofHelper? helper else none with
    | none => refusal
    | some tool =>
      let argument := (expression.get "arguments").items.headD .null
      match s.storeEntries? tool scope? argument with
      | some results =>
        (items results, reports results ++ [.helperRead helper (items results).length])
      | none =>
        ([], [.warned (s.report spread
            ("unsupported " ++ helper ++ " arguments: " ++ s.text expression)),
          .helperRead helper 0])

/-- The finding of a spread: its bindings are added, if there are any. -/
def storeSpread (s : Situation) (spread : Tree) : Finding :=
  let (bindings, events) := s.storeBindings spread
  { updates := if bindings.isEmpty then [] else [.append .stores bindings], events }

end Situation

end ClassComponent
