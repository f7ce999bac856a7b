import ParamLens.Check.Expectation
import ParamLens.Check.Known
import ParamLens.Check.Range
import ParamLens.Syntax.Call

/-! Checking values that are given to parameters, in calls of constructors and in assignments to
attributes. -/

namespace ParamLens.Check

open Syntax

/-- The type of a value that a parameter does not accept, with the types that it accepts. None is
accepted where the parameter allows it. -/
def refusal? (p : Parameter) (value : Node) : Option (ValueType × List ValueType) := do
  let accepted ← acceptedTypes? p.typeName
  let actual ← value.literalType?
  if actual = .noneType ∧ p.allowsNone then none
  else if isRefused accepted actual then some (actual, accepted)
  else none

/-- The number that lies outside the bounds of a parameter, with the range of the bounds. -/
def excess? (p : Parameter) (value : Node) : Option (Number × Range) := do
  if !isBounded p.typeName then none
  else
    let range ← p.bounds.bind Range.ofBounds?
    let x ← value.number?
    if range.excludes x then some (x, range) else none

/-- The value is none, and the parameter allows it. -/
def isAllowedNone (p : Parameter) (value : Node) : Bool :=
  value.literalType? == some .noneType && p.allowsNone

/-- The items of a list literal. -/
def listItems? (n : Node) : Option (List Node) :=
  if n.kind == .list then
    match n.children.filter fun child =>
      !(child.kind == .openBracket || child.kind == .closeBracket || child.kind == .comma) with
    | [] => none
    | items => some items
  else none

/-- The items of a tuple literal. -/
def tupleItems? (n : Node) : Option (List Node) :=
  if n.kind == .tuple then
    match n.children.filter fun child =>
      !(child.kind == .openParen || child.kind == .closeParen || child.kind == .comma) with
    | [] => none
    | items => some items
  else none

/-- The diagnostic for the item of a list that does not have the type of the items. -/
def itemDiagnostic? (name : String) (expected : ValueType) (index : Nat) (item : Node) :
    Option Diagnostic := do
  let actual ← item.literalType?
  if expected.accepts actual then none
  else
    let found := actual.shortName
    let wanted := expected.shortName
    some (.atNode item .itemTypeMismatch
      s!"Item {index} in List parameter '{name}' has type {found}, expected {wanted}")

/-- The diagnostics for the items of a list that is given to a parameter. -/
def itemDiagnostics (p : Parameter) (name : String) (value : Node) : List Diagnostic :=
  match p.itemType, listItems? value with
  | some expected, some items =>
    if expected.qualified = "" then []
    else items.zipIdx.filterMap fun (item, index) => itemDiagnostic? name expected index item
  | _, _ => []

/-- The diagnostic for a tuple of another length than the parameter asks for. -/
def lengthDiagnostics (p : Parameter) (name : String) (site value : Node) : List Diagnostic :=
  match p.length, tupleItems? value with
  | some expected, some items =>
    if (Number.int items.length).same expected then []
    else
      let count := items.length
      let wanted := expected.text
      [.atNode site .lengthMismatch
        s!"Tuple parameter '{name}' has {count} elements, expected {wanted}"]
  | _, _ => []

/-- The diagnostics for the members of a container that is given to a parameter. -/
def containerDiagnostics (p : Parameter) (name : String) (site value : Node) : List Diagnostic :=
  if p.typeName = "List" then itemDiagnostics p name value
  else if p.typeName = "Tuple" then lengthDiagnostics p name site value
  else []

/-- The diagnostics for a keyword argument of a constructor. -/
def argumentDiagnostics (k : Known) (className name : String) (argument : Argument) :
    List Diagnostic :=
  match (k.parameter? className name).filter (·.typeName != "") with
  | none => []
  | some p =>
    if isAllowedNone p argument.value then []
    else
      let type := p.typeName
      let shown := shownName className
      let mismatch := match refusal? p argument.value with
        | none => []
        | some (actual, accepted) =>
          let found := actual.shortName
          let wanted := typeNames accepted
          [Diagnostic.atNode argument.site .constructorTypeMismatch
            (s!"Cannot assign {found} to parameter '{name}' of type {type} " ++
              s!"in {shown}() constructor (expects {wanted})")]
      let excess := match excess? p argument.value with
        | none => []
        | some (x, range) =>
          let number := x.text
          let allowed := range.description
          [Diagnostic.atNode argument.site .constructorOutsideBounds
            (s!"Value {number} for parameter '{name}' in {shown}() constructor " ++
              s!"is outside bounds {allowed}")]
      mismatch ++ excess ++ containerDiagnostics p name argument.site argument.value

/-- The diagnostics for a call that makes an instance of the class. -/
def constructorDiagnostics (k : Known) (className : String) (call : Node) : List Diagnostic :=
  if className != "" && k.isClass className then
    call.keywords.entries.flatMap fun (name, argument) =>
      argumentDiagnostics k className name argument
  else []

/-- The diagnostics for an assignment to the parameter of an instance of the class. -/
def assignmentDiagnostics (k : Known) (className name : String) (n value : Node) :
    List Diagnostic :=
  if className != "" && k.isClass className then
    match (k.parameter? className name).filter (·.typeName != "") with
    | none => []
    | some p =>
      let type := p.typeName
      let mismatch := match refusal? p value with
        | none => []
        | some (actual, accepted) =>
          let found := actual.shortName
          let wanted := typeNames accepted
          [Diagnostic.atNode n .assignedTypeMismatch
            (s!"Cannot assign {found} to parameter '{name}' of type {type} " ++
              s!"(expects {wanted})")]
      let excess := match excess? p value with
        | none => []
        | some (x, range) =>
          let number := x.text
          let allowed := range.description
          [Diagnostic.atNode n .assignedOutsideBounds
            s!"Value {number} for parameter '{name}' is outside bounds {allowed}"]
      mismatch ++ excess
  else []

/-- The nearest function or module around a node. -/
def scope? (ancestors : List Node) : Option Node :=
  ancestors.find? fun n => n.kind == .functionDefinition || n.kind == .module

/-- The class with the parameter in the scope of a node, the first that is found. -/
def classInScope? (k : Known) (ancestors : List Node) (name : String) : Option String :=
  (scope? ancestors).bind fun scope => (k.finder.classes scope).findSome? fun n =>
    (k.keyOf? n).filter fun key => (k.classes.get? key).any fun c => c.parameters.contains name

/-- The first class of a library with the parameter. -/
def externalWith? (k : Known) (name : String) : Option String :=
  (k.external.entries.find? fun entry =>
    entry.2.any fun c => c.parameters.contains name).map Prod.fst

variable {σ : Type}

/-- The class of the object to whose attribute is assigned: the class of a call, or for a plain name
a class in scope or of a library that has the parameter. -/
def assignedClass? (k : Known) (ask : AskClass σ) (ancestors : List Node) (target : Node)
    (name : String) : StateM σ (Option String) :=
  match target.child? .object with
  | none => pure none
  | some object =>
    match object.kind with
    | .call => instanceClass? k ask object
    | .identifier => pure ((classInScope? k ancestors name).or (externalWith? k name))
    | _ => pure none

/-- The diagnostics for an assignment to an attribute. -/
def checkAssignment (k : Known) (ask : AskClass σ) (place : Node.Located) :
    StateM σ (List Diagnostic) := do
  let n := place.node
  match n.child? .left, n.child? .right with
  | some target, some value =>
    match ((target.child? .attribute).map Node.text).filter (· != "") with
    | none => return []
    | some name =>
      match ← assignedClass? k ask place.ancestors target name with
      | none => return []
      | some className => return assignmentDiagnostics k className name n value
  | _, _ => return []

/-- The diagnostics for a call. -/
def checkCall (k : Known) (ask : AskClass σ) (call : Node) : StateM σ (List Diagnostic) := do
  match ← instanceClass? k ask call with
  | none => return []
  | some className => return constructorDiagnostics k className call

end ParamLens.Check
