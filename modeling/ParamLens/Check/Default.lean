import ParamLens.Check.Expectation
import ParamLens.Check.Known
import ParamLens.Check.Range
import ParamLens.Parameter.Declaration

/-! Checking declarations of parameters: their defaults, their bounds and their types. -/

namespace ParamLens.Check

open Syntax

/-- The call that declares a parameter: the right side of an assignment, or the first call below
another node. -/
def declaringCall? (n : Node) : Option Node :=
  if n.kind == .assignment then n.directCall? else n.childOfKind? .call

/-- The declaring call of a node and the type of parameter that it makes. -/
def declared? (imports : Imports) (n : Node) : Option (Node × String) := do
  let call ← declaringCall? n
  some (call, ← Declaration.typeName? imports call)

/-- The default is none, and the parameter may be none. -/
def isAllowedDefault (call : Node) (type : String) : Bool :=
  (acceptedTypes? type).isSome && Declaration.allowsNone call &&
    match Declaration.default? call with
    | some value => value.literalType? == some .noneType
    | none => false

/-- The diagnostics for the type of a default. -/
def defaultTypeDiagnostics (n : Node) (name : String) (call : Node) (type : String) :
    List Diagnostic :=
  match Declaration.default? call, acceptedTypes? type with
  | some value, some accepted =>
    match value.literalType? with
    | none => []
    | some actual =>
      let found := actual.shortName
      if type = "Boolean" ∧ actual ≠ .bool then
        [.atNode n .booleanTypeMismatch
          s!"Parameter '{name}' of type Boolean expects bool but got {found}"]
      else if isRefused accepted actual then
        let wanted := typeNames accepted
        [.atNode n .typeMismatch
          s!"Parameter '{name}' of type {type} expects {wanted} but got {found}"]
      else []
  | _, _ => []

/-- The diagnostics for types that should no longer be used. -/
def deprecationDiagnostics (n : Node) (type : String) : List Diagnostic :=
  if type = "ObjectSelector" then
    [.atNode n .deprecatedType
      "ObjectSelector is deprecated, use Selector instead (since param 2.0+)"]
  else []

/-- The children of a tuple that count as ends of declared bounds. -/
def isDeclaredEnd (n : Node) : Bool :=
  n.kind == .integer || n.kind == .float || n.kind == .unaryOperator || n.kind == .identifier

/-- The two ends of bounds that are declared as a tuple of numbers. -/
def declaredEnds? (n : Node) : Option (Number × Number) :=
  if n.kind == .tuple then
    match n.children.filter isDeclaredEnd with
    | low :: high :: _ => do
      let least ← low.number?
      let greatest ← high.number?
      some (least, greatest)
    | _ => none
  else none

/-- Whether the declared ends belong to the range. -/
def declaredFlags (call : Node) : Bool × Bool :=
  (((call.keywordValue? "inclusive_bounds").filter (·.kind == .tuple)).bind
    Declaration.flags?).getD (true, true)

/-- The diagnostics for declared bounds, and for a default outside of them. -/
def boundsDiagnostics (n : Node) (name : String) (call : Node) : List Diagnostic :=
  match (call.keywordValue? "bounds").bind declaredEnds? with
  | none => []
  | some (least, greatest) =>
    let low := least.text
    let high := greatest.text
    let (lowClosed, highClosed) := declaredFlags call
    let range : Range := ⟨.number least, .number greatest, .flag lowClosed, .flag highClosed⟩
    let order := if greatest.le least then
        [Diagnostic.atNode n .invalidBounds
          s!"Parameter '{name}' has invalid bounds: min ({low}) >= max ({high})"]
      else []
    let excess := match (Declaration.default? call).bind Node.number? with
      | none => []
      | some x =>
        if range.excludes x then
          let number := x.text
          let allowed := range.description
          [Diagnostic.atNode n .defaultOutsideBounds
            s!"Default value {number} for parameter '{name}' is outside bounds {allowed}"]
        else []
    order ++ excess

/-- The literal holds nothing but its brackets and commas. -/
def isEmptyLiteral (n : Node) : Bool :=
  (n.kind == .list || n.kind == .tuple) &&
    let texts := (n.children.map Node.text).filter (· != ",")
    texts == ["[", "]"] || texts == ["(", ")"]

/-- The diagnostics for an empty default of a container whose length is bounded. -/
def emptinessDiagnostics (n : Node) (name : String) (call : Node) : List Diagnostic :=
  if (Declaration.default? call).any isEmptyLiteral && call.keywords.contains "bounds" then
    [.atNode n .emptyDefaultWithBounds
      s!"Parameter '{name}' has empty default but bounds specified"]
  else []

/-- The diagnostics for what a declaration says about the values of its parameter. -/
def constraintDiagnostics (imports : Imports) (n : Node) (name : String) : List Diagnostic :=
  match declared? imports n with
  | none => []
  | some (call, type) =>
    if isBounded type then boundsDiagnostics n name call
    else if type = "List" ∨ type = "Tuple" then emptinessDiagnostics n name call
    else []

/-- The diagnostics for a declaration. -/
def declarationDiagnostics (imports : Imports) (n : Node) (name : String) : List Diagnostic :=
  match declared? imports n with
  | none => []
  | some (call, type) =>
    if isAllowedDefault call type then []
    else
      defaultTypeDiagnostics n name call type ++ deprecationDiagnostics n type ++
        constraintDiagnostics imports n name

/-- The diagnostics for the declarations of a class. -/
def classDiagnostics (k : Known) (n : Node) : List Diagnostic :=
  if (k.keyOf? n).isSome then
    (n.classAssignments k.isDeclaration).flatMap fun (assignment, name) =>
      declarationDiagnostics k.imports assignment name
  else []

end ParamLens.Check
