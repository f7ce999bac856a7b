import ParamLens.Parameter.Basic
import ParamLens.Parameter.Recognition
import ParamLens.Parameter.Source
import ParamLens.Syntax.Call

/-! Reading a parameter off the assignment that declares it. -/

namespace ParamLens.Declaration

open Syntax

/-- The children of a tuple or list that can be an end of a range. -/
def isRangeEnd (n : Node) : Bool :=
  match n.kind with
  | .integer | .float | .identifier | .unaryOperator | .trueLiteral | .falseLiteral
  | .noneLiteral => true
  | _ => false

/-- The children of a tuple or list that can be a truth value. -/
def isFlag (n : Node) : Bool :=
  match n.kind with
  | .identifier | .trueLiteral | .falseLiteral => true
  | _ => false

/-- A tuple or a list. -/
def isSequence (n : Node) : Bool := n.kind == .tuple || n.kind == .list

/-- The bound that a number gives; no number gives none. -/
def bound : Option Number → Bound
  | some value => .number value
  | none => .absent

/-- The two ends of a range; at least one of them is a number. -/
def rangeEnds? (n : Node) : Option (Option Number × Option Number) :=
  if isSequence n then
    match n.children.filter isRangeEnd with
    | low :: high :: _ =>
      match low.number?, high.number? with
      | none, none => none
      | least, greatest => some (least, greatest)
    | _ => none
  else none

/-- Two truth values. -/
def flags? (n : Node) : Option (Bool × Bool) :=
  if isSequence n then
    match n.children.filter isFlag with
    | first :: second :: _ => do
      let left ← first.boolean?
      let right ← second.boolean?
      some (left, right)
    | _ => none
  else none

/-- The bounds that a call gives: the ends of the range, and whether each belongs to it. -/
def bounds? (call : Node) : Option (List Bound) := do
  let (low, high) ← (call.keywordValue? "bounds").bind rangeEnds?
  let (left, right) := ((call.keywordValue? "inclusive_bounds").bind flags?).getD (true, true)
  some [bound low, bound high, .flag left, .flag right]

/-- The documentation that a call gives. -/
def doc? (call : Node) : Option String := (call.keywordValue? "doc").bind Node.string?

/-- What a call says about whether the parameter may be none. -/
def allowsNone? (call : Node) : Option Bool :=
  (call.keywordValue? "allow_None").bind Node.boolean?

/-- The default that a call gives. -/
def default? (call : Node) : Option Node := call.keywordValue? "default"

/-- A default as it is shown. -/
def defaultText (n : Node) : String := Text.trim n.text

/-- The literal for no value. -/
def isNone (n : Node) : Bool := n.kind == .noneLiteral

/-- A member of a list of objects. -/
def choice? (n : Node) : Option Choice :=
  match n.kind with
  | .string => n.string?.map .text
  | .integer | .float => n.number?.map .number
  | _ => none

/-- The objects that a call offers. -/
def objects? (call : Node) : Option (List Choice) := do
  let list ← call.keywordValue? "objects"
  if list.kind == .list then
    match list.children.filterMap choice? with
    | [] => none
    | found => some found
  else none

/-- The type that a name denotes as the type of items. -/
def namedType? (n : Node) : Option ValueType :=
  if n.kind == .identifier then
    [("str", ValueType.str), ("int", .int), ("float", .float), ("bool", .bool), ("list", .list),
      ("dict", .dict), ("tuple", .tuple)].lookup n.text
  else none

/-- The type of the items that a call asks for. -/
def itemType? (call : Node) : Option ValueType := (call.keywordValue? "item_type").bind namedType?

/-- The length that a call asks for. -/
def length? (call : Node) : Option Number := do
  let value ← (← call.keywordValue? "length").number?
  value.toInt?.map .int

/-- The qualifier and the name of the called function. -/
def calledParts? (function : Node) : Option (Option String × String) :=
  match function.kind with
  | .identifier => some (none, function.text)
  | .attribute =>
    match function.child? .object, function.child? .attribute with
    | some object, some last =>
      if object.kind == .identifier then some (some object.text, last.text) else none
    | _, _ => none
  | _ => none

/-- The qualifier is the `param` module, by its own name or by an alias. -/
def isParamModule (imports : Imports) (module : String) : Bool :=
  module == "param" || (module != "" && imports.get? module == some "param")

/-- The type of parameter that a call makes. -/
def typeName? (imports : Imports) (call : Node) : Option String := do
  if call.kind != .call then none
  else
    let (module, name) ← (call.child? .function).bind calledParts?
    if name = "" then none
    else if module.any (isParamModule imports) then some name
    else match (imports.get? name).filter (Text.startsWith · "param.") with
      | some full => some (Dotted.last full)
      | none => if module.isNone then some name else none

/-- Where a declaration stands in the text of its file. -/
def location? (content : String) (n : Node) : Option Location :=
  let ls := Text.lines content
  if content ≠ "" ∧ n.row < ls.length then
    some ⟨some (n.row + 1), some (Source.indentedDefinition ls n.row)⟩
  else none

/-- The parameter may be none: its default is none, or the declaration says so. -/
def allowsNone (call : Node) : Bool :=
  if (default? call).any isNone then true else (allowsNone? call).getD false

/-- The parameter that an assignment declares under a name. -/
def parameter (imports : Imports) (content : String) (n : Node) (name : String) : Parameter :=
  match n.assignedCall? with
  | none => { name, typeName := "Unknown", location := location? content n }
  | some call =>
    let type := (typeName? imports call).getD ""
    { name
      typeName := if type = "" then "Unknown" else type
      bounds := bounds? call
      doc := doc? call
      allowsNone := allowsNone call
      defaultText := (default? call).map defaultText
      location := location? content n
      objects := objects? call
      itemType := if type = "List" then itemType? call else none
      length := if type = "Tuple" then length? call else none }

/-- The parameters that a class declares, in their order. -/
def parameters (r : Recognition) (content : String) (n : Node) : List Parameter :=
  (n.classAssignments r.isParameterAssignment).map fun (assignment, name) =>
    parameter r.imports content assignment name

end ParamLens.Declaration
