import ParamLens.Syntax.Node
import ParamLens.Table

/-! Calls in syntax trees and their keyword arguments. -/

namespace ParamLens.Syntax

/-- A keyword argument: its value, and the node that stands for the whole argument. -/
structure Argument where
  value : Node
  site : Node
deriving Inhabited

namespace Node

/-- The argument lists of a call. -/
def argumentLists (call : Node) : List Node :=
  match (if call.kind == .call then call.child? .arguments else none) with
  | some list => [list]
  | none => call.children.filter (·.kind == .argumentList)

/-- The arguments of an argument list: everything but its punctuation. -/
def arguments (list : Node) : List Node :=
  list.children.filter fun child =>
    !(child.kind == .openParen || child.kind == .closeParen || child.kind == .comma)

/-- The keyword and the argument that an argument node writes, if it writes one. -/
def keyword? (argument : Node) : Option (String × Argument) :=
  if argument.kind == .keywordArgument then
    match argument.child? .name, argument.child? .value with
    | some name, some value =>
      if name.text != "" then some (name.text, ⟨value, argument⟩) else none
    | _, _ => none
  else
    match argument.children with
    | name :: equals :: value :: _ =>
      if name.kind == .identifier && equals.text == "=" && name.text != "" then
        some (name.text, ⟨value, value⟩)
      else none
    | _ => none

/-- The keyword arguments of a call; of two with the same keyword the later one counts. -/
def keywords (call : Node) : Table Argument :=
  Table.ofList ((call.argumentLists.flatMap arguments).filterMap keyword?)

/-- The value of a keyword argument of a call. -/
def keywordValue? (call : Node) (name : String) : Option Node :=
  (call.keywords.get? name).map (·.value)

end Node

end ParamLens.Syntax
