import ParamLens.Syntax.Node
import ParamLens.Text.Dotted

/-! Names in syntax trees: plain names, chains of attributes and dotted names. -/

namespace ParamLens.Syntax.Node

/-- The names of a plain name or a chain of attributes, from left to right. The chain stops at
what is neither. -/
def chain (n : Node) : List String :=
  match n.kind with
  | .identifier => [n.text]
  | .attribute =>
    let start := match _ : n.child? .object with
      | some object => object.chain
      | none => []
    start ++ (n.child? .attribute).toList.map Node.text
  | _ => []
termination_by sizeOf n
decreasing_by exact sizeOf_child?_lt ‹_›

/-- The dotted name that a node writes, rebuilt from its parts; the text of the node when it is no
name. A dotted name without parts writes none. -/
def dotted? (n : Node) : Option String :=
  match n.kind with
  | .identifier => some n.text
  | .dottedName =>
    match (n.children.filter (·.kind == .identifier)).map Node.text with
    | [] => none
    | parts => some (Dotted.ofComponents parts)
  | .attribute =>
    match _ : n.child? .object, n.child? .attribute with
    | some object, some last =>
      match object.dotted? with
      | some start =>
        if start = "" ∨ last.text = "" then some n.text
        else some (Dotted.append start last.text)
      | none => some n.text
    | _, _ => some n.text
  | _ => some n.text
termination_by sizeOf n
decreasing_by exact sizeOf_child?_lt ‹_›

end ParamLens.Syntax.Node
