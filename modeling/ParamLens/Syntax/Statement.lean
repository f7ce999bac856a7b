import ParamLens.Syntax.Node

/-! Classes and assignments in syntax trees: the name, the bases and the bodies of a class, and the
target and the value of an assignment. -/

namespace ParamLens.Syntax.Node

/-- The kinds of expressions that can name a base class. -/
def isBaseReference (n : Node) : Bool :=
  n.kind == .identifier || n.kind == .attribute || n.kind == .call

/-- The first plain name after the keyword among the children of a class. -/
def nameAfterKeyword (seen : Bool) : List Node → Option String
  | [] => none
  | child :: rest =>
    if child.kind == .classKeyword || (child.kind == .identifier && child.text == "class") then
      nameAfterKeyword true rest
    else if seen && child.kind == .identifier then some child.text
    else nameAfterKeyword seen rest

/-- The text in the place of a class's name. -/
def nameText? (n : Node) : Option String :=
  match n.child? .name with
  | some name => some name.text
  | none => nameAfterKeyword false n.children

/-- The name of a class; an empty text is none. -/
def className? (n : Node) : Option String := n.nameText?.filter (· != "")

/-- The bases among children that follow an opening parenthesis written as an operator. -/
def basesInParens (inside : Bool) : List Node → List Node
  | [] => []
  | child :: rest =>
    if child.kind == .operator && child.text == "(" then basesInParens true rest
    else if child.kind == .operator && child.text == ")" then basesInParens false rest
    else if inside then
      if child.isBaseReference then child :: basesInParens inside rest
      else if child.kind == .argumentList then
        child.children.filter isBaseReference ++ basesInParens inside rest
      else basesInParens inside rest
    else basesInParens inside rest

/-- The base expressions of a class, in their order. -/
def bases (n : Node) : List Node :=
  match n.child? .superclasses with
  | some list => list.children.filter isBaseReference
  | none => basesInParens false n.children

/-- The bodies among the children of a class without a body of its own: the first block and every
part in error. -/
def bodiesAmong (found : Bool) : List Node → List Node
  | [] => []
  | child :: rest =>
    if (child.kind == .block || child.kind == .suite) && !found then child :: bodiesAmong true rest
    else if child.kind == .error then child :: bodiesAmong found rest
    else bodiesAmong found rest

/-- The nodes whose statements belong to a class: its body and every part in error. -/
def bodies (n : Node) : List Node :=
  match n.child? .body with
  | some body => body :: bodiesAmong true n.children
  | none => bodiesAmong false n.children

/-- A node that assigns: an assignment, a statement that holds one, or a node with an equals sign
among its children. -/
def isAssignment (n : Node) : Bool :=
  n.kind == .assignment ||
    (n.kind == .expressionStatement && n.children.any (·.kind == .assignment)) ||
    n.children.any (·.text == "=")

/-- The first plain name before an equals sign. -/
def nameBeforeEquals : List Node → Option String
  | [] => none
  | child :: rest =>
    if child.kind == .identifier then some child.text
    else if child.text == "=" then none
    else nameBeforeEquals rest

/-- The name that an assignment binds. -/
def target? (n : Node) : Option String :=
  match (if n.kind == .assignment then n.child? .left else none) with
  | some left => if left.kind == .identifier then some left.text else nameBeforeEquals n.children
  | none => nameBeforeEquals n.children

/-- The first call after an equals sign. -/
def callAfterEquals (seen : Bool) : List Node → Option Node
  | [] => none
  | child :: rest =>
    if child.text == "=" then callAfterEquals true rest
    else if seen && child.kind == .call then some child
    else callAfterEquals seen rest

/-- The call on the right side of an assignment, where an assignment has one. -/
def directCall? (n : Node) : Option Node :=
  if n.kind == .assignment then (n.child? .right).filter (·.kind == .call) else none

/-- The call that an assignment assigns. -/
def assignedCall? (n : Node) : Option Node :=
  n.directCall?.or (callAfterEquals false n.children)

/-- The assignments among the statements of a class body. -/
def statementAssignments (body : Node) : List Node :=
  body.children.flatMap fun item =>
    if item.kind == .assignment then [item]
    else if item.kind == .expressionStatement then
      item.children.filter (·.kind == .assignment)
    else []

/-- The assignments of a body that pass the test, each with the name it binds. -/
def assignmentsIn (test : Node → Bool) (body : Node) : List (Node × String) :=
  body.statementAssignments.filterMap fun item =>
    match item.target? with
    | some name => if name != "" && test item then some (item, name) else none
    | none => none

/-- The assignments of a class that pass the test, each with the name it binds. -/
def classAssignments (test : Node → Bool) (n : Node) : List (Node × String) :=
  n.bodies.flatMap (assignmentsIn test)

end ParamLens.Syntax.Node
