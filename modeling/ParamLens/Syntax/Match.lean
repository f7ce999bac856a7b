import ParamLens.Syntax.Finder

/-! The matches of searches: each node that was found with the parts of it that have a name in the
search. -/

namespace ParamLens.Syntax

/-- A node that was found, with its named parts. -/
structure Match where
  node : Node
  parts : List (String × Option Node)

namespace Query

/-- The match of a node with the parts that have a role in it; the node itself is the first part. -/
def withRoles (label : String) (roles : List (String × Role)) (n : Node) : Match :=
  ⟨n, (label, some n) :: roles.map fun (name, role) => (name, n.child? role)⟩

/-- The decorators of a decorated definition. -/
def decoratorMatches (n : Node) : List Match :=
  (n.children.filter (·.kind == .decorator)).map fun decorator =>
    ⟨decorator, [("decorator", some decorator), ("definition", n.child? .definition)]⟩

/-- What stands above makes the node a statement in the body of a class. -/
def isInClassBody : List Node → Bool
  | statement :: body :: owner :: _ =>
    statement.kind == .expressionStatement && body.role == some .body &&
      owner.kind == .classDefinition
  | _ => false

/-- An assignment of a call to a plain name. -/
def parameterMatch (n : Node) : Match :=
  ⟨n, [("param_assignment", some n), ("param_name", n.child? .left),
    ("param_type", (n.child? .right).bind (·.child? .function))]⟩

/-- An assignment to an attribute. -/
def attributeMatch (n : Node) : Match :=
  let target := n.child? .left
  ⟨n, [("attr_assignment", some n), ("attr", target), ("object", target.bind (·.child? .object)),
    ("attr_name", target.bind (·.child? .attribute)), ("value", n.child? .right)]⟩

/-- A decorator that calls a member of a name. -/
def memberDecoratorMatch (n : Node) : Match :=
  let call := n.childOfKind? .call
  ⟨n, [("decorator", some n), ("depends_call", call),
    ("module", (calledBy? n).bind (·.child? .object)),
    ("depends_name", (calledBy? n).bind (·.child? .attribute)),
    ("depends_args", call.bind (·.child? .arguments))]⟩

/-- The matches that a node gives when it is found. -/
def matchesAt (q : Query) (place : Node.Located) : List Match :=
  let n := place.node
  match q with
  | .classes => [withRoles "class" [("class_name", .name), ("class_body", .body)] n]
  | .imports =>
    [withRoles (if n.kind == .importStatement then "import" else "import_from") [] n]
  | .assignments => [withRoles "assignment" [("target", .left), ("value", .right)] n]
  | .calls => [withRoles "call" [("function", .function), ("arguments", .arguments)] n]
  | .decorators => decoratorMatches n
  | .attributes => [withRoles "attr_access" [("object", .object), ("attribute", .attribute)] n]
  | .parameterAssignments => if isInClassBody place.ancestors then [parameterMatch n] else []
  | .attributeAssignments => [attributeMatch n]
  | .keywordArguments => [withRoles "keyword_arg" [("arg_name", .name), ("arg_value", .value)] n]
  | .memberDecorators => [memberDecoratorMatch n]

end Query

/-- The matches of a search in a tree. -/
def Finder.matches (f : Finder) (q : Query) (root : Node) : List Match :=
  (f.found q root).flatMap q.matchesAt

end ParamLens.Syntax
