import ParamLens.Syntax.Node

/-! Searches in syntax trees: what can be searched for, the shape that a match has, and the parts of
a match that have a name in the search. -/

namespace ParamLens.Syntax

/-- What can be searched for. -/
inductive Query where
  | classes | imports | assignments | calls | decorators | attributes | parameterAssignments
  | attributeAssignments | keywordArguments | memberDecorators
deriving DecidableEq, Repr

namespace Query

/-- The search that goes by a name. -/
def ofName? : String → Option Query
  | "classes" => some classes
  | "imports" => some imports
  | "assignments" => some assignments
  | "calls" => some calls
  | "decorators" => some decorators
  | "attributes" => some attributes
  | "parameter_assignments" => some parameterAssignments
  | "attribute_assignments" => some attributeAssignments
  | "keyword_arguments" => some keywordArguments
  | "depends" => some memberDecorators
  | _ => none

/-- The function of the call that a decorator makes. -/
def calledBy? (decorator : Node) : Option Node :=
  (decorator.childOfKind? .call).bind (·.child? .function)

/-- What a node must have to be found at all: its kind, and the parts by which the search tells it
from others of its kind. -/
def asks (q : Query) (n : Node) : Bool :=
  match q with
  | .classes => n.kind == .classDefinition
  | .imports => n.kind == .importStatement || n.kind == .importFromStatement
  | .assignments => n.kind == .assignment && (n.child? .left).isSome && (n.child? .right).isSome
  | .calls => n.kind == .call
  | .decorators => n.kind == .decoratedDefinition
  | .attributes => n.kind == .attribute
  | .parameterAssignments =>
    n.kind == .assignment && n.hasChild .left .identifier && n.hasChild .right .call
  | .attributeAssignments =>
    n.kind == .assignment && (n.child? .right).isSome && n.hasChild .left .attribute
  | .keywordArguments => n.kind == .keywordArgument
  | .memberDecorators =>
    n.kind == .decorator && (calledBy? n).any fun function =>
      function.kind == .attribute && function.hasChild .object .identifier

/-- The node is a plain name, which is never empty in a text. -/
def isName (n : Node) : Bool := n.kind == .identifier && n.text != ""

/-- The node has all parts of the pattern of the search. -/
def shape (q : Query) (n : Node) : Bool :=
  q.asks n && match q with
  | .classes => (n.child? .name).any isName && n.hasChild .body .block
  | .imports | .assignments => true
  | .calls => (n.child? .function).isSome && n.hasChild .arguments .argumentList
  | .decorators => (n.child? .definition).isSome
  | .attributes => (n.child? .object).isSome && n.hasChild .attribute .identifier
  | .parameterAssignments => (n.child? .right).any fun call => (call.child? .function).isSome
  | .attributeAssignments => (n.child? .left).any fun target =>
    (target.child? .object).isSome && target.hasChild .attribute .identifier
  | .keywordArguments => n.hasChild .name .identifier && (n.child? .value).isSome
  | .memberDecorators =>
    (calledBy? n).any (·.hasChild .attribute .identifier) &&
      (n.childOfKind? .call).any (·.hasChild .arguments .argumentList)

theorem asks_of_shape {q : Query} {n : Node} (h : q.shape n = true) : q.asks n = true :=
  (Bool.and_eq_true_iff.mp h).1

end Query

end ParamLens.Syntax
