import ParamLens.Syntax.Node

/-! Diagnostics: what is wrong at a place of a file. -/

namespace ParamLens

open Syntax

/-- How bad it is. -/
inductive Severity where
  | error
  | warning
deriving DecidableEq, Repr, Inhabited

/-- The name of a severity. -/
def Severity.name : Severity → String
  | .error => "error"
  | .warning => "warning"

/-- The rule that is broken. -/
inductive Rule where
  | typeMismatch
  | booleanTypeMismatch
  | invalidBounds
  | defaultOutsideBounds
  | emptyDefaultWithBounds
  | deprecatedType
  | assignedTypeMismatch
  | assignedOutsideBounds
  | constructorTypeMismatch
  | constructorOutsideBounds
  | itemTypeMismatch
  | lengthMismatch
  | unknownDependency
deriving DecidableEq, Repr, Inhabited

/-- The code under which a rule is reported. -/
def Rule.code : Rule → String
  | .typeMismatch => "type-mismatch"
  | .booleanTypeMismatch => "boolean-type-mismatch"
  | .invalidBounds => "invalid-bounds"
  | .defaultOutsideBounds => "default-bounds-violation"
  | .emptyDefaultWithBounds => "empty-default-with-bounds"
  | .deprecatedType => "deprecated-parameter"
  | .assignedTypeMismatch => "runtime-type-mismatch"
  | .assignedOutsideBounds => "bounds-violation"
  | .constructorTypeMismatch => "constructor-type-mismatch"
  | .constructorOutsideBounds => "constructor-bounds-violation"
  | .itemTypeMismatch => "list-item-type-mismatch"
  | .lengthMismatch => "tuple-length-mismatch"
  | .unknownDependency => "invalid-depends-parameter"

/-- How bad it is to break a rule. -/
def Rule.severity : Rule → Severity
  | .emptyDefaultWithBounds => .warning
  | .deprecatedType => .warning
  | _ => .error

/-- A broken rule and where it is broken. -/
structure Diagnostic where
  start : Point
  stop : Point
  rule : Rule
  message : String
deriving DecidableEq, Repr, Inhabited

/-- A diagnostic at a node. -/
def Diagnostic.atNode (n : Node) (rule : Rule) (message : String) : Diagnostic :=
  ⟨n.span.start, n.span.stop, rule, message⟩

end ParamLens
