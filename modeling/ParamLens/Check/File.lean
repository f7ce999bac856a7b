import ParamLens.Check.Default
import ParamLens.Check.Depends
import ParamLens.Check.Value

/-! All checks of a file. -/

namespace ParamLens.Check

open Syntax

variable {σ : Type}

/-- The diagnostics of a file: of its declarations, its assignments to attributes, its calls and its
decorators. -/
def checkFile (k : Known) (ask : AskClass σ) (root : Node) : StateM σ (List Diagnostic) := do
  let declarations := (k.finder.classes root).flatMap (classDiagnostics k)
  let assignments ← (k.finder.found .attributeAssignments root).mapM (checkAssignment k ask)
  let calls ← (k.finder.nodes .calls root).mapM (checkCall k ask)
  let decorators := (k.finder.found .memberDecorators root).flatMap (decoratorDiagnostics k)
  return declarations ++ assignments.flatten ++ calls.flatten ++ decorators

end ParamLens.Check
