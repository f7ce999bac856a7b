import ParamLens.Json.Basic
import ParamLens.Syntax.Outline

/-! Outlines of syntax trees written as JSON: a list of the kind, the start and the end of a node,
its children, and the role it has in its parent. The children and the role may be left out. -/

namespace ParamLens.Syntax

/-- A natural number. -/
def naturalOf? : Json → Option Nat
  | .number (.int value) => if 0 ≤ value then some value.toNat else none
  | _ => none

mutual

/-- The outline that a value writes. -/
def Outline.ofJson? : Json → Option Outline
  | .list [.text kind, start, stop] => do
    return ⟨kind, ← naturalOf? start, ← naturalOf? stop, none, []⟩
  | .list [.text kind, start, stop, .list children] => do
    return ⟨kind, ← naturalOf? start, ← naturalOf? stop, none, ← Outline.ofJsons? children⟩
  | .list [.text kind, start, stop, .list children, role] => do
    return ⟨kind, ← naturalOf? start, ← naturalOf? stop, role.text?, ← Outline.ofJsons? children⟩
  | _ => none

/-- The outlines that values write. -/
def Outline.ofJsons? : List Json → Option (List Outline)
  | [] => some []
  | value :: rest => do
    return (← Outline.ofJson? value) :: (← Outline.ofJsons? rest)

end

end ParamLens.Syntax
