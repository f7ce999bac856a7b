import ParamLens.Text.Basic

/-! Dotted names such as `panel.widgets.Select`: their components, their last component and the
path before it. -/

namespace ParamLens.Dotted

/-- The components of a dotted name, the empty ones included. -/
def components (name : String) : List String := Text.split '.' name

/-- The dotted name with the given components. -/
def ofComponents (parts : List String) : String := Text.join "." parts

/-- The name holds a dot. -/
def isDotted (name : String) : Bool := name.toList.contains '.'

/-- The first component. -/
def first (name : String) : String := (components name).headD ""

/-- The last component. -/
def last (name : String) : String := (components name).getLastD ""

/-- The components before the last one, as a dotted name. -/
def parent (name : String) : String := ofComponents (components name).dropLast

/-- The name without the dots at its start. -/
def withoutLeadingDots (name : String) : String := String.ofList (name.toList.dropWhile (· == '.'))

/-- The number of dots at the start of the name. -/
def leadingDots (name : String) : Nat := (name.toList.takeWhile (· == '.')).length

/-- The name with a further component. -/
def append (name part : String) : String := name ++ "." ++ part

end ParamLens.Dotted
