import ParamLens.Syntax.Node
import ParamLens.Number.Reading
import ParamLens.Text.Basic

/-! Values of literals in syntax trees, and the types of values that literals have. -/

namespace ParamLens

/-- A type of values, known by its qualified name. -/
inductive ValueType where
  | int | float | str | bool | noneType | list | dict | tuple | object
  | other (qualified : String)
deriving DecidableEq, Repr, Inhabited

namespace ValueType

/-- The types with a constructor of their own, each with its qualified name. -/
def known : List (String × ValueType) :=
  [("builtins.int", .int), ("builtins.float", .float), ("builtins.str", .str),
   ("builtins.bool", .bool), ("builtins.NoneType", .noneType), ("builtins.list", .list),
   ("builtins.dict", .dict), ("builtins.tuple", .tuple), ("builtins.object", .object)]

/-- The type with a qualified name. -/
def ofQualified (name : String) : ValueType := (known.lookup name).getD (.other name)

/-- The qualified name of a type. -/
def qualified : ValueType → String
  | .int => "builtins.int"
  | .float => "builtins.float"
  | .str => "builtins.str"
  | .bool => "builtins.bool"
  | .noneType => "builtins.NoneType"
  | .list => "builtins.list"
  | .dict => "builtins.dict"
  | .tuple => "builtins.tuple"
  | .object => "builtins.object"
  | .other name => name

/-- The last component of a type's name. -/
def shortName (t : ValueType) : String := (Text.split '.' t.qualified).getLastD ""

/-- A value of type `actual` is accepted where `expected` is asked for: the same type, any type for
an object, and an integer for a floating-point number. -/
def accepts (expected actual : ValueType) : Bool :=
  actual == expected || expected == .object || (expected == .float && actual == .int)

end ValueType

namespace Syntax.Node

/-- The type of a literal. -/
def literalType? (n : Node) : Option ValueType :=
  match n.kind with
  | .integer => some .int
  | .float => some .float
  | .string => some .str
  | .trueLiteral => some .bool
  | .falseLiteral => some .bool
  | .noneLiteral => some .noneType
  | .list => some .list
  | .dictionary => some .dict
  | .tuple => some .tuple
  | .identifier =>
    if n.text = "True" ∨ n.text = "False" then some .bool
    else if n.text = "None" then some .noneType
    else none
  | _ => none

/-- The truth value of a literal. -/
def boolean? (n : Node) : Option Bool :=
  match n.kind with
  | .trueLiteral => some true
  | .falseLiteral => some false
  | .identifier =>
    if n.text = "True" then some true else if n.text = "False" then some false else none
  | _ => none

/-- The node is a truth value. -/
def isBoolean (n : Node) : Bool := n.boolean?.isSome

/-- The text is enclosed in the quotes. -/
def isEnclosed (s quotes : String) : Bool := Text.startsWith s quotes && Text.endsWith s quotes

/-- The text without `n` characters at each end. -/
def inner (s : String) (n : Nat) : String := Text.slice s n (Text.length s - n)

/-- What stands between the quotes of a string literal; a text without quotes is left as it is. -/
def unquote (s : String) : String :=
  if isEnclosed s "\"\"\"" || isEnclosed s "'''" then inner s 3
  else if isEnclosed s "\"" || isEnclosed s "'" then inner s 1
  else s

/-- The value of a string literal. -/
def string? (n : Node) : Option String :=
  if n.kind == .string then some (unquote n.text) else none

/-- The value of a number literal, with any number of minus signs before it. -/
def number? : Node → Option Number
  | ⟨.integer, _, text, _, _⟩ => (Number.readInt? text).map .int
  | ⟨.float, _, text, _, _⟩ => (Number.readFloat? text).map .float
  | ⟨.unaryOperator, _, _, _, operator :: operand :: _⟩ =>
    if operator.text = "-" then operand.number?.map Number.neg else none
  | _ => none

end Syntax.Node

end ParamLens
