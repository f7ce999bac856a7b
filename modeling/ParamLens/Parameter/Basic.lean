import ParamLens.Number.Basic
import ParamLens.Syntax.Literal
import ParamLens.Table

/-! Parameters and the classes that declare them. -/

namespace ParamLens

/-- An element of a parameter's bounds: an end of the range, a missing end, or whether an end
belongs to the range. -/
inductive Bound where
  | absent
  | flag (value : Bool)
  | number (value : Number)
deriving DecidableEq, Repr

/-- An object that a selector offers. -/
inductive Choice where
  | text (value : String)
  | number (value : Number)
deriving DecidableEq, Repr

/-- Where a parameter is declared: the line, counted from one, and the text of the declaration. -/
structure Location where
  line : Option Int
  source : Option String
deriving DecidableEq, Repr

/-- A declared parameter. -/
structure Parameter where
  name : String
  typeName : String
  bounds : Option (List Bound) := none
  doc : Option String := none
  allowsNone : Bool := false
  defaultText : Option String := none
  location : Option Location := none
  objects : Option (List Choice) := none
  itemType : Option ValueType := none
  length : Option Number := none
deriving DecidableEq, Repr

/-- A class with parameters. -/
structure ParamClass where
  name : String
  parameters : Table Parameter

namespace ParamClass

/-- The class without parameters. -/
def ofName (name : String) : ParamClass := ⟨name, ∅⟩

instance : Inhabited ParamClass := ⟨ofName ""⟩

/-- The class with a parameter, which replaces one of the same name. -/
def add (c : ParamClass) (parameter : Parameter) : ParamClass :=
  { c with parameters := c.parameters.insert parameter.name parameter }

/-- The class with those of the parameters whose names it does not have. -/
def merge (c : ParamClass) (parameters : Table Parameter) : ParamClass :=
  { c with parameters := c.parameters.fill parameters.entries }

/-- The parameter with a name. -/
def get? (c : ParamClass) (name : String) : Option Parameter := c.parameters.get? name

/-- The names of the parameters. -/
def parameterNames (c : ParamClass) : List String := c.parameters.names

end ParamClass

/-- Classes by their keys. A key is the name of the class, a colon and the row on which the class
begins, so that two classes of one name are apart. -/
abbrev Classes := Table ParamClass

namespace Classes

/-- The key of a class that begins on a row. -/
def key (name : String) (row : Nat) : String := name ++ ":" ++ toString row

/-- The key belongs to a class of the name. -/
def keyHasName (name key : String) : Bool := Text.startsWith key (name ++ ":")

/-- The key of the first class of the name. -/
def keyOf? (classes : Classes) (name : String) : Option String :=
  (classes.findName? (keyHasName name)).map Prod.fst

/-- The first class of the name. -/
def named? (classes : Classes) (name : String) : Option ParamClass :=
  (classes.findName? (keyHasName name)).map Prod.snd

end Classes

end ParamLens
