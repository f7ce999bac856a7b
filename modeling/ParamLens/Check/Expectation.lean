import ParamLens.Syntax.Literal

/-! Which types of values the parameter types accept. -/

namespace ParamLens.Check

/-- The types of values that a parameter type accepts; other parameter types are not checked. -/
def acceptedTypes? (typeName : String) : Option (List ValueType) :=
  [("Number", [ValueType.int, .float]), ("Integer", [.int]), ("String", [.str]),
   ("Boolean", [.bool]), ("List", [.list]), ("Tuple", [.tuple]), ("Dict", [.dict]),
   ("Array", [.list, .tuple]), ("Range", [.tuple]), ("Date", [.str]), ("CalendarDate", [.str]),
   ("Filename", [.str]), ("Foldername", [.str]), ("Path", [.str]), ("Color", [.str]),
   ("Selector", [.object]), ("ObjectSelector", [.object]), ("ListSelector", [.list])].lookup
    typeName

/-- The parameter types whose values are held to bounds. -/
def isBounded (typeName : String) : Bool := typeName == "Number" || typeName == "Integer"

/-- The names of types with `or` between them. -/
def typeNames (types : List ValueType) : String :=
  Text.join " or " (types.map ValueType.shortName)

/-- No accepted type accepts a value of the type. -/
def isRefused (accepted : List ValueType) (actual : ValueType) : Bool :=
  !accepted.any (·.accepts actual)

end ParamLens.Check
