import ParamLens.Number.Basic

/-! Values of the JSON format, which programs print to report what they know. -/

namespace ParamLens

/-- A value of the JSON format. The members of an object have distinct names. -/
inductive Json where
  | null
  | flag (value : Bool)
  | number (value : Number)
  | text (value : String)
  | list (items : List Json)
  | object (members : List (String × Json))
deriving Inhabited

namespace Json

/-- The value of a member of an object. -/
def member? (name : String) : Json → Option Json
  | .object members => members.lookup name
  | _ => none

/-- The text, if the value is one. -/
def text? : Json → Option String
  | .text value => some value
  | _ => none

/-- What kind of value this is, in the words of messages. -/
def kindName : Json → String
  | .null => "NoneType"
  | .flag _ => "bool"
  | .number (.int _) => "int"
  | .number (.float _) => "float"
  | .text _ => "str"
  | .list _ => "list"
  | .object _ => "dict"

end Json

end ParamLens
