import ParamLens.Log.Calendar
import ParamLens.Log.Template

/-! Lines of a log: the level by its first letter, the time, the program that wrote the line, and
the message. -/

namespace ParamLens.Log

/-- An event to log. -/
structure Record where
  name : String
  levelName : String
  message : String
  values : List Value := []
  seconds : Int
  milliseconds : Int

/-- The names of the levels that have one. -/
def levelNames : List (Int × String) :=
  [(0, "NOTSET"), (10, "DEBUG"), (20, "INFO"), (30, "WARNING"), (40, "ERROR"), (50, "CRITICAL")]

/-- The name of a level. -/
def levelName (level : Int) : String :=
  (levelNames.lookup level).getD ("Level " ++ toString level)

/-- The escape character of terminals. -/
def escape : String := "\x1b"

/-- The colours of the levels. -/
def levelColours : List (String × String) :=
  [("DEBUG", "[36m"), ("INFO", "[32m"), ("WARNING", "[33m"), ("ERROR", "[31m"),
   ("CRITICAL", "[35m")]

/-- What ends a colour. -/
def plainColour : String := escape ++ "[0m"

/-- The colour of a level; an unknown level has none. -/
def colourOf (levelName : String) : String :=
  ((levelColours.lookup levelName).map (escape ++ ·)).getD plainColour

/-- A number with zeros after its sign up to a width. -/
def padded (width : Nat) (n : Int) : String :=
  let digits := digitsOf 10 (if n < 0 then width - 1 else width) n.natAbs
  if n < 0 then "-" ++ digits else digits

/-- The time of a record. -/
def Record.time (r : Record) : String :=
  let m := momentOf r.seconds
  padded 4 m.year ++ "-" ++ padded 2 m.month ++ "-" ++ padded 2 m.day ++ " " ++ padded 2 m.hour ++
    ":" ++ padded 2 m.minute ++ ":" ++ padded 2 m.second ++ "." ++ padded 3 r.milliseconds

/-- The program that a logger belongs to. -/
def programOf (name : String) : String :=
  let root := String.ofList (name.toList.takeWhile (· != '.'))
  if root == "param_lsp" then "param-lsp" else root

/-- The line of a record. -/
def Record.line (r : Record) (coloured : Bool) : Except Fault String :=
  match r.levelName.toList with
  | [] => .error .noLevelName
  | letter :: _ => do
    let message ← fill r.message r.values
    let label := "[" ++ String.singleton letter ++ " " ++ r.time ++ " " ++ programOf r.name ++ "]"
    return (if coloured then colourOf r.levelName ++ label ++ plainColour else label) ++ " " ++
      message

/-- A message after the part of the program that it comes from. -/
def inContext (context : Option String) (message : String) : String :=
  match context with
  | some context => context ++ " | " ++ message
  | none => message

end ParamLens.Log
