import ParamLens.Editor.Description

/-! Completions as they are offered to the user. -/

namespace ParamLens.Editor

/-- A place in a document: a line and a position in it, both counted from zero. -/
structure Cursor where
  line : Nat
  character : Nat
deriving DecidableEq, Repr

/-- What a completion stands for. -/
inductive ItemKind where
  | method
  | parameterType
  | property
deriving DecidableEq, Repr

/-- A replacement of the part of a line between two positions. -/
structure Replacement where
  line : Nat
  start : Nat
  stop : Nat
  text : String
deriving DecidableEq, Repr

/-- An offered completion. -/
structure Item where
  label : String
  kind : ItemKind
  detail : String
  documentation : String
  insertText : Option String := none
  /-- The inserted text marks the place where the cursor goes. -/
  isSnippet : Bool := false
  filterText : Option String := none
  sortText : Option String := none
  preselect : Option Bool := none
  replacement : Option Replacement := none
deriving DecidableEq, Repr

/-- Where a property stands among the completions: by its name, shorter names filled up to three
characters. -/
def sortKey (name : String) : String := Text.padStart name '0' 3

/-- Where a method stands among the completions: before the properties. -/
def methodSortKey (name : String) : String := "0_" ++ name

/-- A parameter as a keyword argument, with its default if it has one. -/
def keywordText (name : String) (p : Parameter) : String :=
  name ++ "=" ++ (p.defaultText.map displayDefault).getD ""

/-- How a keyword argument is shown: with its default, or the name alone. -/
def keywordLabel (name : String) (p : Parameter) : String :=
  if p.defaultText.isSome then keywordText name p else name

/-- The completion to a keyword argument. `owner` is the class as the user wrote it, `described` the
class that the description names. -/
def keywordItem (owner described name : String) (p : Parameter) : Item :=
  { label := keywordLabel name p
    kind := .property
    detail := "Parameter of " ++ owner
    documentation := documentation p described
    insertText := some (keywordText name p)
    filterText := some name
    sortText := some (sortKey name)
    preselect := some false }

/-- The completions to the keyword arguments that are not used yet. The parameter `name` is not
offered. -/
def keywordItems (owner described : String) (used : List String) (c : ParamClass) : List Item :=
  (c.parameters.entries.filter fun entry => !used.contains entry.1 && entry.1 != "name").map
    fun entry => keywordItem owner described entry.1 entry.2

/-- The completion to the default of a keyword argument whose name is written. -/
def defaultItems (className name : String) (p : Parameter) : List Item :=
  match p.defaultText with
  | none => []
  | some text =>
    [{ label := name ++ "=" ++ displayDefault text
       kind := .property
       detail := "Default value for " ++ name
       documentation := documentation p className
       insertText := some (displayDefault text)
       filterText := some name
       sortText := some "0"
       preselect := some true }]

/-- The completion of an abbreviated keyword argument, which replaces what is written. -/
def abbreviationItem (className name : String) (p : Parameter) (place : Cursor) (start : Nat) :
    Item :=
  { label := keywordLabel name p
    kind := .property
    detail := "Complete parameter for " ++ name
    documentation := documentation p className
    filterText := some name
    sortText := some "0"
    preselect := some true
    replacement := some ⟨place.line, start, place.character, keywordText name p⟩ }

/-- The completion to a quoted parameter name; inside an open quotation only the rest is quoted. -/
def dependencyItem (className : String) (isOpen : Bool) (name : String) (p : Parameter) : Item :=
  { label := if isOpen then name else "\"" ++ name ++ "\""
    kind := .property
    detail := "Parameter of " ++ className
    documentation := documentation p className
    insertText := some (if isOpen then name ++ "\"" else "\"" ++ name ++ "\"")
    filterText := some name
    sortText := some (sortKey name) }

/-- The completion to a parameter of a namespace. -/
def memberItem (owner described name : String) (p : Parameter) : Item :=
  { label := name
    kind := .property
    detail := "Parameter of " ++ owner
    documentation := documentation p described
    insertText := some name
    filterText := some name
    sortText := some (sortKey name) }

end ParamLens.Editor
