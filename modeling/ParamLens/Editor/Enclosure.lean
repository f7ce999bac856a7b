import ParamLens.Editor.Item
import ParamLens.Editor.Phrase
import ParamLens.World.Basic

/-! Calls that reach over several lines: whether the cursor stands inside the parentheses of a
dependency decorator or of a constructor call that an earlier line opens, and what is written
between that line and the cursor. -/

namespace ParamLens.Editor

open Syntax

/-- The number of lines above the cursor on which a decorator is looked for. -/
def decoratorReach : Nat := 5

/-- The number of lines, the one of the cursor included, on which a constructor call is looked
for. -/
def constructorReach : Nat := 10

/-- The line numbers from `first` to the line of the cursor, as far as the document reaches. -/
def lineNumbers (lines : List String) (first : Nat) (place : Cursor) : List Nat :=
  (List.range (min (place.line + 1) lines.length)).drop first

/-- A line as far as the cursor has come: the line of the cursor is cut there. -/
def written (lines : List String) (place : Cursor) (number : Nat) : String :=
  let line := lines.getD number ""
  if number = place.line then Text.take line place.character else line

/-- The text on the line of the cursor before it. -/
def beforeCursor (lines : List String) (place : Cursor) : String :=
  Text.take (lines.getD place.line "") place.character

/-- The opening parentheses of the texts outnumber the closing ones. -/
def leavesOpen (texts : List String) : Bool :=
  let total (mark : Char) : Nat := texts.foldr (fun text count => Text.count text mark + count) 0
  total ')' < total '('

/-- A call that begins on an earlier line, or on the line of the cursor, is still open at the
cursor. -/
def isOpenFrom (lines : List String) (place : Cursor) (first : Nat) : Bool :=
  leavesOpen (lines.getD first "" ::
    (lineNumbers lines (first + 1) place).map (written lines place))

/-- The numbers of the lines, from the top, that are near enough to the cursor for a decorator. -/
def decoratorLines (lines : List String) (place : Cursor) : List Nat :=
  lineNumbers lines (place.line - decoratorReach) place

/-- The line has a dependency decorator whose parentheses are open at the cursor. -/
def isOpenDecorator (lines : List String) (place : Cursor) (number : Nat) : Bool :=
  match Phrase.dependsEnd? (lines.getD number "") with
  | none => false
  | some stop =>
    if number = place.line then
      stop ≤ place.character && leavesOpen [written lines place number]
    else isOpenFrom lines place number

/-- The cursor stands inside the parentheses of a dependency decorator. -/
def isInDepends (lines : List String) (place : Cursor) : Bool :=
  (decoratorLines lines place).any (isOpenDecorator lines place)

/-- The names quoted between the first dependency decorator near the cursor and the cursor. -/
def quotedInDepends (lines : List String) (place : Cursor) : List String :=
  match (decoratorLines lines place).find? fun number =>
      (Phrase.dependsEnd? (lines.getD number "")).isSome with
  | none => []
  | some first =>
    let texts := (lineNumbers lines first place).map fun number => written lines place number ++ " "
    Phrase.quoted (Text.join "" texts)

/-- The numbers of the lines, from the bottom, that are near enough to the cursor for a constructor
call. -/
def constructorLines (lines : List String) (place : Cursor) : List Nat :=
  (lineNumbers lines (place.line + 1 - constructorReach) place).reverse

/-- The arguments given to the constructor of the class between its nearest call and the cursor. -/
def assignedInConstructor (lines : List String) (place : Cursor) (className : String) :
    List String :=
  match (constructorLines lines place).find? fun number =>
      Phrase.constructor? (lines.getD number "") == some className with
  | none => []
  | some first =>
    (lineNumbers lines first place).flatMap fun number =>
      Phrase.assigned (written lines place number)

/-- The name of the class around a line: of the classes that the line is part of, the first found
that has a name. -/
def classAround? (w : World) (content : String) (line : Nat) : Option String :=
  (w.parse? content).bind fun root =>
    (w.finder.classes root).findSome? fun n =>
      if n.span.start.row ≤ line ∧ line ≤ n.span.stop.row then
        ((n.child? .name).map Node.text).filter (· != "")
      else none

end ParamLens.Editor
