import ParamLens.Analysis.Analyzer
import ParamLens.Editor.Item

/-! Changes of a document: a whole new text, or a new text for the part between two places. -/

namespace ParamLens.Editor

/-- A change of a document. -/
inductive Edit where
  | whole (text : String)
  | between (start stop : Cursor) (text : String)
deriving DecidableEq, Repr

/-- The lines without the next ones after a line, which are taken out from the last of them on. -/
def removeAfter (line : Nat) : Nat → List String → List String
  | 0, lines => lines
  | count + 1, lines => removeAfter line count (lines.eraseIdx (line + count + 1))

/-- The lines with new ones put in from the index on, each behind the one before. -/
def insertFrom (i : Nat) : List String → List String → List String
  | [], lines => lines
  | new :: rest, lines => insertFrom (i + 1) rest (lines.insertIdx i new)

/-- The lines after the part between two places is replaced. A place behind the end of its line is
the end of the line; a last line that the document does not have is its end. There is no result when
the document does not have the first line. -/
def replaceLines? (lines : List String) (start stop : Cursor) (text : String) :
    Option (List String) :=
  lines[start.line]?.map fun first =>
    let before := Text.take first start.character
    let after := Text.drop (lines.getD stop.line "") stop.character
    if start.line = stop.line then lines.set start.line (before ++ text ++ after)
    else
      let kept := removeAfter start.line (stop.line - start.line) lines
      let new := Text.lines text
      if new.length = 1 then kept.set start.line (before ++ new.headD "" ++ after)
      else
        let opened := kept.set start.line (before ++ new.headD "")
        let filled := insertFrom (start.line + 1) new.tail.dropLast opened
        filled.insertIdx (start.line + new.length - 1) (new.getLastD "" ++ after)

/-- The document after a change. -/
def Edit.apply (content : String) : Edit → Except Failure String
  | .whole text => .ok text
  | .between start stop text =>
    match replaceLines? (Text.lines content) start stop text with
    | some lines => .ok (Text.unlines lines)
    | none => .error .lineOutOfRange

/-- The document after the changes, one after another. -/
def applyEdits (content : String) (edits : List Edit) : Except Failure String :=
  edits.foldlM Edit.apply content

end ParamLens.Editor
