import ParamLens.Check.Diagnostic
import ParamLens.Text.Basic
import ParamLens.Text.Blank

/-! Findings as a terminal shows them: the message, the place, and the lines around it with the
place underlined. -/

namespace ParamLens.Command

open Syntax

/-- The marks that start and end colours. -/
structure Palette where
  red : String
  yellow : String
  cyan : String
  dim : String
  reset : String

namespace Palette

/-- No colours. -/
def plain : Palette := ⟨"", "", "", "", ""⟩

/-- The colours of a terminal. -/
def terminal : Palette := ⟨"\x1b[91m", "\x1b[93m", "\x1b[36m", "\x1b[2m", "\x1b[0m"⟩

end Palette

/-- What is shown of a diagnostic. -/
structure Finding where
  start : Point
  stop : Point
  message : String
  code : String := ""
  isWarning : Bool := false

/-- What is shown of a diagnostic. -/
def Finding.ofDiagnostic (d : Diagnostic) : Finding :=
  ⟨d.start, d.stop, d.message, d.rule.code, d.rule.severity == .warning⟩

/-- The number of lines shown on each side of the place. -/
def contextLines : Nat := 2

/-- A text of blanks. -/
def blanks (count : Nat) : String := String.ofList (List.replicate count ' ')

/-- The number of a line, counted from one, at least two characters wide. -/
def lineLabel (row : Nat) : String := Text.padStart (toString (row + 1)) ' ' 2

/-- A line next to the place. -/
def contextLine (p : Palette) (row : Nat) (line : String) : String :=
  p.dim ++ lineLabel row ++ " " ++ p.cyan ++ "|" ++ p.reset ++ " " ++ line ++ p.reset

/-- The number of characters to underline in the first line of the place. -/
def Finding.underlined (f : Finding) (line : String) : Nat :=
  if f.stop.row = f.start.row then max 1 (f.stop.column - f.start.column)
  else max 1 (Text.length (Text.trimEnd (Text.drop line f.start.column)))

/-- The first line of the place and the marks under it. -/
def Finding.markedLines (p : Palette) (f : Finding) (line : String) : List String :=
  let colour := if f.isWarning then p.yellow else p.red
  let label := lineLabel f.start.row
  let marks := String.ofList (List.replicate (f.underlined line) '^')
  [label ++ " " ++ p.cyan ++ "|" ++ p.reset ++ " " ++ line,
   blanks (Text.length label + 3 + f.start.column) ++ colour ++ marks ++ p.reset]

/-- The lines of a text from one row up to another, each with its row. -/
def numberedLines (lines : List String) (start stop : Nat) : List (Nat × String) :=
  (List.range' start (stop - start)).filterMap fun row => lines[row]?.map fun line => (row, line)

/-- The lines that show a finding in a file. -/
def Finding.lines (p : Palette) (path content : String) (f : Finding) : List String :=
  let colour := if f.isWarning then p.yellow else p.red
  let row := f.start.row
  let lines := Text.lines content
  let width := max (Text.length (toString (row + 1 + contextLines))) 2 + 1
  let border := blanks width ++ p.cyan ++ p.dim ++ "|" ++ p.reset
  let around (start stop : Nat) : List String :=
    (numberedLines lines start stop).map fun (row, line) => contextLine p row line
  [colour ++ f.code ++ ":" ++ p.reset ++ " " ++ f.message,
   "  " ++ p.cyan ++ "-->" ++ p.reset ++ " " ++ path ++ ":" ++ toString (row + 1) ++ ":" ++
     toString (f.start.column + 1),
   border] ++ around (row - contextLines) row ++
    (lines[row]?.map (f.markedLines p)).getD [] ++
    around (row + 1) (row + contextLines + 1) ++ [border, ""]

/-- Lines as a text in which each of them ends. -/
def linesText (lines : List String) : String := Text.join "" (lines.map (· ++ "\n"))

end ParamLens.Command
