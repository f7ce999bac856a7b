import ParamLens.Check.Expectation
import ParamLens.Check.Range
import ParamLens.Number.Reading
import ParamLens.Parameter.Basic
import ParamLens.Text.Dedent
import ParamLens.Text.Dotted
import ParamLens.Text.Blank
import ParamLens.Text.Letter
import ParamLens.Text.Lowercase

/-! How parameters are described to the user: the short text beside a completion, and the longer
one shown when the cursor rests on a parameter. -/

namespace ParamLens.Editor

/-- The names of the types of values that a parameter type accepts. A parameter type that is not
checked is named itself, in lower case. -/
def valueTypes (typeName : String) (allowsNone : Bool) : String :=
  let names := match Check.acceptedTypes? typeName with
    | some types => types.map ValueType.shortName
    | none => [Text.lower typeName]
  Text.join " | " (names ++ if allowsNone then ["None"] else [])

/-- The text stands between two quotation marks of the kind. -/
def isQuotedWith (mark : Char) (text : String) : Bool :=
  2 ≤ Text.length text && text.toList.head? == some mark && text.toList.getLast? == some mark

/-- The texts that are taken as they are although they hold letters or brackets. -/
def isPlainDefault (text : String) : Bool :=
  ["None", "True", "False", "[]", "\x7b\x7d", "()"].contains text

/-- The text looks like a name or a sentence: it holds a letter and is no number. -/
def looksLikeText (text : String) : Bool :=
  !isPlainDefault text && (Number.readFloat? text).isNone && text.toList.any Text.isLetter

/-- How a default is written into a call: texts between double quotation marks, all else as it
is. -/
def displayDefault (text : String) : String :=
  if isQuotedWith (Char.ofNat 39) text then
    "\"" ++ String.ofList (text.toList.tail.dropLast) ++ "\""
  else if isQuotedWith '"' text then text
  else if looksLikeText text then "\"" ++ text ++ "\""
  else text

/-- The bounds as a list between parentheses. -/
def boundsList : List Bound → String
  | [] => "()"
  | [bound] => "(" ++ bound.text "None" ++ ",)"
  | bounds => "(" ++ Text.join ", " (bounds.map (Bound.text "None")) ++ ")"

/-- The range of numbers that bounds describe, if they describe one. -/
def boundsRange? (bounds : List Bound) : Option String :=
  match bounds with
  | [low, high] => some ("[" ++ low.text "None" ++ ", " ++ high.text "None" ++ "]")
  | [low, high, lowClosed, highClosed] =>
    some ((if lowClosed.isTrue then "[" else "(") ++ low.text "None" ++ ", " ++
      high.text "None" ++ (if highClosed.isTrue then "]" else ")"))
  | _ => none

/-- A text without the indentation of its lines and without blanks at its ends. -/
def tidy (text : String) : String := Text.trim (Text.dedent text)

/-- The parts of a list, the missing ones left out. -/
def present (parts : List (Option String)) : List String := parts.filterMap id

/-- The description of a parameter beside a completion. -/
def documentation (p : Parameter) (className : String) : String :=
  let parts := present
    [if p.typeName = "" then none
      else some ("Type: " ++ p.typeName ++ " (" ++ valueTypes p.typeName false ++ ")"),
     (p.bounds.filter (!·.isEmpty)).map fun bounds =>
       "Bounds: " ++ (boundsRange? bounds).getD (boundsList bounds),
     (p.doc.filter (· != "")).map fun doc => "Description: " ++ tidy doc,
     if p.allowsNone then some "Allows None: Yes" else none,
     p.defaultText.map ("Default: " ++ ·)]
  if parts.isEmpty then "Parameter of " ++ className else Text.join "\n" parts

/-- The parameter types that offer a choice of objects. -/
def isSelector (typeName : String) : Bool :=
  ["Selector", "ObjectSelector", "ListSelector"].contains typeName

/-- An object of a selector as it is shown. -/
def choiceText : Choice → String
  | .text value => "\"" ++ value ++ "\""
  | .number value => value.text

/-- What may be assigned to a parameter: the objects of a selector, or the accepted types. -/
def allowedText? (p : Parameter) : Option String :=
  match p.objects.filter (!·.isEmpty), isSelector p.typeName with
  | some objects, true =>
    some ("Allowed objects: [" ++ Text.join ", " (objects.map choiceText) ++ "]")
  | none, true => none
  | _, false => some ("Allowed types: " ++ valueTypes p.typeName p.allowsNone)

/-- The definition of a parameter as it is shown. -/
def definitionText? (location : Location) : Option String :=
  (location.source.filter (· != "")).map fun source =>
    let title := match location.line.filter (· != 0) with
      | some line => "Definition (line " ++ toString line ++ "):"
      | none => "Definition:"
    "---\n" ++ title ++ "\n```python\n" ++ tidy source ++ "\n```"

/-- The description of a parameter of a class, shown when the cursor rests on its name. -/
def parameterCard (p : Parameter) (className : String) : String :=
  let origin := if Dotted.isDotted className then " (from " ++ className ++ ")" else ""
  let header := present
    [some ("**" ++ p.typeName ++ " Parameter '" ++ p.name ++ "'" ++ origin ++ "**"),
     allowedText? p,
     p.bounds.bind fun bounds =>
       (boundsRange? bounds).map fun range => "Bounds: `" ++ range ++ "`"]
  Text.join "\n\n" (present
    [some (Text.join "\n\n" header),
     (p.doc.filter (· != "")).map fun doc => "---\nDescription:\n\n" ++ tidy doc,
     p.location.bind definitionText?])

end ParamLens.Editor
