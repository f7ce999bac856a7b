import ParamLens.Editor.Scan

/-! What stands before the cursor: a constructor call, the parameter namespace of an object, one of
its parameters, arguments already given, and names already quoted. -/

namespace ParamLens.Editor.Phrase

open Text Scan

/-- The name of the class whose constructor call is open at the end of the text. -/
def constructor? (text : String) : Option String :=
  (visible text.toList).findSome? fun cs =>
    match names cs with
    | (name, rest) :: _ => if opensCall rest then some (String.ofList name) else none
    | [] => none

/-- A dotted name, possibly called, followed by `.param`: the first for which what follows is
accepted. -/
def paramAccess? {α : Type} (text : String) (accept : List Char → Option α) : Option (String × α) :=
  (visible text.toList).findSome? fun cs =>
    (names cs).findSome? fun (name, rest) =>
      ((strip? ".param" (skipArguments rest)).bind accept).map fun a => (String.ofList name, a)

/-- The object whose parameter namespace the text is about. -/
def attributeAccess? (text : String) : Option String :=
  (paramAccess? text fun _ => some ()).map Prod.fst

/-- The word after a dot, and what follows it. -/
def member? (cs : List Char) : Option (String × List Char) :=
  match cs with
  | '.' :: rest => if word rest = [] then none else some (String.ofList (word rest), afterWord rest)
  | _ => none

/-- The object and its parameter of which the text names an attribute. -/
def parameterAccess? (text : String) : Option (String × String) :=
  paramAccess? text fun cs =>
    (member? cs).bind fun (name, rest) => if rest.head? = some '.' then some name else none

/-- The object and its parameter of whose reactive expression the text names a member. -/
def reactiveAccess? (text : String) : Option (String × String) :=
  paramAccess? text fun cs =>
    (member? cs).bind fun (name, rest) => (strip? ".rx." rest).map fun _ => name

/-- The object whose update call is open at the end of the text. -/
def updateCall? (text : String) : Option String :=
  (paramAccess? text fun cs =>
    (strip? ".update" cs).bind fun rest => if opensCall rest then some () else none).map Prod.fst

/-- The names of the arguments given so far: the words before an equals sign. -/
def assignedFrom (inWord : Bool) : List Char → List String
  | [] => []
  | c :: rest =>
    let here :=
      if isWordChar c && !inWord && (skipBlanks (afterWord (c :: rest))).head? == some '=' then
        [String.ofList (word (c :: rest))]
      else []
    here ++ assignedFrom (isWordChar c) rest

/-- The words of a text that an equals sign follows. -/
def assigned (text : String) : List String := assignedFrom false text.toList

/-- The last line of the text ends, blanks aside, in the name and an equals sign. -/
def assigns (text name : String) : Bool :=
  (visible text.toList).any fun cs =>
    match (strip? name cs).map skipBlanks with
    | some ('=' :: rest) => rest.all isBlank || (rest.takeWhile isBlank).contains '\n'
    | _ => false

/-- The first of the names that is assigned at the end of the text. -/
def assignedName? (text : String) (names : List String) : Option String :=
  names.find? (assigns text)

/-- The first word that only blanks, an equals sign and blanks follow, with its position. -/
def openAssignmentFrom (inWord : Bool) (position : Nat) : List Char → Option (String × Nat)
  | [] => none
  | c :: rest =>
    let isHere := isWordChar c && !inWord &&
      match skipBlanks (afterWord (c :: rest)) with
      | '=' :: more => more.all isBlank
      | _ => false
    if isHere then some (String.ofList (word (c :: rest)), position)
    else openAssignmentFrom (isWordChar c) (position + 1) rest

/-- The word that is assigned at the end of the text, with its position. -/
def openAssignment? (text : String) : Option (String × Nat) :=
  openAssignmentFrom false 0 text.toList

/-- A longer name that the word assigned at the end of the text begins. -/
structure Abbreviation where
  name : String
  written : String
  position : Nat
deriving DecidableEq, Repr

/-- The first name that the word assigned at the end of the text abbreviates. -/
def abbreviation? (text : String) (names : List String) : Option Abbreviation :=
  (openAssignment? text).bind fun (written, position) =>
    (names.find? fun name => startsWith name written && name != written).map fun name =>
      ⟨name, written, position⟩

/-- The quotation marks. -/
def isQuote (c : Char) : Bool := c == '"' || c == Char.ofNat 39

/-- The quoted names of a text. `opened` holds what stands after the latest opening quotation
mark. -/
def quotedFrom (opened : Option (List Char)) : List Char → List String
  | [] => []
  | c :: rest =>
    match opened, isQuote c with
    | none, false => quotedFrom none rest
    | none, true => quotedFrom (some []) rest
    | some name, false => quotedFrom (some (name ++ [c])) rest
    | some [], true => quotedFrom (some []) rest
    | some name, true => String.ofList name :: quotedFrom none rest

/-- The names that stand between quotation marks. -/
def quoted (text : String) : List String := quotedFrom none text.toList

/-- What stands after the last quotation mark of the kind, if their number is odd. -/
def afterOpenQuote? (mark : Char) (text : String) : Option String :=
  if count text mark % 2 = 1 then
    some (String.ofList (text.toList.reverse.takeWhile (· != mark)).reverse)
  else none

/-- The text ends inside an open quotation. -/
def endsQuoted (text : String) : Bool :=
  count text '"' % 2 == 1 || count text (Char.ofNat 39) % 2 == 1

/-- The part of the open quotation at the end of the text; empty if none is open. -/
def quotedPart (text : String) : String :=
  ((afterOpenQuote? '"' text).or (afterOpenQuote? (Char.ofNat 39) text)).getD ""

/-- The position after the opening parenthesis of a dependency decorator. -/
def dependsEnd? (text : String) : Option Nat :=
  (visible text.toList).findSome? fun cs =>
    match (strip? "@param.depends" cs).map skipBlanks with
    | some ('(' :: inside) => some (length text - inside.length)
    | _ => none

/-- The parameter type whose declaration is open at the end of the text. -/
def declaredType? (text : String) : Option String :=
  (rests text.toList).findSome? fun cs =>
    (strip? "param." cs).bind fun rest =>
      match rest, skipBlanks (afterWord rest) with
      | c :: _, '(' :: inside =>
        if c.isUpper && !inside.contains ')' then some (String.ofList (word rest)) else none
      | _, _ => none

/-- Some parameter is followed by the mark in the text. -/
def parameterThen (accept : List Char → Bool) (text : String) : Bool :=
  (rests text.toList).any fun cs =>
    match (strip? ".param" cs).bind member? with
    | some (_, rest) => accept rest
    | none => false

/-- The text names a reactive expression. -/
def namesReactive (text : String) : Bool :=
  parameterThen (fun rest => match strip? ".rx" rest with
    | some more => !more.head?.any isWordChar
    | none => false) text

/-- The text calls a member of a parameter namespace. -/
def callsNamespace (text : String) : Bool := parameterThen (·.head? == some '(') text

/-- The text names a member of a reactive expression. -/
def namesReactiveMember (text : String) : Bool :=
  parameterThen (fun rest => (strip? ".rx." rest).isSome) text

end ParamLens.Editor.Phrase
