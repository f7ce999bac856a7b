import ParamLens.Analysis.Reference
import ParamLens.Editor.Enclosure
import ParamLens.Editor.Vocabulary

/-! Completions at a place of a document. Each context in which something can be completed has a
function of its own, which gives no items elsewhere; the first context with items decides. -/

namespace ParamLens.Editor

open Analysis

/-- The full name of a class of a library as it is written in a file. A dotted name begins with
what an import binds; a plain name stands for itself. -/
def externalPath (imports : Imports) (name : String) : String :=
  if Dotted.isDotted name then (boundPath? imports name).getD name else name

/-- The class of a library as it is written in the present file. -/
def writtenExternal (w : World) (name : String) : AnalysisM (Option ParamClass) := do
  externalClass w (some (externalPath (← get).analyzer.latest.imports name))

/-- The class that a constructor call names: one of the file, or one of a library. -/
def constructedClass (w : World) (name : String) : AnalysisM (Option ParamClass) := do
  match (← get).analyzer.latest.classes.named? name with
  | some c => return some c
  | none => writtenExternal w name

/-- The key or the name of the class that a name in the document refers to. -/
def reference? (w : World) (content name : String) : AnalysisM (Option String) := do
  let classes := (← get).analyzer.latest.classes
  match classes.keyOf? name with
  | some key => return some key
  | none => resolveName w name classes content

/-- The class of the object that a name in the document stands for. -/
def referredClass (w : World) (content name : String) : AnalysisM (Option ParamClass) := do
  let reference ← reference? w content name
  let classes := (← get).analyzer.latest.classes
  match reference.bind fun key => (classes.get? key).or (classes.named? key) with
  | some c => return some c
  | none => writtenExternal w (reference.getD name)

/-- The cursor stands in the constructor call of a class with parameters, on one line. -/
def isInConstructor (w : World) (line : String) (character : Nat) : AnalysisM Bool := do
  match Phrase.constructor? (Text.take line character) with
  | none => return false
  | some name => return (← constructedClass w name).isSome

/-- The class with parameters whose constructor call an earlier line, or the line of the cursor,
leaves open. -/
def openConstructor? (w : World) (lines : List String) (place : Cursor) :
    AnalysisM (Option String) :=
  (constructorLines lines place).findSomeM? fun number => do
    match Phrase.constructor? (lines.getD number "") with
    | none => return none
    | some name =>
      let isKnown := (← constructedClass w name).isSome
      return if isKnown && isOpenFrom lines place number then some name else none

/-- The parentheses of a method are inserted, unless they stand before or after the cursor
already. -/
def insertsParentheses (line : String) (character : Nat) (method : String) : Bool :=
  !Text.contains (Text.take line character) (method ++ "()") &&
    !Text.startsWith (Text.trimStart (Text.drop line character)) "()"

/-- The name agrees with what is written of it so far. -/
def continues (written name : String) : Bool := written == "" || Text.startsWith name written

/-- The completions inside a dependency decorator. -/
def dependsItems (w : World) (lines : List String) (place : Cursor) : AnalysisM (List Item) := do
  if !isInDepends lines place then return []
  match classAround? w (Text.unlines lines) place.line with
  | none => return []
  | some name =>
    match (← get).analyzer.latest.classes.named? name with
    | none => return []
    | some c =>
      let used := quotedInDepends lines place
      let before := beforeCursor lines place
      let part := Phrase.quotedPart before
      let offered := c.parameters.entries.filter fun entry =>
        !used.contains entry.1 && entry.1 != "name" && continues part entry.1
      return offered.map fun entry =>
        dependencyItem name (Phrase.endsQuoted before) entry.1 entry.2

/-- The completions inside an update call. -/
def updateItems (w : World) (content line : String) (character : Nat) : AnalysisM (List Item) := do
  let before := Text.take line character
  match Phrase.updateCall? before with
  | none => return []
  | some owner =>
    match ← referredClass w content owner with
    | none => return []
    | some c => return keywordItems owner c.name (Phrase.assigned before) c

/-- The completion to a method of a reactive expression of a parameter. -/
def reactiveMethodItem (line : String) (character : Nat) (parameter : String) (term : Term) :
    Item :=
  { label := term.name ++ "()"
    kind := .method
    detail := "rx." ++ term.name
    documentation :=
      term.text ++ "\n\nReactive expression method for parameter '" ++ parameter ++ "'"
    insertText := some
      (if insertsParentheses line character term.name then term.name ++ "()" else term.name)
    filterText := some term.name
    sortText := some (methodSortKey term.name) }

/-- The completion to a property of a reactive expression of a parameter. -/
def reactivePropertyItem (parameter : String) (term : Term) : Item :=
  { label := term.name
    kind := .property
    detail := "rx." ++ term.name
    documentation :=
      term.text ++ "\n\nReactive expression property for parameter '" ++ parameter ++ "'"
    insertText := some term.name
    filterText := some term.name
    sortText := some (sortKey term.name) }

/-- The completions after a reactive expression. -/
def reactiveItems (w : World) (content line : String) (character : Nat) :
    AnalysisM (List Item) := do
  let before := Text.take line character
  match Phrase.reactiveAccess? before with
  | none => return []
  | some (owner, parameter) =>
    match (← referredClass w content owner).bind (·.get? parameter) with
    | none => return []
    | some _ =>
      let part := (Scan.wordAfter? ("." ++ parameter ++ ".rx.") before).getD ""
      return (reactiveMethods.filter fun term => continues part term.name).map
          (reactiveMethodItem line character parameter) ++
        (reactiveProperties.filter fun term => continues part term.name).map
          (reactivePropertyItem parameter)

/-- The completion to an attribute of a parameter. -/
def attributeItem (typeName : String) (term : Term) : Item :=
  { label := term.name
    kind := .property
    detail := "Parameter." ++ term.name
    documentation := term.text ++ "\n\nParameter type: " ++ typeName
    insertText := some term.name
    filterText := some term.name
    sortText := some (sortKey term.name) }

/-- The completions after a parameter of a namespace. -/
def parameterItems (w : World) (content line : String) (character : Nat) :
    AnalysisM (List Item) := do
  let before := Text.take line character
  match Phrase.parameterAccess? before with
  | none => return []
  | some (owner, parameter) =>
    match (← referredClass w content owner).bind (·.get? parameter) with
    | none => return []
    | some p =>
      let typeName := if p.typeName = "" then "Parameter" else p.typeName
      let part := (Scan.wordAfter? ("." ++ parameter ++ ".") before).getD ""
      return ((attributesOf typeName).filter fun term => continues part term.name).map
        (attributeItem typeName)

/-- The completion to a method of parameter namespaces. -/
def methodItem (line : String) (character : Nat) (method : Method) : Item :=
  let inserted := if insertsParentheses line character method.name then method.call else method.name
  { label := method.name ++ "()"
    kind := .method
    detail := method.detail
    documentation := method.text
    insertText := some inserted
    isSnippet := Text.contains inserted "$0"
    filterText := some method.name
    sortText := some (methodSortKey method.name) }

/-- The completions after a parameter namespace. -/
def namespaceItems (w : World) (content line : String) (character : Nat) :
    AnalysisM (List Item) := do
  let before := Text.take line character
  match Phrase.attributeAccess? before with
  | none => return []
  | some owner =>
    match ← referredClass w content owner with
    | none => return []
    | some c =>
      let part := (Scan.wordAfter? ".param." before).getD ""
      return (namespaceMethods.filter fun method => continues part method.name).map
          (methodItem line character) ++
        (c.parameters.entries.filter fun entry => continues part entry.1).map
          fun entry => memberItem owner c.name entry.1 entry.2

/-- The completions in a constructor call: the default of the argument whose name is written, the
full name of an abbreviated one, or the arguments not given yet. -/
def argumentItems (before className : String) (place : Cursor) (c : ParamClass) : List Item :=
  match Phrase.assignedName? before c.parameterNames with
  | some name => ((c.get? name).map (defaultItems className name)).getD []
  | none =>
    match Phrase.abbreviation? before c.parameterNames with
    | some short =>
      ((c.get? short.name).map fun p =>
        abbreviationItem className short.name p place short.position).toList
    | none => keywordItems className className (Phrase.assigned before) c

/-- The completions in a constructor call on one line. -/
def constructorItems (w : World) (line : String) (place : Cursor) : AnalysisM (List Item) := do
  let before := Text.take line place.character
  match Phrase.constructor? before with
  | none => return []
  | some name =>
    match ← constructedClass w name with
    | none => return []
    | some c => return argumentItems before name place c

/-- The completions in a constructor call that reaches over several lines. -/
def multilineItems (w : World) (lines : List String) (place : Cursor) (name : String) :
    AnalysisM (List Item) := do
  match ← constructedClass w name with
  | none => return []
  | some c => return keywordItems name name (assignedInConstructor lines place name) c

/-- The completion to a parameter type. -/
def typeItem (name : String) : Item :=
  { label := name
    kind := .parameterType
    detail := "param." ++ name
    documentation := "Param parameter type: " ++ name }

/-- The completion to an argument of a declaration. -/
def declarationItem (term : Term) : Item :=
  { label := term.name
    kind := .property
    detail := "Parameter argument"
    documentation := term.text }

/-- The cursor stands in the declaration of a parameter of a known type. -/
def isInDeclaration (types : List String) (line : String) (character : Nat) : Bool :=
  (Phrase.declaredType? (Text.take line character)).any types.contains

/-- The completions in declarations of parameters. -/
def declarationItems (types : List String) (line : String) (character : Nat) : List Item :=
  if Text.endsWith (Text.trimEnd (Text.take line character)) "param." then types.map typeItem
  else if isInDeclaration types line character then declarationArguments.map declarationItem
  else []

/-- The items of the first context that has some. -/
def firstItems : List (AnalysisM (List Item)) → AnalysisM (List Item)
  | [] => return []
  | context :: rest => do
    let items ← context
    if items.isEmpty then firstItems rest else return items

/-- The completions where no other context has items: none inside a constructor call, else those of
declarations. -/
def fallbackItems (w : World) (types : List String) (lines : List String) (line : String)
    (place : Cursor) : AnalysisM (List Item) := do
  let opened ← openConstructor? w lines place
  let items ← match opened with
    | some name => multilineItems w lines place name
    | none => pure []
  if !items.isEmpty then return items
  let isInside ← isInConstructor w line place.character
  return if isInside || opened.isSome then []
    else declarationItems types line place.character

/-- The completions at a place of a document; `types` are the names of the known parameter types. -/
def complete (w : World) (types : List String) (content : String) (place : Cursor) :
    AnalysisM (List Item) := do
  let lines := Text.lines content
  match lines[place.line]? with
  | none => return []
  | some line =>
    firstItems
      [dependsItems w lines place,
       updateItems w content line place.character,
       reactiveItems w content line place.character,
       parameterItems w content line place.character,
       namespaceItems w content line place.character,
       constructorItems w line place,
       fallbackItems w types lines line place]

end ParamLens.Editor
