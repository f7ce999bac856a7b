import ParamLens.Editor.Completion

/-! What is shown when the cursor rests on a word. -/

namespace ParamLens.Editor

/-- A shown text and the part of the line that it is about. -/
structure Hover where
  text : String
  line : Nat
  start : Nat
  stop : Nat
deriving DecidableEq, Repr

/-- The word around a position of a line: its start and its end. -/
def wordAround? (line : String) (character : Nat) : Option (Nat × Nat) :=
  let cs := line.toList
  let before := ((cs.take character).reverse.takeWhile Text.isWordChar).length
  let after := ((cs.drop character).takeWhile Text.isWordChar).length
  if character < cs.length ∧ 0 < before + after then some (character - before, character + after)
  else none

/-- The text about reactive expressions. -/
def reactiveText : String :=
  Text.unlines
    ["**rx Property**",
     "Create a reactive expression for this parameter.",
     "",
     "Reactive expressions enable you to build computational graphs that automatically update " ++
        "when parameter values change.",
     "",
     "**Documentation**: [Reactive Expressions Guide]" ++
        "(https://param.holoviz.org/user_guide/Reactive_Expressions.html)"]

/-- The text about a member of parameter namespaces. -/
def Guide.card (g : Guide) : String :=
  Text.unlines
    ["**obj.param." ++ g.signature ++ "**", "", g.description, "",
     "**Returns**: `" ++ g.returns ++ "`", "", "**Example**:", "```python", g.sample, "```", "",
     "**Note**: " ++ g.note]

/-- The text about a member of reactive expressions. -/
def ReactiveGuide.card (g : ReactiveGuide) : String :=
  Text.unlines
    ["**" ++ g.signature ++ "**", "", g.description, "", "**Example**: `" ++ g.sample ++ "`"]

/-- The text about a parameter of the first of the named classes that has it. -/
def parameterText? (classes : List (String × ParamClass)) (name : String) : Option String :=
  classes.findSome? fun (className, c) => (c.get? name).map fun p => parameterCard p className

/-- What is shown about a word on a line: a member of namespaces or reactive expressions, a
parameter type, or a parameter of a class of the file or of a library. -/
def wordText? (a : Analyzer) (types : List String) (line word : String) : Option String :=
  if word = "rx" ∧ Phrase.namesReactive line then some reactiveText
  else
    (if Phrase.callsNamespace line then (namespaceGuides.lookup word).map Guide.card else none).or
    ((if Phrase.namesReactiveMember line then
        (reactiveGuides.lookup word).map ReactiveGuide.card else none).or
    ((if types.contains word then some ("Param parameter type: " ++ word) else none).or
    ((parameterText? a.latest.classes.entries word).or
    (parameterText? (a.external.entries.filterMap fun (path, c) => c.map fun c => (path, c))
      word))))

/-- What is shown at a place of a document. -/
def hover? (a : Analyzer) (types : List String) (content : String) (place : Cursor) :
    Option Hover := do
  let line ← (Text.lines content)[place.line]?
  let (start, stop) ← wordAround? line place.character
  let word := Text.slice line start stop
  let info ← wordText? a types line word
  return ⟨"```python\n" ++ word ++ "\n```\n\n" ++ info, place.line, start, stop⟩

end ParamLens.Editor
