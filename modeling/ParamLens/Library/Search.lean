import ParamLens.Library.Ancestry
import ParamLens.Library.Interpreter

/-! Looking for a class in the source files of a library, when nothing is stored about the library.
Files are analysed from a queue; whether a class has parameters is decided along its bases, and a
base from another file brings that file into the queue. A step can fail; the analysis of a file and
the search in it are the places where a failure ends. -/

namespace ParamLens.Library

open Syntax

/-- What does not change during a search: the world, the analysed libraries and the parameter types
that are known. -/
structure SearchContext where
  world : World
  allowed : List String
  types : List String

/-- The state of a search: the files to be analysed, the files whose analysis has begun, the bases
being followed, and what is known of classes, analysed files and their texts. -/
structure Search where
  queue : List Path := []
  inProgress : List Path := []
  following : List String := []
  classes : Table (Node × Imports) := ∅
  analysed : List (Path × Table ParamClass) := []
  contents : List (Path × String) := []

namespace Search

/-- The search without what it has learnt about files and classes. -/
def forget (s : Search) : Search := { s with classes := ∅, analysed := [], contents := [] }

/-- The analysis of the file is finished. -/
def isAnalysed (s : Search) (file : Path) : Bool := s.analysed.any (·.1 == file)

/-- The analysis of the file has begun. -/
def hasBegun (s : Search) (file : Path) : Bool := s.isAnalysed file || s.inProgress.contains file

/-- The search with a file in its queue, unless its analysis has begun. -/
def enqueue (s : Search) (file : Path) : Search :=
  if s.hasBegun file then s else { s with queue := s.queue ++ [file] }

/-- The search with the analysis of a file begun. -/
def begin (s : Search) (file : Path) : Search := { s with inProgress := s.inProgress ++ [file] }

/-- The search with the text of a file. -/
def keep (s : Search) (file : Path) (content : String) : Search :=
  if s.contents.any (·.1 == file) then s else { s with contents := s.contents ++ [(file, content)] }

/-- The search after the analysis of a file. -/
def finish (s : Search) (file : Path) (classes : Table ParamClass) : Search :=
  { s with
    analysed := s.analysed ++ [(file, classes)]
    inProgress := s.inProgress.filter (· != file) }

/-- The search with a base that is being followed. -/
def follow (s : Search) (base : String) : Search := { s with following := base :: s.following }

/-- The search without a base that was followed. -/
def leave (s : Search) (base : String) : Search :=
  { s with following := s.following.erase base }

/-- The search with the classes of a file that has the imports. -/
def know (s : Search) (imports : Imports) (classes : List (Node × String)) : Search :=
  { s with classes := s.classes.update (classes.map fun entry => (entry.2, (entry.1, imports))) }

end Search

/-- The name of a base stands for the root of all classes with parameters. -/
def namesRoot (imports : Imports) (base : String) : Bool :=
  base == "param.Parameterized" || imports.get? base == some "param.Parameterized"

/-- Why a step of a search fails. -/
inductive SearchFault where
  /-- A file cannot be read. -/
  | unreadable (fault : ReadFault)
  /-- A text has no tree. -/
  | unparsed
  /-- A module is looked for at a path that has no last component. -/
  | namelessPath (fault : NamelessPath)
  /-- Calls are nested too deep. -/
  | tooDeep
  /-- A class has no name. -/
  | unnamedClass

/-- Steps of a search. A step that fails keeps what was done before it; a step that goes beyond the
bounds of the search has no result. -/
abbrev SearchM := ExceptT SearchFault (StateT Search Option)

/-- The step beyond the bounds of a search. -/
def SearchM.beyond {α : Type} : SearchM α := fun _ => none

/-- A step after which the state is changed, whether it fails or not. -/
def SearchM.andFinally {α : Type} (step : SearchM α) (change : Search → Search) : SearchM α :=
  fun s => do
    let (result, t) ← step.run s
    return (result, change t)

/-- How a search decides whether a base, with the imports of the class that lists it, has
parameters. -/
abbrev AskBase := String → Imports → SearchM Bool

/-- Whether a class has parameters: one of its bases is the root or has parameters. -/
def inheritsWith (ask : AskBase) (n : Node) (imports : Imports) : SearchM Bool :=
  (baseNames n).anyM fun base =>
    if namesRoot imports base then pure true else ask base imports

/-- The names bound by the imports of a tree, in the order of the text. -/
def importsInOrder (tree : Node) : Imports :=
  Table.ofList (tree.walk.flatMap (Imports.bindings .whole))

/-- The classes of a tree, in the order of the text. -/
def classesInOrder (tree : Node) : List (Node × String) :=
  (tree.walk.filter (·.kind == .classDefinition)).filterMap fun n =>
    n.className?.map fun name => (n, name)

/-- The classes of a file that have parameters. -/
def classesWith (ask : AskBase) (context : SearchContext) (content : String) (tree : Node) :
    SearchM (Table ParamClass) := do
  let imports := importsInOrder tree
  let classes := classesInOrder tree
  modify (·.know imports classes)
  classes.foldlM (fun found (n, name) => do
    if ← inheritsWith ask n imports then
      let own := ownParameters ⟨imports, context.types⟩ imports content n
      if own.isEmpty then return found
      else return found.insert name (own.foldl ParamClass.add (.ofName name))
    else return found) ∅

/-- The text of a file and its tree. -/
def readTree (w : World) (file : Path) : SearchM (String × Node) := do
  match w.files.read file with
  | .error fault => throw (.unreadable fault)
  | .ok content =>
    match w.parse? content with
    | none => throw .unparsed
    | some tree => return (content, tree)

/-- The classes of a file that have parameters; its text is kept. -/
def fileClassesWith (ask : AskBase) (context : SearchContext) (file : Path) :
    SearchM (Table ParamClass) := do
  let (content, tree) ← readTree context.world file
  modify (·.keep file content)
  classesWith ask context content tree

/-- Analyses a file, unless its analysis has begun. A file whose analysis fails has no classes. -/
def analyseWith (ask : AskBase) (context : SearchContext) (file : Path) : SearchM Unit := do
  if (← get).hasBegun file then return
  modify (·.begin file)
  let classes ← tryCatch (fileClassesWith ask context file) fun _ => return ∅
  modify (·.finish file classes)

/-- Analyses files of the queue until there are none left, at most `bound` of them. -/
def drainWith (ask : AskBase) (context : SearchContext) : Nat → SearchM Unit
  | 0 => do if (← get).queue.isEmpty then return else .beyond
  | bound + 1 => do
    match (← get).queue with
    | [] => return
    | file :: rest =>
      modify ({ · with queue := rest })
      analyseWith ask context file
      drainWith ask context bound

/-- Analyses the files of the queue. While one of them is analysed the queue does not grow: the
files that it needs are analysed at once, and with them all others. -/
def drainAllWith (ask : AskBase) (context : SearchContext) : SearchM Unit := do
  drainWith ask context (← get).queue.length

/-- Whether an imported base has parameters, decided by the file that the import names. -/
def importedInheritsWith (ask : AskBase) (context : SearchContext) (base path : String) :
    SearchM Bool := do
  if isFromInterpreter path then return false
  let root := Dotted.first path
  if !context.allowed.contains root && root != base then return false
  match (context.world.pathOrder.members (← get).inProgress).head? with
  | none => return false
  | some current =>
    match importedFile context.world context.allowed path current with
    | .error fault => throw (.namelessPath fault)
    | .ok none => return false
    | .ok (some file) =>
      modify (·.enqueue file)
      drainAllWith ask context
      match (← get).classes.get? (Dotted.last path) with
      | none => return false
      | some (n, imports) => inheritsWith ask n imports

/-- Decides whether a base has parameters by the class of its name, or else by its import. -/
def decideWith (ask : AskBase) (context : SearchContext) : AskBase := fun base imports => do
  match (← get).classes.get? base with
  | some (n, own) => inheritsWith ask n own
  | none =>
    match imports.get? base with
    | some path => importedInheritsWith ask context base path
    | none => return false

/-- Whether a base has parameters, with at most `bound` bases followed one after another. A base
that is being followed already has none. It is followed no longer when the step ends or fails. -/
def askBase (context : SearchContext) : Nat → AskBase
  | 0, _, _ => .beyond
  | bound + 1, base, imports => do
    let following := (← get).following
    if following.contains base then return false
    if context.world.followLimit ≤ following.length then throw .tooDeep
    modify (·.follow base)
    (decideWith (askBase context bound) context base imports).andFinally (·.leave base)

/-- The bases that the classes of all trees list. -/
def SearchContext.listedBases (context : SearchContext) : List String :=
  context.world.trees.flatMap fun entry => entry.2.walk.flatMap baseNames

/-- The number of bases that can be followed one after another: each listed one once. -/
def SearchContext.depth (context : SearchContext) : Nat := context.listedBases.length + 1

/-- Whether a class has parameters. -/
def inherits (context : SearchContext) (n : Node) (imports : Imports) : SearchM Bool :=
  inheritsWith (askBase context context.depth) n imports

/-- Analyses all files of the queue. -/
def drain (context : SearchContext) : SearchM Unit :=
  drainAllWith (askBase context context.depth) context

/-- Adds to a class what it inherits from the known classes along the bases of a node; none when
the bases go round in a circle. -/
def inheritNearby? (classes : Table (Node × Imports)) (r : Recognition) (content : String) :
    Nat → Node → ParamClass → Option ParamClass
  | 0, _, _ => none
  | fuel + 1, n, c =>
    (baseNames n).foldlM (fun c base =>
      match classes.get? base with
      | none => some c
      | some (parent, imports) =>
        inheritNearby? classes r content fuel parent
          (c.merge (byName (ownParameters r imports content parent)))) c

/-- The text of a file, kept for later; an unreadable file has an empty one. -/
def contentOf (context : SearchContext) (file : Path) : SearchM String := do
  match (← get).contents.lookup file with
  | some content => return content
  | none =>
    match context.world.read? file with
    | some content =>
      modify (·.keep file content)
      return content
    | none => return ""

/-- The class of a node with the parameters that it declares and inherits from the known classes.
The step fails when the bases go round in a circle. -/
def classOf (context : SearchContext) (file : Path) (n : Node) (imports : Imports) :
    SearchM ParamClass := do
  match n.className? with
  | none => throw .unnamedClass
  | some name =>
    let content ← contentOf context file
    let r : Recognition := ⟨imports, context.types⟩
    let own := (ownParameters r imports content n).foldl ParamClass.add (.ofName name)
    let classes := (← get).classes
    match inheritNearby? classes r content (classes.size + 1) n own with
    | none => throw .tooDeep
    | some c => return c

/-- No function at the top of the file has the name. -/
def mayHoldClass (w : World) (file : Path) (name : String) : Bool :=
  match (w.read? file).bind w.parse? with
  | none => true
  | some tree => !tree.children.any fun n =>
    n.kind == .functionDefinition && (n.child? .name).any (·.text == name)

/-- Looks for a class of the name in a file and the files that it needs. -/
def searchFile (context : SearchContext) (name : String) (file : Path) :
    SearchM (Option ParamClass) := do
  modify (·.enqueue file)
  drain context
  match (← get).classes.get? name with
  | none => return none
  | some (n, imports) =>
    if ← inherits context n imports then return some (← classOf context file n imports)
    else return none

/-- Looks for a class of the name in the files, one after another; a file in which the search fails
is passed over. -/
def searchFiles (context : SearchContext) (name : String) :
    List Path → SearchM (Option ParamClass)
  | [] => pure none
  | file :: rest => do
    match ← tryCatch (searchFile context name file) fun _ => return none with
    | some c => return some c
    | none => searchFiles context name rest

/-- Looks for a class in the source files of its library. What was learnt on the way is
forgotten. -/
def searchSources (context : SearchContext) (path : String) : SearchM (Option ParamClass) := do
  let name := Dotted.last path
  match sources context.world (Dotted.first path) with
  | [] => return none
  | files =>
    if (likelyFile? path files).any fun file => !mayHoldClass context.world file name then
      return none
    let found ← searchFiles context name files
    modify (·.forget)
    return found

end ParamLens.Library
