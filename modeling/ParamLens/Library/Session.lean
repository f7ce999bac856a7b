import ParamLens.Library.Detection
import ParamLens.Library.Order
import ParamLens.Library.Search

/-! What one analysis knows about libraries: which ones it has gone through, the parameter types it
has seen, and the classes it was asked for. Going through a library puts its classes into the
store; its dependencies come first. -/

namespace ParamLens.Library

/-- What one analysis knows about libraries. -/
structure Session where
  allowed : List String
  infos : Table Info
  asked : Table (Option ParamClass) := ∅
  populated : List String := []
  types : List String := []
  latestTypes : List String := []
  wholes : List (String × String) := []
  search : Search := {}

/-- The session of a new analysis. -/
def Session.start (w : World) (extra : List String) : Session :=
  { allowed := Library.allowed extra, infos := Library.infos w (Library.allowed extra) }

/-- A session together with the store. -/
structure State where
  session : Session
  store : Store

/-- Steps that change the session and the store. -/
abbrev LibraryM := StateM State

/-- A step on the store. -/
def onStore {α : Type} (step : StateM Store α) : LibraryM α := fun s =>
  let (a, store) := step s.store
  (a, { s with store })

/-- A change of the store. -/
def changeStore (f : Store → Store) : LibraryM Unit := modify fun s => { s with store := f s.store }

/-- A change of the session. -/
def changeSession (f : Session → Session) : LibraryM Unit :=
  modify fun s => { s with session := f s.session }

/-- A search for something; one that fails, or has no result, answers nothing. -/
def onSearch {α : Type} (w : World) (step : SearchContext → SearchM (Option α)) :
    LibraryM (Option α) := fun s =>
  match (step ⟨w, s.session.allowed, s.session.latestTypes⟩).run s.session.search with
  | some (result, search) =>
    (result.toOption.join, { s with session := { s.session with search } })
  | none => (none, s)

/-- The bases of the classes with relative names replaced by full ones, where that is possible. -/
def Survey.fullBases (s : Survey) : Table (List String) :=
  s.bases.mapEntries fun name listed => listed.map fun base =>
    if Text.startsWith base "." then
      let isPackage := (s.definitions.get? name).any fun d => isPackageFile d.file
      ((resolveRelative? base (Dotted.parent name) isPackage).filter (· != "")).getD base
    else base

/-- The names under which packages offer all names of a module: those of its classes with
parameters, and those that it offers itself. -/
def wholeAliases (classes : List String) (offers : Offers) : Table String :=
  Table.ofList (offers.wholes.flatMap fun (package, source) =>
    let inSource := fun name => Text.startsWith name (source ++ ".")
    let short := fun name => Dotted.append package (Dotted.last name)
    ((classes.filter inSource).map fun name => (short name, name)) ++
      ((offers.names.entries.filter fun entry => inSource entry.1).map fun entry =>
        (short entry.1, entry.2)))

/-- The classes with parameters in the order of inheritance. -/
def Survey.ordered (s : Survey) (classes : List String) (aliases : Table String) : List String :=
  let bases := s.fullBases.mapEntries fun _ listed =>
    listed.map fun base => (aliases.get? base).getD base
  orderClasses classes fun name => (bases.get? name).getD []

/-- The classes with parameters, in the order of the set that holds them. -/
def Survey.classSet (s : Survey) (library : String) : List String :=
  s.setOrder.members (parameterizedClasses library s.bases)

/-- Puts the classes, aliases and parameter types of a surveyed library into the store. -/
def storeSurvey (library version : String) (s : Survey) : LibraryM Nat := do
  let session := (← get).session
  let classes := s.classSet library
  let types := parameterTypes library s.bases session.types
  changeSession fun session =>
    { session with latestTypes := types, types := types, wholes := [] }
  changeStore (Store.setTypes library types version)
  let aliases := wholeAliases classes s.offers
  for (short, full) in aliases.entries do
    changeStore (Store.setAlias library short full version)
  let ancestry : Ancestry := ⟨session.infos, s.bases, s.definitions⟩
  let mut count := 0
  for path in s.ordered classes aliases do
    match s.definitions.get? path with
    | none => pure ()
    | some d =>
      let c ← onStore (ancestry.complete types path d)
      changeStore (Store.setClass library path c version)
      count := count + 1
  for (short, full) in s.offers.names.entries do
    changeStore (Store.setAlias library short full version)
  changeStore (Store.flush library version)
  changeSession fun session => { session with search := session.search.forget }
  return count

/-- Goes through the source files of a library and stores what it finds. -/
def populateSources (w : World) (library version : String) : LibraryM Nat := do
  let files := sources w library
  match rootOf? w library files with
  | none => return 0
  | some root =>
    let graph := dependencyGraph w library root files
    let ordered := orderFiles files (dependenciesIn graph)
    let session := (← get).session
    storeSurvey library version
      (Survey.ofFiles w library root ordered { wholes := session.wholes })

/-- Goes through a library and before it through its dependencies, each library once; the answer
is the number of classes found. A library that is in the store is left as it is. -/
def populateWith (w : World) : Nat → String → LibraryM Nat
  | 0, _ => pure 0
  | fuel + 1, library => do
    let session := (← get).session
    if !session.allowed.contains library || session.populated.contains library then return 0
    changeSession fun s => { s with populated := s.populated ++ [library] }
    match session.infos.get? library with
    | none => return 0
    | some info =>
      if ← onStore (Store.hasClasses library info.version) then return 0
      for dependency in info.dependencies do
        if !(← get).session.populated.contains dependency then
          let _ ← populateWith w fuel dependency
      populateSources w library info.version

/-- Goes through a library and its dependencies. -/
def populate (w : World) (library : String) : LibraryM Nat := do
  populateWith w ((← get).session.allowed.length + 1) library

/-- The parameter types of all analysed libraries in the store. -/
def allTypes : LibraryM (List String) := do
  let session := (← get).session
  let found ← session.allowed.mapM fun library =>
    match session.infos.get? library with
    | none => pure []
    | some info => onStore (Store.types library info.version)
  return found.flatten.eraseDups

/-- Keeps the answer for a class. -/
def answer (path : String) (found : Option ParamClass) : LibraryM (Option ParamClass) := do
  changeSession fun s => { s with asked := s.asked.insert path found }
  return found

/-- Looks for a class in the store, and in the source files when the store has nothing on its
library. -/
def lookUp (w : World) (library path version : String) : LibraryM (Option ParamClass) := do
  match ← onStore (Store.find? library path version) with
  | some found => answer path (some found)
  | none =>
    if ← onStore (Store.hasClasses library version) then answer path none
    else
      let found ← onSearch w fun context => searchSources context path
      match found with
      | none => answer path none
      | some c =>
        changeStore (Store.flush library version ∘ Store.setClass library path c version)
        answer path (some c)

/-- The class of a library with a full name, if it has parameters. -/
def find? (w : World) (path : String) : LibraryM (Option ParamClass) := do
  if Text.startsWith path "param." then answer path none
  else match (← get).session.asked.get? path with
    | some known => return known
    | none =>
      let library := Dotted.first path
      if !(← get).session.allowed.contains library then answer path none
      else
        if !(← get).session.populated.contains library then
          let _ ← populate w library
        match (← get).session.infos.get? library with
        | none => answer path none
        | some info => lookUp w library path info.version

end ParamLens.Library
