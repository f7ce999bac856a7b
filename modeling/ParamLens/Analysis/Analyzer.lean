import ParamLens.Analysis.Inheritance
import ParamLens.Analysis.Order
import ParamLens.Check.File
import ParamLens.Imports.Module
import ParamLens.Library.Session

/-! Analysing a file: its imports, its classes with parameters and its diagnostics. Modules of the
workspace that the file imports are analysed on the way, each by an analyzer of its own. -/

namespace ParamLens

open Syntax

/-- Why an analysis does not come to an end. -/
inductive Failure where
  /-- The analysis of a module needs the analysis of the same module. -/
  | importCycle
  /-- An edit begins on a line that the text does not have. -/
  | lineOutOfRange
  /-- The host in an address has only one of the two brackets. -/
  | malformedAddress
  /-- A module is looked for at a path that has no last component. -/
  | namelessPath (fault : Library.NamelessPath)
deriving DecidableEq, Repr

/-- What is said about a failure. -/
def Failure.message : Failure → String
  | importCycle => "maximum recursion depth exceeded while calling a Python object"
  | lineOutOfRange => "list index out of range"
  | malformedAddress => "Invalid IPv6 URL"
  | namelessPath fault => fault.message

/-- What the analysis of a file finds. -/
structure Analysis where
  classes : Classes := ∅
  imports : Imports := ∅
  diagnostics : List Diagnostic := []

instance : Inhabited Analysis := ⟨{}⟩

/-- What is known while files are analysed one after another. -/
structure Analyzer where
  workspace : Option Path
  extra : List String
  session : Library.Session
  types : List String
  latest : Analysis := {}
  external : Table (Option ParamClass) := ∅
  modules : Table Analysis := ∅
  files : Table Analysis := ∅

/-- A new analyzer. Its parameter types are those in the store. -/
def Analyzer.start (w : World) (workspace : Option Path) (extra : List String) :
    StateM Library.Store Analyzer := fun store =>
  let (types, s) := Library.allTypes ⟨Library.Session.start w extra, store⟩
  ({ workspace, extra, session := s.session, types }, s.store)

/-- An analyzer together with the store. -/
structure AnalysisState where
  analyzer : Analyzer
  store : Library.Store

/-- Steps of an analysis. A step that fails keeps what was done before it. -/
abbrev AnalysisM := ExceptT Failure (StateM AnalysisState)

/-- How a module is analysed, given its file and its text. -/
abbrev Importer := Path → String → ExceptT Failure (StateM Library.Store) Analysis

namespace Analysis

/-- A step on what is known about libraries. -/
def onLibraries {α : Type} (step : Library.LibraryM α) : StateM AnalysisState α := fun s =>
  let (a, state) := step ⟨s.analyzer.session, s.store⟩
  (a, { analyzer := { s.analyzer with session := state.session }, store := state.store })

/-- A change of the analyzer. -/
def changeAnalyzer (f : Analyzer → Analyzer) : AnalysisM Unit :=
  modify fun s => { s with analyzer := f s.analyzer }

/-- A change of the analysis of the present file. -/
def changeLatest (f : Analysis → Analysis) : AnalysisM Unit :=
  changeAnalyzer fun a => { a with latest := f a.latest }

/-- The class of a library with a full name; answers are kept. -/
def externalClass (w : World) (path : Option String) : AnalysisM (Option ParamClass) := do
  match path with
  | none => return none
  | some full =>
    match (← get).analyzer.external.get? full with
    | some known => return known
    | none =>
      let found ← ExceptT.lift (onLibraries (Library.find? w full))
      changeAnalyzer fun a => { a with external := a.external.insert full found }
      return found

/-- Runs the analysis of a module on the store. -/
def runImporter (importer : Importer) (file : Path) (content : String) : AnalysisM Analysis :=
  fun s =>
    let (result, store) := importer file content s.store
    (result, { s with store })

/-- Keeps the analysis of a module under its name and under its file. -/
def keepModule (name file : String) (a : Analysis) : AnalysisM Unit :=
  changeAnalyzer fun analyzer =>
    { analyzer with
      modules := analyzer.modules.insert name a
      files := analyzer.files.insert file a }

/-- The analysis of an imported module, if there is a path to look at for it; a module that is not
found or cannot be read has an empty one. -/
def importedModule (importer : Importer) (w : World) (name : String) (current : Option Path) :
    AnalysisM Analysis := do
  let analyzer := (← get).analyzer
  match analyzer.modules.get? name with
  | some known => return known
  | none =>
    match Imports.moduleFile w analyzer.workspace current name with
    | .error fault => throw (.namelessPath fault)
    | .ok none => return {}
    | .ok (some file) =>
      match analyzer.files.get? file.text with
      | some known =>
        keepModule name file.text known
        return known
      | none =>
        match w.read? file with
        | none => return {}
        | some content =>
          let found ← runImporter importer file content
          keepModule name file.text found
          return found

/-- The class that an import of the present file names. -/
def importedClass (importer : Importer) (w : World) (className bound : String)
    (current : Option Path) : AnalysisM (Option ParamClass) := do
  match ((← get).analyzer.latest.imports.get? bound).filter (· != "") with
  | none => return none
  | some full =>
    let (module, name) :=
      if Dotted.isDotted full then (Dotted.parent full, Dotted.last full) else (full, className)
    return (← importedModule importer w module current).classes.named? name

/-- How the classes outside of the present file are asked for. -/
def outside (importer : Importer) (w : World) (current : Option Path) : Outside AnalysisM :=
  { imported := fun className bound => importedClass importer w className bound current
    external := externalClass w }

/-- What the analyzer recognises as declarations in the present file. -/
def recognition (a : Analyzer) : Recognition := ⟨a.latest.imports, a.types⟩

/-- Takes a class of the present file: one with parameters is entered under its key. -/
def takeClass (importer : Importer) (w : World) (content : String) (current : Option Path)
    (n : Node) : AnalysisM Unit := do
  let around := outside importer w current
  let isParameterized ← n.bases.anyM fun base => do
    let latest := (← get).analyzer.latest
    isParameterizedBase around latest.imports latest.classes base
  match isParameterized, n.className? with
  | true, some name =>
    let latest := (← get).analyzer.latest
    let inherited ← inheritedParameters around latest.imports latest.classes n
    let own := Declaration.parameters (recognition (← get).analyzer) content n
    let c := own.foldl ParamClass.add ((ParamClass.ofName name).merge inherited)
    changeLatest fun a => { a with classes := a.classes.insert (Classes.key name n.row) c }
  | _, _ => return

/-- The full name is one of an analysed library. -/
def isAllowed (a : Analyzer) (path : String) : Bool :=
  Dotted.isDotted path && a.session.allowed.contains (Dotted.first path)

/-- Asks for the classes of libraries that the file calls. -/
def discover (w : World) (root : Node) : AnalysisM Unit := do
  for call in w.finder.nodes .calls root do
    let analyzer := (← get).analyzer
    match (analyzer.latest.imports.classPath? call).filter (isAllowed analyzer) with
    | some path => let _ ← externalClass w (some path)
    | none => pure ()

/-- The diagnostics of the present file. -/
def diagnose (w : World) (root : Node) : AnalysisM (List Diagnostic) := do
  let a := (← get).analyzer
  let known : Check.Known :=
    { classes := a.latest.classes
      external := a.external
      imports := a.latest.imports
      isDeclaration := (recognition a).isParameterAssignment
      finder := w.finder }
  ExceptT.lift (Check.checkFile known (fun path => onLibraries (Library.find? w path)) root)

/-- Analyses a file, with the given way to analyse the modules that it imports. A text without a
tree has an empty analysis. -/
def analyzeWith (importer : Importer) (w : World) (content : String) (current : Option Path) :
    AnalysisM Analysis := do
  match w.parse? content with
  | none => return {}
  | some root =>
    changeLatest fun _ => { imports := Imports.ofTree w.finder root }
    for n in classOrder (w.finder.classes root) do
      takeClass importer w content current n
    discover w root
    let found ← diagnose w root
    changeLatest fun a => { a with diagnostics := found }
    return (← get).analyzer.latest

/-- Analyses a module by an analyzer of its own. `around` holds the modules whose analysis this one
is part of; a module that is among them has no analysis. -/
def importModule (w : World) (workspace : Option Path) (extra : List String) :
    Nat → List Path → Importer
  | 0, _, _, _ => throw .importCycle
  | fuel + 1, around, file, content =>
    if around.contains file then throw .importCycle
    else fun store =>
      let (analyzer, store) := Analyzer.start w workspace extra store
      let (result, s) :=
        analyzeWith (importModule w workspace extra fuel (file :: around)) w content (some file)
          ⟨analyzer, store⟩
      (result, s.store)

/-- The number of modules that can be part of each other's analysis: each file can be reached
through the workspace, through a module beside it, or through its origin. -/
def importDepth (w : World) : Nat :=
  (w.files.files.length + 1) * (w.moduleOrigins.size + 3)

/-- How the present analyzer analyses modules. -/
def importer (w : World) (a : Analyzer) : Importer :=
  importModule w a.workspace a.extra (importDepth w) []

/-- Analyses a file. -/
def analyzeFile (w : World) (content : String) (current : Option Path) : AnalysisM Analysis := do
  analyzeWith (importer w (← get).analyzer) w content current

end Analysis

end ParamLens
