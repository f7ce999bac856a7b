import ParamLens.Editor.Address
import ParamLens.Editor.Edit
import ParamLens.Editor.Hover

/-! The server behind an editor: it keeps the open documents, analyses them when they are opened or
changed, and answers for completions and for what is shown at a place. -/

namespace ParamLens.Editor

/-- The analyzer of a document: the one from before a workspace is known, or the one of the
workspace. -/
inductive Owner where
  | detached
  | attached
deriving DecidableEq, Repr

/-- An open document. Its classes and imports are those that its analyzer has found last. -/
structure Document where
  content : String
  owner : Owner
deriving DecidableEq, Repr

/-- The state of the server. -/
structure Server where
  workspace : Option String := none
  types : List String
  detached : Analyzer
  attached : Option Analyzer := none
  documents : Table Document := ∅
  store : Library.Store

/-- Steps of the server. A step that fails keeps what was done before it. -/
abbrev ServerM := ExceptT Failure (StateM Server)

namespace Server

/-- The last components of the names, sorted, each once. -/
def shortNames (paths : List String) : List String :=
  ((paths.map Dotted.last).eraseDups).mergeSort fun a b => a ≤ b

/-- The server at its start. -/
def start (w : World) (extra : List String) (store : Library.Store) : Server :=
  let (analyzer, store) := Analyzer.start w none extra store
  { types := shortNames analyzer.types, detached := analyzer, store }

/-- What the editor says about its workspace. -/
structure Greeting where
  folders : List String := []
  rootAddress : Option String := none
  rootPath : Option String := none

/-- The path of an address. -/
def pathOf (address : String) : ServerM String :=
  match Address.path? address with
  | some path => return path
  | none => throw .malformedAddress

/-- The workspace that a greeting names: its first folder, else its root. -/
def greet (g : Greeting) : ServerM Unit := do
  match g.folders, g.rootAddress.filter (· != ""), g.rootPath.filter (· != "") with
  | folder :: _, _, _ =>
    let path ← pathOf folder
    modify fun s => { s with workspace := some path }
  | [], some address, _ =>
    let path ← pathOf address
    modify fun s => { s with workspace := some path }
  | [], none, some path => modify fun s => { s with workspace := some path }
  | [], none, none => return

/-- The characters after which completions are offered unasked. -/
def completionTriggers : List String := [".", "=", "("]

/-- The name under which diagnostics are published. -/
def diagnosticSource : String := "param-lsp"

/-- The analyzer of an owner. -/
def analyzerOf (s : Server) : Owner → Analyzer
  | .detached => s.detached
  | .attached => s.attached.getD s.detached

/-- The owner of documents that are analysed now. -/
def owner (s : Server) : Owner := if s.attached.isSome then .attached else .detached

/-- The server with another state of an owner's analyzer. -/
def setAnalyzer (s : Server) (a : Analyzer) : Owner → Server
  | .detached => { s with detached := a }
  | .attached => { s with attached := some a }

/-- A step of the analyzer of an owner. -/
def onAnalyzer {α : Type} (o : Owner) (step : AnalysisM α) : ServerM α := fun s =>
  let (result, next) := step ⟨s.analyzerOf o, s.store⟩
  (result, { s.setAnalyzer next.analyzer o with store := next.store })

/-- Starts the analyzer of the workspace once the workspace is known. It has no extra libraries. -/
def attach (w : World) : ServerM Unit := modify fun s =>
  match s.workspace.filter (· != ""), s.attached with
  | some root, none =>
    let (analyzer, store) := Analyzer.start w (some (Path.ofText root)) [] s.store
    { s with attached := some analyzer, store }
  | _, _ => s

/-- Analyses a document and keeps it; the answer is what is published about it. -/
def analyze (w : World) (address content : String) : ServerM (List Diagnostic) := do
  let path ← pathOf address
  attach w
  let o := (← get).owner
  let file := if path = "" then none else some (Path.ofText path)
  let found ← onAnalyzer o (Analysis.analyzeFile w content file)
  modify fun s => { s with documents := s.documents.insert address ⟨content, o⟩ }
  return found.diagnostics

/-- Changes an open document and analyses it; the answer is what is published about it. -/
def change (w : World) (address : String) (edits : List Edit) :
    ServerM (Option (List Diagnostic)) := do
  match (← get).documents.get? address with
  | none => return none
  | some document =>
    let content ← ExceptT.mk (pure (applyEdits document.content edits))
    return some (← analyze w address content)

/-- The classes of an open document. -/
def classesOf? (s : Server) (address : String) : Option Classes :=
  (s.documents.get? address).map fun document => (s.analyzerOf document.owner).latest.classes

/-- A step on an open document; `other` is the answer for a document that is not open. -/
def onDocument {α : Type} (address : String) (other : α) (step : Document → AnalysisM α) :
    ServerM α := do
  match (← get).documents.get? address with
  | none => return other
  | some document => onAnalyzer document.owner (step document)

/-- The completions at a place of a document. -/
def complete (w : World) (address : String) (place : Cursor) : ServerM (List Item) := do
  let types := (← get).types
  onDocument address [] fun document => Editor.complete w types document.content place

/-- What is shown at a place of a document. -/
def hover (s : Server) (address : String) (place : Cursor) : Option Hover :=
  (s.documents.get? address).bind fun document =>
    hover? (s.analyzerOf document.owner) s.types document.content place

end Server

end ParamLens.Editor
