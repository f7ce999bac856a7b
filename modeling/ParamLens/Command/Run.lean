import ParamLens.Command.Display
import ParamLens.Command.Files
import ParamLens.Command.Request
import ParamLens.Editor.Server
import ParamLens.Installation.Basic

/-! Runs of the program: what a command line prints, how the run ends, and the server that it
starts. -/

namespace ParamLens.Command

/-- What a run of the program finds when it starts. -/
structure Scene where
  world : World
  store : Library.Store
  storeDirectory : Path
  here : Path
  process : Variables := {}
  isTerminal : Bool := false

/-- How a server that was started can be reached. -/
inductive Service where
  | standardStreams
  | tcp (host : String) (port : Int)
deriving DecidableEq, Repr

/-- What a run leaves behind. -/
structure Outcome where
  status : Nat := 0
  output : String := ""
  errors : String := ""
  service : Option Service := none
  store : Library.Store

/-- The outcome of a command line that was not read to its end. -/
def Ending.outcome (store : Library.Store) : Ending → Outcome
  | .shown text => { output := text, store }
  | .refused text => { status := 2, errors := text, store }

/-- The wording of a fault of a file that cannot be read. -/
def readFaultMessage (path : Path) : ReadFault → String
  | .missing => "[Errno 2] No such file or directory: " ++ Text.quoted path.text
  | .directory => "[Errno 21] Is a directory: " ++ Text.quoted path.text
  | .undecodable fault => fault.message

/-- A finding with the file that it is in and the text of the file. -/
structure Located where
  path : Path
  content : String
  diagnostic : Diagnostic

/-- Why a check stops before its end: a file that cannot be read, or an analysis that fails. -/
inductive CheckStop where
  | unreadable (message : String)
  | failed (failure : Failure)

/-- The findings in files, in the order of the files. -/
def findings (scene : Scene) : List Path → AnalysisState →
    Except CheckStop (List Located) × AnalysisState
  | [], s => (.ok [], s)
  | path :: rest, s =>
    let place := scene.here.join path.text
    match scene.world.files.read place with
    | .error fault =>
      (.error (.unreadable ("Error reading " ++ path.text ++ ": " ++ readFaultMessage path fault)),
        s)
    | .ok content =>
      match (Analysis.analyzeFile scene.world content (some place)).run s with
      | (.error failure, s) => (.error (.failed failure), s)
      | (.ok analysis, s) =>
        let (more, s) := findings scene rest s
        (more.map (analysis.diagnostics.map (⟨path, content, ·⟩) ++ ·), s)

/-- The number of findings of a severity. -/
def countOf (severity : Severity) (found : List Located) : Nat :=
  found.countP fun item => item.diagnostic.rule.severity == severity

/-- What a check of files prints about its findings. -/
def reportText (scene : Scene) (fileCount : Nat) (found : List Located) : String :=
  let palette := if scene.isTerminal then Palette.terminal else Palette.plain
  let files := toString fileCount ++ " file(s)\n"
  if found.isEmpty then "No issues found in " ++ files
  else
    Text.join "" (found.map fun item => linesText
      ((Finding.ofDiagnostic item.diagnostic).lines palette item.path.text item.content)) ++
    "\nFound " ++ toString (countOf .error found) ++ " error(s) and " ++
      toString (countOf .warning found) ++ " warning(s) in " ++ files

/-- The outcome of a check of what written paths stand for. -/
def runCheck (scene : Scene) (written : List String) : Except Failure Outcome :=
  let stop (message : String) (store : Library.Store) : Outcome :=
    { status := 1, errors := message ++ "\n", store }
  match expand scene.world.files scene.here written with
  | .error fault => .ok (stop fault.message scene.store)
  | .ok [] => .ok (stop "No Python files found to check" scene.store)
  | .ok files =>
    let (analyzer, store) := Analyzer.start scene.world none [] scene.store
    match findings scene files ⟨analyzer, store⟩ with
    | (.error (.unreadable message), s) => .ok (stop message s.store)
    | (.error (.failed failure), _) => .error failure
    | (.ok found, s) =>
      .ok { status := if 0 < countOf .error found then 1 else 0
            output := reportText scene files.length found
            store := s.store }

/-- The store after the records of all libraries that may be analysed were made. -/
def generated (scene : Scene) (extra : List String) (store : Library.Store) : Library.Store :=
  let session := Library.Session.start scene.world extra
  let step : Library.LibraryM Unit :=
    session.allowed.forM fun library => discard (Library.populate scene.world library)
  (step ⟨session, store⟩).2.store

/-- The outcome of a task on the store. -/
def runStore (scene : Scene) (extra : List String) : StoreTask → Outcome
  | .locate =>
    { output := scene.storeDirectory.text ++ "::" ++
        Library.versionText Library.formatVersion "." ++ "\n"
      store := scene.store }
  | .generate => { store := generated scene extra scene.store }
  | .regenerate => { store := generated scene extra scene.store.clear }

/-- The outcome of starting a server. -/
def runServer (scene : Scene) (extra : List String) (options : ServerOptions) : Outcome :=
  if options.overTcp && options.overStandardStreams then
    (refuse "--tcp and --stdio are mutually exclusive").outcome scene.store
  else
    { service := some (if options.overTcp then .tcp "localhost" options.port else .standardStreams)
      store := (Editor.Server.start scene.world extra scene.store).store }

/-- Why the program of a request cannot run an installation, if it cannot. -/
def programFault? (scene : Scene) (request : Request) : Option Installation.Fault :=
  match request.program.filter (· != "") with
  | none => none
  | some written =>
    if scene.world.files.contains (scene.here.join written) then none
    else some (.noProgram (Installation.shownPath scene.process (Path.ofText written)))

/-- The outcome of a run of the program. -/
def run (scene : Scene) (arguments : List String) : Except Failure Outcome :=
  match readRequest arguments with
  | .error ending => .ok (ending.outcome scene.store)
  | .ok (request, task) =>
    match programFault? scene request with
    | some fault =>
      .ok ((refuse ("Invalid Python environment configuration: " ++ fault.message)).outcome
        scene.store)
    | none =>
      let extra := libraryNames request.extraLibraries
      match task with
      | .store task => .ok (runStore scene extra task)
      | .check files => runCheck scene files
      | .server options => .ok (runServer scene extra options)

end ParamLens.Command
