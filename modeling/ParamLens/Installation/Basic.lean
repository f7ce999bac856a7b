import ParamLens.Json.Reading
import ParamLens.Text.Quoted
import ParamLens.World.Basic

/-! Installations of Python: the program that runs one, and the directories of its libraries, which
the program itself is asked for when they are needed. -/

namespace ParamLens

/-- What a program did that was asked for a report. -/
inductive Reply where
  | printed (report : String)
  | failed
  | timedOut
  | missing
deriving DecidableEq, Repr

/-- The variables of a process that tell where installations are. -/
structure Variables where
  home : Option String := none
  virtualDirectory : Option String := none
  condaName : Option String := none
  condaDirectory : Option String := none

/-- An installation of Python. The directories of its libraries are absent until they are known. -/
structure Installation where
  program : Path
  site : Option (List Path) := none
  userSite : Option (Option Path) := none

namespace Installation

/-- Why there is no installation, or why it cannot be asked. -/
inductive Fault where
  | noProgram (shown : String)
  | noDirectory (directory : Path)
  | emptyDirectory (directory : Path)
  | noConda (name : String)
  | emptyConda (name : String)
  | silentConda (name reason : String)
  | condaMissing
  | programGone (program : Path)
  | lacks (key : String)
  | notObject (kind : String)
deriving DecidableEq, Repr

/-- The wording of a fault. -/
def Fault.message : Fault → String
  | .noProgram shown => "Python executable not found: " ++ shown
  | .noDirectory directory => "Virtual environment not found: " ++ directory.text
  | .emptyDirectory directory => "No Python executable found in venv: " ++ directory.text
  | .noConda name => "Conda environment not found: " ++ name
  | .emptyConda name => "No Python executable found in conda env: " ++ name
  | .silentConda name reason => "Failed to query conda environment " ++ name ++ ": " ++ reason
  | .condaMissing => "conda command not found. Is conda installed and in PATH?"
  | .programGone program => "[Errno 2] No such file or directory: " ++ Text.quoted program.text
  | .lacks key => Text.quoted key
  | .notObject kind => "'" ++ kind ++ "' object has no attribute 'get'"

/-- A path with the home directory written as a tilde. -/
def shownPath (process : Variables) (path : Path) : String :=
  match process.home with
  | none => path.text
  | some home =>
    match path.below? (Path.ofText home) with
    | some [] => "~"
    | some parts => "~/" ++ Text.join "/" parts
    | none => path.text

/-- The text that names an installation. -/
def title (process : Variables) (i : Installation) : String :=
  "PythonEnvironment(" ++ Text.quoted (shownPath process i.program) ++ ")"

/-- The installation, if its program is there. -/
def checked (fs : FileSystem) (process : Variables) (i : Installation) :
    Except Fault Installation :=
  if fs.contains i.program then .ok i else .error (.noProgram (shownPath process i.program))

/-- The installation of a program, about which nothing else is known. -/
def ofProgram (fs : FileSystem) (process : Variables) (program : Path) :
    Except Fault Installation :=
  checked fs process { program }

/-- Where a directory may hold the program of its installation, in the order of trust. -/
def programPlaces : List String := ["bin/python", "python.exe", "Scripts/python.exe", "bin/python3"]

/-- The program in the directory of an installation. -/
def programIn? (fs : FileSystem) (directory : Path) : Option Path :=
  (programPlaces.map directory.join).find? fs.contains

/-- The installation in a directory made for one project. -/
def ofDirectory (fs : FileSystem) (process : Variables) (directory : Path) :
    Except Fault Installation :=
  if !fs.contains directory then .error (.noDirectory directory)
  else
    match programIn? fs directory with
    | some program => ofProgram fs process program
    | none => .error (.emptyDirectory directory)

/-- How the list of conda installations is asked for, in the words of messages. -/
def condaCommand : String := "Command '['conda', 'info', '--envs', '--json']'"

/-- The directories in a report of conda. -/
def condaDirectories (report : Json) : List Path :=
  match report.member? "envs" with
  | some (.list items) => (items.filterMap Json.text?).map Path.ofText
  | _ => []

/-- The conda installation with a name, given what conda says about its installations. -/
def ofConda (fs : FileSystem) (process : Variables) (name : String) (reply : Reply) :
    Except Fault Installation :=
  match reply with
  | .missing => .error .condaMissing
  | .failed => .error (.silentConda name (condaCommand ++ " returned non-zero exit status 1."))
  | .timedOut => .error (.silentConda name (condaCommand ++ " timed out after 10 seconds"))
  | .printed report =>
    match Json.read report with
    | .error fault => .error (.silentConda name (fault.message report))
    | .ok (.object members) =>
      match (condaDirectories (.object members)).find? (·.name == name) with
      | none => .error (.noConda name)
      | some directory =>
        match programIn? fs directory with
        | some program => ofProgram fs process program
        | none => .error (.emptyConda name)
    | .ok other => .error (.notObject other.kindName)

/-- The installation that the variables tell of; a directory made for one project comes before a
conda installation. -/
def ofVariables? (fs : FileSystem) (process : Variables) : Option Installation :=
  let given (value : Option String) : Option Path := (value.filter (· != "")).map Path.ofText
  let project := (given process.virtualDirectory).bind fun directory =>
    (ofDirectory fs process directory).toOption
  let conda := (given process.condaName).bind fun _ =>
    (given process.condaDirectory).bind fun directory =>
      (programIn? fs directory).bind fun program => (ofProgram fs process program).toOption
  project.orElse fun _ => conda

/-- The paths in a list of texts. -/
def pathsOf : Json → List Path
  | .list items => (items.filterMap Json.text?).map Path.ofText
  | _ => []

/-- The installation after its program was asked for its directories. The first directory of the
program is its own and is left out; a directory of the user that is not there is left out. A
program that fails leaves all as it is. -/
def learn (fs : FileSystem) (i : Installation) (reply : Reply) : Installation × Option Fault :=
  match reply with
  | .failed => (i, none)
  | .timedOut => (i, none)
  | .missing => (i, some (.programGone i.program))
  | .printed report =>
    match Json.read report with
    | .error _ => (i, none)
    | .ok value =>
      match value.member? "sys_path" with
      | none => (i, some (.lacks "sys_path"))
      | some paths =>
        let found := { i with site := some ((pathsOf paths).drop 1) }
        match (value.member? "user_site").bind Json.text? with
        | none => (found, some (.lacks "user_site"))
        | some directory =>
          ({ found with userSite := some ((some (Path.ofText directory)).filter fs.contains) },
            none)

/-- What an installation says about its libraries; a program that fails says nothing. -/
def libraries (i : Installation) (reply : Reply) : Except Fault Json :=
  match reply with
  | .failed => .ok (.object [])
  | .timedOut => .ok (.object [])
  | .missing => .error (.programGone i.program)
  | .printed report =>
    match Json.read report with
    | .error _ => .ok (.object [])
    | .ok value => .ok value

end Installation

end ParamLens
