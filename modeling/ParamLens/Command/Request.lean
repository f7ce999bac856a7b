import ParamLens.Command.Form

/-! The program's command line: what can be asked for, and the texts that explain it. -/

namespace ParamLens.Command

/-- What to do with the store of library records. -/
inductive StoreTask where
  | locate
  | generate
  | regenerate
deriving DecidableEq, Repr

/-- The options of a server. -/
structure ServerOptions where
  overTcp : Bool := false
  overStandardStreams : Bool := false
  port : Int := 8080
deriving DecidableEq, Repr

/-- A command. -/
inductive Task where
  | server (options : ServerOptions)
  | check (files : List String)
  | store (task : StoreTask)
deriving DecidableEq, Repr

/-- What a command line asks for. -/
structure Request where
  logLevel : String := "INFO"
  program : Option String := none
  extraLibraries : Option String := none
  task : Option Task := none
deriving DecidableEq, Repr

/-- The name of the program. -/
def programName : String := "param-lsp"

/-- The version of the program. -/
def versionText : String := "0.0.1b23.post1.dev3+g4a2a5ff"

/-- The arguments of the program. -/
def usage : String :=
  "usage: param-lsp [-h] [--version]\n" ++
  "                 [--log-level \x7bDEBUG,INFO,WARNING,ERROR,CRITICAL\x7d]\n" ++
  "                 [--python-path PYTHON_PATH]\n" ++
  "                 [--extra-libraries EXTRA_LIBRARIES]\n" ++
  "                 \x7bserver,check,cache\x7d ..."

/-- What the program does. -/
def description : String :=
  "param-lsp: Language Server Protocol implementation for HoloViz Param\n" ++
  "\n" ++
  "Provides IDE support for Python codebases using Param with:\n" ++
  "• Autocompletion for Param class constructors and parameter definitions\n" ++
  "• Type checking and validation with real-time error diagnostics\n" ++
  "• Hover documentation with parameter types, bounds, and descriptions\n" ++
  "• Cross-file analysis for parameter inheritance tracking\n" ++
  "\n" ++
  "Found a Bug or Have a Feature Request?\n" ++
  "Open an issue at: https://github.com/hoxbro/param-lsp/issues\n" ++
  "\n" ++
  "Need Help?\n" ++
  "See the documentation at: https://param-lsp.readthedocs.io\n"

/-- The explanation of the program's arguments. -/
def help : String :=
  usage ++ "\n\n" ++ description ++ "\n" ++
  "positional arguments:\n" ++
  "  \x7bserver,check,cache\x7d  Available commands\n" ++
  "    server              Start the LSP server (default)\n" ++
  "    check               Check Python files for Param-related errors and warnings\n" ++
  "    cache               Manage the external library cache\n" ++
  "\n" ++
  "options:\n" ++
  "  -h, --help            show this help message and exit\n" ++
  "  --version             show program's version number and exit\n" ++
  "  --log-level \x7bDEBUG,INFO,WARNING,ERROR,CRITICAL\x7d\n" ++
  "                        Set the logging level (default: INFO)\n" ++
  "  --python-path PYTHON_PATH\n" ++
  "                        Path to Python executable for analyzing external libraries " ++
  "(e.g., /path/to/venv/bin/python)\n" ++
  "  --extra-libraries EXTRA_LIBRARIES\n" ++
  "                        Comma-separated list of additional external libraries to analyze " ++
  "(e.g., geoviews,datashader)\n"

/-- The arguments of the server command. -/
def serverUsage : String := "usage: param-lsp server [-h] [--tcp] [--port PORT] [--stdio]"

/-- The explanation of the server command. -/
def serverHelp : String :=
  serverUsage ++ "\n\n" ++
  "options:\n" ++
  "  -h, --help   show this help message and exit\n" ++
  "  --tcp        Use TCP instead of stdio\n" ++
  "  --port PORT  TCP port to listen on (default: 8080)\n" ++
  "  --stdio      Use stdio (default)\n"

/-- The arguments of the check command. -/
def checkUsage : String := "usage: param-lsp check [-h] files [files ...]"

/-- The explanation of the check command. -/
def checkHelp : String :=
  checkUsage ++ "\n\n" ++
  "positional arguments:\n" ++
  "  files       Python files or directories to check " ++
  "(directories are searched recursively)\n" ++
  "\n" ++
  "options:\n" ++
  "  -h, --help  show this help message and exit\n"

/-- The arguments of the command for the store. -/
def storeUsage : String := "usage: param-lsp cache [-h] (--show | --generate | --regenerate)"

/-- The explanation of the command for the store. -/
def storeHelp : String :=
  storeUsage ++ "\n\n" ++
  "options:\n" ++
  "  -h, --help    show this help message and exit\n" ++
  "  --show        Print the cache directory path\n" ++
  "  --generate    Generate cache for supported libraries\n" ++
  "  --regenerate  Clear existing cache and regenerate for supported libraries\n"

/-- The flag that shows an explanation. -/
def helpFlag (σ : Type) (explanation : String) : Flag σ :=
  { names := ["-h", "--help"], apply := fun _ _ => .error (.shown explanation) }

/-- The arguments of the server command. -/
def serverForm : Form ServerOptions :=
  { name := "param-lsp server"
    usage := serverUsage
    flags := [helpFlag _ serverHelp,
      { names := ["--tcp"], apply := fun _ o => .ok { o with overTcp := true } },
      { names := ["--port"], takesValue := true, apply := fun value o =>
          match Number.readInt? value with
          | some port => .ok { o with port }
          | none => .error (.refused (serverUsage ++ "\nparam-lsp server: error: " ++
              aboutArgument "--port" ("invalid int value: " ++ Text.quoted value) ++ "\n")) },
      { names := ["--stdio"], apply := fun _ o => .ok { o with overStandardStreams := true } }] }

/-- The arguments of the check command. -/
def checkForm : Form (List String) :=
  { name := "param-lsp check"
    usage := checkUsage
    flags := [helpFlag _ checkHelp]
    operand := some { name := "files", required := true, takesRest := false
                      apply := fun files _ => .ok (files, []) } }

/-- The flag that asks for a task. -/
def StoreTask.flagName : StoreTask → String
  | .locate => "--show"
  | .generate => "--generate"
  | .regenerate => "--regenerate"

/-- The flag that asks for a task; only one task can be asked for. -/
def storeFlag (task : StoreTask) : Flag (Option StoreTask) :=
  { names := [task.flagName]
    apply := fun _ asked =>
      match asked.filter (· != task) with
      | some other => .error (.refused (storeUsage ++ "\nparam-lsp cache: error: " ++
          aboutArgument task.flagName ("not allowed with argument " ++ other.flagName) ++ "\n"))
      | none => .ok (some task) }

/-- The arguments of the command for the store. -/
def storeForm : Form (Option StoreTask) :=
  { name := "param-lsp cache"
    usage := storeUsage
    flags := helpFlag _ storeHelp :: [StoreTask.locate, .generate, .regenerate].map storeFlag
    finish := fun asked =>
      if asked.isSome then .ok asked
      else .error "one of the arguments --show --generate --regenerate is required" }

/-- The refusal of a command line by the program itself. -/
def refuse (message : String) : Ending :=
  .refused (usage ++ "\n" ++ programName ++ ": error: " ++ message ++ "\n")

/-- The names in quotes, with commas between them. -/
def quotedList (names : List String) : String := Text.join ", " (names.map Text.quoted)

/-- The message about a value that is not among the possible ones. -/
def invalidChoice (title value : String) (choices : List String) : String :=
  aboutArgument title
    ("invalid choice: " ++ Text.quoted value ++ " (choose from " ++ quotedList choices ++ ")")

/-- The levels of a log. -/
def logLevels : List String := ["DEBUG", "INFO", "WARNING", "ERROR", "CRITICAL"]

/-- The commands. -/
def taskNames : List String := ["server", "check", "cache"]

/-- The task that a command and its arguments ask for, and the arguments that belong to nothing. -/
def readTask (arguments : List String) : Except Ending (Task × List String) :=
  match arguments with
  | "server" :: rest => do
    let (options, extra) ← serverForm.read rest {}
    return (.server options, extra)
  | "check" :: rest => do
    let (files, extra) ← checkForm.read rest []
    return (.check files, extra)
  | "cache" :: rest => do
    let (asked, extra) ← storeForm.read rest none
    return (.store (asked.getD .locate), extra)
  | other => .error (refuse (invalidChoice "command" (other.headD "") taskNames))

/-- The arguments of the program. -/
def programForm : Form Request :=
  { name := programName
    usage
    flags := [helpFlag _ help,
      { names := ["--version"]
        apply := fun _ _ => .error (.shown (programName ++ " " ++ versionText ++ "\n")) },
      { names := ["--log-level"], takesValue := true, apply := fun value r =>
          let level := value.toUpper
          if logLevels.contains level then .ok { r with logLevel := level }
          else .error (refuse (invalidChoice "--log-level" level logLevels)) },
      { names := ["--python-path"], takesValue := true
        apply := fun value r => .ok { r with program := some value } },
      { names := ["--extra-libraries"], takesValue := true
        apply := fun value r => .ok { r with extraLibraries := some value } }]
    operand := some { name := "command", required := false, takesRest := true
                      apply := fun arguments r => do
                        let (task, extra) ← readTask arguments
                        return ({ r with task := some task }, extra) } }

/-- The message about a command line without a command. -/
def noTask : String :=
  "A subcommand is required. Use 'param-lsp server' to start the LSP server.\n" ++
  "See 'param-lsp --help' for available commands."

/-- What a command line asks for: the request and its task. -/
def readRequest (arguments : List String) : Except Ending (Request × Task) := do
  let (request, extra) ← programForm.read arguments {}
  if !extra.isEmpty then
    .error (refuse ("unrecognized arguments: " ++ Text.join " " extra))
  else
    match request.task with
    | some task => return (request, task)
    | none => .error (refuse noTask)

/-- The libraries in a list with commas. -/
def libraryNames (written : Option String) : List String :=
  match written with
  | none => []
  | some names => ((Text.split ',' names).map Text.trim).filter (· != "")

end ParamLens.Command
