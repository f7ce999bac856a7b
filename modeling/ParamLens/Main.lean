import ParamLens.Command.Run
import ParamLens.Syntax.OutlineReading

/-! The program. It reads the sources named on its command line, each with the syntax tree that
stands beside it, runs the command, and prints what the run leaves. The tree of a source is kept in
a file of the same name with `.tree` behind it. Libraries are not looked for, and a server is not
connected: both belong to the machine that runs the library. -/

open ParamLens

/-- The texts of all sources at a path, with the components of their paths. -/
partial def readSources (path : String) : IO (List (List String × Content)) := do
  let place := (← IO.currentDir) / path
  if ← place.isDir then
    let mut found := []
    for entry in ← place.readDir do
      found := found ++ (← readSources (path ++ "/" ++ entry.fileName))
    return found
  else if FileSystem.isSourceName path && (← place.pathExists) then
    let bytes ← IO.FS.readBinFile place
    return [((Path.ofText (toString place)).parts, .bytes bytes.toList)]
  else return []

/-- The syntax tree beside a source, with the text that it belongs to. -/
def readTree (source : List String × Content) : IO (List (String × Syntax.Node)) := do
  let path := "/" ++ Text.join "/" source.1 ++ ".tree"
  match source.2.read with
  | .error _ => return []
  | .ok text =>
    try
      let written ← IO.FS.readFile path
      let outline := (Json.read written).toOption.bind Syntax.Outline.ofJson?
      return (outline.map fun outline => (text, outline.toNode text)).toList
    catch _ => return []

/-- What a run finds: the sources named by its arguments, and the variables of its process. -/
def readScene (arguments : List String) : IO Command.Scene := do
  let files := (← arguments.mapM readSources).flatten
  let trees := (← files.mapM readTree).flatten
  let here := Path.ofText (toString (← IO.currentDir))
  return {
    world := { files := ⟨files, [here.parts]⟩, trees }
    store := {}
    storeDirectory := here.join ".cache"
    here
    process := ⟨← IO.getEnv "HOME", ← IO.getEnv "VIRTUAL_ENV", ← IO.getEnv "CONDA_DEFAULT_ENV",
      ← IO.getEnv "CONDA_PREFIX"⟩
    isTerminal := ← (← IO.getStdout).isTty }

/-- Runs the program. -/
def main (arguments : List String) : IO UInt32 := do
  match Command.run (← readScene arguments) arguments with
  | .error _ => return 1
  | .ok outcome =>
    IO.print outcome.output
    IO.eprint outcome.errors
    return UInt32.ofNat outcome.status
