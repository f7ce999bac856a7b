import ParamLens.World.FileSystem

/-! The files that a check is asked for: a Python source stands for itself, a directory for the
sources below it. -/

namespace ParamLens.Command

/-- The names of directories whose sources are not checked. -/
def excludedNames : List String :=
  [".venv", ".pixi", "node_modules", ".ipynb_checkpoints", "__pycache__"]

/-- Why a path cannot be checked. -/
inductive PathFault where
  | missing (written : String)
  | notSource (written : String)
deriving DecidableEq, Repr

/-- The wording of a fault. -/
def PathFault.message : PathFault → String
  | .missing written => "Error: Path not found: " ++ written
  | .notSource written => "Error: Not a Python file: " ++ written

/-- No directory on the way to the path is excluded. -/
def isIncluded (path : Path) : Bool := !path.parts.dropLast.any excludedNames.contains

/-- What has the name of a source below a directory, written as a path that starts with the
directory's own. -/
def sourcesIn (fs : FileSystem) (here directory : Path) : List Path :=
  let place := here.join directory.text
  (fs.sourceNamesBelow place).map fun found =>
    { directory with parts := directory.parts ++ found.parts.drop place.parts.length }

/-- The sources that a written path stands for, seen from a directory. -/
def sourcesAt (fs : FileSystem) (here : Path) (written : String) : Except PathFault (List Path) :=
  let path := Path.ofText written
  let place := here.join written
  if fs.isFile place then
    if path.ending == ".py" then .ok [path] else .error (.notSource written)
  else if fs.isDirectory place then .ok ((sourcesIn fs here path).filter isIncluded)
  else .error (.missing written)

/-- The sources that written paths stand for, in the order of paths. -/
def expand (fs : FileSystem) (here : Path) (written : List String) :
    Except PathFault (List Path) :=
  (written.mapM (sourcesAt fs here)).map fun found => Path.sorted found.flatten

end ParamLens.Command
