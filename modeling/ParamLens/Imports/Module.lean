import ParamLens.Library.Module

/-! The file that holds an imported module. -/

namespace ParamLens.Imports

/-- The path without ending of a module that is written with dots at its start, beside a file. -/
def relativeTarget (name : String) (file : Path) : Path :=
  let parts := Dotted.components (Dotted.withoutLeadingDots name)
  (parts.filter (· != "")).foldl Path.join file.parent

/-- The path without ending of a module of the workspace that is written by its full name. -/
def absoluteTarget (name : String) (workspace : Path) : Path :=
  (Dotted.components name).foldl Path.join workspace

/-- The file of a module that is written with dots at its start, beside the current file. -/
def relativeFile? (w : World) (name : String) (current : Option Path) : Option Path :=
  current.bind fun file => Library.moduleFileAt? w (relativeTarget name file)

/-- The source file that a module comes from when it is installed. -/
def origin? (w : World) (name : String) : Option Path :=
  (w.moduleOrigins.get? name).filter fun origin => Text.endsWith origin.text ".py"

/-- The file of a module that is written by its full name: in the workspace, or else installed. -/
def absoluteFile? (w : World) (workspace : Path) (name : String) : Option Path :=
  (Library.moduleFileAt? w (absoluteTarget name workspace)).or (origin? w name)

/-- The file of a module, for a workspace and the file that imports it. -/
def moduleFile? (w : World) (workspace current : Option Path) (name : String) : Option Path :=
  workspace.bind fun root =>
    if Text.startsWith name "." then relativeFile? w name current
    else absoluteFile? w root name

/-- The path without ending at which a module is looked for first. -/
def target? (workspace current : Option Path) (name : String) : Option Path :=
  workspace.bind fun root =>
    if Text.startsWith name "." then current.map (relativeTarget name)
    else some (absoluteTarget name root)

/-- Why a module is not looked for: the path where it should be has no last component. -/
def moduleFault? (w : World) (workspace current : Option Path) (name : String) :
    Option Library.NamelessPath :=
  ((target? workspace current name).filter w.lacksName).map .mk

/-- The file of a module, if it can be looked for. -/
def moduleFile (w : World) (workspace current : Option Path) (name : String) :
    Except Library.NamelessPath (Option Path) :=
  match moduleFault? w workspace current name with
  | some fault => .error fault
  | none => .ok (moduleFile? w workspace current name)

end ParamLens.Imports
