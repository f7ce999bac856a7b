import ParamLens.Library.Module
import ParamLens.Imports.Binding

/-! Which files of a library import from which. -/

namespace ParamLens.Library

open Syntax

/-- The node that names the module of an import of names. -/
def moduleNode? (n : Node) : Option Node :=
  (n.child? .moduleName).or (n.children.find? fun child =>
    child.kind == .dottedName || child.kind == .relativeImport || child.kind == .identifier)

/-- The module of an import of names, as it is written. -/
def writtenModule? (n : Node) : Option String :=
  ((moduleNode? n).map Node.text).filter (· != "")

/-- The imports of names in a tree, in the order in which they are found. -/
def memberImports (f : Finder) (root : Node) : List Node :=
  (f.nodes .imports root).filter (·.kind == .importFromStatement)

/-- The files of a library by the modules that they hold. -/
def filesByModule (library : String) (root : Path) (files : List Path) : Table Path :=
  Table.ofList (files.filterMap fun file =>
    (moduleName? library root file).map fun name => (name, file))

/-- The module under which a file is entered. -/
def enteredModule? (modules : Table Path) (file : Path) : Option String :=
  (modules.entries.find? fun entry => entry.2 == file).map Prod.fst

/-- The file of the library from which an import of names takes them. -/
def importedFrom? (library : String) (modules : Table Path) (file : Path) (n : Node) :
    Option Path :=
  (writtenModule? n).bind fun written =>
    if Text.startsWith written "." then
      ((enteredModule? modules file).bind fun current =>
        (resolveRelative? written current false).filter (· != "")).bind modules.get?
    else if Text.startsWith written library then modules.get? written
    else none

/-- The files of the library from which a file imports, each once. -/
def dependenciesOf (w : World) (library : String) (modules : Table Path) (file : Path) :
    List Path :=
  match (w.read? file).bind w.parse? with
  | none => []
  | some root =>
    ((memberImports w.finder root).filterMap (importedFrom? library modules file)).eraseDups

/-- The files of a library, each with those from which it imports. -/
def dependencyGraph (w : World) (library : String) (root : Path) (files : List Path) :
    List (Path × List Path) :=
  let modules := filesByModule library root files
  files.map fun file => (file, dependenciesOf w library modules file)

/-- The dependencies of a file in a graph. -/
def dependenciesIn (graph : List (Path × List Path)) (file : Path) : List Path :=
  (graph.lookup file).getD []

end ParamLens.Library
