import ParamLens.Library.Graph

/-! The names under which a package offers classes of other modules. -/

namespace ParamLens.Library

open Syntax

/-- The children after the keyword `import`. -/
def afterImport (n : Node) : List Node :=
  (n.children.dropWhile (·.kind != .importKeyword)).filter (·.kind != .importKeyword)

/-- The name that a part of an import takes from its module. -/
def takenName? (part : Node) : Option String :=
  match part.kind with
  | .identifier =>
    if part.text = "" ∨ part.text = "from" ∨ part.text = "import" then none else some part.text
  | .dottedName => if part.text = "" then none else some part.text
  | .aliasedImport => ((part.child? .name).map Node.text).filter (· != "")
  | _ => none

/-- The names that an import takes from its module. -/
def takenNames (n : Node) : List String := (afterImport n).filterMap takenName?

/-- The import takes all names of its module. -/
def takesAll (n : Node) : Bool := (afterImport n).any (·.kind == .wildcardImport)

/-- What the packages of a library offer: names that stand for others, and packages that offer all
names of a module. -/
structure Offers where
  names : Table String := ∅
  wholes : List (String × String) := []

/-- The full name of the module from which an import in a package takes its names. -/
def sourceModule? (package : String) (n : Node) : Option String :=
  ((writtenModule? n).bind fun written => resolveRelative? written package true).filter (· != "")

/-- The names that a package offers through an import, each with what it stands for. -/
def reexports (package : String) (n : Node) : List (String × String) :=
  match sourceModule? package n with
  | none => []
  | some source => (takenNames n).map fun name =>
    (Dotted.append package name, Dotted.append source name)

/-- The offers after an import of a package. -/
def Offers.add (o : Offers) (package : String) (n : Node) : Offers :=
  if takesAll n then
    match sourceModule? package n with
    | none => o
    | some source => { o with wholes := o.wholes ++ [(package, source)] }
  else { o with names := o.names.update (reexports package n) }

/-- The offers after all imports of a package; of two imports of a name the later one counts. -/
def Offers.addPackage (o : Offers) (f : Finder) (package : String) (root : Node) : Offers :=
  (memberImports f root).foldl (fun acc n => acc.add package n) o

/-- The name of the package that a file makes. -/
def packageName? (library : String) (root file : Path) : Option String :=
  if isPackageFile file then
    (file.below? root).map fun below => Dotted.ofComponents (library :: below.dropLast)
  else none

/-- The offers after the packages among the given files, by where the library is installed. -/
def Offers.addFiles (o : Offers) (w : World) (library : String) (files : List (Path × Node)) :
    Offers :=
  files.foldl (fun acc (file, root) =>
    match (installedRootOf? w library file).bind fun place => packageName? library place file with
    | some package => acc.addPackage w.finder package root
    | none => acc) o

end ParamLens.Library
