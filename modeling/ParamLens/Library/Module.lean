import ParamLens.Text.Dotted
import ParamLens.World.Basic

/-! The modules of a library: their dotted names, the files that hold them, and the names that are
written relative to them. -/

namespace ParamLens.Library

/-- The name of the file that makes a directory a package. -/
def packageFile : String := "__init__.py"

/-- The file makes its directory a package. -/
def isPackageFile (file : Path) : Bool := file.name == packageFile

/-- The components of the module that a file below a library's root holds. -/
def moduleComponents (below : List String) : List String :=
  let stem := (Path.splitEnding (below.getLastD "")).1
  below.dropLast ++ if stem != "__init__" then [stem] else []

/-- The dotted name of the module that a file holds, for a library with the given root. -/
def moduleName? (library : String) (root file : Path) : Option String :=
  (file.below? root).map fun below => Dotted.ofComponents (library :: moduleComponents below)

/-- The dotted name of a class of a file, for a library with the given root. -/
def classPathIn? (library : String) (root file : Path) (name : String) : Option String :=
  (moduleName? library root file).map (Dotted.append · name)

/-- The places where a library is installed. -/
def installedRoots (w : World) (library : String) : List Path :=
  (w.searchDirectories.map (·.join library)).filter w.files.contains

/-- The place where a library is installed that holds the file. -/
def installedRootOf? (w : World) (library : String) (file : Path) : Option Path :=
  (installedRoots w library).find? fun root => (file.below? root).isSome

/-- The dotted name of a class of a file, by where the library is installed. -/
def classPath? (w : World) (library : String) (file : Path) (name : String) : Option String :=
  (installedRootOf? w library file).bind fun root => classPathIn? library root file name

/-- The root of a library whose first file is given: where it is installed, or else the nearest
directory above the file with the library's name. -/
def rootOf? (w : World) (library : String) : List Path → Option Path
  | [] => none
  | first :: _ =>
    (installedRootOf? w library first).or (first.parents.find? fun above => above.name == library)

/-- The source files in a directory, or the source file itself. -/
def sourceFiles (w : World) (directory : Path) : List Path :=
  if w.files.isFile directory && directory.ending == ".py" then [directory]
  else if w.files.isDirectory directory then w.files.sourcesBelow directory
  else []

/-- The source files of a library, where it is installed, each once. -/
def sources (w : World) (library : String) : List Path :=
  ((installedRoots w library).flatMap (sourceFiles w)).eraseDups

/-- The dotted name of what is written relative to a module, with dots at its start. Each dot after
the first goes up by one component; in a module that is no package the first one does too. -/
def resolveRelative? (written module : String) (isPackage : Bool) : Option String :=
  if Text.startsWith written "." then
    let level := Dotted.leadingDots written
    let rest := Text.drop written level
    let parts := Dotted.components module
    if level > parts.length then none
    else
      let up := if isPackage then level - 1 else level
      let base := parts.take (parts.length - up)
      some (Dotted.ofComponents (if rest = "" then base else base ++ [rest]))
  else some written

/-- The index of the first place of a component in a path. -/
def placeOf (components : List String) (part : String) : Nat := components.findIdx (· == part)

/-- The numbers do not decrease. -/
def isAscending : List Nat → Bool
  | a :: b :: rest => a ≤ b && isAscending (b :: rest)
  | _ => true

/-- The components of a path, the root as one of them. -/
def pathComponents (p : Path) : List String := if p.absolute then "/" :: p.parts else p.parts

/-- The first file whose path holds the components of the class's module in their order. -/
def likelyFile? (classPath : String) (files : List Path) : Option Path :=
  match (Dotted.components classPath).dropLast with
  | [] => none
  | modules =>
    files.find? fun file =>
      let components := pathComponents file
      modules.all components.contains && isAscending (modules.map (placeOf components))

/-- The nearest directory above a file that has the name of an analysed library. -/
def libraryRoot? (allowed : List String) (file : Path) : Option Path :=
  file.parents.find? fun above => !above.parts.isEmpty && allowed.contains above.name

/-- The file of a module written by its name alone, beside the current file: the last of several
names counts only when those before it are dots. -/
def besideFile? (w : World) : List String → Path → Option Path
  | [], _ => none
  | part :: rest, directory =>
    if part = ".." then besideFile? w rest directory.parent
    else if part = "." then besideFile? w rest directory
    else
      let file := directory.join (part ++ ".py")
      let package := (directory.join part).join packageFile
      if w.files.contains file then some file
      else if w.files.contains package then some package
      else besideFile? w rest directory

/-- The file of a module, or of a package, at a path without ending. -/
def moduleFileAt? (w : World) (target : Path) : Option Path :=
  match (target.withEnding? ".py").filter w.files.contains with
  | some file => some file
  | none =>
    let package := target.join packageFile
    if w.files.contains package then some package else none

/-- A path without a last component, to which an ending should be given. -/
structure NamelessPath where
  path : Path
deriving DecidableEq, Repr

/-- What is said about a path without a last component. -/
def NamelessPath.message (fault : NamelessPath) : String :=
  "PosixPath('" ++ fault.path.text ++ "') has an empty name"

/-- The file of a module, or of a package, at a path without ending, which has to have a last
component. -/
def fileOrFault (w : World) (target : Path) : Except NamelessPath (Option Path) :=
  if w.lacksName target then .error ⟨target⟩ else .ok (moduleFileAt? w target)

/-- The file of a module written by its full name, in the library of the current file. -/
def libraryFile (w : World) (allowed : List String) (parts : List String) (current : Path) :
    Except NamelessPath (Option Path) :=
  match libraryRoot? allowed current with
  | none => .ok none
  | some root => fileOrFault w ((parts.drop 1).foldl Path.join root)

/-- The file of the module before the last component of an imported name. A single component that
does not begin like an analysed library is looked for beside the current file. -/
def importedFile (w : World) (allowed : List String) (path : String) (current : Path) :
    Except NamelessPath (Option Path) :=
  match (Dotted.components path).dropLast with
  | [] => .ok none
  | [only] =>
    if allowed.any (Text.startsWith only) then libraryFile w allowed [only] current
    else .ok (besideFile? w [only] current.parent)
  | parts => libraryFile w allowed parts current

end ParamLens.Library
