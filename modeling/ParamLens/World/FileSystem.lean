import ParamLens.World.Path
import ParamLens.Text.Encoded

/-! The files that an analysis can see: a finite tree of files and directories, read as text. -/

namespace ParamLens

/-- What a file holds. -/
inductive Content where
  | text (value : String)
  | bytes (value : List UInt8)

/-- The text of a file with uniform line ends, or why it cannot be decoded. -/
def Content.read : Content → Except Text.DecodeFault String
  | .text value => .ok (Text.withUniformLineEnds value)
  | .bytes value => (Text.decode value).map Text.withUniformLineEnds

/-- Files and further directories, each by its components from the root. -/
structure FileSystem where
  files : List (List String × Content)
  directories : List (List String)

/-- Why a file cannot be read. -/
inductive ReadFault where
  | missing
  | directory
  | undecodable (fault : Text.DecodeFault)

namespace FileSystem

/-- The components name a directory: the root, a listed directory, or one above a file or a
listed directory. -/
def isDirectoryAt (fs : FileSystem) (parts : List String) : Bool :=
  parts.isEmpty || fs.directories.any (fun dir => parts.isPrefixOf dir) ||
    fs.files.any fun file => parts.isPrefixOf file.1 && parts.length < file.1.length

/-- The file at the components. -/
def fileAt? (fs : FileSystem) (parts : List String) : Option Content := fs.files.lookup parts

/-- The components reached from `here` along `parts`, where a double dot goes up; nothing is
reached through what is not a directory. -/
def follow? (fs : FileSystem) (here : List String) : List String → Option (List String)
  | [] => some here
  | part :: rest =>
    if fs.isDirectoryAt here then
      if part = ".." then
        if here.isEmpty then none else fs.follow? here.dropLast rest
      else fs.follow? (here ++ [part]) rest
    else none

/-- The components at which a path ends. -/
def locate? (fs : FileSystem) (p : Path) : Option (List String) := fs.follow? [] p.parts

/-- The path names a file. -/
def isFile (fs : FileSystem) (p : Path) : Bool :=
  (fs.locate? p).any fun parts => (fs.fileAt? parts).isSome

/-- The path names a directory. -/
def isDirectory (fs : FileSystem) (p : Path) : Bool :=
  (fs.locate? p).any fs.isDirectoryAt

/-- The path names a file or a directory. -/
def contains (fs : FileSystem) (p : Path) : Bool := fs.isFile p || fs.isDirectory p

/-- The text of the file at a path. -/
def read (fs : FileSystem) (p : Path) : Except ReadFault String :=
  match fs.locate? p with
  | none => .error .missing
  | some parts =>
    match fs.fileAt? parts with
    | some content => content.read.mapError .undecodable
    | none => .error (if fs.isDirectoryAt parts then .directory else .missing)

/-- The first components of a path, none to all of them. -/
def beginnings (parts : List String) : List (List String) :=
  (List.range (parts.length + 1)).map parts.take

/-- Every directory above a file or a listed directory, and the listed ones. -/
def allDirectories (fs : FileSystem) : List (List String) :=
  (fs.files.flatMap (fun file => beginnings file.1.dropLast) ++
    fs.directories.flatMap beginnings).eraseDups

/-- What lies below a directory at any depth and satisfies the test on its name, in the order of
paths. -/
def below (fs : FileSystem) (directory : Path) (found : List (List String))
    (test : String → Bool) : List Path :=
  match fs.locate? directory with
  | none => []
  | some parts =>
    Path.sorted ((found.filter fun item =>
      parts.isPrefixOf item && parts.length < item.length && test (item.getLastD "")).map
        fun item => { directory with parts := directory.parts ++ item.drop parts.length })

/-- The name of a Python source file. -/
def isSourceName (name : String) : Bool := Text.endsWith name ".py"

/-- The Python source files below a directory, in the order of paths. -/
def sourcesBelow (fs : FileSystem) (directory : Path) : List Path :=
  fs.below directory (fs.files.map Prod.fst) isSourceName

/-- Everything below a directory with the name of a Python source file, in the order of paths. -/
def sourceNamesBelow (fs : FileSystem) (directory : Path) : List Path :=
  fs.below directory (fs.files.map Prod.fst ++ fs.allDirectories) isSourceName

end FileSystem

end ParamLens
