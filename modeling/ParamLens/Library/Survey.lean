import ParamLens.Library.Reexport
import ParamLens.Syntax.Statement

/-! A pass over the files of a library: its classes with their bases, and what its packages
offer. -/

namespace ParamLens.Library

open Syntax

/-- A class as it stands in a file. -/
structure Definition where
  node : Node
  imports : Imports
  file : Path
  content : String

/-- What a pass over the files of a library finds. Sets of its classes are gone through in an order
that is up to the machine. -/
structure Survey where
  bases : Table (List String) := ∅
  definitions : Table Definition := ∅
  offers : Offers := {}
  setOrder : SetOrder String := .asEntered

/-- The names of the bases of a class, as they are written; a call is no name. -/
def baseNames (n : Node) : List String :=
  (n.bases.filter fun base => base.kind == .identifier || base.kind == .attribute).filterMap
    fun base => if base.text = "" then none else some base.text

/-- The full name of a base that is a class of the same file, or of an unknown one. -/
def localPath (w : World) (library : Option String) (file : Option Path) (base : String) :
    String :=
  (library.bind fun lib => file.bind fun f => classPath? w lib f base).getD base

/-- The full name of a base. A class of the same file goes before an imported one. -/
def basePath (w : World) (imports : Imports) (library : Option String) (file : Option Path)
    (siblings : List String) (base : String) : String :=
  if Dotted.isDotted base then base
  else if siblings.contains base then localPath w library file base
  else match imports.get? base with
    | some full => full
    | none => localPath w library file base

/-- The full names of the bases of a class. -/
def basePaths (w : World) (imports : Imports) (library : Option String) (file : Option Path)
    (siblings : List String) (n : Node) : List String :=
  (baseNames n).map (basePath w imports library file siblings)

/-- The named classes of a tree in the order in which they are found. -/
def namedClasses (f : Finder) (root : Node) : List (Node × String) :=
  (f.classes root).filterMap fun n =>
    n.className?.map fun name => (n, name)

/-- The survey with the classes of a file. -/
def Survey.addClasses (s : Survey) (w : World) (library : String) (root file : Path)
    (content : String) (tree : Node) : Survey :=
  let imports := Imports.ofTree w.finder tree
  let classes := namedClasses w.finder tree
  classes.foldl (fun acc (n, name) =>
    match classPathIn? library root file name with
    | none => acc
    | some path =>
      { acc with
        bases := acc.bases.insert path
          (basePaths w imports (some library) (some file) (classes.map Prod.snd) n)
        definitions := acc.definitions.insert path ⟨n, imports, file, content⟩ }) s

/-- The survey with a file; one that cannot be read adds nothing. -/
def Survey.addFile (w : World) (library : String) (root : Path) (s : Survey) (file : Path) :
    Survey :=
  match w.read? file with
  | none => s
  | some content =>
    match w.parse? content with
    | none => s
    | some tree =>
      let offers := match packageName? library root file with
        | some package => s.offers.addPackage w.finder package tree
        | none => s.offers
      { s with offers }.addClasses w library root file content tree

/-- The survey of the files of a library, in their order. -/
def Survey.ofFiles (w : World) (library : String) (root : Path) (files : List Path)
    (offers : Offers) : Survey :=
  files.foldl (Survey.addFile w library root) { offers, setOrder := w.nameOrder }

end ParamLens.Library
