import ParamLens.World.FileSystem
import ParamLens.Syntax.Finder
import ParamLens.Syntax.Sketch
import ParamLens.Table

/-! What an analysis can see of the machine: the files, the places where libraries are installed,
what is known about the installed libraries, and the syntax trees of the texts. How trees are
searched, in which order the members of a set come and how deep calls can be nested is up to the
machine, too. -/

namespace ParamLens

open Syntax

/-- What an installed library says about itself. -/
structure Distribution where
  version : String
  requires : List String

/-- The order in which the members of a set are gone through, given the order in which they were put
into it. -/
structure SetOrder (α : Type) where
  members : List α → List α
  perm : ∀ l, (members l).Perm l

/-- The members of a set in the order in which they were put into it. -/
def SetOrder.asEntered {α : Type} : SetOrder α := ⟨id, fun _ => .refl _⟩

/-- What an analysis can see. The root of the paths can be a directory of a larger tree, in which it
has a name; `followLimit` is the number of bases that a search can follow one within the other. -/
structure World where
  files : FileSystem
  site : List Path := []
  userSite : Option Path := none
  distributions : Table Distribution := ∅
  moduleOrigins : Table Path := ∅
  trees : List (String × Node) := []
  finder : Finder := .inText
  nameOrder : SetOrder String := .asEntered
  pathOrder : SetOrder Path := .asEntered
  isMounted : Bool := false
  followLimit : Nat := 1000

namespace World

/-- A world of files that are written down together with their trees. -/
def sketched (files : List (List String × Sketch)) : World :=
  { files := ⟨files.map fun file => (file.1, .text file.2.written), []⟩
    trees := files.map fun file => (file.2.written, file.2.node) }

/-- The syntax tree of a text. -/
def parse? (w : World) (text : String) : Option Node := w.trees.lookup text

/-- Distinct texts that are written down have their trees. -/
theorem parse?_sketched {files : List (List String × Sketch)}
    (distinct : files.Pairwise fun f g => f.2.written ≠ g.2.written) {file : List String × Sketch}
    (hfile : file ∈ files) : (sketched files).parse? file.2.written = some file.2.node := by
  induction files with
  | nil => cases hfile
  | cons first rest ih =>
    obtain ⟨hfirst, hrest⟩ := List.pairwise_cons.mp distinct
    rcases List.mem_cons.mp hfile with rfl | hmem
    · exact List.lookup_cons_self
    · have hne : (file.2.written == first.2.written) = false := by
        simpa using (hfirst file hmem).symm
      have htail : (sketched (first :: rest)).parse? file.2.written =
          (sketched rest).parse? file.2.written := by
        simp only [parse?, sketched, List.map_cons, List.lookup_cons, hne]
      rw [htail, ih hrest hmem]

/-- The text of a file, if it can be read. -/
def read? (w : World) (path : Path) : Option String := (w.files.read path).toOption

/-- The path has no last component to which an ending could be given. -/
def lacksName (w : World) (path : Path) : Bool :=
  path.parts.isEmpty && !(path.absolute && w.isMounted)

/-- The directories in which libraries are installed. -/
def searchDirectories (w : World) : List Path := w.site ++ w.userSite.toList

/-- What is known about the asked libraries, in the order of their names. -/
def distributionsOf (w : World) (names : List String) : List (String × Distribution) :=
  (w.distributions.entries.filter fun entry => names.contains entry.1).mergeSort
    fun a b => a.1 ≤ b.1

end World

end ParamLens
