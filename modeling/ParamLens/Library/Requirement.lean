import ParamLens.Text.Basic
import ParamLens.Text.Blank
import ParamLens.World.Basic

/-! The libraries that are analysed, and on which of each other they depend. -/

namespace ParamLens.Library

/-- The libraries that are always analysed. -/
def standard : List String := ["param", "panel", "holoviews"]

/-- The libraries that are analysed: the standard ones and the further ones. -/
def allowed (extra : List String) : List String :=
  standard ++ extra.filter fun name => !standard.contains name

/-- The characters before the first place where `mark` stands. -/
def charsBefore (mark : List Char) : List Char → List Char
  | [] => []
  | c :: rest => if mark.isPrefixOf (c :: rest) then [] else c :: charsBefore mark rest

/-- The text before the first place where `mark` stands. -/
def textBefore (mark s : String) : String := String.ofList (charsBefore mark.toList s.toList)

/-- The name of the library that a requirement asks for; a conditional one asks for none. -/
def requiredName? (requirement : String) : Option String :=
  if requirement.toList.contains ';' then none
  else some (Text.trim (textBefore "~=" (textBefore "<" (textBefore "=="
    (textBefore ">=" requirement)))))

/-- What is known about an analysed library. -/
structure Info where
  version : String
  dependencies : List String
deriving DecidableEq, Repr

/-- The analysed libraries, other than itself, that a library requires. -/
def dependencies (allowed : List String) (library : String) (requires : List String) :
    List String :=
  (requires.filterMap requiredName?).filter fun name => allowed.contains name && name != library

/-- What is known about the analysed libraries that are installed. -/
def infos (w : World) (allowed : List String) : Table Info :=
  Table.ofList ((w.distributionsOf allowed).map fun (name, d) =>
    (name, ⟨d.version, dependencies allowed name d.requires⟩))

end ParamLens.Library
