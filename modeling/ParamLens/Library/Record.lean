import ParamLens.Library.Version
import ParamLens.Parameter.Basic

/-! What is kept about a library: its classes, the aliases of their names and its parameter types.
A class is found under its own name or along a chain of aliases. -/

namespace ParamLens.Library

/-- For which library and version a record was made, and in which form it is kept. -/
structure Label where
  library : String
  version : List Int
  format : List Int
deriving DecidableEq, Repr

/-- The label of a record made now. -/
def Label.current (library version : String) : Label :=
  ⟨library, (versionNumbers version).map Int.ofNat, formatVersion.map Int.ofNat⟩

/-- What is kept about a library. -/
structure Record where
  label : Label
  classes : Table ParamClass := ∅
  aliases : Table String := ∅
  types : List String := []

namespace Record

/-- The record of a library about which nothing is kept yet. -/
def fresh (library version : String) : Record := { label := Label.current library version }

/-- The record was made for this library and version, in the present form. -/
def isFor (r : Record) (library version : String) : Bool :=
  r.label == Label.current library version

/-- The class reached from a name by following aliases, each alias once and at most `steps` of
them; the name itself is not looked up. -/
def followAliases? (classes : Table ParamClass) (aliases : Table String) :
    Nat → String → Option ParamClass
  | 0, _ => none
  | steps + 1, name =>
    match aliases.get? name with
    | none => none
    | some next =>
      match classes.get? next with
      | some found => some found
      | none => followAliases? classes (aliases.erase name) steps next

/-- The class with a name, found under the name or along its aliases. -/
def find? (r : Record) (name : String) : Option ParamClass :=
  match r.classes.get? name with
  | some found => some found
  | none => followAliases? r.classes r.aliases r.aliases.size name

/-- The record with a class under a name. -/
def setClass (r : Record) (name : String) (c : ParamClass) : Record :=
  { r with classes := r.classes.insert name c }

/-- The record with an alias. -/
def setAlias (r : Record) (name target : String) : Record :=
  { r with aliases := r.aliases.insert name target }

/-- The record with the given parameter types, in their order. -/
def setTypes (r : Record) (types : List String) : Record :=
  { r with types := types.mergeSort fun a b => a ≤ b }

/-- The record holds a class. -/
def hasClasses (r : Record) : Bool := !r.classes.isEmpty

end Record

end ParamLens.Library
