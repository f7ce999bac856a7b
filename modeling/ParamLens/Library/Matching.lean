import ParamLens.Text.Dotted

/-! When the name of a base class, as it is written, names one of the known classes. -/

namespace ParamLens.Library

/-- The name of the root of all classes with parameters, inside or outside of its own library. -/
def isParameterizedRoot (base : String) (library : Option String) : Bool :=
  base == "param.Parameterized" || base == "param.parameterized.Parameterized" ||
    (base == ".parameterized.Parameterized" && library == some "param")

/-- The name of the root of all parameter types, inside or outside of its own library. -/
def isParameterRoot (base : String) (library : Option String) : Bool :=
  base == "param.Parameter" || base == "param.parameterized.Parameter" ||
    (base == ".parameterized.Parameter" && library == some "param")

/-- The parts stand in the list from the index on, one after another. -/
def standsAt (parts path : List String) (i : Nat) : Bool := (path.drop i).take parts.length == parts

/-- The first `i` parts are those of the list that end at the index `j`, compared from the last one
on. -/
def agreesBackFrom (parts path : List String) : Nat → Nat → Bool
  | 0, _ => true
  | i + 1, j => parts[i]? == path[j]? && agreesBackFrom parts path i (j - 1)

/-- A relative name matches a class of the same last component whose path holds the components
before it, at an index that leaves room for the last one. -/
def relativeMatches (base full : String) : Bool :=
  let parts := Dotted.components (Dotted.withoutLeadingDots base)
  let path := Dotted.components full
  Text.endsWith full ("." ++ parts.getLastD "") &&
    (parts.length ≤ 1 ||
      (List.range (path.length + 1 - parts.length)).any (standsAt parts.dropLast path))

/-- A qualified name matches a class of the same last component whose path holds its components, at
the end or from an index on. -/
def qualifiedMatches (base full : String) : Bool :=
  let parts := Dotted.components base
  let path := Dotted.components full
  Dotted.last full == Dotted.last base && parts.length ≤ path.length &&
    (agreesBackFrom parts path parts.length (path.length - 1) ||
      (List.range (path.length + 1 - parts.length)).any (standsAt parts path))

/-- The name as it is written matches the class with the full name: by its last component when it
is plain, and by its components when it is relative or qualified. -/
def writtenMatches (base full : String) : Bool :=
  if !Dotted.isDotted base then Text.endsWith full ("." ++ base)
  else if Text.startsWith base "." then relativeMatches base full
  else qualifiedMatches base full

/-- The name of a base class names one of the known classes with parameters. -/
def matchesParameterized (known : List String) (base : String) : Bool :=
  known.contains base || known.any (writtenMatches base)

/-- The full name of a parameter type that is written as a member of `param`. -/
def canonicalType (base : String) : String := "param.parameters." ++ Dotted.last base

/-- The name is written as a member of `param`, but not of the module that defines the types. -/
def isShorthand (base : String) : Bool :=
  Text.startsWith base "param." && !Text.startsWith base "param.parameters."

/-- The name of a base class names one of the known parameter types. -/
def matchesParameter (known : List String) (base : String) : Bool :=
  known.contains base || (isShorthand base && known.contains (canonicalType base)) ||
    known.any (writtenMatches base)

end ParamLens.Library
