import ParamLens.Text.Basic

/-! Addresses of documents and folders, and the path in them. -/

namespace ParamLens.Editor.Address

/-- The characters that are left out before an address. -/
def isLeading (c : Char) : Bool := c.toNat ≤ 32

/-- The characters that are left out everywhere in an address. -/
def isIgnored (c : Char) : Bool := c == '\t' || c == '\r' || c == '\n'

/-- The characters of the part before the colon. -/
def isSchemeChar (c : Char) : Bool := c.isAlphanum || c == '+' || c == '-' || c == '.'

/-- What follows the scheme and its colon; an address without a scheme is left as it is. -/
def afterScheme (cs : List Char) : List Char :=
  let scheme := cs.takeWhile (· != ':')
  match cs.drop scheme.length with
  | _ :: rest => if scheme.head?.any Char.isAlpha && scheme.all isSchemeChar then rest else cs
  | [] => cs

/-- The characters that end the name of a host. -/
def endsHost (c : Char) : Bool := c == '/' || c == '?' || c == '#'

/-- What follows the host, with the host itself. -/
def splitHost : List Char → List Char × List Char
  | '/' :: '/' :: rest => (rest.takeWhile (!endsHost ·), rest.dropWhile (!endsHost ·))
  | cs => ([], cs)

/-- The host has only one of the two brackets. -/
def isMalformed (host : List Char) : Bool := host.contains '[' != host.contains ']'

/-- The path of an address; a host with only one of the two brackets has none. -/
def path? (address : String) : Option String :=
  let cs := (address.toList.dropWhile isLeading).filter (!isIgnored ·)
  let (host, rest) := splitHost (afterScheme cs)
  if isMalformed host then none
  else some (String.ofList ((rest.takeWhile (· != '#')).takeWhile (· != '?')))

end ParamLens.Editor.Address
