import ParamLens.Syntax.Node

/-! Building syntax trees from their outlines: the kinds, byte offsets and roles of the nodes of a
text. -/

namespace ParamLens.Syntax

/-- A syntax tree without its text. -/
structure Outline where
  kind : String
  start : Nat
  stop : Nat
  role : Option String
  children : List Outline
deriving Inhabited

/-- The place before each byte and the place after the last one, starting from `p`. -/
def placesFrom (p : Point) : List UInt8 → List Point
  | [] => [p]
  | b :: rest =>
    p :: placesFrom (if b = 10 then ⟨p.row + 1, 0⟩ else ⟨p.row, p.column + 1⟩) rest

/-- A text prepared for the look-up of places and slices. -/
structure Source where
  bytes : ByteArray
  places : Array Point

/-- A text prepared for look-ups. -/
def Source.ofText (s : String) : Source :=
  ⟨s.toByteArray, (placesFrom ⟨0, 0⟩ s.toByteArray.toList).toArray⟩

/-- The place of a byte offset; past the end, the end. -/
def Source.place (source : Source) (offset : Nat) : Point :=
  source.places[offset]?.getD (source.places.back?.getD ⟨0, 0⟩)

/-- The text between two byte offsets; empty when it cuts a character. -/
def Source.slice (source : Source) (start stop : Nat) : String :=
  (String.fromUTF8? (source.bytes.extract start stop)).getD ""

mutual

/-- The syntax tree of an outline. -/
def Outline.build (source : Source) : Outline → Node
  | ⟨kind, start, stop, role, children⟩ =>
    { kind := Kind.ofName kind
      span := ⟨start, stop, source.place start, source.place stop⟩
      text := source.slice start stop
      role := role.map Role.ofName
      children := buildAll source children }

/-- The syntax trees of several outlines. -/
def Outline.buildAll (source : Source) : List Outline → List Node
  | [] => []
  | child :: rest => child.build source :: buildAll source rest

end

/-- The syntax tree of a text with the given outline. -/
def Outline.toNode (outline : Outline) (s : String) : Node := outline.build (Source.ofText s)

end ParamLens.Syntax
