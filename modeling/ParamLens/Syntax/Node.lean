import ParamLens.Syntax.Kind

/-! Syntax trees of source text. A node knows its kind, its text, where it stands and its role in
its parent. -/

namespace ParamLens.Syntax

/-- A place in a text: the number of line ends before it, and the number of bytes since the last
of them. -/
structure Point where
  row : Nat
  column : Nat
deriving DecidableEq, Repr, Inhabited

/-- Where a node stands in its text: as offsets in bytes and as places. -/
structure Span where
  startByte : Nat
  stopByte : Nat
  start : Point
  stop : Point
deriving DecidableEq, Repr, Inhabited

/-- A node of a syntax tree. -/
structure Node where
  kind : Kind
  span : Span
  text : String
  role : Option Role
  children : List Node
deriving Inhabited, Repr

namespace Node

/-- The row of the node's first character. -/
def row (n : Node) : Nat := n.span.start.row

/-- The first child with a role. -/
def child? (n : Node) (role : Role) : Option Node := n.children.find? (·.role == some role)

/-- The first child of a kind. -/
def childOfKind? (n : Node) (kind : Kind) : Option Node := n.children.find? (·.kind == kind)

/-- The node at the end of a path of child indexes. -/
def descend? : Node → List Nat → Option Node
  | n, [] => some n
  | n, index :: rest => n.children[index]? >>= (descend? · rest)

/-- The nodes passed on the way along a path of child indexes, nearest to its end first. -/
def ancestors : Node → List Nat → List Node
  | _, [] => []
  | n, index :: rest => match n.children[index]? with
    | none => []
    | some child => child.ancestors rest ++ [n]

mutual

/-- The node and all nodes below it, a node before its children and the children in their order. -/
def walk : Node → List Node
  | ⟨kind, span, text, role, children⟩ => ⟨kind, span, text, role, children⟩ :: walkAll children

/-- The nodes of several trees in their order. -/
def walkAll : List Node → List Node
  | [] => []
  | child :: rest => walk child ++ walkAll rest

end

/-- A node together with the nodes above it, nearest first. -/
structure Located where
  node : Node
  ancestors : List Node
deriving Inhabited

mutual

/-- The node and all nodes below it with what stands above them, a node before its children and the
children in their order. -/
def locateFrom (above : List Node) : Node → List Located
  | ⟨kind, span, text, role, children⟩ =>
    let n : Node := ⟨kind, span, text, role, children⟩
    ⟨n, above⟩ :: locateAll (n :: above) children

/-- The nodes of several trees in their order, with what stands above them. -/
def locateAll (above : List Node) : List Node → List Located
  | [] => []
  | child :: rest => locateFrom above child ++ locateAll above rest

end

/-- The nodes of a tree in the order of the text, with what stands above them. -/
def located (n : Node) : List Located := locateFrom [] n

/-- The first child with the role is of the kind. -/
def hasChild (n : Node) (role : Role) (kind : Kind) : Bool := (n.child? role).any (·.kind == kind)

theorem sizeOf_lt_of_mem_children {n child : Node} (h : child ∈ n.children) :
    sizeOf child < sizeOf n := by
  have hlt := List.sizeOf_lt_of_mem h
  have hn : sizeOf n = 1 + sizeOf n.kind + sizeOf n.span + sizeOf n.text + sizeOf n.role +
      sizeOf n.children := by
    obtain ⟨kind, span, text, role, children⟩ := n
    simp
  omega

theorem mem_children_of_child? {n child : Node} {role : Role} (h : n.child? role = some child) :
    child ∈ n.children :=
  List.mem_of_find?_eq_some h

theorem sizeOf_child?_lt {n child : Node} {role : Role} (h : n.child? role = some child) :
    sizeOf child < sizeOf n :=
  sizeOf_lt_of_mem_children (mem_children_of_child? h)

theorem locateFrom_eq (above : List Node) (n : Node) :
    locateFrom above n = ⟨n, above⟩ :: locateAll (n :: above) n.children := by
  obtain ⟨kind, span, text, role, children⟩ := n
  rw [locateFrom]

end Node

end ParamLens.Syntax
