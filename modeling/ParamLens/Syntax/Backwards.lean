import ParamLens.Syntax.Finder

/-! Searches that go through the children of a node from the last to the first and ask for no more
of a node than they must. -/

namespace ParamLens.Syntax

namespace Node

mutual

/-- The node and all nodes below it with what stands above them, a node before its children and the
last child first. -/
def locateBack (above : List Node) : Node → List Located
  | ⟨kind, span, text, role, children⟩ =>
    let n : Node := ⟨kind, span, text, role, children⟩
    ⟨n, above⟩ :: locateAllBack (n :: above) children

/-- The nodes of several trees with what stands above them, the last tree first. -/
def locateAllBack (above : List Node) : List Node → List Located
  | [] => []
  | child :: rest => locateAllBack above rest ++ locateBack above child

end

mutual

theorem locateBack_perm (above : List Node) :
    ∀ n, (locateBack above n).Perm (locateFrom above n)
  | ⟨kind, span, text, role, children⟩ => by
    rw [locateBack, locateFrom]
    exact (locateAllBack_perm _ children).cons _

theorem locateAllBack_perm (above : List Node) :
    ∀ l, (locateAllBack above l).Perm (locateAll above l)
  | [] => by rw [locateAllBack, locateAll]
  | child :: rest => by
    rw [locateAllBack, locateAll]
    exact List.perm_append_comm.trans
      ((locateBack_perm above child).append (locateAllBack_perm above rest))

end

mutual

theorem outerFirst_locateBack (above : List Node) : ∀ n, OuterFirst above (locateBack above n)
  | ⟨kind, span, text, role, children⟩ => by
    rw [locateBack]
    exact (outerFirst_locateAllBack _ children).cons

theorem outerFirst_locateAllBack (above : List Node) :
    ∀ l, OuterFirst above (locateAllBack above l)
  | [] => by
    rw [locateAllBack]
    exact OuterFirst.nil
  | child :: rest => by
    rw [locateAllBack]
    exact (outerFirst_locateAllBack above rest).append (outerFirst_locateBack above child)

end

end Node

/-- Searches from the last child to the first. Imports of modules are found before imports of
members. -/
def Finder.fromEnd : Finder where
  finds := Query.asks
  found q root :=
    let all := (Node.locateBack [] root).filter (q.asks ·.node)
    if q = .imports then
      all.filter (·.node.kind == .importStatement) ++ all.filter (!·.node.kind == .importStatement)
    else all
  perm q root := by
    have hall := (Node.locateBack_perm [] root).filter (q.asks ·.node)
    dsimp only
    split
    · exact (List.filter_append_perm _ _).trans hall
    · exact hall
  finds_of_shape _ _ h := Query.asks_of_shape h
  asks_of_finds _ _ h := h
  outer_first h := outer_first_of_filter (Node.outerFirst_locateBack [] _) h

end ParamLens.Syntax
