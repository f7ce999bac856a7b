import ParamLens.Syntax.Query

/-! How searches go through syntax trees. Which nodes a search finds is fixed up to how much of the
pattern it asks for, and the order in which it finds them is left open. -/

namespace ParamLens.Syntax

namespace Node

/-- Every node above a place that is not among the given ones has its own place before it. -/
def OuterFirst (above : List Node) (places : List Located) : Prop :=
  ∀ before place after, places = before ++ place :: after →
    ∀ n up, n :: up <:+ place.ancestors → n :: up <:+ above ∨ ⟨n, up⟩ ∈ before

theorem OuterFirst.append {above : List Node} {places more : List Located}
    (h : OuterFirst above places) (hmore : OuterFirst above more) :
    OuterFirst above (places ++ more) := by
  intro before place after hsplit n up hup
  rcases List.append_eq_append_iff.mp hsplit with ⟨middle, rfl, hmiddle⟩ |
    ⟨middle, hplaces, hmiddle⟩
  · exact (hmore middle place after hmiddle n up hup).imp_right (List.mem_append_right _)
  · cases middle with
    | nil => exact (hmore [] place after hmiddle.symm n up hup).imp_right nofun
    | cons first middle =>
      obtain ⟨rfl, -⟩ := List.cons.inj hmiddle
      exact h before place middle hplaces n up hup

theorem OuterFirst.nil {above : List Node} : OuterFirst above [] := by
  intro before place after hsplit
  simp at hsplit

theorem OuterFirst.cons {above : List Node} {root : Node} {places : List Located}
    (h : OuterFirst (root :: above) places) : OuterFirst above (⟨root, above⟩ :: places) := by
  intro before place after hsplit n up hup
  cases before with
  | nil =>
    obtain ⟨rfl, -⟩ := List.cons.inj hsplit
    exact .inl hup
  | cons first before =>
    obtain ⟨rfl, htail⟩ := List.cons.inj hsplit
    rcases h before place after htail n up hup with hup | hmem
    · rcases List.suffix_cons_iff.mp hup with heq | hup
      · obtain ⟨rfl, rfl⟩ := List.cons.inj heq
        exact .inr List.mem_cons_self
      · exact .inl hup
    · exact .inr (List.mem_cons_of_mem _ hmem)

mutual

theorem outerFirst_locateFrom (above : List Node) : ∀ n, OuterFirst above (locateFrom above n)
  | ⟨kind, span, text, role, children⟩ => by
    rw [locateFrom]
    exact (outerFirst_locateAll _ children).cons

theorem outerFirst_locateAll (above : List Node) : ∀ l, OuterFirst above (locateAll above l)
  | [] => by
    rw [locateAll]
    exact OuterFirst.nil
  | child :: rest => by
    rw [locateAll]
    exact (outerFirst_locateFrom above child).append (outerFirst_locateAll above rest)

end

end Node

/-- How searches are made. Each one finds the nodes of a tree that pass a test, in some order. The
test takes every node that has the whole shape, and none without what is always asked for. A class
is found after those in which it stands. -/
structure Finder where
  finds : Query → Node → Bool
  found : Query → Node → List Node.Located
  perm : ∀ q root, (found q root).Perm (root.located.filter (finds q ·.node))
  finds_of_shape : ∀ q n, q.shape n = true → finds q n = true
  asks_of_finds : ∀ q n, finds q n = true → q.asks n = true
  outer_first : ∀ {root before place after}, found .classes root = before ++ place :: after →
    ∀ n up, n :: up <:+ place.ancestors → finds .classes n = true → ⟨n, up⟩ ∈ before

namespace Finder

/-- The nodes that a search finds. -/
def nodes (f : Finder) (q : Query) (root : Node) : List Node := (f.found q root).map (·.node)

/-- The classes that are found in a tree. -/
def classes (f : Finder) (root : Node) : List Node := f.nodes .classes root

theorem outer_first_of_filter {finds : Node → Bool} {places before after : List Node.Located}
    {place : Node.Located} (houter : Node.OuterFirst [] places)
    (h : places.filter (finds ·.node) = before ++ place :: after) (n : Node) (up : List Node)
    (hup : n :: up <:+ place.ancestors) (hfinds : finds n = true) : ⟨n, up⟩ ∈ before := by
  obtain ⟨first, second, hplaces, rfl, hsecond⟩ := List.filter_eq_append_iff.mp h
  obtain ⟨skipped, rest, rfl, hskipped, -, -⟩ := List.filter_eq_cons_iff.mp hsecond
  rw [← List.append_assoc] at hplaces
  rcases houter _ _ _ hplaces n up hup with hnil | hmem
  · simp at hnil
  · rcases List.mem_append.mp hmem with hmem | hmem
    · exact List.mem_filter.mpr ⟨hmem, hfinds⟩
    · exact absurd hfinds (hskipped _ hmem)

/-- Searches for the whole shape in the order of the text. -/
def inText : Finder where
  finds := Query.shape
  found q root := root.located.filter (q.shape ·.node)
  perm _ _ := List.Perm.refl _
  finds_of_shape _ _ h := h
  asks_of_finds _ _ h := Query.asks_of_shape h
  outer_first h := outer_first_of_filter (Node.outerFirst_locateFrom [] _) h

theorem mem_found_iff {f : Finder} {q : Query} {root : Node} {place : Node.Located} :
    place ∈ f.found q root ↔ place ∈ root.located ∧ f.finds q place.node = true := by
  rw [(f.perm q root).mem_iff, List.mem_filter]

theorem finds_of_mem_nodes {f : Finder} {q : Query} {root n : Node} (h : n ∈ f.nodes q root) :
    f.finds q n = true := by
  obtain ⟨place, hplace, rfl⟩ := List.mem_map.mp h
  exact (mem_found_iff.mp hplace).2

end Finder

end ParamLens.Syntax
