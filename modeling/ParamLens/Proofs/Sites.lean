import ParamLens.Check.File
import ParamLens.Proofs.Tables
import ParamLens.Proofs.Triples

/-! Where diagnostics stand. Every diagnostic of a file is made at a node of its tree. -/

namespace ParamLens.Syntax.Node

/-! ### The nodes of a tree -/

theorem walk_eq (n : Node) : n.walk = n :: walkAll n.children := by
  obtain ⟨kind, span, text, role, children⟩ := n
  rw [walk]

theorem mem_walkAll {l : List Node} {n : Node} : n ∈ walkAll l ↔ ∃ child ∈ l, n ∈ child.walk := by
  induction l with
  | nil => simp [walkAll]
  | cons child rest ih => simp [walkAll, ih]

theorem mem_walk_self (n : Node) : n ∈ n.walk := by
  rw [walk_eq]
  exact List.mem_cons_self

theorem mem_walk_iff {root n : Node} :
    n ∈ root.walk ↔ n = root ∨ ∃ child ∈ root.children, n ∈ child.walk := by
  rw [walk_eq, List.mem_cons, mem_walkAll]

theorem mem_walk_trans {root n m : Node} (hn : n ∈ root.walk) (hm : m ∈ n.walk) :
    m ∈ root.walk := by
  induction hsize : sizeOf root using Nat.strongRecOn generalizing root with
  | ind size ih =>
    rcases mem_walk_iff.mp hn with rfl | ⟨child, hchild, hn⟩
    · exact hm
    · have hlt := sizeOf_lt_of_mem_children hchild
      exact mem_walk_iff.mpr (.inr ⟨child, hchild, ih _ (hsize ▸ hlt) hn rfl⟩)

theorem mem_walk_of_mem_children {root n child : Node} (hn : n ∈ root.walk)
    (hchild : child ∈ n.children) : child ∈ root.walk :=
  mem_walk_trans hn (mem_walk_iff.mpr (.inr ⟨child, hchild, mem_walk_self child⟩))

theorem mem_walk_of_child? {root n child : Node} {role : Role} (hn : n ∈ root.walk)
    (hchild : n.child? role = some child) : child ∈ root.walk :=
  mem_walk_of_mem_children hn (mem_children_of_child? hchild)

theorem mem_walk_of_childOfKind? {root n child : Node} {kind : Kind} (hn : n ∈ root.walk)
    (hchild : n.childOfKind? kind = some child) : child ∈ root.walk :=
  mem_walk_of_mem_children hn (List.mem_of_find?_eq_some hchild)

theorem mem_locateAll {above l : List Node} {place : Located} :
    place ∈ locateAll above l ↔ ∃ child ∈ l, place ∈ locateFrom above child := by
  induction l with
  | nil => simp [locateAll]
  | cons child rest ih =>
    rw [locateAll, List.mem_append, ih]
    simp

mutual

theorem map_node_locateFrom (above : List Node) : ∀ n, (locateFrom above n).map (·.node) = n.walk
  | ⟨kind, span, text, role, children⟩ => by
    rw [locateFrom, walk, List.map_cons, map_node_locateAll]

theorem map_node_locateAll (above : List Node) : ∀ l, (locateAll above l).map (·.node) = walkAll l
  | [] => by rw [locateAll, walkAll, List.map_nil]
  | child :: rest => by
    rw [locateAll, walkAll, List.map_append, map_node_locateFrom, map_node_locateAll]

end

theorem map_node_located (root : Node) : root.located.map (·.node) = root.walk :=
  map_node_locateFrom [] root

theorem mem_walk_of_mem_located {root : Node} {place : Located} (h : place ∈ root.located) :
    place.node ∈ root.walk :=
  map_node_located root ▸ List.mem_map_of_mem h

theorem locateFrom_subset {above up : List Node} {n m : Node} (h : ⟨m, up⟩ ∈ locateFrom above n) :
    locateFrom up m ⊆ locateFrom above n := by
  induction hsize : sizeOf n using Nat.strongRecOn generalizing n above with
  | ind size ih =>
    rw [locateFrom_eq, List.mem_cons, mem_locateAll] at h
    rcases h with heq | ⟨child, hchild, h⟩
    · obtain ⟨rfl, rfl⟩ := Located.mk.inj heq
      exact List.Subset.refl _
    · have hbelow := ih _ (hsize ▸ sizeOf_lt_of_mem_children hchild) h rfl
      intro place hplace
      rw [locateFrom_eq, List.mem_cons, mem_locateAll]
      exact .inr ⟨child, hchild, hbelow hplace⟩

mutual

theorem locateFrom_append (above more : List Node) : ∀ n, locateFrom (above ++ more) n =
    (locateFrom above n).map fun place => ⟨place.node, place.ancestors ++ more⟩
  | ⟨kind, span, text, role, children⟩ => by
    rw [locateFrom, locateFrom, List.map_cons, ← List.cons_append, locateAll_append]

theorem locateAll_append (above more : List Node) : ∀ l, locateAll (above ++ more) l =
    (locateAll above l).map fun place => ⟨place.node, place.ancestors ++ more⟩
  | [] => by rw [locateAll, locateAll, List.map_nil]
  | child :: rest => by
    rw [locateAll, locateAll, List.map_append, locateFrom_append, locateAll_append]

end

theorem mem_located_of_mem_child {root m child : Node} {up : List Node} {place : Located}
    (h : ⟨m, up⟩ ∈ root.located) (hchild : child ∈ m.children) (hplace : place ∈ child.located) :
    ⟨place.node, place.ancestors ++ m :: up⟩ ∈ root.located := by
  refine locateFrom_subset h ?_
  rw [locateFrom_eq, List.mem_cons, mem_locateAll]
  have hmore := locateFrom_append [] (m :: up) child
  rw [List.nil_append] at hmore
  exact .inr ⟨child, hchild, hmore ▸ List.mem_map.mpr ⟨place, hplace, rfl⟩⟩

/-! ### Statements and arguments -/

theorem mem_children_of_mem_bodiesAmong {found : Bool} {l : List Node} {body : Node}
    (h : body ∈ bodiesAmong found l) : body ∈ l := by
  fun_induction bodiesAmong found l with
  | case1 => exact h
  | case2 found child rest _ ih | case3 found child rest _ _ ih =>
    rcases List.mem_cons.mp h with rfl | h
    · exact List.mem_cons_self
    · exact List.mem_cons_of_mem _ (ih h)
  | case4 found child rest _ _ ih => exact List.mem_cons_of_mem _ (ih h)

theorem mem_children_of_mem_bodies {n body : Node} (h : body ∈ n.bodies) : body ∈ n.children := by
  unfold bodies at h
  split at h
  · next own hown =>
    rcases List.mem_cons.mp h with rfl | h
    · exact mem_children_of_child? hown
    · exact mem_children_of_mem_bodiesAmong h
  · exact mem_children_of_mem_bodiesAmong h

theorem mem_walk_of_mem_classAssignments {root n : Node} (hn : n ∈ root.walk) {test : Node → Bool}
    {entry : Node × String} (h : entry ∈ n.classAssignments test) : entry.1 ∈ root.walk := by
  obtain ⟨body, hbody, h⟩ := List.mem_flatMap.mp h
  obtain ⟨item, hitem, h⟩ := List.mem_filterMap.mp h
  have hentry : entry.1 = item := by
    split at h
    · split at h
      · obtain rfl := Option.some.inj h
        rfl
      · cases h
    · cases h
  have hbody := mem_walk_of_mem_children hn (mem_children_of_mem_bodies hbody)
  obtain ⟨statement, hstatement, hitem⟩ := List.mem_flatMap.mp hitem
  have hstatement := mem_walk_of_mem_children hbody hstatement
  rw [hentry]
  split at hitem
  · rwa [List.mem_singleton.mp hitem]
  · split at hitem
    · exact mem_walk_of_mem_children hstatement (List.mem_filter.mp hitem).1
    · cases hitem

theorem mem_children_of_mem_argumentLists {call list : Node} (h : list ∈ call.argumentLists) :
    list ∈ call.children := by
  unfold argumentLists at h
  split at h
  · next own hown =>
    rw [List.mem_singleton.mp h]
    split at hown
    · exact mem_children_of_child? hown
    · cases hown
  · exact (List.mem_filter.mp h).1

theorem mem_walk_of_mem_keywords {root call : Node} (hcall : call ∈ root.walk)
    {entry : String × Argument} (h : entry ∈ call.keywords.entries) :
    entry.2.site ∈ root.walk ∧ entry.2.value ∈ root.walk := by
  have hmem := Table.mem_of_get?_ofList (Table.get?_of_mem_entries h)
  obtain ⟨argument, hargument, hkeyword⟩ := List.mem_filterMap.mp hmem
  obtain ⟨list, hlist, hargument⟩ := List.mem_flatMap.mp hargument
  have hlist := mem_walk_of_mem_children hcall (mem_children_of_mem_argumentLists hlist)
  have hargument := mem_walk_of_mem_children hlist (List.mem_filter.mp hargument).1
  unfold keyword? at hkeyword
  split at hkeyword
  · split at hkeyword
    · next name value _ hvalue =>
      split at hkeyword
      · obtain rfl : (name.text, (⟨value, argument⟩ : Argument)) = entry :=
          Option.some.inj hkeyword
        exact ⟨hargument, mem_walk_of_child? hargument hvalue⟩
      · cases hkeyword
    · cases hkeyword
  · split at hkeyword
    · next name equals value rest hchildren =>
      split at hkeyword
      · obtain rfl : (name.text, (⟨value, value⟩ : Argument)) = entry :=
          Option.some.inj hkeyword
        have hvalue : value ∈ argument.children := by simp [hchildren]
        exact ⟨mem_walk_of_mem_children hargument hvalue, mem_walk_of_mem_children hargument hvalue⟩
      · cases hkeyword
    · cases hkeyword

end ParamLens.Syntax.Node

namespace ParamLens.Syntax.Finder

variable {f : Finder} {q : Query} {root n : Node}

theorem mem_walk_of_mem_found {place : Node.Located} (h : place ∈ f.found q root) :
    place.node ∈ root.walk :=
  Node.mem_walk_of_mem_located (mem_found_iff.mp h).1

theorem mem_walk_of_mem_nodes (h : n ∈ f.nodes q root) : n ∈ root.walk := by
  obtain ⟨place, hplace, rfl⟩ := List.mem_map.mp h
  exact mem_walk_of_mem_found hplace

end ParamLens.Syntax.Finder

namespace ParamLens.Check

open Syntax Steps

/-! ### Diagnostics -/

/-- The diagnostic is made at the node. -/
def MadeAt (n : Node) (d : Diagnostic) : Prop := d.start = n.span.start ∧ d.stop = n.span.stop

/-- The diagnostics are made at nodes of the tree. -/
def MadeIn (root : Node) (ds : List Diagnostic) : Prop := ∀ d ∈ ds, ∃ n ∈ root.walk, MadeAt n d

section

variable {root n : Node}

theorem madeIn_nil (root : Node) : MadeIn root [] := fun _ h => absurd h List.not_mem_nil

theorem madeIn_atNode (hn : n ∈ root.walk) (rule : Rule) (message : String) :
    MadeIn root [.atNode n rule message] := by
  intro d hd
  obtain rfl := List.mem_singleton.mp hd
  exact ⟨n, hn, rfl, rfl⟩

theorem MadeIn.append {ds ds' : List Diagnostic} (h : MadeIn root ds) (h' : MadeIn root ds') :
    MadeIn root (ds ++ ds') := fun d hd => (List.mem_append.mp hd).elim (h d) (h' d)

theorem madeIn_flatMap {α : Type} {l : List α} {f : α → List Diagnostic}
    (h : ∀ a ∈ l, MadeIn root (f a)) : MadeIn root (l.flatMap f) := by
  intro d hd
  obtain ⟨a, ha, hd⟩ := List.mem_flatMap.mp hd
  exact h a ha d hd

theorem madeIn_defaultTypeDiagnostics (hn : n ∈ root.walk) (name : String) (call : Node)
    (type : String) : MadeIn root (defaultTypeDiagnostics n name call type) := by
  unfold defaultTypeDiagnostics
  split
  · split
    · exact madeIn_nil root
    · dsimp only
      split
      · exact madeIn_atNode hn _ _
      · split
        · exact madeIn_atNode hn _ _
        · exact madeIn_nil root
  · exact madeIn_nil root

theorem madeIn_boundsDiagnostics (hn : n ∈ root.walk) (name : String) (call : Node) :
    MadeIn root (boundsDiagnostics n name call) := by
  unfold boundsDiagnostics
  split
  · exact madeIn_nil root
  · dsimp only
    refine .append ?_ ?_
    · split
      · exact madeIn_atNode hn _ _
      · exact madeIn_nil root
    · split
      · exact madeIn_nil root
      · split
        · exact madeIn_atNode hn _ _
        · exact madeIn_nil root

theorem madeIn_constraintDiagnostics (hn : n ∈ root.walk) (imports : Imports) (name : String) :
    MadeIn root (constraintDiagnostics imports n name) := by
  unfold constraintDiagnostics
  split
  · exact madeIn_nil root
  · split
    · exact madeIn_boundsDiagnostics hn _ _
    · split
      · unfold emptinessDiagnostics
        split
        · exact madeIn_atNode hn _ _
        · exact madeIn_nil root
      · exact madeIn_nil root

theorem madeIn_declarationDiagnostics (hn : n ∈ root.walk) (imports : Imports) (name : String) :
    MadeIn root (declarationDiagnostics imports n name) := by
  unfold declarationDiagnostics
  split
  · exact madeIn_nil root
  · split
    · exact madeIn_nil root
    · refine .append (.append (madeIn_defaultTypeDiagnostics hn _ _ _) ?_)
        (madeIn_constraintDiagnostics hn _ _)
      unfold deprecationDiagnostics
      split
      · exact madeIn_atNode hn _ _
      · exact madeIn_nil root

theorem madeIn_classDiagnostics (k : Known) (hn : n ∈ root.walk) :
    MadeIn root (classDiagnostics k n) := by
  unfold classDiagnostics
  split
  · exact madeIn_flatMap fun entry hentry =>
      madeIn_declarationDiagnostics (Node.mem_walk_of_mem_classAssignments hn hentry) _ _
  · exact madeIn_nil root

theorem madeIn_containerDiagnostics {site value : Node} (hsite : site ∈ root.walk)
    (hvalue : value ∈ root.walk) (p : Parameter) (name : String) :
    MadeIn root (containerDiagnostics p name site value) := by
  unfold containerDiagnostics
  split
  · unfold itemDiagnostics
    split
    · next expected items _ hitems =>
      split
      · exact madeIn_nil root
      · intro d hd
        obtain ⟨entry, hentry, hd⟩ := List.mem_filterMap.mp hd
        have hitem : entry.1 ∈ items := List.fst_mem_of_mem_zipIdx hentry
        have hchild : entry.1 ∈ value.children := by
          unfold listItems? at hitems
          split at hitems
          · split at hitems
            · cases hitems
            · obtain rfl := Option.some.inj hitems
              exact (List.mem_filter.mp hitem).1
          · cases hitems
        obtain ⟨actual, -, hd⟩ := Option.bind_eq_some_iff.mp hd
        split at hd
        · cases hd
        · obtain rfl := Option.some.inj hd
          exact ⟨entry.1, Node.mem_walk_of_mem_children hvalue hchild, rfl, rfl⟩
    · exact madeIn_nil root
  · split
    · unfold lengthDiagnostics
      split
      · split
        · exact madeIn_nil root
        · exact madeIn_atNode hsite _ _
      · exact madeIn_nil root
    · exact madeIn_nil root

theorem madeIn_argumentDiagnostics (k : Known) (className name : String) {argument : Argument}
    (hsite : argument.site ∈ root.walk) (hvalue : argument.value ∈ root.walk) :
    MadeIn root (argumentDiagnostics k className name argument) := by
  unfold argumentDiagnostics
  split
  · exact madeIn_nil root
  · split
    · exact madeIn_nil root
    · dsimp only
      refine .append (.append ?_ ?_) (madeIn_containerDiagnostics hsite hvalue _ _)
      · split
        · exact madeIn_nil root
        · exact madeIn_atNode hsite _ _
      · split
        · exact madeIn_nil root
        · exact madeIn_atNode hsite _ _

theorem madeIn_constructorDiagnostics (k : Known) (className : String) {call : Node}
    (hcall : call ∈ root.walk) : MadeIn root (constructorDiagnostics k className call) := by
  unfold constructorDiagnostics
  split
  · exact madeIn_flatMap fun entry hentry =>
      have hnodes := Node.mem_walk_of_mem_keywords hcall hentry
      madeIn_argumentDiagnostics k className entry.1 hnodes.1 hnodes.2
  · exact madeIn_nil root

theorem madeIn_assignmentDiagnostics (k : Known) (className name : String) (hn : n ∈ root.walk)
    (value : Node) : MadeIn root (assignmentDiagnostics k className name n value) := by
  unfold assignmentDiagnostics
  split
  · split
    · exact madeIn_nil root
    · dsimp only
      refine .append ?_ ?_
      · split
        · exact madeIn_nil root
        · exact madeIn_atNode hn _ _
      · split
        · exact madeIn_nil root
        · exact madeIn_atNode hn _ _
  · exact madeIn_nil root

theorem madeIn_decoratorDiagnostics (k : Known) {place : Node.Located}
    (hplace : place.node ∈ root.walk) : MadeIn root (decoratorDiagnostics k place) := by
  unfold decoratorDiagnostics
  split
  · exact madeIn_nil root
  · split
    · exact madeIn_nil root
    · intro d hd
      obtain ⟨⟨name, site⟩, hentry, hd⟩ := List.mem_filterMap.mp hd
      dsimp only at hd
      split at hd
      · cases hd
      · obtain rfl := Option.some.inj hd
        refine ⟨site, ?_, rfl, rfl⟩
        unfold dependencies at hentry
        split at hentry
        · cases hentry
        · next list hlist =>
          obtain ⟨call, hcall, hlist⟩ := Option.bind_eq_some_iff.mp hlist
          obtain ⟨node, hnode, heq⟩ := List.mem_map.mp hentry
          obtain rfl : node = site := congrArg Prod.snd heq
          have hcall := Node.mem_walk_of_childOfKind? hplace hcall
          have hlist := Node.mem_walk_of_child? hcall hlist
          exact Node.mem_walk_of_mem_children hlist (List.mem_filter.mp hnode).1

variable {σ : Type} (k : Known) (ask : AskClass σ)

theorem ends_checkAssignment {place : Node.Located} (hplace : place.node ∈ root.walk) :
    Ends (fun _ => True) (checkAssignment k ask place) fun ds _ => MadeIn root ds := by
  unfold checkAssignment
  dsimp only
  split
  · split
    · exact Ends.pure fun _ _ => madeIn_nil root
    · refine Ends.bind (Q := fun _ _ => True) (fun _ _ => trivial) fun found => ?_
      cases found with
      | none => exact Ends.pure fun _ _ => madeIn_nil root
      | some className =>
        exact Ends.pure fun _ _ => madeIn_assignmentDiagnostics k className _ hplace _
  · exact Ends.pure fun _ _ => madeIn_nil root

theorem ends_checkCall {call : Node} (hcall : call ∈ root.walk) :
    Ends (fun _ => True) (checkCall k ask call) fun ds _ => MadeIn root ds := by
  unfold checkCall
  refine Ends.bind (Q := fun _ _ => True) (fun _ _ => trivial) fun found => ?_
  cases found with
  | none => exact Ends.pure fun _ _ => madeIn_nil root
  | some className => exact Ends.pure fun _ _ => madeIn_constructorDiagnostics k className hcall

theorem ends_mapM_madeIn {α : Type} (root : Node) {f : α → StateM σ (List Diagnostic)}
    {l : List α}
    (h : ∀ a ∈ l, Ends (fun _ => True) (f a) fun ds _ => MadeIn root ds) :
    Ends (fun _ => True) (l.mapM f) fun lists _ => MadeIn root lists.flatten := by
  induction l with
  | nil => exact Ends.pure fun _ _ => madeIn_nil root
  | cons a rest ih =>
    rw [List.mapM_cons]
    refine Ends.bind (h a List.mem_cons_self) fun ds => Ends.of_fact fun hds => ?_
    refine Ends.bind (ih fun b hb => h b (List.mem_cons_of_mem _ hb)) fun lists => ?_
    exact Ends.pure fun _ hlists => MadeIn.append hds hlists

theorem ends_checkFile (root : Node) :
    Ends (fun _ => True) (checkFile k ask root) fun ds _ => MadeIn root ds := by
  have hassignments := ends_mapM_madeIn root
    (l := k.finder.found .attributeAssignments root) (f := checkAssignment k ask)
    fun place hplace => ends_checkAssignment k ask (Finder.mem_walk_of_mem_found hplace)
  have hcalls := ends_mapM_madeIn root (l := k.finder.nodes .calls root) (f := checkCall k ask)
    fun call hcall => ends_checkCall k ask (Finder.mem_walk_of_mem_nodes hcall)
  unfold checkFile
  refine Ends.bind hassignments fun assignments => Ends.of_fact fun hassigned => ?_
  refine Ends.bind hcalls fun calls => ?_
  refine Ends.pure fun _ hcalled => .append (.append (.append ?_ hassigned) hcalled) ?_
  · exact madeIn_flatMap fun n hn =>
      madeIn_classDiagnostics k (Finder.mem_walk_of_mem_nodes hn)
  · exact madeIn_flatMap fun place hplace =>
      madeIn_decoratorDiagnostics k (Finder.mem_walk_of_mem_found hplace)

end

end ParamLens.Check
