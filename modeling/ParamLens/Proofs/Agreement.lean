import ParamLens.Proofs.SingleModule

/-! A file on its own and as a module of a library. Both ways to read it follow the same hierarchy,
but of two bases with a parameter of one name the analysis of the file takes the last and the record
of the library the first. So they agree exactly where the two bases have the same. -/

namespace ParamLens.Library

open Syntax Analysis Steps

/-! ### Declarations in a body -/

/-- The statement declares no parameter unless it is an assignment or a statement with one. -/
def PlainStatement (r : Recognition) (item : Node) : Prop :=
  item.kind = .expressionStatement ∨
    item.kind = .assignment ∧ r.isParameterAssignment item = true ∨ declarationsAmong r [item] = []

instance (r : Recognition) (item : Node) : Decidable (PlainStatement r item) :=
  inferInstanceAs (Decidable (_ ∨ _))

/-- The statements of a class stand in its body, and those that declare parameters directly. -/
def PlainBody (r : Recognition) (n : Node) : Prop :=
  Node.bodiesAmong (n.child? .body).isSome n.children = [] ∧
    ∀ body ∈ n.child? .body, ∀ item ∈ body.children, PlainStatement r item

instance (r : Recognition) (n : Node) : Decidable (PlainBody r n) :=
  inferInstanceAs (Decidable (_ ∧ _))

section

variable {r : Recognition}

/-- The assignments that a statement of a body is searched for. -/
def assignmentsOf (item : Node) : List Node :=
  if item.kind == .assignment then [item]
  else if item.kind == .expressionStatement then item.children.filter (·.kind == .assignment)
  else []

theorem filter_assignmentsOf {item : Node} (plain : PlainStatement r item) :
    (assignmentsOf item).filter r.isParameterAssignment = declarationsAmong r [item] := by
  have hstatement (h : item.kind = .expressionStatement) :
      (assignmentsOf item).filter r.isParameterAssignment = declarationsAmong r [item] := by
    have hkinds : (Kind.expressionStatement == Kind.assignment) = false := rfl
    simp only [declarationsAmong, List.append_nil, assignmentsOf, h, hkinds, Bool.false_eq_true,
      if_false, beq_self_eq_true, if_true, List.filter_filter, Bool.and_comm]
  have hassignment (h : item.kind = .assignment) (htest : r.isParameterAssignment item = true) :
      (assignmentsOf item).filter r.isParameterAssignment = [item] ∧
        declarationsAmong r [item] = [item] := by
    have hkinds : (Kind.assignment == Kind.expressionStatement) = false := rfl
    simp [declarationsAmong, assignmentsOf, h, hkinds, htest]
  rcases plain with h | ⟨h, htest⟩ | hnone
  · exact hstatement h
  · rw [(hassignment h htest).1, (hassignment h htest).2]
  · by_cases h : item.kind = .expressionStatement
    · exact hstatement h
    rw [hnone, List.filter_eq_nil_iff]
    intro found hfound htest
    -- An assignment that declares a parameter would be found.
    by_cases h' : item.kind = .assignment
    · obtain rfl : found = item := by simpa [assignmentsOf, h'] using hfound
      rw [(hassignment h' htest).2] at hnone
      cases hnone
    · simp [assignmentsOf, h, h'] at hfound

theorem declarationsAmong_cons (item : Node) (rest : List Node) :
    declarationsAmong r (item :: rest) =
      declarationsAmong r [item] ++ declarationsAmong r rest := by
  simp only [declarationsAmong, List.append_nil]

theorem filter_statementAssignments {items : List Node}
    (plain : ∀ item ∈ items, PlainStatement r item) :
    (items.flatMap assignmentsOf).filter r.isParameterAssignment = declarationsAmong r items := by
  induction items with
  | nil => rw [declarationsAmong, List.flatMap_nil, List.filter_nil]
  | cons item rest ih =>
    rw [List.flatMap_cons, List.filter_append, ih fun i hi => plain i (List.mem_cons_of_mem _ hi),
      filter_assignmentsOf (plain item List.mem_cons_self), ← declarationsAmong_cons]

theorem parameters_eq_ownParameters {n : Node} (plain : PlainBody r n) (content : String) :
    Declaration.parameters r content n = ownParameters r r.imports content n := by
  obtain ⟨hbodies, hstatements⟩ := plain
  rw [Declaration.parameters, Node.classAssignments, ownParameters, Node.bodies]
  cases hbody : n.child? .body with
  | none =>
    rw [hbody, Option.isSome_none] at hbodies
    simp only [hbodies, List.flatMap_nil, List.map_nil]
  | some body =>
    rw [hbody, Option.isSome_some] at hbodies
    have hfilter := filter_statementAssignments (hstatements body hbody)
    have hdeclarations : declarationsIn r body = declarationsAmong r body.children := by
      cases body
      rw [declarationsIn]
    simp only [hbodies, List.flatMap_cons, List.flatMap_nil, List.append_nil]
    rw [hdeclarations, ← hfilter, List.filterMap_filter, Node.assignmentsIn, List.map_filterMap]
    refine List.filterMap_congr fun item _ => ?_
    cases item.target? with
    | none => simp
    | some name =>
      by_cases hname : name = ""
      · simp [hname]
      · cases r.isParameterAssignment item <;> simp [hname]

end

/-! ### Where the two ways to read a file agree -/

/-- The parameter without its place and without what is known of its items and its length. -/
def shown (p : Parameter) : Parameter :=
  { p with location := none, itemType := none, length := none }

/-- Both are classes or none is, and they show the same under every name. -/
def SameParameters (c c' : Option ParamClass) : Prop :=
  c.isSome = c'.isSome ∧ ∀ name, (given c name).map shown = (given c' name).map shown

/-- The declarations and the forms of the root in a file are known in the same way when it is
analysed with the first types and when it is read with the second ones, and classes that do not
descend from the root declare nothing. -/
structure ReadsAlike (imports : Imports) (types types' : List String) (content : String)
    (nodes : List Node) : Prop where
  roots : ∀ n ∈ nodes, ∀ base ∈ n.bases, isRootNamed imports base = isRootWritten imports base
  bound : ∀ name full, imports.get? name = some full →
    Recognition.isParameterType ⟨imports, types⟩ full =
      Recognition.isParameterType ⟨imports, types'⟩ full
  bodies : ∀ n ∈ nodes, PlainBody ⟨imports, types⟩ n
  mixins : ∀ n ∈ nodes, n.className?.isSome = true → ¬ Descends (isRootNamed imports) nodes n →
    Declaration.parameters ⟨imports, types⟩ content n = []

/-- Under each name that a class does not declare, the first and the last of its kin that have the
name show the same. -/
def Undisputed (test : Node → Bool) (nodes : List Node) (own g : Node → String → Option Parameter) :
    Prop :=
  ∀ n ∈ nodes, n.className?.isSome = true → Descends test nodes n → ∀ name, own n name = none →
    ((kin nodes n).findSome? (g · name)).map shown =
      ((kin nodes n).reverse.findSome? (g · name)).map shown

section

variable {imports : Imports} {types types' : List String} {content : String} {nodes : List Node}

theorem descends_congr {test test' : Node → Bool}
    (h : ∀ n ∈ nodes, ∀ base ∈ n.bases, test base = test' base) {n : Node} (hn : n ∈ nodes) :
    Descends test nodes n ↔ Descends test' nodes n := by
  have hone {test test' : Node → Bool}
      (h : ∀ n ∈ nodes, ∀ base ∈ n.bases, test base = test' base) {n : Node} (hn : n ∈ nodes)
      (hdescends : Descends test nodes n) : Descends test' nodes n := by
    induction hdescends with
    | base hbase htest => exact .base hbase (h _ hn _ hbase ▸ htest)
    | kin hm _ ih => exact .kin hm (ih (named_of_mem_kin hm).1)
  exact ⟨hone h hn, hone (fun n hn base hbase => (h n hn base hbase).symm) hn⟩

theorem ReadsAlike.declared_eq (alike : ReadsAlike imports types types' content nodes) {n : Node}
    (hn : n ∈ nodes) :
    declaredThere imports types' content n = declaredHere imports types content n := by
  have htest := Recognition.isParameterAssignment_of_bound alike.bound
  funext name
  rw [declaredThere, declaredHere, parameters_eq_ownParameters (alike.bodies n hn),
    ownParameters_of_test htest]

/-- Where the file is read alike, first and last come to the same exactly if nothing is disputed. -/
theorem ReadsAlike.same_iff (alike : ReadsAlike imports types types' content nodes)
    (acyclic : Acyclic (LocalBase nodes)) {f g : Node → String → Option Parameter}
    (first : FirstWins nodes (declaredThere imports types' content) f)
    (last : LastWins (isRootNamed imports) nodes (declaredHere imports types content) g) :
    (∀ n ∈ nodes, n.className?.isSome = true → Descends (isRootNamed imports) nodes n → ∀ name,
        (g n name).map shown = (f n name).map shown) ↔
      Undisputed (isRootNamed imports) nodes (declaredHere imports types content) g := by
  have first' : FirstWins nodes (declaredHere imports types content) f := by
    intro n hn hnamed name
    rw [first n hn hnamed name, alike.declared_eq hn]
  refine ((first'.map shown).eq_lastWins_iff acyclic (last.map shown)
    fun n hn hnamed hnot name => ?_).trans ?_
  · rw [declaredHere, alike.mixins n hn hnamed hnot]
    rfl
  · simp only [Undisputed, Option.map_eq_none_iff, List.map_findSome?, Function.comp_def]

theorem ReadsAlike.sameParameters_iff (alike : ReadsAlike imports types types' content nodes)
    (acyclic : Acyclic (LocalBase nodes)) {here there : Node → Option ParamClass}
    {f : Node → String → Option Parameter}
    (hhere : ∀ n ∈ nodes, n.className?.isSome = true →
      ((here n).isSome = true ↔ Descends (isRootNamed imports) nodes n))
    (hthere : ∀ n ∈ nodes, n.className?.isSome = true →
      ((there n).isSome = true ↔ Descends (isRootWritten imports) nodes n))
    (last : LastWins (isRootNamed imports) nodes (declaredHere imports types content)
      fun n => given (here n))
    (first : FirstWins nodes (declaredThere imports types' content) f)
    (hreads : ∀ n ∈ nodes, n.className?.isSome = true → ∀ c, there n = some c →
      ∀ name, c.parameters.get? name = f n name) :
    (∀ n ∈ nodes, n.className?.isSome = true → SameParameters (here n) (there n)) ↔
      Undisputed (isRootNamed imports) nodes (declaredHere imports types content)
        fun n => given (here n) := by
  rw [← alike.same_iff acyclic first last]
  refine forall₃_congr fun n hn hnamed => ?_
  have hsame := (hthere n hn hnamed).trans (descends_congr alike.roots hn).symm
  constructor
  · rintro ⟨-, hshown⟩ hdescends name
    obtain ⟨c, hc⟩ := Option.isSome_iff_exists.mp (hsame.mpr hdescends)
    rw [hshown name, hc, ← hreads n hn hnamed c hc name]
    rfl
  · intro hshown
    refine ⟨Bool.eq_iff_iff.mpr ((hhere n hn hnamed).trans hsame.symm), fun name => ?_⟩
    by_cases hdescends : Descends (isRootNamed imports) nodes n
    · obtain ⟨c, hc⟩ := Option.isSome_iff_exists.mp (hsame.mpr hdescends)
      rw [hshown hdescends name, hc, ← hreads n hn hnamed c hc name]
      rfl
    · have hnone := Option.not_isSome_iff_eq_none.mp (hdescends ∘ (hhere n hn hnamed).mp)
      have hnone' := Option.not_isSome_iff_eq_none.mp (hdescends ∘ hsame.mp)
      rw [hnone, hnone']

end

variable {w : World} {library : String} {root : Path} {info : Info} {s : State}

/-- A file whose classes inherit from the root and from each other, analysed on its own and read as
a module of a library. Both ways a class counts if it descends from the root, in the forms that are
known there. It has what it declares and, under another name, what the last base of the class has
when the file is analysed, and what the first base has in the record of the library. So where the
file is read alike, the two give all classes the same parameters if and only if under each name
that a class does not declare the first and the last of its bases have the same. -/
theorem analysis_agrees_with_record_iff (ready : Ready library info s)
    (plain : '.' ∉ library.toList) (filled : library ≠ "") (foreign : library ≠ "param")
    (hroot : rootOf? w library (sources w library) = some root)
    {file : Path} {content module : String} {tree : Node}
    (part : ModuleOf w library root file content tree module)
    (contained : SelfContained (Imports.ofTree w.finder tree) (w.finder.classes tree))
    (current : Option Path) (t : AnalysisState)
    (hparam : AsksForRoot (Imports.ofTree w.finder tree) (w.finder.classes tree) →
      ∃ a t', (importedModule (importer w t.analyzer) w "param" current).run t = (.ok a, t') ∧
        a.classes.named? "Parameterized" = none) :
    let imports := Imports.ofTree w.finder tree
    let nodes := w.finder.classes tree
    let next := (populate w library s).2
    let own := declaredHere imports t.analyzer.types content
    ∃ a t' r, (analyzeFile w content current).run t = (.ok a, t') ∧
      next.store.stored? library info.version = some r ∧
      (∀ n ∈ nodes, n.className?.isSome = true →
        ((classFor? a.classes n).isSome = true ↔ Descends (isRootNamed imports) nodes n) ∧
        ((r.classes.get? (classPathOf module n)).isSome = true ↔
          Descends (isRootWritten imports) nodes n)) ∧
      LastWins (isRootNamed imports) nodes own (fun n => given (classFor? a.classes n)) ∧
      (∃ f, FirstWins nodes (declaredThere imports next.session.types content) f ∧
        ∀ n ∈ nodes, n.className?.isSome = true → ∀ c,
          r.classes.get? (classPathOf module n) = some c →
            ∀ name, c.parameters.get? name = f n name) ∧
      (ReadsAlike imports t.analyzer.types next.session.types content nodes →
        ((∀ n ∈ nodes, n.className?.isSome = true →
            SameParameters (classFor? a.classes n) (r.classes.get? (classPathOf module n))) ↔
          Undisputed (isRootNamed imports) nodes own fun n => given (classFor? a.classes n))) := by
  intro imports nodes next own
  obtain ⟨a, t', hrun, solves⟩ := exists_run_analyzeFile part.parsed contained current t hparam
  obtain ⟨r, hstored, hthere, f, first, hreads⟩ :=
    part.exists_record contained ready plain filled foreign hroot
  have hhere (n : Node) (hn : n ∈ nodes) (hnamed : n.className?.isSome = true) :
      (classFor? a.classes n).isSome = true ↔ Descends (isRootNamed imports) nodes n :=
    isSome_classFor?_iff contained solves hn hnamed
  have last := lastWins_classFor? contained solves
  exact ⟨a, t', r, hrun, hstored, fun n hn hnamed => ⟨hhere n hn hnamed, hthere n hn hnamed⟩, last,
    ⟨f, first, hreads⟩, fun alike =>
      alike.sameParameters_iff contained.acyclic hhere hthere last first hreads⟩

/-- The library `panel` with one module. -/
def oneModule (file : Sketch) : World := panelOf [(["m.py"], file)]

def panelModule : Path := ⟨true, ["site", "panel", "m.py"]⟩

theorem sources_oneModule (file : Sketch) : sources (oneModule file) "panel" = [panelModule] := by
  have hnames : (oneModule file).files.files.map Prod.fst = [panelModule.parts] := rfl
  refine sources_eq_of_listed (rfl : _ = [panelRoot]) ⟨rfl, rfl⟩ (rfl : _ = some ["site", "panel"])
    ?_ (by decide) (by decide)
  rw [hnames]
  decide +kernel

theorem moduleOf_oneModule {file : Sketch}
    (hread : (oneModule file).read? panelModule = some file.written)
    (hfacts : ((surveyOf (oneModule file) "panel" panelRoot).aliases "panel").names = [] ∧
      ∀ x ∈ declaredClasses (oneModule file) "panel" panelRoot [panelModule], ∀ base ∈ x.2.2,
        ∀ full ∈ detected (oneModule file) "panel" panelRoot,
          writtenMatches base full = true → full = base)
    (hroots : ∀ n ∈ Finder.inText.classes file.node,
      n.className?.isSome = true → ∀ base ∈ n.bases, base.kind = .attribute →
        Foreign "panel" base.text) :
    ModuleOf (oneModule file) "panel" panelRoot panelModule file.written file.node "panel.m" where
  source := by simp [sources_oneModule]
  read := hread
  parsed := by simp [World.parse?, oneModule, panelOf, siteOf, World.sketched]
  installed := rfl
  named := rfl
  alone _ _ _ _ _ _ _ hdeclared := by
    have hfile := hdeclared.1
    rw [sources_oneModule] at hfile
    exact List.mem_singleton.mp hfile
  unaliased path _ _ _ _ := by
    rw [Table.get?_eq_none_iff, hfacts.1]
    exact List.not_mem_nil
  unmatched _ _ _ hdeclared _ := by
    have hmem := hdeclared.mem
    rw [sources_oneModule] at hmem
    exact hfacts.2 _ hmem
  roots := hroots

theorem fresh_oneModule (file : Sketch) :
    fresh (oneModule file) none [] { enabled := true } =
      ⟨{ workspace := none, extra := [], session := panelState.session, types := [] },
        panelState.store⟩ := by
  have hstart : Analyzer.start (oneModule file) none [] { enabled := true } =
      (let found := allTypes (firstState (oneModule file))
       ({ workspace := none, extra := [], session := found.2.session, types := found.1 },
        found.2.store)) := rfl
  rw [fresh, hstart, oneModule, firstState_panelOf]
  rfl

open Sketch in
/-- A class inherits from another one over two classes between them. -/
def diamond : Sketch :=
  file [importsModule ["param"], classed "A" [rootBase] [declares "x" "Integer" []],
    classed "B" [name "A"] [declares "y" "String" []], classed "C" [name "A"] [],
    classed "D" [name "B", name "C"] []]

def diamondTop : Node := diamond.nodeAt [1]

def diamondLeft : Node := diamond.nodeAt [2]

def diamondRight : Node := diamond.nodeAt [3]

def diamondBottom : Node := diamond.nodeAt [4]

/-- The classes of the diamond in the order of the text. -/
def diamondClasses : List Node := [diamondTop, diamondLeft, diamondRight, diamondBottom]

def diamondImports : Imports := Imports.ofTree .inText diamond.node

theorem kin_diamond : kin diamondClasses diamondTop = [] ∧
    kin diamondClasses diamondLeft = [diamondTop] ∧
    kin diamondClasses diamondRight = [diamondTop] ∧
    kin diamondClasses diamondBottom = [diamondLeft, diamondRight] := ⟨rfl, rfl, rfl, rfl⟩

theorem contained_diamond : SelfContained diamondImports diamondClasses := by
  refine ⟨by decide +kernel, by decide +kernel, ?_, by decide +kernel, by decide +kernel⟩
  exact acyclic_localBase (fun n => if n.className? = some "A" then 0 else
    if n.className? = some "D" then 2 else 1) (by decide +kernel)

theorem descends_diamond {n : Node} (hn : n ∈ diamondClasses) :
    Descends (isRootNamed diamondImports) diamondClasses n := by
  obtain ⟨-, hleft, hright, hbottom⟩ := kin_diamond
  have htop : Descends (isRootNamed diamondImports) diamondClasses diamondTop :=
    .base (List.mem_singleton_self _) (by decide +kernel)
  have hside : Descends (isRootNamed diamondImports) diamondClasses diamondLeft :=
    .kin (by simp [hleft]) htop
  simp only [diamondClasses, List.mem_cons, List.not_mem_nil, or_false] at hn
  rcases hn with rfl | rfl | rfl | rfl
  · exact htop
  · exact hside
  · exact .kin (by simp [hright]) htop
  · exact .kin (by simp [hbottom]) hside

theorem readsAlike_diamond :
    ReadsAlike diamondImports [] [] diamond.written diamondClasses where
  roots := by decide +kernel
  bound _ _ _ := rfl
  bodies := by decide +kernel
  mixins _ hn _ hnot := absurd (descends_diamond hn) hnot

/-- The left class of the diamond declares another name than the top one, and the right one declares
none. So whatever name both have comes from the top. -/
theorem undisputed_diamond {g : Node → String → Option Parameter}
    (last : LastWins (isRootNamed diamondImports) diamondClasses
      (declaredHere diamondImports [] diamond.written) g) :
    Undisputed (isRootNamed diamondImports) diamondClasses
      (declaredHere diamondImports [] diamond.written) g := by
  obtain ⟨htop, hleft, hright, hbottom⟩ := kin_diamond
  let own := declaredHere diamondImports [] diamond.written
  have hnames : own diamondRight = fun _ => none := by
    funext name
    rfl
  have hgiven (n : Node) (hn : n ∈ diamondClasses) (hnamed : n.className?.isSome = true)
      (name : String) : g n name =
        (own n name).or ((kin diamondClasses n).reverse.findSome? (g · name)) :=
    (last n hn hnamed name).1 (descends_diamond hn)
  have hgtop (name : String) : g diamondTop name = own diamondTop name := by
    rw [hgiven _ (by simp [diamondClasses]) (by decide +kernel), htop]
    exact Option.or_none
  have hgleft (name : String) : g diamondLeft name =
      (own diamondLeft name).or (own diamondTop name) := by
    rw [hgiven _ (by simp [diamondClasses]) (by decide +kernel), hleft, List.reverse_singleton,
      List.findSome?_singleton, hgtop]
  have hgright (name : String) : g diamondRight name = own diamondTop name := by
    rw [hgiven _ (by simp [diamondClasses]) (by decide +kernel), hright, List.reverse_singleton,
      List.findSome?_singleton, hgtop, hnames, Option.none_or]
  have hapart (name : String) : own diamondLeft name = none ∨ own diamondTop name = none := by
    let names (n : Node) := (byName (Declaration.parameters
      ⟨diamondImports, []⟩ diamond.written n)).names
    have hnames : names diamondLeft = ["y"] ∧ names diamondTop = ["x"] := by decide +kernel
    by_cases hname : name = "y"
    · refine .inr ((Table.get?_eq_none_iff _ name).mpr ?_)
      show name ∉ names diamondTop
      simp [hnames.2, hname]
    · refine .inl ((Table.get?_eq_none_iff _ name).mpr ?_)
      show name ∉ names diamondLeft
      simp [hnames.1, hname]
  intro n hn _ _ name _
  simp only [diamondClasses, List.mem_cons, List.not_mem_nil, or_false] at hn
  rcases hn with rfl | rfl | rfl | rfl
  · rw [htop]
    rfl
  · rw [hleft]
    rfl
  · rw [hright]
    rfl
  · have htwo (m m' : Node) : [m, m'].findSome? (g · name) = (g m name).or (g m' name) := by
      rw [List.findSome?_cons, List.findSome?_singleton]
      cases g m name <;> rfl
    have hreverse : [diamondLeft, diamondRight].reverse = [diamondRight, diamondLeft] := rfl
    rw [hbottom, hreverse, htwo, htwo, hgleft, hgright]
    rcases hapart name with hnone | hnone
    · rw [hnone, Option.none_or]
    · rw [hnone, Option.or_none, Option.or_none, Option.none_or]

/-- The classes of the diamond are analysed as they are recorded. -/
theorem analysis_agrees_with_record_of_diamond :
    let w := oneModule diamond
    let next := (populate w "panel" (firstState w)).2
    ∃ a t r,
      (analyzeFile w diamond.written none).run (fresh w none [] { enabled := true }) = (.ok a, t) ∧
      next.store.stored? "panel" "1.0" = some r ∧
      ∀ n ∈ diamondClasses, (classFor? a.classes n).isSome = true ∧
        SameParameters (classFor? a.classes n) (r.classes.get? (classPathOf "panel.m" n)) := by
  intro w next
  have hroot : rootOf? w "panel" (sources w "panel") = some panelRoot := by
    rw [sources_oneModule]
    rfl
  have htypes : next.session.types = [] := by
    have hstart : populate w "panel" (firstState w) = populateWith w 4 "panel" panelState := by
      simp only [w, oneModule, firstState_panelOf]
      rfl
    simp only [next, hstart, populateWith, populateSources, w, sources_oneModule]
    decide +kernel
  have hfresh : (fresh w none [] { enabled := true }).analyzer.types = [] := by
    simp only [w, fresh_oneModule]
  have part : ModuleOf w "panel" panelRoot panelModule diamond.written diamond.node "panel.m" := by
    refine moduleOf_oneModule (by decide +kernel) ?_ (by decide +kernel)
    rw [detected, surveyOf, sources_oneModule]
    decide +kernel
  have hasks : ¬ AsksForRoot diamondImports diamondClasses := by
    unfold AsksForRoot
    decide +kernel
  obtain ⟨a, t, r, hrun, hstored, hclasses, hlast, -, hiff⟩ :=
    analysis_agrees_with_record_iff (ready_panelOf _) (by decide) (by decide) (by decide) hroot part
      contained_diamond none (fresh w none [] { enabled := true })
      fun h => absurd h hasks
  rw [hfresh] at hlast hiff
  refine ⟨a, t, r, hrun, hstored, fun n hn => ?_⟩
  have hnamed : n.className?.isSome = true := by
    revert n
    decide +kernel
  refine ⟨(hclasses n hn hnamed).1.mpr (descends_diamond hn), ?_⟩
  exact (hiff (htypes ▸ readsAlike_diamond)).mpr (undisputed_diamond hlast) n hn hnamed

open Sketch in
/-- Two classes declare a parameter of one name, and a third one inherits from both. -/
def disputed : Sketch :=
  file [importsModule ["param"], classed "A" [rootBase] [declares "x" "Integer" []],
    classed "B" [rootBase] [declares "x" "String" []], classed "C" [name "A", name "B"] []]

/-- The type of a parameter of the class `C`, analysed on its own and recorded. -/
theorem analysis_differs_from_record :
    let w := oneModule disputed
    let tree := disputed.node
    let next := (populate w "panel" (firstState w)).2
    let analysed :=
      ((analyzeFile w disputed.written none).run (fresh w none [] { enabled := true })).1
    let recorded := next.store.stored? "panel" "1.0"
    SelfContained (Imports.ofTree w.finder tree) (w.finder.classes tree) ∧
      (analysed.toOption.bind fun a => a.classes.get? "C:5").bind
        (fun c => (c.parameters.get? "x").map (·.typeName)) = some "String" ∧
      (recorded.bind fun r => r.classes.get? "panel.m.C").bind
        (fun c => (c.parameters.get? "x").map (·.typeName)) = some "Integer" := by
  intro w tree next analysed recorded
  refine ⟨⟨by decide +kernel, by decide +kernel, ?_, by decide +kernel, by decide +kernel⟩, ?_, ?_⟩
  · exact acyclic_localBase (fun n => if n.className? = some "C" then 1 else 0) (by decide +kernel)
  · simp only [analysed, w, fresh_oneModule]
    decide +kernel
  · have hstart : populate w "panel" (firstState w) = populateWith w 4 "panel" panelState := by
      simp only [w, oneModule, firstState_panelOf]
      rfl
    simp only [next, recorded, hstart, populateWith, populateSources, w, sources_oneModule]
    decide +kernel

end ParamLens.Library
