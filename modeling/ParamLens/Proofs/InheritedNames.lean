import ParamLens.Proofs.Dependencies

/-! Names that a class inherits. Where the classes of a file have distinct names and do not inherit
from each other in a circle, a registered class has the parameters of every registered class of the
file that it inherits from, so that its methods can depend on them. Methods are known of the class
itself only. -/

namespace ParamLens.Analysis

open Syntax Steps Check Library Relation

/-! ### What classes hand down -/

/-- The names of the parameters that a class declares in its body. -/
def declaredNames (imports : Imports) (types : List String) (n : Node) : List String :=
  (n.classAssignments (Recognition.isParameterAssignment ⟨imports, types⟩)).map Prod.snd

theorem map_name_parameters (imports : Imports) (types : List String) (content : String)
    (n : Node) : (Declaration.parameters ⟨imports, types⟩ content n).map (·.name) =
      declaredNames imports types n := by
  rw [Declaration.parameters, declaredNames, List.map_map]
  refine List.map_congr_left fun entry _ => ?_
  show (Declaration.parameter _ _ _ _).name = _
  unfold Declaration.parameter
  split <;> rfl

theorem mem_parameterNames_built {className name : String} {inherited : Table Parameter}
    {own : List Parameter} : name ∈ (built className inherited own).parameterNames ↔
      name ∈ own.map (·.name) ∨ inherited.contains name = true := by
  rw [ParamClass.mem_parameterNames, ← Option.isSome_iff_exists, ParamClass.get?,
    ← Table.contains_eq_isSome, parameters_built, Table.contains_update, List.map_map]
  rfl

theorem contains_foldl_lay {cs : List (Option ParamClass)} {c : ParamClass} (hc : some c ∈ cs)
    {name : String} (hname : name ∈ c.parameterNames) :
    (cs.foldl lay ∅).contains name = true := by
  obtain ⟨p, hp⟩ := ParamClass.mem_parameterNames.mp hname
  rw [Table.contains_eq_isSome, get?_foldl_lay, Option.isSome_or, Bool.or_eq_true,
    List.findSome?_isSome_iff]
  refine .inl ⟨some c, List.mem_reverse.mpr hc, ?_⟩
  rw [given, Option.bind_some, ← ParamClass.get?, hp]
  rfl

section

variable {nodes : List Node} {classes : Classes} {m n : Node} {name : String} {c : ParamClass}

theorem classFor?_insert_self (hname : n.className? = some name) :
    classFor? (classes.insert (Classes.key name n.row) c) n = some c := by
  rw [classFor?, hname, Option.bind_some, Table.get?_insert_self]

theorem classFor?_insert_ne (colonFree : ColonFree nodes)
    (distinct : (nodes.filterMap Node.className?).Nodup) (hm : m ∈ nodes) (hn : n ∈ nodes)
    (hne : m ≠ n) (hname : n.className? = some name) :
    classFor? (classes.insert (Classes.key name n.row) c) m = classFor? classes m := by
  cases hother : m.className? with
  | none => rw [classFor?, classFor?, hother, Option.bind_none, Option.bind_none]
  | some other =>
    rw [classFor?, classFor?, hother, Option.bind_some, Option.bind_some, Table.get?_insert_ne]
    intro hkey
    obtain rfl := colonFree.key_eq hm hn hother hname hkey
    exact hne (eq_of_className distinct hm hn hother hname)

end

/-- Of the classes that are done, those that are entered have the names that they declare, and a
class that is entered makes its subclasses entered and gives them its names. -/
structure HandsDown (imports : Imports) (types : List String) (nodes done : List Node)
    (latest : Analysis) : Prop where
  bindings : latest.imports = imports
  keyed : KeyedBy done latest.classes
  closed : ∀ n ∈ done, ∀ m, LocalBase nodes m n → m ∈ done
  own : ∀ n ∈ done, ∀ c, classFor? latest.classes n = some c →
    declaredNames imports types n ⊆ c.parameterNames
  inherited : ∀ n ∈ done, ∀ m, LocalBase nodes m n → ∀ c, classFor? latest.classes m = some c →
    ∃ c', classFor? latest.classes n = some c' ∧ c.parameterNames ⊆ c'.parameterNames

theorem LocalBase.exists_base {nodes : List Node} {m n : Node} (h : LocalBase nodes m n) :
    ∃ base ∈ n.bases, base.kind = .identifier ∧ base.text ≠ "" ∧
      m.className? = some base.text := by
  obtain ⟨-, base, hbase, hkind, hname⟩ := h
  exact ⟨base, hbase, hkind, by simpa using (Option.filter_eq_some_iff.mp hname).2, hname⟩

theorem nodup_classOrder {nodes : List Node} (distinct : (nodes.filterMap Node.className?).Nodup) :
    (classOrder nodes).Nodup := by
  rw [(classOrder_perm nodes).nodup_iff, List.Nodup, List.pairwise_filter]
  rw [List.Nodup, List.pairwise_filterMap] at distinct
  refine distinct.imp ?_
  rintro n _ hapart hnamed - rfl
  obtain ⟨name, hname⟩ := Option.isSome_iff_exists.mp hnamed
  exact hapart name hname name hname rfl

section

variable {means : String → Analysis → Prop} {imports : Imports} {types : List String}
  {content : String} {nodes done : List Node} {latest next : Analysis} {m n : Node} {c : ParamClass}
  (colonFree : ColonFree nodes) (distinct : (nodes.filterMap Node.className?).Nodup)
  (hdone : done ⊆ nodes) (hands : HandsDown imports types nodes done latest)

include colonFree distinct hdone hands

theorem HandsDown.named?_eq (hm : m ∈ nodes) {name : String} (hname : m.className? = some name) :
    latest.classes.named? name = classFor? latest.classes m := by
  have hkeyed : KeyedBy nodes latest.classes := fun key c hget =>
    (hands.keyed key c hget).imp fun n h => ⟨hdone h.1, h.2⟩
  rw [hkeyed.named?_eq colonFree distinct hm hname, classFor?, hname, Option.bind_some]

theorem HandsDown.base_of_entered (means : String → Analysis → Prop) (hbase : LocalBase nodes m n)
    (hentered : classFor? latest.classes m = some c) :
    ∃ base ∈ n.bases, (∀ b, Tests means latest base b → b = true) ∧
      ∀ found, Brings means latest base found → found = some c := by
  obtain ⟨base, hmem, hkind, htext, hname⟩ := hbase.exists_base
  have hnamed : latest.classes.named? base.text = some c :=
    (hands.named?_eq colonFree distinct hdone hbase.1 hname).trans hentered
  have hkey : (latest.classes.keyOf? base.text).isSome = true := by
    obtain ⟨entry, hentry, -⟩ := Option.map_eq_some_iff.mp hnamed
    rw [Classes.keyOf?, hentry]
    rfl
  refine ⟨base, hmem, fun b htests => ?_, fun found hbrings => ?_⟩
  · simpa [Tests, hkind, htext, hkey] using htests
  · simpa [Brings, hkind, htext, hnamed] using hbrings

theorem HandsDown.classFor?_eq_none (hn : n ∈ nodes) (hnew : n ∉ done) :
    classFor? latest.classes n = none := by
  rw [Option.eq_none_iff_forall_ne_some]
  intro c hentered
  obtain ⟨name, hname, hget⟩ := Option.bind_eq_some_iff.mp hentered
  obtain ⟨m, hm, other, hother, hkey⟩ := hands.keyed _ c hget
  obtain rfl := colonFree.key_eq hn (hdone hm) hname hother hkey
  exact hnew (eq_of_className distinct hn (hdone hm) hname hother ▸ hm)

theorem HandsDown.step (hn : n ∈ nodes) (hnew : n ∉ done)
    (hlocal : ∀ m, LocalBase nodes m n → m ∈ done)
    (h : Takes means (· = types) content n latest next) :
    HandsDown imports types nodes (done ++ [n]) next := by
  have hclosed : ∀ n' ∈ done ++ [n], ∀ m, LocalBase nodes m n' → m ∈ done := by
    intro n' hn' m hm
    rcases List.mem_append.mp hn' with hold | hlast
    · exact hands.closed n' hold m hm
    · exact hlocal m (List.mem_singleton.mp hlast ▸ hm)
  have hwiden {n' : Node} (h : n' ∈ done) : n' ∈ done ++ [n] := List.mem_append_left _ h
  cases h with
  | passed htests =>
    refine ⟨hands.bindings,
      fun key c hget => (hands.keyed key c hget).imp fun _ h => ⟨hwiden h.1, h.2⟩,
      fun n' hn' m hm => hwiden (hclosed n' hn' m hm), fun n' hn' c hc => ?_,
      fun n' hn' m hm c hc => ?_⟩
    · rcases List.mem_append.mp hn' with hold | hlast
      · exact hands.own n' hold c hc
      · obtain rfl := List.mem_singleton.mp hlast
        rw [hands.classFor?_eq_none colonFree distinct hdone hn hnew] at hc
        cases hc
    · rcases List.mem_append.mp hn' with hold | hlast
      · exact hands.inherited n' hold m hm c hc
      · -- A base that is entered would not have let the class pass.
        obtain rfl := List.mem_singleton.mp hlast
        obtain ⟨base, hbase, htrue, -⟩ :=
          hands.base_of_entered colonFree distinct hdone means hm hc
        exact absurd (htrue false (htests base hbase)) Bool.false_ne_true
  | @entered name base cs known hname _ _ hbrings hknown =>
    subst hknown
    have hother {m : Node} (hm : m ∈ done) (c : ParamClass) :
        classFor? (latest.classes.insert (Classes.key name n.row) c) m =
          classFor? latest.classes m :=
      classFor?_insert_ne colonFree distinct (hdone hm) hn (fun heq => hnew (heq ▸ hm)) hname
    refine ⟨hands.bindings, fun key c hget => ?_, fun n' hn' m hm => hwiden (hclosed n' hn' m hm),
      fun n' hn' c hc => ?_, fun n' hn' m hm c hc => ?_⟩
    · rw [Table.get?_insert] at hget
      split at hget
      · next hkey => exact ⟨n, by simp, name, hname, hkey⟩
      · exact (hands.keyed key c hget).imp fun _ h => ⟨hwiden h.1, h.2⟩
    · rcases List.mem_append.mp hn' with hold | hlast
      · exact hands.own n' hold c (hother hold _ ▸ hc)
      · obtain rfl := List.mem_singleton.mp hlast
        rw [classFor?_insert_self hname, Option.some.injEq] at hc
        subst hc
        intro declared hdeclared
        rw [mem_parameterNames_built, map_name_parameters, hands.bindings]
        exact .inl hdeclared
    · have hbase := hclosed n' hn' m hm
      rw [hother hbase] at hc
      rcases List.mem_append.mp hn' with hold | hlast
      · rw [hother hold]
        exact hands.inherited n' hold m hm c hc
      · obtain rfl := List.mem_singleton.mp hlast
        refine ⟨_, classFor?_insert_self hname, fun inherited hinherited => ?_⟩
        obtain ⟨base, hbase, -, honly⟩ :=
          hands.base_of_entered colonFree distinct hdone means hm hc
        obtain ⟨found, hfound, hbrought⟩ := exists_of_mem_forall₂ hbrings hbase
        rw [honly found hbrought] at hfound
        exact mem_parameterNames_built.mpr (.inr (contains_foldl_lay hfound hinherited))

omit hdone hands

/-- The classes are taken after their bases, so that in the end every class hands its names down. -/
theorem HandsDown.traverses {rest : List Node} (acyclic : Acyclic (LocalBase nodes))
    (awaits : AwaitsNamed nodes)
    (hands : HandsDown imports types nodes done latest)
    (horder : classOrder nodes = done ++ rest)
    (h : Traverses (Takes means (· = types) content) rest latest next) :
    HandsDown imports types nodes (classOrder nodes) next := by
  have hfirst := basesFirst_classOrder acyclic awaits distinct
  have hnodup := nodup_classOrder distinct
  induction h generalizing done with
  | nil => simpa [horder] using hands
  | @cons n rest latest next final hstep _ ih =>
    have hsub : done ⊆ nodes := fun m hm =>
      (mem_classOrder.mp (horder ▸ List.mem_append_left _ hm)).1
    have hn : n ∈ nodes :=
      (mem_classOrder.mp (horder ▸ List.mem_append_right _ List.mem_cons_self)).1
    have hnew : n ∉ done := by
      rw [horder] at hnodup
      exact fun hmem => (List.nodup_append.mp hnodup).2.2 n hmem n List.mem_cons_self rfl
    refine ih (hands.step colonFree distinct hsub hn hnew (hfirst done n rest horder) hstep) ?_
    rw [horder, List.append_assoc, List.singleton_append]

end

/-! ### The analysis of a file -/

/-- The analysis of a file never changes the types that it knows. -/
theorem supports_types (importer : Importer) (w : World) (current : Option Path) (root : Node)
    (types : List String) :
    Supports (fun s => s.analyzer.types = types) importer w current root (fun _ _ => True)
      (· = types) fun _ _ => True where
  known h := h
  change _ _ h := h
  ask _ h := h
  module latest _ _ _ := by
    let P (s : AnalysisState) : Prop := s.analyzer.types = types ∧ s.analyzer.latest = latest
    have hkeep (name file : String) (a : Analysis) :
        Triple P (keepModule name file a) (fun _ => P) fun _ _ => True :=
      Triple.modify fun _ hs => hs
    have hrun (file : Path) (content : String) :
        Triple P (runImporter importer file content) (fun _ => P) fun _ _ => True := by
      refine Triple.of_success (fun _ _ => trivial) fun s a next hs hrun => ?_
      obtain rfl : { s with store := (importer file content s.store).2 } = next :=
        congrArg Prod.snd hrun
      exact hs
    refine Triple.get_bind fun s _ => ?_
    dsimp only
    split
    · exact Triple.pure fun s hs => ⟨trivial, hs⟩
    split
    · exact fun _ _ => trivial
    · exact Triple.pure fun s hs => ⟨trivial, hs⟩
    split
    · exact (hkeep _ _ _).bind fun _ => Triple.pure fun s hs => ⟨trivial, hs⟩
    split
    · exact Triple.pure fun s hs => ⟨trivial, hs⟩
    · exact (hrun _ _).bind fun found => (hkeep _ _ found).bind fun _ =>
        Triple.pure fun s hs => ⟨trivial, hs⟩

/-- After the analysis of a file every class of it hands its names down. -/
theorem handsDown_analyzeFile {w : World} {content : String} {current : Option Path}
    {s next : AnalysisState} {a : Analysis} {root : Node}
    (h : (analyzeFile w content current).run s = (.ok a, next))
    (htree : w.parse? content = some root)
    (distinct : ((w.finder.classes root).filterMap Node.className?).Nodup)
    (acyclic : Acyclic (LocalBase (w.finder.classes root)))
    (colonFree : ColonFree (w.finder.classes root))
    (awaits : AwaitsNamed (w.finder.classes root)) :
    HandsDown (Imports.ofTree w.finder root) s.analyzer.types (w.finder.classes root)
      (classOrder (w.finder.classes root)) a ∧ next.analyzer.types = s.analyzer.types := by
  rw [run_analyzeFile] at h
  obtain ⟨hanalysed, htypes⟩ := (triple_analyzeWith fun root _ =>
    supports_types (importer w s.analyzer) w current root s.analyzer.types).of_ok rfl h
  simp only [Analysed, htree] at hanalysed
  obtain ⟨latest, htraverses, hclasses, himports⟩ := hanalysed
  have hstart : HandsDown (Imports.ofTree w.finder root) s.analyzer.types (w.finder.classes root) []
      { imports := Imports.ofTree w.finder root } :=
    ⟨rfl, fun key c hget => (by cases hget), by simp, by simp, by simp⟩
  have hend := hstart.traverses colonFree distinct acyclic awaits (List.nil_append _).symm
    htraverses
  refine ⟨⟨himports.trans hend.bindings, ?_, hend.closed, ?_, ?_⟩, htypes⟩
  · rw [hclasses]
    exact hend.keyed
  · rw [hclasses]
    exact hend.own
  · rw [hclasses]
    exact hend.inherited

section

variable {imports : Imports} {types : List String} {nodes : List Node} {latest : Analysis}
  {m n : Node} {c c' : ParamClass}
  (hands : HandsDown imports types nodes (classOrder nodes) latest)
  (hn : n ∈ classOrder nodes) (hreach : ReflTransGen (LocalBase nodes) m n)

include hands hn hreach

theorem HandsDown.exists_descendant (hentered : classFor? latest.classes m = some c) :
    ∃ c', classFor? latest.classes n = some c' ∧ c.parameterNames ⊆ c'.parameterNames := by
  induction hreach with
  | refl => exact ⟨c, hentered, fun _ hname => hname⟩
  | @tail b n _ hbase ih =>
    obtain ⟨found, hfound, hsub⟩ := ih (hands.closed n hn b hbase)
    obtain ⟨c', hc', hsub'⟩ := hands.inherited n hn b hbase found hfound
    exact ⟨c', hc', fun _ hname => hsub' (hsub hname)⟩

theorem HandsDown.declaredNames_subset (hentered : classFor? latest.classes m = some c)
    (hc' : classFor? latest.classes n = some c') :
    declaredNames imports types m ⊆ c'.parameterNames := by
  have hm : m ∈ classOrder nodes := by
    rcases hreach.cases_head with rfl | ⟨b, hbase, -⟩
    · exact hn
    · obtain ⟨base, -, -, -, hname⟩ := hbase.exists_base
      exact mem_classOrder.mpr ⟨hbase.1, by rw [hname]; rfl⟩
  obtain ⟨found, hfound, hsub⟩ := hands.exists_descendant hn hreach hentered
  obtain rfl := Option.some.inj (hfound.symm.trans hc')
  exact fun _ hname => hsub (hands.own m hm c hentered hname)

end

end ParamLens.Analysis

namespace ParamLens.Check

open Syntax Analysis Relation

/-- The diagnostics are those of the place. A plain name in the decorator is reported exactly if the
class has parameters and the name is none of them and no method of its own body. So no name is
reported that the class or a registered class of the file above it declares, and every method is
that it inherits only. -/
structure KnowsInherited (k : Known) (nodes : List Node) (place : Node.Located)
    (ds : List Diagnostic) : Prop where
  verdict {n site : Node} {className name : String} {c : ParamClass} :
    nearestClass? place.ancestors = some n → Registered k n className c →
    (name, site) ∈ dependencies place.node → Reference.ofName name = .itself name →
    (complaint className name site ∈ ds ↔
      c.parameterNames ≠ [] ∧ name ∉ c.parameterNames ∧ name ∉ methodsOf n)
  declared {m n site : Node} {className name : String} {c : ParamClass} :
    nearestClass? place.ancestors = some n → Registered k n className c →
    (name, site) ∈ dependencies place.node → Reference.ofName name = .itself name →
    n ∈ nodes → ReflTransGen (LocalBase nodes) m n → (classFor? k.classes m).isSome = true →
    name ∈ (m.classAssignments k.isDeclaration).map Prod.snd →
    complaint className name site ∉ ds

/-- A plain name is reported exactly if it is no parameter of the class and no method in its
body. -/
theorem Registered.reported_iff {k : Known} {place : Node.Located} {n site : Node}
    {className name : String} {c : ParamClass} (registered : Registered k n className c)
    (hnearest : nearestClass? place.ancestors = some n)
    (hname : (name, site) ∈ dependencies place.node)
    (hplain : Reference.ofName name = .itself name) :
    complaint className name site ∈ decoratorDiagnostics k place ↔
      c.parameterNames ≠ [] ∧ name ∉ c.parameterNames ∧ name ∉ methodsOf n := by
  rw [complaint_mem_decoratorDiagnostics (registered.knownClassAround? hnearest) hname,
    registered.parametersOf, ← Bool.not_eq_true, isValidDependency_iff, hplain]
  simp only [Reference.Accepted, ParamClass.map_fst_declaredTypes, not_or]

end ParamLens.Check

namespace ParamLens.Analysis

open Syntax Steps Check Library Relation

/-- Where the classes of a file have distinct names and do not inherit from each other in a circle,
the methods of a registered class can depend on every parameter that a registered class of the file
hands down to it. They cannot depend on the methods that it inherits. -/
theorem dependencies_know_inherited {w : World} {content : String} {current : Option Path}
    {s next : AnalysisState} {a : Analysis} {root : Node}
    (h : (analyzeFile w content current).run s = (.ok a, next))
    (htree : w.parse? content = some root)
    (distinct : ((w.finder.classes root).filterMap Node.className?).Nodup)
    (acyclic : Acyclic (LocalBase (w.finder.classes root)))
    (colonFree : ColonFree (w.finder.classes root))
    (awaits : AwaitsNamed (w.finder.classes root)) :
    ∃ reports : List (List Diagnostic),
      (a.diagnostics.filter fun d => d.rule = .unknownDependency) = reports.flatten ∧
      List.Forall₂ (KnowsInherited (knownOf w next.analyzer) (w.finder.classes root))
        (w.finder.found .memberDecorators root) reports := by
  obtain ⟨hands, htypes⟩ := handsDown_analyzeFile h htree distinct acyclic colonFree awaits
  obtain ⟨hlatest, -⟩ := exists_diagnostics_eq h htree
  have hclasses : (knownOf w next.analyzer).classes = a.classes := by rw [knownOf, hlatest]
  have hdeclared (m : Node) :
      (m.classAssignments (knownOf w next.analyzer).isDeclaration).map Prod.snd =
        declaredNames (Imports.ofTree w.finder root) s.analyzer.types m := by
    simp only [knownOf, recognition, hlatest, htypes, hands.bindings, declaredNames]
  refine exists_reports_of_decorators h htree fun place _ => ⟨?_, ?_⟩
  · exact fun hnearest registered => registered.reported_iff hnearest
  · intro m n site className name c hnearest registered hname hplain hfound hreach hentered hmem
    rw [registered.reported_iff hnearest hname hplain]
    obtain ⟨c', hc'⟩ := Option.isSome_iff_exists.mp hentered
    have hn : n ∈ classOrder (w.finder.classes root) :=
      mem_classOrder.mpr ⟨hfound, by rw [registered.name]; rfl⟩
    have hc : classFor? a.classes n = some c := by
      rw [classFor?, registered.name, Option.bind_some, ← hclasses, registered.entered]
    rw [hdeclared] at hmem
    rw [hclasses] at hc'
    exact fun hreported => hreported.2.1 (hands.declaredNames_subset hn hreach hc' hc hmem)

open Sketch in
/-- A class with a parameter and a method, and a class two steps below it with a method that depends
on both. -/
def lineFile : Sketch :=
  file [importsModule ["param"],
    classed "A" [rootBase] [declares "x" "Integer" [], function "f" ["self"] []],
    classed "B" [name "A"] [], classed "C" [name "B"] [dependsOn ["x", "f"] "g"]]

def lineWorld : World := World.sketched [(["a.py"], lineFile)]

def lineTop : Node := lineFile.nodeAt [1]

def lineMiddle : Node := lineFile.nodeAt [2]

def lineBottom : Node := lineFile.nodeAt [3]

/-- The parameter is handed down over two classes and the method is not. -/
theorem heir_dependencies_known : ∃ a next,
    (analyzeFile lineWorld lineFile.written none).run (fresh lineWorld none [] {}) = (.ok a, next) ∧
    complaint "C" "x" (lineFile.nodeAt [3, 4, 0, 0, 1, 1, 1]) ∉ a.diagnostics ∧
    complaint "C" "f" (lineFile.nodeAt [3, 4, 0, 0, 1, 1, 3]) ∈ a.diagnostics := by
  have hanswer : ((analyzeFile lineWorld lineFile.written none).run
      (fresh lineWorld none [] {})).1.isOk = true := by decide +kernel
  have hclasses : ["A:1", "C:7"].map (fun key => (((analyzeFile lineWorld lineFile.written none).run
      (fresh lineWorld none [] {})).2.analyzer.latest.classes.get? key).map
        ParamClass.parameterNames) = [some ["x"], some ["x"]] := by decide +kernel
  have hlibrary : (((analyzeFile lineWorld lineFile.written none).run
      (fresh lineWorld none [] {})).2.analyzer.external.get? "C").isSome = false := by
    decide +kernel
  have hdeclares : (lineTop.classAssignments (knownOf lineWorld
      ((analyzeFile lineWorld lineFile.written none).run
        (fresh lineWorld none [] {})).2.analyzer).isDeclaration).map Prod.snd = ["x"] := by
    decide +kernel
  rcases hrun : (analyzeFile lineWorld lineFile.written none).run (fresh lineWorld none [] {}) with
    ⟨result, next⟩
  rw [hrun] at hanswer hclasses hlibrary hdeclares
  cases result with
  | error failure => cases hanswer
  | ok a =>
    simp only [List.map_cons, List.map_nil, List.cons.injEq, and_true] at hclasses
    obtain ⟨htop, hbottom⟩ := hclasses
    obtain ⟨c, hget, hnames⟩ := Option.map_eq_some_iff.mp hbottom
    have registered : Registered (knownOf lineWorld next.analyzer) lineBottom "C" c :=
      ⟨rfl, hget, by simp_all [Known.external?, knownOf]⟩
    have hentered : (classFor? (knownOf lineWorld next.analyzer).classes lineTop).isSome = true :=
      Option.isSome_map.symm.trans (congrArg Option.isSome htop)
    have hall : lineWorld.finder.classes lineFile.node = [lineTop, lineMiddle, lineBottom] := rfl
    have hupper : LocalBase (lineWorld.finder.classes lineFile.node) lineTop lineMiddle :=
      ⟨by simp [hall], by decide +kernel⟩
    have hlower : LocalBase (lineWorld.finder.classes lineFile.node) lineMiddle lineBottom :=
      ⟨by simp [hall], by decide +kernel⟩
    have htree : lineWorld.parse? lineFile.written = some lineFile.node :=
      @World.parse?_sketched [(["a.py"], lineFile)] (List.pairwise_singleton _ _)
        (["a.py"], lineFile) (.head _)
    obtain ⟨reports, hreports, hknows⟩ := dependencies_know_inherited hrun htree (by decide +kernel)
      (acyclic_localBase (fun n => if n.className? = some "A" then 0 else
        if n.className? = some "B" then 1 else 2) (by decide +kernel))
      (by decide +kernel) (by decide +kernel)
    obtain ⟨place, hplaces, hnearest, hdependencies⟩ : ∃ place,
        lineWorld.finder.found .memberDecorators lineFile.node = [place] ∧
        nearestClass? place.ancestors = some lineBottom ∧
        dependencies place.node = [("x", lineFile.nodeAt [3, 4, 0, 0, 1, 1, 1]),
          ("f", lineFile.nodeAt [3, 4, 0, 0, 1, 1, 3])] := ⟨_, rfl, rfl, rfl⟩
    rw [hplaces] at hknows
    obtain ⟨ds, rest, hds, hrest, rfl⟩ := List.forall₂_cons_left_iff.mp hknows
    obtain rfl := List.forall₂_nil_left_iff.mp hrest
    have hmem (name : String) (site : Node) :
        complaint "C" name site ∈ a.diagnostics ↔ complaint "C" name site ∈ ds := by
      have hkept : complaint "C" name site ∈ [ds].flatten ↔
          complaint "C" name site ∈ a.diagnostics := by
        rw [← hreports, List.mem_filter]
        exact and_iff_left rfl
      rw [← hkept, List.flatten_singleton]
    refine ⟨a, next, rfl, ?_, ?_⟩
    · rw [hmem]
      exact hds.declared hnearest registered (hdependencies ▸ by simp) rfl
        (by simp [hall]) (.tail (.single hupper) hlower) hentered
          (hdeclares ▸ List.mem_singleton.mpr rfl)
    · rw [hmem, hds.verdict hnearest registered (hdependencies ▸ by simp) rfl, hnames]
      decide +kernel

/-- A class depends on a method that it inherits, and the method is reported. -/
theorem inherited_method_reported :
    ((analyzeFile lineWorld lineFile.written none).run (fresh lineWorld none [] {})).1.map
      (fun a => (methodsOf lineTop, a.classes.names, a.diagnostics.map (·.message))) =
        .ok (["f"], ["A:1", "B:5", "C:7"], ["Parameter 'f' does not exist in class 'C'"]) := by
  decide +kernel

end ParamLens.Analysis
