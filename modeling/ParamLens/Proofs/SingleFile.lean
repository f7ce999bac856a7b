import ParamLens.Proofs.ClassLoop
import ParamLens.Proofs.Flattening

/-! Files whose classes inherit from the root and from each other only. The analysis of such a file
gives each class what it declares and, under other names, what the last of its bases has. -/

namespace ParamLens.Analysis

open Syntax Steps Library

/-! ### Searches in lists -/

theorem findSome?_filterMap {α β γ : Type} (f : α → Option β) (g : β → Option γ) (l : List α) :
    (l.filterMap f).findSome? g = l.findSome? fun a => (f a).bind g := by
  induction l with
  | nil => rfl
  | cons a rest ih =>
    rw [List.filterMap_cons, List.findSome?_cons, ← ih]
    cases f a with
    | none => rfl
    | some b => rw [List.findSome?_cons, Option.bind_some]

theorem findSome?_congr {α β : Type} {l : List α} {f g : α → Option β} (h : ∀ a ∈ l, f a = g a) :
    l.findSome? f = l.findSome? g := by
  induction l with
  | nil => rfl
  | cons a rest ih =>
    rw [List.findSome?_cons, List.findSome?_cons, h a List.mem_cons_self,
      ih fun b hb => h b (List.mem_cons_of_mem a hb)]

/-! ### Classes of the same file -/

/-- The class among the nodes that a base names. -/
def namedIn? (nodes : List Node) (base : Node) : Option Node :=
  if base.kind = .identifier then nodes.find? (·.className? == some base.text) else none

/-- The classes among the nodes that a class lists as bases, in their order. -/
def kin (nodes : List Node) (n : Node) : List Node := n.bases.filterMap (namedIn? nodes)

/-- The class lists a base that passes the test, or one of its kin does, and so on. -/
inductive Descends (test : Node → Bool) (nodes : List Node) : Node → Prop
  | base {n base : Node} : base ∈ n.bases → test base = true → Descends test nodes n
  | kin {n m : Node} : m ∈ kin nodes n → Descends test nodes m → Descends test nodes n

/-- The base is a plain name, or a member with the names of its chain for its text. -/
def WrittenPlainly (base : Node) : Prop :=
  (base.kind = .identifier → base.text ≠ "" ∧ Dotted.isDotted base.text = false) ∧
    (base.kind = .attribute → base.text = Dotted.ofComponents base.chain)

instance (base : Node) : Decidable (WrittenPlainly base) := inferInstanceAs (Decidable (_ ∧ _))

/-- The bases of the named classes are the root, under any name, and classes of the file that are
not imported as well. -/
structure SelfContained (imports : Imports) (nodes : List Node) : Prop where
  distinct : (nodes.filterMap Node.className?).Nodup
  colonFree : ColonFree nodes
  acyclic : Acyclic (LocalBase nodes)
  written : ∀ n ∈ nodes, n.className?.isSome = true → ∀ base ∈ n.bases, WrittenPlainly base
  bases : ∀ n ∈ nodes, n.className?.isSome = true → ∀ base ∈ n.bases,
    isRootBase imports base = true ∧ (namedIn? nodes base).isSome = false ∨
      imports.get? base.text = none ∧ (namedIn? nodes base).isSome = true

/-- The root as a file is analysed on its own: as a plain name it has its own name. -/
def isRootNamed (imports : Imports) (base : Node) : Bool :=
  isRootBase imports base && (base.kind == .attribute || base.text == "Parameterized")

section

variable {imports : Imports} {nodes : List Node} {m n base : Node}

theorem namedIn?_eq_some (h : namedIn? nodes base = some m) :
    m ∈ nodes ∧ base.kind = .identifier ∧ m.className? = some base.text := by
  unfold namedIn? at h
  split at h
  · next hkind =>
    have hname := List.find?_some h
    exact ⟨List.mem_of_find?_eq_some h, hkind, eq_of_beq hname⟩
  · cases h

theorem className?_ne_of_namedIn? (hkind : base.kind = .identifier)
    (h : namedIn? nodes base = none) : ∀ m ∈ nodes, m.className? ≠ some base.text := by
  rw [namedIn?, if_pos hkind, List.find?_eq_none] at h
  intro m hm hname
  exact h m hm (by simp [hname])

theorem mem_kin : m ∈ kin nodes n ↔ ∃ base ∈ n.bases, namedIn? nodes base = some m :=
  List.mem_filterMap

theorem localBase_of_mem_kin (h : m ∈ kin nodes n) : LocalBase nodes m n := by
  obtain ⟨base, hbase, hnamed⟩ := mem_kin.mp h
  obtain ⟨hm, hkind, hname⟩ := namedIn?_eq_some hnamed
  exact ⟨hm, base, hbase, hkind, hname⟩

theorem named_of_mem_kin (h : m ∈ kin nodes n) : m ∈ nodes ∧ m.className?.isSome = true := by
  obtain ⟨hm, base, -, -, hname⟩ := localBase_of_mem_kin h
  exact ⟨hm, by rw [hname]; rfl⟩

theorem descends_iff {test : Node → Bool} :
    Descends test nodes n ↔ ∃ base ∈ n.bases, test base = true ∨
      ∃ m, namedIn? nodes base = some m ∧ Descends test nodes m := by
  constructor
  · rintro (⟨hbase, htest⟩ | ⟨hm, hdescends⟩)
    · exact ⟨_, hbase, .inl htest⟩
    · obtain ⟨base, hbase, hnamed⟩ := mem_kin.mp hm
      exact ⟨base, hbase, .inr ⟨_, hnamed, hdescends⟩⟩
  · rintro ⟨base, hbase, htest | ⟨m, hnamed, hdescends⟩⟩
    · exact .base hbase htest
    · exact .kin (mem_kin.mpr ⟨base, hbase, hnamed⟩) hdescends

namespace SelfContained

variable (contained : SelfContained imports nodes)

include contained

theorem wellFounded : WellFounded (LocalBase nodes) :=
  contained.acyclic.wellFounded fun _ _ h => h.1

/-- A base is a form of the root and names no class, or it is the plain name of a class and not
imported. -/
theorem base_cases (hn : n ∈ nodes) (hnamed : n.className?.isSome = true) (hbase : base ∈ n.bases) :
    isRootBase imports base = true ∧ namedIn? nodes base = none ∨
      isRootBase imports base = false ∧ base.kind = .identifier ∧
        imports.get? base.text = none ∧ ∃ m, namedIn? nodes base = some m := by
  rcases contained.bases n hn hnamed base hbase with ⟨hroot, hnone⟩ | ⟨hunbound, hsome⟩
  · exact .inl ⟨hroot, by simpa using hnone⟩
  · obtain ⟨m, hm⟩ := Option.isSome_iff_exists.mp hsome
    obtain ⟨-, hkind, -⟩ := namedIn?_eq_some hm
    exact .inr ⟨by simp [isRootBase, hkind, hunbound], hkind, hunbound, m, hm⟩

theorem plain (hn : n ∈ nodes) (hnamed : n.className?.isSome = true) (hbase : base ∈ n.bases) :
    PlainBase imports base := by
  rcases contained.base_cases hn hnamed hbase with ⟨hroot, -⟩ | ⟨-, hkind, hunbound, -⟩
  · exact .inl hroot
  · exact .inr ⟨hkind, hunbound⟩

end SelfContained

end

/-! ### What a class has under a name -/

section

variable {β γ : Type} {nodes : List Node} {test : Node → Bool} {own f g : Node → String → Option β}

/-- Each named class has what it declares under a name, or else what the first of its kin has that
has the name. -/
def FirstWins (nodes : List Node) (own f : Node → String → Option β) : Prop :=
  ∀ n ∈ nodes, n.className?.isSome = true → ∀ name,
    f n name = (own n name).or ((kin nodes n).findSome? (f · name))

/-- Each named class that descends by the test has what it declares under a name, or else what the
last of its kin has that has the name. The others have nothing. -/
def LastWins (test : Node → Bool) (nodes : List Node) (own g : Node → String → Option β) : Prop :=
  ∀ n ∈ nodes, n.className?.isSome = true → ∀ name,
    (Descends test nodes n →
      g n name = (own n name).or ((kin nodes n).reverse.findSome? (g · name))) ∧
    (¬ Descends test nodes n → g n name = none)

theorem exists_firstWins (acyclic : Acyclic (LocalBase nodes)) (own : Node → String → Option β) :
    ∃ f, FirstWins nodes own f := by
  have hwf := acyclic.wellFounded fun m n (h : LocalBase nodes m n) => h.1
  let step (n : Node) (found : ∀ m, LocalBase nodes m n → String → Option β) (name : String) :
      Option β :=
    (own n name).or ((kin nodes n).attach.findSome? fun m =>
      found m.1 (localBase_of_mem_kin m.2) name)
  refine ⟨hwf.fix step, fun n _ _ name => ?_⟩
  rw [hwf.fix_eq step n]
  show (own n name).or ((kin nodes n).attach.findSome? _) = _
  conv_rhs => rw [← List.attach_map_subtype_val (kin nodes n), List.findSome?_map]
  rfl

theorem FirstWins.map (h : FirstWins nodes own f) (shown : β → γ) :
    FirstWins nodes (fun n name => (own n name).map shown) fun n name => (f n name).map shown := by
  intro n hn hnamed name
  dsimp only
  rw [h n hn hnamed name, Option.map_or, List.map_findSome?]
  rfl

theorem LastWins.map (h : LastWins test nodes own g) (shown : β → γ) :
    LastWins test nodes (fun n name => (own n name).map shown)
      fun n name => (g n name).map shown := by
  intro n hn hnamed name
  refine ⟨fun hdescends => ?_, fun hnot => ?_⟩
  · dsimp only
    rw [(h n hn hnamed name).1 hdescends, Option.map_or, List.map_findSome?]
    rfl
  · dsimp only
    rw [(h n hn hnamed name).2 hnot, Option.map_none]

/-- Where classes that do not descend declare nothing, the two ways to inherit come to the same
exactly if, under each name that a class does not declare, the first and the last of its kin that
have the name have the same. -/
theorem FirstWins.eq_lastWins_iff (acyclic : Acyclic (LocalBase nodes))
    (first : FirstWins nodes own f) (last : LastWins test nodes own g)
    (silent : ∀ n ∈ nodes, n.className?.isSome = true → ¬ Descends test nodes n → ∀ name,
      own n name = none) :
    (∀ n ∈ nodes, n.className?.isSome = true → Descends test nodes n → ∀ name,
        g n name = f n name) ↔
      ∀ n ∈ nodes, n.className?.isSome = true → Descends test nodes n → ∀ name,
        own n name = none →
          (kin nodes n).findSome? (g · name) = (kin nodes n).reverse.findSome? (g · name) := by
  have hwf := acyclic.wellFounded fun m n (h : LocalBase nodes m n) => h.1
  have hsilent : ∀ n ∈ nodes, n.className?.isSome = true → ¬ Descends test nodes n → ∀ name,
      f n name = none := by
    intro n
    induction n using hwf.induction with
    | _ n ih =>
      intro hn hnamed hnot name
      rw [first n hn hnamed name, silent n hn hnamed hnot name, Option.none_or,
        List.findSome?_eq_none_iff]
      intro m hm
      obtain ⟨hmem, hmnamed⟩ := named_of_mem_kin hm
      exact ih m (localBase_of_mem_kin hm) hmem hmnamed (fun h => hnot (.kin hm h)) name
  -- Over classes of which the two say the same, they differ in the order alone.
  have hstep (n : Node) (hn : n ∈ nodes) (hnamed : n.className?.isSome = true)
      (hdescends : Descends test nodes n) (name : String)
      (hkin : ∀ m ∈ kin nodes n, Descends test nodes m → g m name = f m name) :
      g n name = f n name ↔ (own n name = none →
        (kin nodes n).findSome? (g · name) = (kin nodes n).reverse.findSome? (g · name)) := by
    have hsame : (kin nodes n).findSome? (f · name) = (kin nodes n).findSome? (g · name) := by
      refine findSome?_congr fun m hm => ?_
      obtain ⟨hmem, hmnamed⟩ := named_of_mem_kin hm
      by_cases hm' : Descends test nodes m
      · exact (hkin m hm hm').symm
      · rw [hsilent m hmem hmnamed hm' name, (last m hmem hmnamed name).2 hm']
    rw [(last n hn hnamed name).1 hdescends, first n hn hnamed name, hsame]
    cases own n name with
    | some value => simp
    | none => simp [eq_comm]
  constructor
  · intro h n hn hnamed hdescends name
    refine (hstep n hn hnamed hdescends name fun m hm hm' => ?_).mp (h n hn hnamed hdescends name)
    exact h m (named_of_mem_kin hm).1 (named_of_mem_kin hm).2 hm' name
  · intro h n
    induction n using hwf.induction with
    | _ n ih =>
      intro hn hnamed hdescends name
      refine (hstep n hn hnamed hdescends name fun m hm hm' => ?_).mpr
        (h n hn hnamed hdescends name)
      exact ih m (localBase_of_mem_kin hm) (named_of_mem_kin hm).1 (named_of_mem_kin hm).2 hm' name

end

/-! ### The analysis of the file -/

/-- The class that is entered for a node. -/
def classFor? (classes : Classes) (n : Node) : Option ParamClass :=
  n.className?.bind fun name => classes.get? (Classes.key name n.row)

/-- What a class has under a name, if there is a class. -/
def given (c : Option ParamClass) (name : String) : Option Parameter :=
  c.bind (·.parameters.get? name)

/-- What a class declares under a name, as the file is analysed on its own. -/
def declaredHere (imports : Imports) (types : List String) (content : String) (n : Node)
    (name : String) : Option Parameter :=
  (byName (Declaration.parameters ⟨imports, types⟩ content n)).get? name

theorem get?_foldl_lay (cs : List (Option ParamClass)) (found : Table Parameter) (name : String) :
    (cs.foldl lay found).get? name =
      (cs.reverse.findSome? (given · name)).or (found.get? name) := by
  induction cs generalizing found with
  | nil => rfl
  | cons c rest ih =>
    have hlay : (lay found c).get? name = (given c name).or (found.get? name) := by
      cases c with
      | none => rfl
      | some c => exact Table.get?_update found c.parameters name
    rw [List.foldl_cons, ih, hlay, List.reverse_cons, List.findSome?_append, Option.or_assoc,
      List.findSome?_singleton]

section

variable {imports : Imports} {types : List String} {content : String} {nodes : List Node}
  {classes : Classes} {n base : Node}

theorem bringsBy_look (contained : SelfContained imports nodes) (keyed : KeyedBy nodes classes)
    (hn : n ∈ nodes) (hnamed : n.className?.isSome = true) (hbase : base ∈ n.bases) :
    bringsBy (look imports none classes) base = (namedIn? nodes base).bind (classFor? classes) ∧
      passes imports (look imports none classes) base =
        (isRootNamed imports base || ((namedIn? nodes base).bind (classFor? classes)).isSome) := by
  have hlook (name : String) : look imports none classes name = classes.named? name := by
    simp [look]
  rcases contained.base_cases hn hnamed hbase with ⟨hroot, hnone⟩ |
    ⟨hroot, hkind, hunbound, m, hm⟩
  · rw [hnone, Option.bind_none, Option.isSome_none, Bool.or_false, isRootNamed, hroot,
      Bool.true_and]
    rcases (contained.plain hn hnamed hbase).kind_eq with hkind | hkind
    · have hbound : imports.get? base.text = some "param.Parameterized" := by
        simpa [isRootBase, hkind] using hroot
      have hfound : classes.named? base.text = none :=
        keyed.named?_eq_none contained.colonFree (className?_ne_of_namedIn? hkind hnone)
      have hcontains : Text.contains "param.Parameterized" "param.Parameterized" = true := by
        decide +kernel
      simp only [bringsBy, passes, hkind, hlook, hfound, isBoundRoot, hbound, Option.any_some,
        hcontains]
      have hkinds : (Kind.identifier == Kind.attribute) = false := rfl
      by_cases hname : base.text = "Parameterized"
      · simp [hname]
      · have hbeq : (base.text == "Parameterized") = false := by simpa using hname
        simp [hbeq, hkinds]
    · obtain ⟨-, hmember⟩ := isMemberRoot_of_isRootBase hkind hroot
      simp [bringsBy, passes, hkind, hmember]
  · obtain ⟨hmem, -, hname⟩ := namedIn?_eq_some hm
    have htext := ((contained.written n hn hnamed base hbase).1 hkind).1
    have hentry : classes.named? base.text = classFor? classes m := by
      rw [keyed.named?_eq contained.colonFree contained.distinct hmem hname, classFor?, hname,
        Option.bind_some]
    simp [bringsBy, passes, hkind, hlook, htext, hm, hentry, isRootNamed, hroot, isBoundRoot,
      hunbound]

variable (contained : SelfContained imports nodes)
  (solves : Solves imports types content none nodes classes)

include contained solves

theorem classFor?_eq (hn : n ∈ nodes) {name : String} (hname : n.className? = some name) :
    classFor? classes n =
      if n.bases.any fun base =>
          isRootNamed imports base || ((namedIn? nodes base).bind (classFor? classes)).isSome then
        some (built name
          ((n.bases.map fun base => (namedIn? nodes base).bind (classFor? classes)).foldl lay ∅)
          (Declaration.parameters ⟨imports, types⟩ content n))
      else none := by
  have hnamed : n.className?.isSome = true := by rw [hname]; rfl
  have hbases := fun base (hbase : base ∈ n.bases) =>
    bringsBy_look contained solves.keyed hn hnamed hbase
  rw [classFor?, hname, Option.bind_some, solves.get?_key n hn name hname, entered?, hname,
    Option.bind_some, List.map_congr_left fun base hbase => (hbases base hbase).1]
  congr 2
  rw [Bool.eq_iff_iff, List.any_eq_true, List.any_eq_true]
  exact exists_congr fun base => and_congr_right fun hbase => by rw [(hbases base hbase).2]

theorem isSome_classFor?_iff (hn : n ∈ nodes) (hnamed : n.className?.isSome = true) :
    (classFor? classes n).isSome = true ↔ Descends (isRootNamed imports) nodes n := by
  induction n using contained.wellFounded.induction with
  | _ n ih =>
    obtain ⟨name, hname⟩ := Option.isSome_iff_exists.mp hnamed
    rw [classFor?_eq contained solves hn hname, descends_iff]
    simp only [Option.isSome_ite, List.any_eq_true, Bool.or_eq_true]
    refine exists_congr fun base => and_congr_right fun hbase => or_congr_right ?_
    cases hm : namedIn? nodes base with
    | none => simp
    | some m =>
      have hkin := mem_kin.mpr ⟨base, hbase, hm⟩
      obtain ⟨hmem, hmnamed⟩ := named_of_mem_kin hkin
      simp [ih m (localBase_of_mem_kin hkin) hmem hmnamed]

theorem lastWins_classFor? : LastWins (isRootNamed imports) nodes
    (declaredHere imports types content) fun n => given (classFor? classes n) := by
  intro n hn hnamed name
  have hiff := isSome_classFor?_iff contained solves hn hnamed
  refine ⟨fun hdescends => ?_, fun hnot => ?_⟩
  · obtain ⟨className, hname⟩ := Option.isSome_iff_exists.mp hnamed
    have hentry := classFor?_eq contained solves hn hname
    split at hentry
    · dsimp only
      rw [hentry, given, Option.bind_some, parameters_built, Table.get?_update_list, declaredHere,
        byName, get?_foldl_lay, Table.get?_emptyCollection, Option.or_none, ← List.map_reverse,
        List.findSome?_map, kin, ← List.filterMap_reverse, findSome?_filterMap]
      congr 1
      refine findSome?_congr fun base _ => ?_
      rw [Function.comp_apply]
      cases namedIn? nodes base <;> rfl
    · rw [← hiff, hentry] at hdescends
      cases hdescends
  · have hnone : classFor? classes n = none := by
      rw [← Option.not_isSome_iff_eq_none, hiff]
      exact hnot
    simp [given, hnone]

end

/-- A class of the module of the root plays no part where no class asks for it. -/
theorem Solves.withoutOuter {imports : Imports} {types : List String} {content : String}
    {outer : Option ParamClass} {nodes : List Node} {classes : Classes}
    (solves : Solves imports types content outer nodes classes)
    (houter : AsksForRoot imports nodes → outer = none) :
    Solves imports types content none nodes classes := by
  refine ⟨solves.keyed, fun n hn name hname => ?_⟩
  rw [solves.get?_key n hn name hname]
  refine entered?_congr fun base hbase hkind => ?_
  rw [look, look]
  split
  · next hbound =>
    rw [houter ⟨n, hn, by rw [hname]; rfl, base, hbase, hkind, hbound⟩]
  · rfl

/-- The analysis of a text whose classes inherit from the root and from each other succeeds, where
the module of the root has no class for it. -/
theorem exists_run_analyzeFile {w : World} {content : String} {root : Node}
    (htree : w.parse? content = some root)
    (contained : SelfContained (Imports.ofTree w.finder root) (w.finder.classes root))
    (current : Option Path) (s : AnalysisState)
    (hparam : AsksForRoot (Imports.ofTree w.finder root) (w.finder.classes root) →
      ∃ a t, (importedModule (importer w s.analyzer) w "param" current).run s = (.ok a, t) ∧
        a.classes.named? "Parameterized" = none) :
    ∃ a t, (analyzeFile w content current).run s = (.ok a, t) ∧
      Solves (Imports.ofTree w.finder root) s.analyzer.types content none (w.finder.classes root)
        a.classes := by
  have hbegun : begun w root s = withLatest { imports := Imports.ofTree w.finder root } s := rfl
  have hasked : AsksForRoot (Imports.ofTree w.finder root) (w.finder.classes root) →
      ∃ a t, (importedModule (importer w s.analyzer) w "param" current).run (begun w root s) =
        (.ok a, t) ∧ a.classes.named? "Parameterized" = none := by
    intro h
    obtain ⟨a, t, hrun, hnone⟩ := hparam h
    exact ⟨a, _, by rw [hbegun, run_importedModule_withLatest, hrun], hnone⟩
  have hawaits : AwaitsNamed (w.finder.classes root) :=
    fun n hn hnamed base hbase hkind _ => ((contained.written n hn hnamed base hbase).1 hkind).1
  obtain ⟨next, classes, htake, hlatest, solves⟩ :=
    exists_run_takeClasses (s := begun w root s) rfl content contained.distinct contained.acyclic
      hawaits contained.colonFree (fun n hn hnamed base hbase => contained.plain hn hnamed hbase)
      fun h => (hasked h).imp fun _ h => h.imp fun _ h => h.1
  have houter : AsksForRoot (Imports.ofTree w.finder root) (w.finder.classes root) →
      outerRoot (importer w s.analyzer) w current (begun w root s) = none := by
    intro h
    obtain ⟨a, t, hrun, hnone⟩ := hasked h
    rw [outerRoot, hrun]
    exact hnone
  have hlasting : Lasting (fun _ => True) w := ⟨fun _ _ _ => trivial, fun _ _ => trivial⟩
  have hstands : Stands (fun _ => True) { imports := Imports.ofTree w.finder root, classes } next :=
    ⟨trivial, hlatest⟩
  have htriple : Triple
      (Stands (fun _ => True) { imports := Imports.ofTree w.finder root, classes })
      (discover w root >>= fun _ => conclude w root)
      (fun a _ => a.classes = classes) fun _ _ => False :=
    (triple_discover hlasting).bind fun _ =>
      (triple_conclude hlasting).weaken (fun _ hs => hs) fun _ _ h => h.1.1
  obtain ⟨a, t, hrest, rfl⟩ := htriple.exists_ok hstands
  refine ⟨a, t, ?_, solves.withoutOuter houter⟩
  rw [run_analyzeFile, run_analyzeWith htree, prepare_eq_takeClasses, run_bind]
  have htake' : (takeClasses (importModule w s.analyzer.workspace s.analyzer.extra (importDepth w)
      []) w content current (w.finder.classes root)).run (begun w root s) = (.ok (), next) :=
    htake
  simp only [htake']
  rw [run_bind] at hrest
  rcases hdiscover : (discover w root).run next with ⟨_ | _, later⟩
  · rw [hdiscover] at hrest
    cases hrest
  · rw [hdiscover] at hrest
    exact hrest

end ParamLens.Analysis
