import ParamLens.Proofs.ClassKeys
import ParamLens.Proofs.ModuleMemory
import ParamLens.Proofs.OwnNames
import ParamLens.Proofs.Populating

/-! How the classes of an analysis are kept, whatever was analysed before. Each class stands under
its name and the row of a class of the tree, so that a name finds the class that has it, and each
parameter of a class stands under its own name. Analyzers that share a store, and stores that are
kept from session to session, hold and give only such classes. -/

namespace ParamLens

open Syntax Steps

namespace Analysis

/-! ### The keys of the classes of a tree -/

/-- Every class stands under the key of a class among the nodes that has its name. -/
def FiledBy (nodes : List Node) (classes : Classes) : Prop :=
  ∀ key c, classes.get? key = some c →
    ∃ n ∈ nodes, n.className? = some c.name ∧ key = Classes.key c.name n.row

/-- The search for a name finds a class of that name, if there is one. -/
def FindsByName (classes : Classes) : Prop :=
  ∀ name, match classes.findName? (Classes.keyHasName name) with
    | some (key, c) => classes.get? key = some c ∧ c.name = name
    | none => ∀ key c, classes.get? key = some c → c.name ≠ name

section

variable {nodes : List Node} {classes : Classes}

theorem FiledBy.keyedBy (filed : FiledBy nodes classes) : KeyedBy nodes classes := by
  intro key c hget
  obtain ⟨n, hn, hname, hkey⟩ := filed key c hget
  exact ⟨n, hn, c.name, hname, hkey⟩

theorem FiledBy.findsByName (filed : FiledBy nodes classes) (colonFree : ColonFree nodes) :
    FindsByName classes := by
  intro name
  cases hfind : classes.findName? (Classes.keyHasName name) with
  | some entry =>
    obtain ⟨n, hn, hname, hkey, hget⟩ := filed.keyedBy.exists_of_findName? colonFree hfind
    obtain ⟨m, hm, hclass, hfiled⟩ := filed entry.1 entry.2 hget
    exact ⟨hget, colonFree.key_eq hm hn hclass hname (hfiled.symm.trans hkey)⟩
  | none =>
    rintro key c hget rfl
    obtain ⟨n, hn, hname, rfl⟩ := filed key c hget
    have hnot := List.find?_eq_none.mp hfind _ (Table.mem_entries_of_get? hget)
    exact hnot ((keyHasName_key (colonFree n hn c.name hname) n.row).mpr rfl)

theorem FiledBy.insert (filed : FiledBy nodes classes) {n : Node} (hn : n ∈ nodes)
    {c : ParamClass} (hname : n.className? = some c.name) :
    FiledBy nodes (classes.insert (Classes.key c.name n.row) c) := by
  intro key c' hget
  rw [Table.get?_insert] at hget
  split at hget
  · next heq =>
    obtain rfl := Option.some.inj hget
    exact ⟨n, hn, hname, heq⟩
  · exact filed key c' hget

end

/-- The classes of the analysis are filed by one of the lists, and proper. -/
structure Proper (lists : List Node → Prop) (a : Analysis) : Prop where
  filed : a.classes = ∅ ∨ ∃ nodes, lists nodes ∧ FiledBy nodes a.classes
  own : ∀ key, Library.Proper (a.classes.get? key)

theorem proper_empty {lists : List Node → Prop} {imports : Imports} :
    Analysis.Proper lists { imports } := ⟨.inl rfl, fun _ => Library.proper_none⟩

theorem proper_named? {classes : Classes} (h : ∀ key, Library.Proper (classes.get? key))
    (name : String) : Library.Proper (classes.named? name) := by
  intro c hc
  obtain ⟨entry, hfind, rfl⟩ := Option.map_eq_some_iff.mp hc
  exact h entry.1 entry.2 (Table.get?_of_mem_entries (List.mem_of_find?_eq_some hfind))

end Analysis

/-- All that the analyzer holds is proper. -/
structure Analyzer.Proper (lists : List Node → Prop) (a : Analyzer) : Prop where
  latest : a.latest.Proper lists
  external : ∀ path found, a.external.get? path = some found → Library.Proper found
  asked : ∀ path found, a.session.asked.get? path = some found → Library.Proper found
  modules : ∀ name m, a.modules.get? name = some m → m.Proper lists
  files : ∀ file m, a.files.get? file = some m → m.Proper lists

theorem Analyzer.proper_start (lists : List Node → Prop) (w : World) (workspace : Option Path)
    (extra : List String) {store : Library.Store} (h : store.Proper) :
    (Analyzer.start w workspace extra store).1.Proper lists ∧
      (Analyzer.start w workspace extra store).2.Proper := by
  have hstart : Library.State.Proper ⟨Library.Session.start w extra, store⟩ := by
    refine ⟨h, fun path found hget => ?_⟩
    cases hget
  have htypes := Library.State.Proper.ends_allTypes _ hstart
  refine ⟨⟨Analysis.proper_empty, ?_, htypes.asked, ?_, ?_⟩, htypes.store⟩
  all_goals
    intro name found hget
    cases hget

namespace Analysis

/-! ### Steps of an analyzer -/

/-- The analyzer and the store are proper, and the latest analysis is as stated. -/
structure Within (lists : List Node → Prop) (C : Analysis → Prop) (s : AnalysisState) : Prop where
  analyzer : s.analyzer.Proper lists
  store : s.store.Proper
  latest : C s.analyzer.latest

section

variable {lists : List Node → Prop} {C : Analysis → Prop}

theorem Within.asks {s : AnalysisState} (h : Within lists C s) :
    Library.State.Proper ⟨s.analyzer.session, s.store⟩ := ⟨h.store, h.analyzer.asked⟩

theorem Within.with_libraries {s : AnalysisState} (h : Within lists C s) {t : Library.State}
    (ht : t.Proper) :
    Within lists C
      { analyzer := { s.analyzer with session := t.session }, store := t.store } :=
  ⟨⟨h.analyzer.latest, h.analyzer.external, ht.asked, h.analyzer.modules, h.analyzer.files⟩,
    ht.store, h.latest⟩

theorem ends_onLibraries {α : Type} {step : Library.LibraryM α} {T : α → Prop}
    (h : Ends Library.State.Proper step fun a s => T a ∧ s.Proper) :
    Ends (Within lists C) (onLibraries step) fun a s => T a ∧ Within lists C s :=
  fun _ hs => ⟨(h _ hs.asks).1, hs.with_libraries (h _ hs.asks).2⟩

theorem maintains_externalClass (w : World) (path : Option String) :
    Maintains (Within lists C) (externalClass w path) Library.Proper := by
  cases path with
  | none => exact Maintains.pure Library.proper_none
  | some full =>
    refine Maintains.get_bind fun s hs => ?_
    split
    · next known hknown => exact Maintains.pure (hs.analyzer.external full known hknown)
    · refine (Maintains.lift (ends_onLibraries
        (Library.State.Proper.ends_find? w full))).bind fun found hfound => ?_
      refine Maintains.bind (Maintains.modify fun s hs => ⟨⟨hs.analyzer.latest, ?_,
        hs.analyzer.asked, hs.analyzer.modules, hs.analyzer.files⟩, hs.store, hs.latest⟩)
        fun _ _ => Maintains.pure hfound
      intro asked known hget
      rw [Table.get?_insert] at hget
      split at hget
      · exact Option.some.inj hget ▸ hfound
      · exact hs.analyzer.external asked known hget

theorem Within.keep {s : AnalysisState} (h : Within lists C s) (name : String) (file : Path)
    {a : Analysis} (ha : a.Proper lists) : Within lists C (keep s name file a) := by
  refine ⟨⟨h.analyzer.latest, h.analyzer.external, h.analyzer.asked, ?_, ?_⟩, h.store, h.latest⟩
  · intro asked m hget
    replace hget : (s.analyzer.modules.insert name a).get? asked = some m := hget
    rw [Table.get?_insert] at hget
    split at hget
    · exact Option.some.inj hget ▸ ha
    · exact h.analyzer.modules asked m hget
  · intro asked m hget
    replace hget : (s.analyzer.files.insert file.text a).get? asked = some m := hget
    rw [Table.get?_insert] at hget
    split at hget
    · exact Option.some.inj hget ▸ ha
    · exact h.analyzer.files asked m hget

/-- The analyses of modules are proper and leave a proper store. -/
def ImportsProperly (lists : List Node → Prop) (importer : Importer) : Prop :=
  ∀ file content, Maintains Library.Store.Proper (importer file content) (Analysis.Proper lists)

variable {importer : Importer} (imports : ImportsProperly lists importer) (w : World)
  (current : Option Path)

include imports

theorem maintains_importedModule (name : String) :
    Maintains (Within lists C) (importedModule importer w name current)
      (Analysis.Proper lists) := by
  intro s hs
  have hstep := importStep importer w name current s
  revert hstep
  generalize (importedModule importer w name current).run s = run
  obtain ⟨result, next⟩ := run
  intro hstep
  cases hstep with
  | known hget => exact ⟨by rintro _ ⟨⟩; exact hs.analyzer.modules name _ hget, hs⟩
  | empty => exact ⟨by rintro _ ⟨⟩; exact proper_empty, hs⟩
  | nameless => exact ⟨nofun, hs⟩
  | @again file a _ _ hget =>
    have ha := hs.analyzer.files file.text a hget
    exact ⟨by rintro _ ⟨⟩; exact ha, hs.keep name file ha⟩
  | @made file content a store _ _ _ hrun =>
    have hmade := imports file content s.store hs.store
    rw [hrun] at hmade
    have ha := hmade.1 a rfl
    have hstore : Within lists C { s with store := store } := ⟨hs.analyzer, hmade.2, hs.latest⟩
    exact ⟨by rintro _ ⟨⟩; exact ha, hstore.keep name file ha⟩
  | @failed file content failure store _ _ hrun =>
    have hmade := imports file content s.store hs.store
    rw [hrun] at hmade
    exact ⟨by rintro _ ⟨⟩, hs.analyzer, hmade.2, hs.latest⟩

theorem maintains_importedClass (className bound : String) :
    Maintains (Within lists C) (importedClass importer w className bound current)
      Library.Proper := by
  refine Maintains.get_bind fun s hs => ?_
  split
  · exact Maintains.pure Library.proper_none
  · exact (maintains_importedModule imports w current _).bind fun a ha =>
      Maintains.pure (proper_named? ha.own _)

theorem maintains_isParameterizedBase (bindings : ParamLens.Imports) (classes : Classes)
    (base : Node) :
    Maintains (Within lists C)
      (isParameterizedBase (outside importer w current) bindings classes base) fun _ => True := by
  rw [isParameterizedBase]
  split
  · dsimp only
    split
    · exact Maintains.pure trivial
    · split
      · exact Maintains.pure trivial
      · exact (maintains_importedClass imports w current _ _).bind fun _ _ => Maintains.pure trivial
  · dsimp only
    split
    · exact Maintains.pure trivial
    · split
      · exact Maintains.pure trivial
      · exact (maintains_externalClass w _).bind fun _ _ => Maintains.pure trivial
  · exact Maintains.pure trivial

theorem maintains_baseClass? (bindings : ParamLens.Imports) {classes : Classes}
    (own : ∀ key, Library.Proper (classes.get? key)) (base : Node) :
    Maintains (Within lists C) (baseClass? (outside importer w current) bindings classes base)
      Library.Proper := by
  have hpath : Maintains (Within lists C)
      (if bindings.classPath? base = some "param.Parameterized" then pure none
        else externalClass w (bindings.classPath? base)) Library.Proper := by
    split
    · exact Maintains.pure Library.proper_none
    · exact maintains_externalClass w _
  rw [baseClass?]
  split
  · dsimp only
    split
    · exact Maintains.pure Library.proper_none
    · split
      · next c hc => exact Maintains.pure (hc ▸ proper_named? own base.text)
      · exact maintains_importedClass imports w current _ _
  · exact hpath
  · exact hpath
  · exact Maintains.pure Library.proper_none

theorem maintains_inheritedParameters (bindings : ParamLens.Imports) {classes : Classes}
    (own : ∀ key, Library.Proper (classes.get? key)) (n : Node) :
    Maintains (Within lists C)
      (inheritedParameters (outside importer w current) bindings classes n) OwnNames := by
  refine Maintains.foldlM (fun found base _ hfound => ?_) OwnNames.empty
  refine (maintains_baseClass? imports w current bindings own base).bind fun c hc => ?_
  cases c with
  | none => exact Maintains.pure hfound
  | some c => exact Maintains.pure (hfound.update (hc c rfl))

/-! ### The analysis of a file -/

omit imports in
theorem maintains_discover (root : Node) :
    Maintains (Within lists C) (discover w root) fun _ => True := by
  rw [discover]
  refine Maintains.bind (U := fun _ => True) (Maintains.forIn fun call _ =>
    Maintains.get_bind fun s _ => ?_) fun _ _ => Maintains.pure trivial
  dsimp only
  split
  · exact (maintains_externalClass w _).bind fun _ _ => Maintains.pure trivial
  · exact Maintains.pure trivial

/-- The latest analysis is filed by the tree of the present file. -/
def FiledAt (w : World) (root : Node) (a : Analysis) : Prop :=
  FiledBy (w.finder.classes root) a.classes

/-- Taking a class enters it under its name and its row, with parameters under their own names. -/
theorem maintains_takeClass {root : Node} (hroot : lists (w.finder.classes root))
    (content : String) {n : Node} (hn : n ∈ w.finder.classes root) :
    Maintains (Within lists (FiledAt w root)) (takeClass importer w content current n)
      fun _ => True := by
  refine (Maintains.anyM fun base _ => Maintains.get_bind fun s _ =>
    maintains_isParameterizedBase imports w current _ _ base).bind fun found _ => ?_
  split
  · next name hname =>
    refine Maintains.get_bind fun s hs => ?_
    refine (maintains_inheritedParameters imports w current _ hs.analyzer.latest.own n).bind
      fun inherited hinherited => Maintains.get_bind fun s' _ => ?_
    dsimp only
    refine Maintains.modify fun t ht => ?_
    have hfiled : FiledAt w root { t.analyzer.latest with
        classes := t.analyzer.latest.classes.insert (Classes.key name n.row) (built name inherited
          (Declaration.parameters (recognition s'.analyzer) content n)) } := by
      have hnamed := name_built name inherited
        (Declaration.parameters (recognition s'.analyzer) content n)
      have hinsert := ht.latest.insert hn (c := built name inherited
        (Declaration.parameters (recognition s'.analyzer) content n)) (hname.trans (by rw [hnamed]))
      rwa [hnamed] at hinsert
    refine ⟨⟨⟨.inr ⟨_, hroot, hfiled⟩, fun key => ?_⟩, ht.analyzer.external, ht.analyzer.asked,
      ht.analyzer.modules, ht.analyzer.files⟩, ht.store, hfiled⟩
    show Library.Proper ((t.analyzer.latest.classes.insert _ _).get? key)
    rw [Table.get?_insert]
    split
    · exact Library.Proper.some ((OwnNames.empty.merge hinherited).foldl_add _)
    · exact ht.analyzer.latest.own key
  · exact Maintains.pure trivial

theorem maintains_prepare {root : Node} (hroot : lists (w.finder.classes root)) (content : String) :
    Maintains (Within lists (FiledAt w root)) (prepare importer w content current root)
      fun _ => True := by
  have hclasses := Maintains.forIn (l := classOrder (w.finder.classes root))
    (P := Within lists (FiledAt w root)) (f := fun n _ => do
      takeClass importer w content current n
      pure (ForInStep.yield PUnit.unit)) fun n hn =>
    (maintains_takeClass imports w current hroot content
      (mem_classOrder.mp hn).1).bind fun _ _ => Maintains.pure trivial
  exact hclasses.bind fun _ _ => maintains_discover w root

omit imports

theorem ends_checkFile_within (root : Node) (known : Check.Known) :
    Ends (Within lists C)
      (Check.checkFile known (fun path => onLibraries (Library.find? w path)) root)
      fun _ => Within lists C := by
  have hask (path : String) : Agree (fun s t => s = t ∧ Within lists C s)
      (onLibraries (Library.find? w path)) (onLibraries (Library.find? w path)) :=
    Agree.same_iff.mpr fun s hs =>
      (ends_onLibraries (Library.State.Proper.ends_find? w path) s hs).2
  exact Agree.same_iff.mp (Check.agree_checkFile (Check.SameReadings.refl root known) hask)

theorem maintains_conclude {root : Node} :
    Maintains (Within lists (FiledAt w root)) (conclude w root)
      fun a => FiledAt w root a ∧ a.Proper lists := by
  intro s hs
  rw [run_conclude]
  have hcheck : Maintains (Within lists (FiledAt w root)) (ExceptT.lift (Check.checkFile
      (knownOf w s.analyzer) (fun path => onLibraries (Library.find? w path)) root) :
        AnalysisM (List Diagnostic)) fun _ => True :=
    Maintains.lift fun s hs => ⟨trivial, ends_checkFile_within w root _ s hs⟩
  have hkeep (found : List Diagnostic) : Maintains (Within lists (FiledAt w root))
      (changeLatest fun a => { a with diagnostics := found }) fun _ => True :=
    Maintains.modify fun s hs => ⟨⟨⟨hs.analyzer.latest.filed, hs.analyzer.latest.own⟩,
      hs.analyzer.external, hs.analyzer.asked, hs.analyzer.modules, hs.analyzer.files⟩, hs.store,
      hs.latest⟩
  refine hcheck.bind (fun found _ => (hkeep found).bind fun _ _ => ?_) s hs
  exact Maintains.get_bind fun s hs => Maintains.pure ⟨hs.latest, hs.analyzer.latest⟩

/-- What the analysis of a text gives is filed by the tree of the text, and proper. -/
def GivenFor (lists : List Node → Prop) (w : World) (content : String) (a : Analysis) : Prop :=
  (∀ root, w.parse? content = some root → FiledBy (w.finder.classes root) a.classes) ∧
    a.Proper lists

variable {w}

include imports

theorem maintains_analyzeWith
    (hlists : ∀ content root, w.parse? content = some root → lists (w.finder.classes root))
    (content : String) :
    Maintains (Within lists fun _ => True) (analyzeWith importer w content current)
      (GivenFor lists w content) := by
  intro s hs
  cases hparse : w.parse? content with
  | none =>
    rw [analyzeWith, hparse]
    refine ⟨?_, hs⟩
    rintro _ ⟨⟩
    refine ⟨fun root hroot => ?_, proper_empty⟩
    rw [hparse] at hroot
    cases hroot
  | some root =>
    have hbegun : Within lists (FiledAt w root) (begun w root s) := by
      refine ⟨⟨proper_empty, hs.analyzer.external, hs.analyzer.asked, hs.analyzer.modules,
        hs.analyzer.files⟩, hs.store, fun key c hget => ?_⟩
      cases hget
    have hprepared := maintains_prepare imports w current (hlists content root hparse) content _
      hbegun
    rw [run_analyzeWith hparse]
    rcases hrun : (prepare importer w content current root).run (begun w root s) with ⟨_ | _, next⟩
    · rw [hrun] at hprepared
      exact ⟨by rintro _ ⟨⟩, hprepared.2.analyzer, hprepared.2.store, trivial⟩
    · rw [hrun] at hprepared
      obtain ⟨hanswer, hlast⟩ := maintains_conclude w next hprepared.2
      refine ⟨fun a ha => ?_, hlast.analyzer, hlast.store, trivial⟩
      obtain ⟨hfiled, hproper⟩ := hanswer a ha
      refine ⟨fun root' hroot => ?_, hproper⟩
      rw [hparse] at hroot
      exact Option.some.inj hroot ▸ hfiled

omit imports

/-- Analyses of modules within each other are proper, by induction on how deep they are. -/
theorem imports_importModule
    (hlists : ∀ content root, w.parse? content = some root → lists (w.finder.classes root))
    (workspace : Option Path) (extra : List String) (fuel : Nat) (around : List Path) :
    ImportsProperly lists (importModule w workspace extra fuel around) := by
  induction fuel generalizing around with
  | zero =>
    intro file content store hstore
    exact ⟨by rintro _ ⟨⟩, hstore⟩
  | succ fuel ih =>
    intro file content
    rw [importModule]
    split
    · exact fun store hstore => ⟨by rintro _ ⟨⟩, hstore⟩
    · intro store hstore
      obtain ⟨hanalyzer, hstarted⟩ := Analyzer.proper_start lists w workspace extra hstore
      obtain ⟨hanswer, hlast⟩ := maintains_analyzeWith (ih (file :: around)) (some file) hlists
        content (fresh w workspace extra store) ⟨hanalyzer, hstarted, trivial⟩
      exact ⟨fun a ha => (hanswer a ha).2, hlast.store⟩

end

/-! ### Analyzers that share a store -/

/-- Analyzers that share a store. -/
structure Shared where
  analyzers : List Analyzer := []
  store : Library.Store

/-- Something that is done with the analyzers and their store: a new analyzer is started, one of
them is called, or the store is used directly. -/
inductive Action where
  | start (workspace : Option Path) (extra : List String)
  | call (i : Nat) (c : Call)
  | external (i : Nat) (path : Option String)
  | find (i : Nat) (path : String)
  | populate (i : Nat) (library : String)
  | store (c : Library.Store.Call)

/-- What an action gives. -/
inductive Outcome where
  | nothing
  | analysis (a : Analysis)
  | found (c : Option ParamClass)

/-- The classes in what an action gives. -/
def Outcome.classes : Outcome → List ParamClass
  | nothing => []
  | analysis a => a.classes.values
  | found c => c.toList

/-- The analysis that an action gives. -/
def Outcome.analysis? : Outcome → Option Analysis
  | analysis a => some a
  | _ => none

/-- A step of one of the analyzers, with the outcome that an answer comes to. -/
def Shared.on {α : Type} (s : Shared) (i : Nat) (step : AnalysisM α) (give : α → Outcome) :
    Outcome × Shared :=
  match s.analyzers[i]? with
  | none => (.nothing, s)
  | some a =>
    let (result, next) := step.run ⟨a, s.store⟩
    ((result.toOption.map give).getD .nothing, ⟨s.analyzers.set i next.analyzer, next.store⟩)

/-- What an action gives in a world, and what it leaves. -/
def Action.step (w : World) (s : Shared) : Action → Outcome × Shared
  | start workspace extra =>
    let (a, left) := Analyzer.start w workspace extra s.store
    (.nothing, ⟨s.analyzers ++ [a], left⟩)
  | call i (.file content current) => s.on i (analyzeFile w content current) .analysis
  | call i (.module name current) =>
    s.on i (do importedModule (importer w (← get).analyzer) w name current) .analysis
  | call i (.imported className bound current) =>
    s.on i (do importedClass (importer w (← get).analyzer) w className bound current) .found
  | external i path => s.on i (externalClass w path) .found
  | find i path => s.on i (ExceptT.lift (onLibraries (Library.find? w path))) .found
  | populate i library =>
    s.on i (ExceptT.lift (onLibraries (Library.populate w library))) fun _ => .nothing
  | store c =>
    match c.step s.store with
    | (some (.found c), left) => (.found c, { s with store := left })
    | (_, left) => (.nothing, { s with store := left })

/-- The analyzers and their store after a history, each action in the world of its time. -/
def Shared.run (s : Shared) (history : List (World × Action)) : Shared :=
  history.foldl (fun s entry => (entry.2.step entry.1 s).2) s

/-- What the action puts into the store by hand, if it does, is proper. -/
def Action.Proper : Action → Prop
  | store c => c.Proper
  | _ => True

/-- What is given is proper. -/
def Outcome.Proper (lists : List Node → Prop) : Outcome → Prop
  | nothing => True
  | analysis a => a.Proper lists
  | found c => Library.Proper c

/-- All that the analyzers and the store hold is proper. -/
structure Shared.Proper (lists : List Node → Prop) (s : Shared) : Prop where
  analyzers : ∀ a ∈ s.analyzers, a.Proper lists
  store : s.store.Proper

section

variable {lists : List Node → Prop} {s : Shared}

theorem Outcome.Proper.ownNames {o : Outcome} (h : o.Proper lists) {c : ParamClass}
    (hc : c ∈ o.classes) : OwnNames c.parameters := by
  cases o with
  | nothing => cases hc
  | analysis a =>
    obtain ⟨entry, hentry, rfl⟩ := List.mem_map.mp hc
    exact h.own entry.1 entry.2 (Table.get?_of_mem_entries hentry)
  | found c' => exact h c (Option.mem_toList.mp hc)

theorem Outcome.Proper.analysis? {o : Outcome} (h : o.Proper lists) {a : Analysis}
    (ha : o.analysis? = some a) : a.Proper lists := by
  cases o with
  | nothing | found => cases ha
  | analysis b =>
    cases ha
    exact h

theorem Shared.Proper.on (h : s.Proper lists) {α : Type} {step : AnalysisM α} {T : α → Prop}
    (hstep : Maintains (Within lists fun _ => True) step T) {g : α → Outcome}
    {U : Outcome → Prop} (hnothing : U .nothing) (hgive : ∀ a, T a → U (g a)) (i : Nat) :
    U (s.on i step g).1 ∧ (s.on i step g).2.Proper lists := by
  rw [Shared.on]
  split
  · exact ⟨hnothing, h⟩
  · next a ha =>
    obtain ⟨hanswer, hnext⟩ :=
      hstep ⟨a, s.store⟩ ⟨h.analyzers a (List.mem_of_getElem? ha), h.store, trivial⟩
    rcases hrun : step.run ⟨a, s.store⟩ with ⟨result, next⟩
    rw [hrun] at hanswer hnext
    refine ⟨?_, fun b hb => ?_, hnext.store⟩
    · cases result with
      | error => exact hnothing
      | ok value => exact hgive value (hanswer value rfl)
    · rcases List.mem_or_eq_of_mem_set hb with hb | rfl
      · exact h.analyzers b hb
      · exact hnext.analyzer

variable {w : World}
  (hlists : ∀ content root, w.parse? content = some root → lists (w.finder.classes root))

include hlists

theorem imports_importer (a : Analyzer) : ImportsProperly lists (importer w a) :=
  imports_importModule hlists a.workspace a.extra (importDepth w) []

theorem maintains_analyzeFile (content : String) (current : Option Path) :
    Maintains (Within lists fun _ => True) (analyzeFile w content current)
      (GivenFor lists w content) :=
  Maintains.get_bind fun s _ =>
    maintains_analyzeWith (imports_importer hlists s.analyzer) current hlists content

/-- An action gives what is proper, and leaves what is proper. -/
theorem Shared.Proper.step (h : s.Proper lists) {action : Action} (haction : action.Proper) :
    (action.step w s).1.Proper lists ∧ (action.step w s).2.Proper lists := by
  cases action with
  | start workspace extra =>
    obtain ⟨hanalyzer, hstore⟩ := Analyzer.proper_start lists w workspace extra h.store
    refine ⟨trivial, fun a ha => ?_, hstore⟩
    rcases List.mem_append.mp ha with ha | ha
    · exact h.analyzers a ha
    · rw [List.mem_singleton.mp ha]
      exact hanalyzer
  | call i c =>
    cases c with
    | file content current =>
      exact h.on (maintains_analyzeFile hlists content current) trivial (fun a ha => ha.2) i
    | module name current =>
      exact h.on (Maintains.get_bind fun t _ =>
        maintains_importedModule (imports_importer hlists t.analyzer) w current name) trivial
        (fun a ha => ha) i
    | imported className bound current =>
      exact h.on (Maintains.get_bind fun t _ =>
        maintains_importedClass (imports_importer hlists t.analyzer) w current className bound)
        trivial (fun c hc => hc) i
  | external i path => exact h.on (maintains_externalClass w path) trivial (fun c hc => hc) i
  | find i path =>
    exact h.on (Maintains.lift (ends_onLibraries (Library.State.Proper.ends_find? w path))) trivial
      (fun c hc => hc) i
  | populate i library =>
    have hpopulate : Ends Library.State.Proper (Library.populate w library)
        fun _ s => True ∧ s.Proper :=
      (Library.State.Proper.ends_populate w library).weaken (fun _ hs => hs)
        fun _ _ hs => ⟨trivial, hs⟩
    exact h.on (Maintains.lift (ends_onLibraries hpopulate)) trivial (fun _ _ => trivial) i
  | store c =>
    obtain ⟨hanswer, hnext⟩ := Library.Store.Call.proper_step haction h.store
    rw [Action.step]
    split
    · next found store hrun =>
      rw [hrun] at hanswer hnext
      exact ⟨hanswer found rfl, h.analyzers, hnext⟩
    · next answer store _ hrun =>
      rw [hrun] at hnext
      exact ⟨trivial, h.analyzers, hnext⟩

omit hlists

/-- What a history leaves is proper, by induction on the history. -/
theorem Shared.Proper.run (h : s.Proper lists) {history : List (World × Action)}
    (hactions : ∀ entry ∈ history, entry.2.Proper)
    (hlists : ∀ entry ∈ history, ∀ content root, entry.1.parse? content = some root →
      lists (entry.1.finder.classes root)) :
    (s.run history).Proper lists := by
  induction history generalizing s with
  | nil => exact h
  | cons entry rest ih =>
    have hfirst := h.step (hlists entry List.mem_cons_self) (hactions entry List.mem_cons_self)
    exact ih hfirst.2 (fun e he => hactions e (List.mem_cons_of_mem _ he))
      fun e he => hlists e (List.mem_cons_of_mem _ he)

end

/-- The classes that are found in the tree of a text in one of the worlds of a history. -/
def IsFoundIn (history : List (World × Action)) (nodes : List Node) : Prop :=
  ∃ entry ∈ history, ∃ content root, entry.1.parse? content = some root ∧
    entry.1.finder.classes root = nodes

/-- Whatever was done before with analyzers and a proper store that they share: in every class that
an action gives, each parameter stands under its own name. The classes of an analysis stand under
the names and rows of classes of one tree, for the analysis of a text those of its own tree; and
where the names in the tree have no colon, the search for a name finds a class of that name. -/
theorem given_classes_filed {store : Library.Store} (hstore : store.Proper)
    (history : List (World × Action)) (w : World) (action : Action)
    (hactions : ∀ entry ∈ history ++ [(w, action)], entry.2.Proper) :
    (∀ c ∈ (action.step w (Shared.run { store } history)).1.classes, OwnNames c.parameters) ∧
    ∀ a, (action.step w (Shared.run { store } history)).1.analysis? = some a →
      (a.classes = ∅ ∨ ∃ nodes, IsFoundIn (history ++ [(w, action)]) nodes ∧
        FiledBy nodes a.classes) ∧
      ∀ i content current root, action = .call i (.file content current) →
        w.parse? content = some root →
        FiledBy (w.finder.classes root) a.classes ∧
        (ColonFree (w.finder.classes root) → FindsByName a.classes) := by
  have hlast := hactions (w, action) (List.mem_append_right _ List.mem_cons_self)
  have hlists (entry : World × Action) (he : entry ∈ history ++ [(w, action)]) (content : String)
      (root : Node) (hparse : entry.1.parse? content = some root) :
      IsFoundIn (history ++ [(w, action)]) (entry.1.finder.classes root) :=
    ⟨entry, he, content, root, hparse, rfl⟩
  have hempty : Shared.Proper (IsFoundIn (history ++ [(w, action)])) { store } :=
    ⟨by rintro a ⟨⟩, hstore⟩
  have hbefore := hempty.run (fun e he => hactions e (List.mem_append_left _ he))
    fun e he => hlists e (List.mem_append_left _ he)
  have hlists := hlists (w, action) (List.mem_append_right _ List.mem_cons_self)
  obtain ⟨hgiven, -⟩ := hbefore.step hlists hlast
  refine ⟨fun c hc => hgiven.ownNames hc, fun a ha => ?_⟩
  refine ⟨(hgiven.analysis? ha).filed, ?_⟩
  rintro i content current root rfl hparse
  have hfile := (hbefore.on (maintains_analyzeFile hlists content current) (g := Outcome.analysis)
    (U := fun o => ∀ a, o.analysis? = some a → FiledBy (w.finder.classes root) a.classes)
    (by rintro a ⟨⟩) (by rintro a ha _ ⟨⟩; exact ha.1 root hparse) i).1 a ha
  exact ⟨hfile, hfile.findsByName⟩

/-- After an import of its base from another module, a class is found by its name, and has the
inherited parameter under its own name. -/
theorem given_classes_filed_borrowed :
    let history : List (World × Action) :=
      [(chain, .start (some workspacePath) []), (chain, .call 0 (.module "b" none))]
    ∃ a, (Action.step chain (Shared.run { store := {} } history)
        (.call 0 (.file heirFile.written (some (modulePath "a"))))).1.analysis? = some a ∧
      a.classes.names = ["A:1"] ∧ a.classes.values.map ParamClass.parameterNames = [["x"]] ∧
      FindsByName a.classes ∧ ∀ c ∈ a.classes.values, OwnNames c.parameters := by
  intro history
  have hproper : Library.Store.Proper {} := ⟨by rintro key r ⟨⟩, by rintro name r ⟨⟩⟩
  have hnames : (Action.step chain (Shared.run { store := {} } history)
      (.call 0 (.file heirFile.written (some (modulePath "a"))))).1.analysis?.map (fun a =>
        (a.classes.names, a.classes.values.map ParamClass.parameterNames)) =
      some (["A:1"], [["x"]]) := by decide +kernel
  obtain ⟨a, ha, hclasses⟩ := Option.map_eq_some_iff.mp hnames
  obtain ⟨hnames, hparameters⟩ := Prod.mk.inj hclasses
  obtain ⟨hown, hfiled⟩ := given_classes_filed hproper history chain
    (.call 0 (.file heirFile.written (some (modulePath "a")))) (by simp [history, Action.Proper])
  obtain ⟨-, hsearch⟩ := (hfiled a ha).2 0 heirFile.written _ _ rfl rfl
  refine ⟨a, ha, hnames, hparameters, hsearch (by decide +kernel), fun c hc => hown c ?_⟩
  cases houtcome : (Action.step chain (Shared.run { store := {} } history)
      (.call 0 (.file heirFile.written (some (modulePath "a"))))).1 with
  | analysis b =>
    rw [houtcome] at ha
    cases ha
    exact hc
  | nothing | found =>
    rw [houtcome] at ha
    cases ha

end Analysis

end ParamLens
