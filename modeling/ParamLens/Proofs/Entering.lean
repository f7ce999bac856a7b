import ParamLens.Proofs.Analyses
import ParamLens.Proofs.ClassOrder
import ParamLens.Proofs.Tables
import ParamLens.Proofs.Triples

/-! What the analysis of a file enters. The classes of the file are taken one after another, and
each is entered or passed over by what is known of its bases. That is said here as a relation
between the findings before a class and after it, for any account of what the imported modules come
to. -/

namespace ParamLens.Analysis

open Syntax Steps

/-! ### Bases -/

/-- A class of the tree refers to a base by the plain name. -/
def BaseName (w : World) (root : Node) (name : String) : Prop :=
  name ≠ "" ∧ ∃ n ∈ w.finder.classes root, n.className?.isSome = true ∧
    ∃ base ∈ n.bases, base.kind = .identifier ∧ base.text = name

/-- The name of the class with a bound full name, in its module. -/
def nameIn (className full : String) : String :=
  if Dotted.isDotted full then Dotted.last full else className

/-- The class that a name brings in by an import, where `means` tells what modules come to. -/
def Found (means : String → Analysis → Prop) (imports : Imports) (name : String)
    (c : Option ParamClass) : Prop :=
  match (imports.get? name).filter (· != "") with
  | none => c = none
  | some full => ∃ a, means (moduleOf full) a ∧ c = a.classes.named? (nameIn name full)

/-- A base makes a class one with parameters, or does not. -/
def Tests (means : String → Analysis → Prop) (latest : Analysis) (base : Node) (passes : Bool) :
    Prop :=
  match base.kind with
  | .identifier =>
    if base.text = "" then passes = false
    else if isBoundRoot latest.imports base.text || (latest.classes.keyOf? base.text).isSome then
      passes = true
    else ∃ c, Found means latest.imports base.text c ∧ passes = c.isSome
  | .attribute => isMemberRoot latest.imports base.chain = true → passes = true
  | _ => passes = false

/-- The class with parameters that a base brings. -/
def Brings (means : String → Analysis → Prop) (latest : Analysis) (base : Node)
    (c : Option ParamClass) : Prop :=
  match base.kind with
  | .identifier =>
    if base.text = "" then c = none
    else match latest.classes.named? base.text with
      | some known => c = some known
      | none => Found means latest.imports base.text c
  | .attribute | .call => latest.imports.classPath? base = some "param.Parameterized" → c = none
  | _ => c = none

/-- The parameters so far with those of one more base, which replace others of their names. -/
def lay (found : Table Parameter) (c : Option ParamClass) : Table Parameter :=
  match c with
  | some c => found.update c.parameters.entries
  | none => found

/-- The class with its own parameters over those that it inherits. -/
def built (name : String) (inherited : Table Parameter) (own : List Parameter) : ParamClass :=
  own.foldl ParamClass.add ((ParamClass.ofName name).merge inherited)

theorem name_built (name : String) (inherited : Table Parameter) (own : List Parameter) :
    (built name inherited own).name = name := by
  have hfold (c : ParamClass) : (own.foldl ParamClass.add c).name = c.name := by
    induction own generalizing c with
    | nil => rfl
    | cons p rest ih => exact ih (c.add p)
  exact hfold _

/-- What a named class of the file does to the findings. -/
inductive Takes (means : String → Analysis → Prop) (types : List String → Prop) (content : String)
    (n : Node) (latest : Analysis) : Analysis → Prop
  /-- No base makes it a class with parameters. -/
  | passed : (∀ base ∈ n.bases, Tests means latest base false) → Takes means types content n latest
      latest
  /-- A base does, and the class is entered. -/
  | entered {name : String} {base : Node} {cs : List (Option ParamClass)} {known : List String} :
      n.className? = some name → base ∈ n.bases → Tests means latest base true →
      List.Forall₂ (Brings means latest) n.bases cs → types known →
      Takes means types content n latest
        { latest with
          classes := latest.classes.insert (Classes.key name n.row) (built name (cs.foldl lay ∅)
            (Declaration.parameters ⟨latest.imports, known⟩ content n)) }

theorem Takes.imports {means : String → Analysis → Prop} {types : List String → Prop}
    {content : String} {n : Node} {latest next : Analysis}
    (h : Takes means types content n latest next) : next.imports = latest.imports := by
  cases h <;> rfl

/-- Every class stands under the key of a class of the tree. -/
def Keyed (w : World) (root : Node) (classes : Classes) : Prop :=
  ∀ key c, classes.get? key = some c → ∃ n ∈ w.finder.classes root,
    ∃ name, n.className? = some name ∧ key = Classes.key name n.row

theorem keyed_empty (w : World) (root : Node) : Keyed w root ∅ := by
  intro key c h
  cases h

theorem Takes.keyed {means : String → Analysis → Prop} {types : List String → Prop}
    {w : World} {content : String} {root n : Node} {latest next : Analysis}
    (h : Takes means types content n latest next) (hn : n ∈ w.finder.classes root)
    (hkeyed : Keyed w root latest.classes) : Keyed w root next.classes := by
  cases h with
  | passed => exact hkeyed
  | entered hname _ _ _ _ =>
    intro key c hget
    rw [Table.get?_insert] at hget
    split at hget
    · next heq => exact ⟨n, hn, _, hname, heq⟩
    · exact hkeyed key c hget

/-- The analysis of a text enters its classes one after another. -/
def Enrols (means : String → Analysis → Prop) (types : List String → Prop) (w : World)
    (content : String) (root : Node) (a : Analysis) : Prop :=
  ∃ latest, Traverses (Takes means types content) (classOrder (w.finder.classes root))
    { imports := Imports.ofTree w.finder root } latest ∧
    a.classes = latest.classes ∧ a.imports = latest.imports

/-- What the analysis of a text comes to; a text without a tree has an empty one. -/
def Analysed (means : String → Analysis → Prop) (types : List String → Prop) (w : World)
    (content : String) (a : Analysis) : Prop :=
  match w.parse? content with
  | none => a = {}
  | some root => Enrols means types w content root a

/-! ### The steps of an analysis -/

/-- The property of states stays with questions for library classes and changes of the findings, and
with the imports that the classes of a tree ask for, whose modules come to what `means` tells. -/
structure Supports (P : AnalysisState → Prop) (importer : Importer) (w : World)
    (current : Option Path) (root : Node) (means : String → Analysis → Prop)
    (types : List String → Prop) (E : Failure → AnalysisState → Prop) : Prop where
  known {s : AnalysisState} : P s → types s.analyzer.types
  change {s : AnalysisState} (latest : Analysis) (external : Table (Option ParamClass)) : P s →
    P { s with analyzer := { s.analyzer with latest := latest, external := external } }
  ask {s : AnalysisState} (path : String) : P s → P (onLibraries (Library.find? w path) s).2
  module {name full : String} (latest : Analysis) : BaseName w root name →
    (Imports.ofTree w.finder root).get? name = some full → full ≠ "" →
    Triple (fun s => P s ∧ s.analyzer.latest = latest)
      (importedModule importer w (moduleOf full) current)
      (fun a s => means (moduleOf full) a ∧ P s ∧ s.analyzer.latest = latest) E

/-- The property of states stays with questions for library classes and changes of the findings. -/
structure Lasting (P : AnalysisState → Prop) (w : World) : Prop where
  change {s : AnalysisState} (latest : Analysis) (external : Table (Option ParamClass)) : P s →
    P { s with analyzer := { s.analyzer with latest := latest, external := external } }
  ask {s : AnalysisState} (path : String) : P s → P (onLibraries (Library.find? w path) s).2

theorem Supports.lasting {P : AnalysisState → Prop} {importer : Importer} {w : World}
    {current : Option Path} {root : Node} {means : String → Analysis → Prop}
    {types : List String → Prop} {E : Failure → AnalysisState → Prop}
    (supports : Supports P importer w current root means types E) : Lasting P w :=
  ⟨supports.change, supports.ask⟩

/-- The states with the property in which the findings in the present file are as given. -/
abbrev Stands (P : AnalysisState → Prop) (latest : Analysis) (s : AnalysisState) : Prop :=
  P s ∧ s.analyzer.latest = latest

section

variable {P : AnalysisState → Prop} {w : World} (lasting : Lasting P w) {root : Node}
  {latest : Analysis} {E : Failure → AnalysisState → Prop}

include lasting

theorem triple_externalClass (path : Option String) :
    Triple (Stands P latest) (externalClass w path) (fun _ => Stands P latest) E := by
  cases path with
  | none => exact Triple.pure fun s hs => hs
  | some full =>
    refine Triple.get_bind fun s _ => ?_
    split
    · exact Triple.pure fun s hs => hs
    · refine (Triple.lift (Q := fun _ => Stands P latest) fun s hs => ?_).bind fun found => ?_
      · exact ⟨lasting.ask full hs.1, hs.2⟩
      · refine (Triple.modify (Q := fun _ => Stands P latest) fun s hs => ?_).bind fun _ =>
          Triple.pure fun s hs => hs
        exact ⟨lasting.change _ _ hs.1, hs.2⟩

theorem triple_discover : Triple (Stands P latest) (discover w root)
    (fun _ => Stands P latest) E := by
  refine Triple.bind (Triple.forIn (T := fun _ _ _ => True) (I := fun _ => Stands P latest)
    (fun call _ _ => ?_) ()) fun _ =>
      Triple.of_exists fun _ => Triple.of_and fun _ => Triple.pure fun s hs => hs
  refine Triple.get_bind fun s _ => ?_
  dsimp only
  split
  · exact (triple_externalClass lasting _).bind fun _ =>
      Triple.pure fun s hs => ⟨rfl, (), trivial, hs⟩
  · exact Triple.pure fun s hs => ⟨rfl, (), trivial, hs⟩

theorem triple_conclude : Triple (Stands P latest) (conclude w root)
    (fun a s => (a.classes = latest.classes ∧ a.imports = latest.imports) ∧ P s) E := by
  have hask (path : String) : Agree (fun s t => s = t ∧ Stands P latest s)
      (onLibraries (Library.find? w path)) (onLibraries (Library.find? w path)) :=
    Agree.same_iff.mpr fun s hs => ⟨lasting.ask path hs.1, hs.2⟩
  refine Triple.bind (Q := fun _ => Stands P latest) ?_ fun found => ?_
  · refine Triple.get_bind fun s _ => Triple.lift ?_
    exact Agree.same_iff.mp (Check.agree_checkFile (Check.SameReadings.refl root _) hask)
  have hchange : Triple (Stands P latest)
      (changeLatest fun a => { a with diagnostics := found })
      (fun _ => Stands P { latest with diagnostics := found }) E :=
    Triple.modify fun s hs => ⟨lasting.change _ _ hs.1, by
      show Analysis.mk _ _ _ = _
      rw [hs.2]⟩
  refine hchange.bind fun _ => Triple.get_bind fun s hs => Triple.pure fun s' hs' => ?_
  rw [hs.2]
  exact ⟨⟨rfl, rfl⟩, hs'.1⟩

end

section

variable {P : AnalysisState → Prop} {importer : Importer} {w : World} {current : Option Path}
  {root : Node} {means : String → Analysis → Prop} {types : List String → Prop}
  {E : Failure → AnalysisState → Prop}
  (supports : Supports P importer w current root means types E) {latest : Analysis}
  (himports : latest.imports = Imports.ofTree w.finder root)

include supports himports

theorem triple_importedClass {name : String} (hname : BaseName w root name) :
    Triple (Stands P latest) (importedClass importer w name name current)
      (fun c s => Found means latest.imports name c ∧ Stands P latest s) E := by
  refine Triple.get_bind fun s hs => ?_
  rw [hs.2]
  cases hfull : (latest.imports.get? name).filter (· != "") with
  | none =>
    simp only [Found, hfull]
    exact Triple.pure fun s hs => ⟨rfl, hs⟩
  | some full =>
    obtain ⟨hbound, hfilled⟩ := Option.filter_eq_some_iff.mp hfull
    rw [himports] at hbound
    have hmodule := supports.module latest hname hbound (by simpa using hfilled)
    simp only [Found, hfull, nameIn]
    by_cases hdotted : Dotted.isDotted full = true
    · simp only [moduleOf, if_pos hdotted] at hmodule ⊢
      exact hmodule.bind fun a => Triple.pure fun s hs => ⟨⟨a, hs.1, rfl⟩, hs.2⟩
    · simp only [moduleOf, if_neg hdotted] at hmodule ⊢
      exact hmodule.bind fun a => Triple.pure fun s hs => ⟨⟨a, hs.1, rfl⟩, hs.2⟩

theorem triple_isParameterizedBase {base : Node}
    (hname : base.kind = .identifier → base.text ≠ "" → BaseName w root base.text) :
    Triple (Stands P latest)
      (isParameterizedBase (outside importer w current) latest.imports latest.classes base)
      (fun passes s => Tests means latest base passes ∧ Stands P latest s) E := by
  rw [isParameterizedBase]
  split
  · next hkind =>
    simp only [Tests, hkind]
    split
    · exact Triple.pure fun s hs => ⟨rfl, hs⟩
    · next htext =>
      split
      · exact Triple.pure fun s hs => ⟨rfl, hs⟩
      · refine (triple_importedClass supports himports (hname hkind htext)).bind fun c => ?_
        exact Triple.pure fun s hs => ⟨⟨c, hs.1, rfl⟩, hs.2⟩
  · next hkind =>
    simp only [Tests, hkind]
    split
    · next hlength =>
      refine Triple.pure fun s hs => ⟨fun hroot => ?_, hs⟩
      -- The root as a member of its module has two names.
      unfold isMemberRoot at hroot
      split at hroot
      · next heq => simp [heq] at hlength
      · cases hroot
    · split
      · exact Triple.pure fun s hs => ⟨fun _ => rfl, hs⟩
      · next hroot =>
        refine (triple_externalClass supports.lasting _).bind fun c => ?_
        exact Triple.pure fun s hs => ⟨fun h => absurd h hroot, hs⟩
  · next hname hmember =>
    refine Triple.pure fun s hs => ⟨?_, hs⟩
    unfold Tests
    split
    · contradiction
    · contradiction
    · rfl

theorem triple_baseClass? {base : Node}
    (hname : base.kind = .identifier → base.text ≠ "" → BaseName w root base.text) :
    Triple (Stands P latest)
      (baseClass? (outside importer w current) latest.imports latest.classes base)
      (fun c s => Brings means latest base c ∧ Stands P latest s) E := by
  have hpath : Triple (Stands P latest)
      (if latest.imports.classPath? base = some "param.Parameterized" then pure none
        else externalClass w (latest.imports.classPath? base))
      (fun c s => (latest.imports.classPath? base = some "param.Parameterized" → c = none) ∧
        Stands P latest s) E := by
    split
    · exact Triple.pure fun s hs => ⟨fun _ => rfl, hs⟩
    · next hroot =>
      exact (triple_externalClass supports.lasting _).weaken (fun s hs => hs) fun c s hs =>
        ⟨fun h => absurd h hroot, hs⟩
  rw [baseClass?]
  split
  · next hkind =>
    simp only [Brings, hkind]
    split
    · exact Triple.pure fun s hs => ⟨rfl, hs⟩
    · next htext =>
      cases hknown : latest.classes.named? base.text with
      | some known => exact Triple.pure fun s hs => ⟨rfl, hs⟩
      | none => exact triple_importedClass supports himports (hname hkind htext)
  · next hkind =>
    simp only [Brings, hkind]
    exact hpath
  · next hkind =>
    simp only [Brings, hkind]
    exact hpath
  · refine Triple.pure fun s hs => ⟨?_, hs⟩
    unfold Brings
    split
    · contradiction
    · contradiction
    · contradiction
    · rfl

theorem triple_inheritedParameters {n : Node}
    (hnames : ∀ base ∈ n.bases, base.kind = .identifier → base.text ≠ "" →
      BaseName w root base.text) :
    Triple (Stands P latest)
      (inheritedParameters (outside importer w current) latest.imports latest.classes n)
      (fun found s => (∃ cs, List.Forall₂ (Brings means latest) n.bases cs ∧
        found = cs.foldl lay ∅) ∧ Stands P latest s) E := by
  refine Triple.foldlM (fun found base hbase => ?_) ∅
  refine (triple_baseClass? supports himports (hnames base hbase)).bind fun c => ?_
  cases c with
  | none => exact Triple.pure fun s hs => ⟨⟨none, hs.1, rfl⟩, hs.2⟩
  | some c => exact Triple.pure fun s hs => ⟨⟨some c, hs.1, rfl⟩, hs.2⟩

theorem triple_takeClass (content : String) {n : Node} (hn : n ∈ w.finder.classes root)
    (hnamed : n.className?.isSome = true) :
    Triple (Stands P latest) (takeClass importer w content current n)
      (fun _ s => ∃ next, Takes means types content n latest next ∧ Stands P next s) E := by
  have hnames : ∀ base ∈ n.bases, base.kind = .identifier → base.text ≠ "" →
      BaseName w root base.text := fun base hbase hkind htext =>
    ⟨htext, n, hn, hnamed, base, hbase, hkind, rfl⟩
  have hany := Triple.anyM (P := Stands P latest) (E := E) (T := Tests means latest)
    (l := n.bases) (f := fun base => do
      let latest := (← get).analyzer.latest
      isParameterizedBase (outside importer w current) latest.imports latest.classes base)
    fun base hbase => Triple.get_bind fun s hs => by
      rw [hs.2]
      exact triple_isParameterizedBase supports himports (hnames base hbase)
  refine hany.bind fun passes => ?_
  obtain ⟨name, hname⟩ := Option.isSome_iff_exists.mp hnamed
  rw [hname]
  cases passes with
  | false => exact Triple.pure fun s hs => ⟨latest, .passed hs.1, hs.2⟩
  | true =>
    refine Triple.of_and fun hpasses => Triple.get_bind fun s hs => ?_
    obtain ⟨base, hbase, htest⟩ := hpasses
    rw [hs.2]
    refine (triple_inheritedParameters supports himports hnames).bind fun inherited => ?_
    refine Triple.get_bind fun s hs => Triple.modify ?_
    obtain ⟨-, hs, hslatest⟩ := hs
    rintro s' ⟨⟨cs, hcs, rfl⟩, hP, hlatest⟩
    refine ⟨_, .entered hname hbase htest hcs (supports.known hs), supports.change _ _ hP, ?_⟩
    show Analysis.mk _ _ _ = Analysis.mk _ _ _
    rw [recognition, hslatest, hlatest, built]

omit himports

theorem triple_prepare (content : String) :
    Triple (Stands P { imports := Imports.ofTree w.finder root })
      (prepare importer w content current root)
      (fun _ s => ∃ latest, Traverses (Takes means types content)
        (classOrder (w.finder.classes root)) { imports := Imports.ofTree w.finder root } latest ∧
        Stands P latest s) E := by
  have hloop : Triple (Stands P { imports := Imports.ofTree w.finder root })
      (forIn (classOrder (w.finder.classes root)) PUnit.unit fun n _ => do
        takeClass importer w content current n
        pure (ForInStep.yield PUnit.unit))
      (fun _ s => ∃ latest, Traverses (Takes means types content)
        (classOrder (w.finder.classes root)) { imports := Imports.ofTree w.finder root } latest ∧
        latest.imports = Imports.ofTree w.finder root ∧ Stands P latest s) E := by
    refine (Triple.forIn (I := fun latest s => latest.imports = Imports.ofTree w.finder root ∧
      Stands P latest s) (fun n hn latest => ?_) _).weaken (fun s hs => ⟨rfl, hs⟩)
      fun _ _ h => h
    obtain ⟨hmem, hnamed⟩ := mem_classOrder.mp hn
    refine Triple.of_and fun himports => ?_
    refine (triple_takeClass supports himports content hmem hnamed).bind fun _ => Triple.pure ?_
    rintro s ⟨next, htakes, hs⟩
    exact ⟨rfl, next, htakes, htakes.imports.trans himports, hs⟩
  refine hloop.bind fun _ => Triple.of_exists fun latest => ?_
  refine Triple.of_and fun htraverses => Triple.of_and fun _ => ?_
  exact (triple_discover supports.lasting).weaken (fun s hs => hs) fun _ s hs =>
    ⟨latest, htraverses, hs⟩

end

theorem triple_analyzeWith {P : AnalysisState → Prop} {importer : Importer} {w : World}
    {content : String} {current : Option Path} {means : String → Analysis → Prop}
    {types : List String → Prop} {E : Failure → AnalysisState → Prop}
    (supports : ∀ root, w.parse? content = some root →
      Supports P importer w current root means types E) :
    Triple P (analyzeWith importer w content current)
      (fun a s => Analysed means types w content a ∧ P s) E := by
  cases htree : w.parse? content with
  | none =>
    simp only [analyzeWith, Analysed, htree]
    exact Triple.pure fun s hs => ⟨rfl, hs⟩
  | some root =>
    have hroot := supports root htree
    have hwhole : Triple (Stands P { imports := Imports.ofTree w.finder root })
        (prepare importer w content current root >>= fun _ => conclude w root)
        (fun a s => Enrols means types w content root a ∧ P s) E := by
      refine (triple_prepare hroot content).bind fun _ => Triple.of_exists fun latest => ?_
      refine Triple.of_and fun htraverses => ?_
      exact (triple_conclude hroot.lasting).weaken (fun s hs => hs) fun a s hs =>
        ⟨⟨latest, htraverses, hs.1⟩, hs.2⟩
    intro s hs
    have hrun : (analyzeWith importer w content current).run s =
        (prepare importer w content current root >>= fun _ => conclude w root).run
          (begun w root s) := by
      rw [run_analyzeWith htree, run_bind]
      rcases (prepare importer w content current root).run (begun w root s) with ⟨_ | _, next⟩ <;>
        rfl
    rw [hrun]
    simp only [Analysed, htree]
    exact hwhole (begun w root s) ⟨hroot.change _ _ hs, rfl⟩

end ParamLens.Analysis
