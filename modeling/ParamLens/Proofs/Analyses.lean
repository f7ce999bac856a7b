import ParamLens.Analysis.Analyzer
import ParamLens.Proofs.Checking
import ParamLens.Proofs.Steps

/-! Two runs of the analysis of a file. The analysis asks for library classes and for modules, and
changes its own latest findings; a relation between two states that these steps carry is carried by
the whole analysis, and the two runs come to the same findings. -/

namespace ParamLens.Analysis

open Syntax Steps

/-! ### The parts of an analysis -/

/-- What the analysis of a file does before it makes diagnostics: it takes the classes and asks for
the classes that are called. -/
def prepare (importer : Importer) (w : World) (content : String) (current : Option Path)
    (root : Node) : AnalysisM Unit := do
  for n in classOrder (w.finder.classes root) do
    takeClass importer w content current n
  discover w root

/-- What the checks know from an analyzer. -/
def knownOf (w : World) (a : Analyzer) : Check.Known :=
  { classes := a.latest.classes
    external := a.external
    imports := a.latest.imports
    isDeclaration := (recognition a).isParameterAssignment
    finder := w.finder }

/-- What the analysis of a file does after the checks. -/
def finish (found : List Diagnostic) : AnalysisM Analysis := do
  changeLatest fun a => { a with diagnostics := found }
  return (← get).analyzer.latest

/-- What the analysis of a file does after it was prepared. -/
def conclude (w : World) (root : Node) : AnalysisM Analysis := diagnose w root >>= finish

theorem run_conclude (w : World) (root : Node) (s : AnalysisState) :
    (conclude w root).run s = (ExceptT.lift (Check.checkFile (knownOf w s.analyzer)
      (fun path => onLibraries (Library.find? w path)) root) >>= finish).run s := by
  have hparts : conclude w root = (do
      let s ← get
      ExceptT.lift (Check.checkFile (knownOf w s.analyzer)
        (fun path => onLibraries (Library.find? w path)) root) >>= finish) := by
    simp only [conclude, diagnose, bind_assoc]
    rfl
  rw [hparts, run_bind, run_get]

/-- The state in which the analysis of a file with the tree begins. -/
def begun (w : World) (root : Node) (s : AnalysisState) : AnalysisState :=
  { s with analyzer := { s.analyzer with latest := { imports := Imports.ofTree w.finder root } } }

theorem run_analyzeWith {importer : Importer} {w : World} {content : String}
    {current : Option Path} {root : Node} (htree : w.parse? content = some root)
    (s : AnalysisState) :
    (analyzeWith importer w content current).run s =
      match (prepare importer w content current root).run (begun w root s) with
      | (.ok _, next) => (conclude w root).run next
      | (.error failure, next) => (.error failure, next) := by
  have hparts : analyzeWith importer w content current = (do
      changeLatest fun _ => { imports := Imports.ofTree w.finder root }
      prepare importer w content current root
      conclude w root) := by
    rw [analyzeWith, htree]
    simp only [prepare, conclude, bind_assoc]
    rfl
  have hbegin : (changeLatest fun _ => { imports := Imports.ofTree w.finder root }).run s =
      (.ok (), begun w root s) := rfl
  rw [hparts, run_bind, hbegin]
  dsimp only
  rw [run_bind]
  rcases (prepare importer w content current root).run (begun w root s) with ⟨result, next⟩
  cases result <;> rfl

/-! ### Relations that the basic steps carry -/

/-- The module in which the class with a bound full name is looked for. -/
def moduleOf (full : String) : String := if Dotted.isDotted full then Dotted.parent full else full

/-- The relation holds only between states with the same findings in the present file, whose imports
are given. Questions for library classes, imports of the modules of the file and changes of the
findings carry it. -/
structure Carries (R : AnalysisState → AnalysisState → Prop) (importer : Importer) (w : World)
    (current : Option Path) (imports : Imports) : Prop where
  bindings {s t : AnalysisState} : R s t → s.analyzer.latest.imports = imports
  latest {s t : AnalysisState} : R s t → s.analyzer.latest = t.analyzer.latest
  types {s t : AnalysisState} : R s t → s.analyzer.types = t.analyzer.types
  allowed {s t : AnalysisState} : R s t → s.analyzer.session.allowed = t.analyzer.session.allowed
  external (path : Option String) : Agree R (externalClass w path).run (externalClass w path).run
  ask (path : String) :
    Agree R (onLibraries (Library.find? w path)) (onLibraries (Library.find? w path))
  module {bound full : String} : imports.get? bound = some full →
    Agree R (importedModule importer w (moduleOf full) current).run
      (importedModule importer w (moduleOf full) current).run
  change {s t : AnalysisState} (f : Analysis → Analysis) : R s t →
    (∀ a, (f a).imports = a.imports) →
    R { s with analyzer := { s.analyzer with latest := f s.analyzer.latest } }
      { t with analyzer := { t.analyzer with latest := f t.analyzer.latest } }

section

variable {R : AnalysisState → AnalysisState → Prop} {importer : Importer} {w : World}
  {current : Option Path} {imports : Imports} (carries : Carries R importer w current imports)

include carries

theorem agree_changeLatest {f : Analysis → Analysis} (h : ∀ a, (f a).imports = a.imports) :
    Agree R (changeLatest f).run (changeLatest f).run :=
  Agree.run_modify fun _ _ hR => carries.change f hR h

theorem agree_importedClass (className bound : String) :
    Agree R (importedClass importer w className bound current).run
      (importedClass importer w className bound current).run := by
  refine Agree.run_get_bind fun s t hR => ?_
  rw [← carries.latest hR, carries.bindings hR]
  split
  · exact Agree.run_pure none
  · next full hfull =>
    have hbound := (Option.filter_eq_some_iff.mp hfull).1
    have hmodule := carries.module hbound
    rw [moduleOf] at hmodule
    by_cases hdotted : Dotted.isDotted full = true
    · rw [if_pos hdotted] at hmodule ⊢
      exact hmodule.run_bind fun found => Agree.run_pure _
    · rw [if_neg hdotted] at hmodule ⊢
      exact hmodule.run_bind fun found => Agree.run_pure _

theorem agree_isParameterizedBase (classes : Classes) (base : Node) :
    Agree R (isParameterizedBase (outside importer w current) imports classes base).run
      (isParameterizedBase (outside importer w current) imports classes base).run := by
  rw [isParameterizedBase]
  split
  · dsimp only
    split
    · exact Agree.run_pure false
    · split
      · exact Agree.run_pure true
      · exact (agree_importedClass carries _ _).run_bind fun found => Agree.run_pure _
  · dsimp only
    split
    · exact Agree.run_pure false
    · split
      · exact Agree.run_pure true
      · exact (carries.external _).run_bind fun found => Agree.run_pure _
  · exact Agree.run_pure false

theorem agree_baseClass? (classes : Classes) (base : Node) :
    Agree R (baseClass? (outside importer w current) imports classes base).run
      (baseClass? (outside importer w current) imports classes base).run := by
  rw [baseClass?]
  split
  · dsimp only
    split
    · exact Agree.run_pure none
    · split
      · exact Agree.run_pure _
      · exact agree_importedClass carries _ _
  · dsimp only
    split
    · exact Agree.run_pure none
    · exact carries.external _
  · dsimp only
    split
    · exact Agree.run_pure none
    · exact carries.external _
  · exact Agree.run_pure none

theorem agree_inheritedParameters (classes : Classes) (n : Node) :
    Agree R (inheritedParameters (outside importer w current) imports classes n).run
      (inheritedParameters (outside importer w current) imports classes n).run := by
  refine Agree.run_foldlM (fun found base _ => ?_) ∅
  refine (agree_baseClass? carries classes base).run_bind fun c => ?_
  split <;> exact Agree.run_pure _

theorem agree_takeClass (content : String) (n : Node) :
    Agree R (takeClass importer w content current n).run
      (takeClass importer w content current n).run := by
  refine Agree.run_bind (Agree.run_anyM fun base _ => ?_) fun isParameterized => ?_
  · refine Agree.run_get_bind fun s t hR => ?_
    dsimp only
    rw [← carries.latest hR, carries.bindings hR]
    exact agree_isParameterizedBase carries _ base
  · split
    · next name hname =>
      refine Agree.run_get_bind fun s t hR => ?_
      dsimp only
      rw [← carries.latest hR, carries.bindings hR]
      refine (agree_inheritedParameters carries _ n).run_bind fun inherited => ?_
      refine Agree.run_get_bind fun s t hR => ?_
      rw [recognition, recognition, ← carries.latest hR, ← carries.types hR]
      exact agree_changeLatest carries fun _ => rfl
    · exact Agree.run_pure ()

theorem agree_discover (root : Node) : Agree R (discover w root).run (discover w root).run := by
  refine Agree.run_bind (Agree.run_forIn (fun _ call _ => ?_) PUnit.unit) fun _ => Agree.run_pure _
  refine Agree.run_get_bind fun s t hR => ?_
  have hallowed : isAllowed s.analyzer = isAllowed t.analyzer := by
    funext path
    rw [isAllowed, isAllowed, carries.allowed hR]
  dsimp only
  rw [← carries.latest hR, ← hallowed]
  split
  · exact (carries.external _).run_bind fun _ => Agree.run_pure _
  · exact Agree.run_pure _

/-! ### The whole analysis -/

theorem agree_prepare (content : String) (root : Node) :
    Agree R (prepare importer w content current root).run
      (prepare importer w content current root).run := by
  refine Agree.run_bind (Agree.run_forIn (fun _ n _ => ?_) PUnit.unit) fun _ =>
    agree_discover carries root
  exact (agree_takeClass carries content n).run_bind fun _ => Agree.run_pure _

theorem agree_conclude {root : Node} {s t : AnalysisState} (hR : R s t)
    (same : Check.SameReadings root (knownOf w s.analyzer) (knownOf w t.analyzer)) :
    ((conclude w root).run s).1 = ((conclude w root).run t).1 ∧
      R ((conclude w root).run s).2 ((conclude w root).run t).2 := by
  have hcheck := Check.agree_checkFile same carries.ask
  have hfinish (found : List Diagnostic) : Agree R (finish found).run (finish found).run := by
    have hchange : Agree R (changeLatest fun a => { a with diagnostics := found }).run
        (changeLatest fun a => { a with diagnostics := found }).run :=
      agree_changeLatest carries fun _ => rfl
    refine hchange.run_bind fun _ => ?_
    refine Agree.run_get_bind fun s t hR => ?_
    rw [carries.latest hR]
    exact Agree.run_pure _
  rw [run_conclude, run_conclude]
  exact hcheck.run_lift.run_bind hfinish s t hR

/-- Two analyses that begin in related states come to the same, if the checks read the same from the
states in which the preparation ends. -/
theorem agree_analyzeWith {content : String} {root : Node} {s t : AnalysisState}
    (htree : w.parse? content = some root) (hR : R (begun w root s) (begun w root t))
    (same : ∀ s' t', R s' t' →
      (prepare importer w content current root).run (begun w root t) = (.ok (), t') →
      Check.SameReadings root (knownOf w s'.analyzer) (knownOf w t'.analyzer)) :
    ((analyzeWith importer w content current).run s).1 =
        ((analyzeWith importer w content current).run t).1 ∧
      R ((analyzeWith importer w content current).run s).2
        ((analyzeWith importer w content current).run t).2 := by
  obtain ⟨hanswer, hprepared⟩ := agree_prepare carries content root _ _ hR
  rw [run_analyzeWith htree, run_analyzeWith htree]
  rcases hs : (prepare importer w content current root).run (begun w root s) with ⟨result, s'⟩
  rcases ht : (prepare importer w content current root).run (begun w root t) with ⟨result', t'⟩
  rw [hs, ht] at hanswer hprepared
  obtain rfl : result = result' := hanswer
  cases result with
  | error failure => exact ⟨rfl, hprepared⟩
  | ok _ => exact agree_conclude carries hprepared (same s' t' hprepared ht)

end

end ParamLens.Analysis
