import ParamLens.Proofs.Remembering

/-! Importers of which one does the same as another wherever that one is not cut short. The analysis
of a file keeps that relation. So a module whose analysis is not cut short with some fuel has the
same analysis with more, and no guard against circles plays a part in it. -/

namespace ParamLens.Steps

variable {ε σ α β : Type} {cut : ε}

/-- Where the first step is not cut short by the failure, the second one does the same. -/
def Refines (cut : ε) (x y : ExceptT ε (StateM σ) α) : Prop :=
  ∀ s result next, result ≠ .error cut → x.run s = (result, next) → y.run s = (result, next)

namespace Refines

theorem refl (x : ExceptT ε (StateM σ) α) : Refines cut x x := fun _ _ _ _ h => h

theorem bind {x y : ExceptT ε (StateM σ) α} {f g : α → ExceptT ε (StateM σ) β}
    (hx : Refines cut x y) (hf : ∀ a, Refines cut (f a) (g a)) :
    Refines cut (x >>= f) (y >>= g) := by
  intro s b last hb h
  rw [run_bind] at h ⊢
  rcases hrun : x.run s with ⟨failure | a, next⟩
  · rw [hrun] at h
    obtain ⟨rfl, rfl⟩ := Prod.mk.inj h
    rw [hx s (.error failure) next (fun heq => hb (Except.error.inj heq ▸ rfl)) hrun]
  · rw [hrun] at h
    rw [hx s (.ok a) next nofun hrun]
    exact hf a next b last hb h

theorem anyM {f g : α → ExceptT ε (StateM σ) Bool} (l : List α)
    (h : ∀ a ∈ l, Refines cut (f a) (g a)) : Refines cut (l.anyM f) (l.anyM g) := by
  induction l with
  | nil => exact refl _
  | cons a rest ih =>
    rw [List.anyM, List.anyM]
    refine (h a List.mem_cons_self).bind fun found => ?_
    cases found with
    | true => exact refl _
    | false => exact ih fun a ha => h a (List.mem_cons_of_mem _ ha)

theorem foldlM {f g : β → α → ExceptT ε (StateM σ) β} (l : List α)
    (h : ∀ b, ∀ a ∈ l, Refines cut (f b a) (g b a)) (b : β) :
    Refines cut (l.foldlM f b) (l.foldlM g b) := by
  induction l generalizing b with
  | nil => exact refl _
  | cons a rest ih =>
    rw [List.foldlM_cons, List.foldlM_cons]
    exact (h b a List.mem_cons_self).bind fun b =>
      ih (fun b a ha => h b a (List.mem_cons_of_mem _ ha)) b

theorem forIn {f g : α → β → ExceptT ε (StateM σ) (ForInStep β)} (l : List α)
    (h : ∀ b, ∀ a ∈ l, Refines cut (f a b) (g a b)) (b : β) :
    Refines cut (forIn l b f) (forIn l b g) := by
  induction l generalizing b with
  | nil => exact refl _
  | cons a rest ih =>
    rw [List.forIn_cons, List.forIn_cons]
    refine (h b a List.mem_cons_self).bind fun step => ?_
    cases step with
    | done b => exact refl _
    | yield b => exact ih (fun b a ha => h b a (List.mem_cons_of_mem _ ha)) b

end Refines

end ParamLens.Steps

namespace ParamLens.Analysis

open Syntax Steps Library

/-! ### One file -/

section

variable {importer importer' : Importer} {w : World} {current : Option Path}
  (refines : ∀ file content, Refines .importCycle (importer file content) (importer' file content))

include refines

theorem refines_runImporter (file : Path) (content : String) :
    Refines .importCycle (runImporter importer file content)
      (runImporter importer' file content) := by
  intro s result next hresult h
  rw [run_runImporter] at h ⊢
  obtain ⟨hanswer, rfl⟩ := Prod.mk.inj h
  rw [refines file content s.store result _ hresult (Prod.ext hanswer rfl)]

theorem refines_importedModule (name : String) :
    Refines .importCycle (importedModule importer w name current)
      (importedModule importer' w name current) := by
  refine (Refines.refl _).bind fun s => ?_
  dsimp only
  split
  · exact Refines.refl _
  · split
    · exact Refines.refl _
    · exact Refines.refl _
    · split
      · exact Refines.refl _
      · split
        · exact Refines.refl _
        · exact (refines_runImporter refines _ _).bind fun a => Refines.refl _

theorem refines_importedClass (className bound : String) :
    Refines .importCycle (importedClass importer w className bound current)
      (importedClass importer' w className bound current) := by
  refine (Refines.refl _).bind fun s => ?_
  split
  · exact Refines.refl _
  · exact (refines_importedModule refines _).bind fun a => Refines.refl _

theorem refines_isParameterizedBase (imports : Imports) (classes : Classes) (base : Node) :
    Refines .importCycle (isParameterizedBase (outside importer w current) imports classes base)
      (isParameterizedBase (outside importer' w current) imports classes base) := by
  rw [isParameterizedBase, isParameterizedBase]
  split
  · dsimp only
    split
    · exact Refines.refl _
    · split
      · exact Refines.refl _
      · exact (refines_importedClass refines _ _).bind fun c => Refines.refl _
  · exact Refines.refl _
  · exact Refines.refl _

theorem refines_baseClass? (imports : Imports) (classes : Classes) (base : Node) :
    Refines .importCycle (baseClass? (outside importer w current) imports classes base)
      (baseClass? (outside importer' w current) imports classes base) := by
  rw [baseClass?, baseClass?]
  split
  · dsimp only
    split
    · exact Refines.refl _
    · split
      · exact Refines.refl _
      · exact refines_importedClass refines _ _
  · exact Refines.refl _
  · exact Refines.refl _
  · exact Refines.refl _

theorem refines_takeClass (content : String) (n : Node) :
    Refines .importCycle (takeClass importer w content current n)
      (takeClass importer' w content current n) := by
  refine (Refines.anyM _ fun base _ => ?_).bind fun passes => ?_
  · exact (Refines.refl _).bind fun s => refines_isParameterizedBase refines _ _ base
  · split
    · refine (Refines.refl _).bind fun s => ?_
      refine (Refines.foldlM _ (fun found base _ => ?_) ∅).bind fun inherited => Refines.refl _
      exact (refines_baseClass? refines _ _ base).bind fun c => Refines.refl _
    · exact Refines.refl _

theorem refines_analyzeWith (content : String) :
    Refines .importCycle (analyzeWith importer w content current)
      (analyzeWith importer' w content current) := by
  rw [analyzeWith, analyzeWith]
  split
  · exact Refines.refl _
  · refine (Refines.refl _).bind fun _ => ?_
    refine (Refines.forIn _ (fun _ n _ => ?_) PUnit.unit).bind fun _ => Refines.refl _
    exact (refines_takeClass refines content n).bind fun _ => Refines.refl _

end

/-! ### Modules -/

section

variable {w : World} {workspace : Option Path} {extra : List String}

/-- The analysis of a module by a new analyzer, with the given importer for the modules that it
imports itself. -/
def byNew (w : World) (workspace : Option Path) (extra : List String) (importer : Importer) :
    Importer := fun file content store =>
  let outcome := (analyzeWith importer w content (some file)).run (fresh w workspace extra store)
  (outcome.1, outcome.2.store)

theorem run_byNew (importer : Importer) (file : Path) (content : String) (store : Store) :
    (byNew w workspace extra importer file content).run store =
      (((analyzeWith importer w content (some file)).run (fresh w workspace extra store)).1,
        ((analyzeWith importer w content (some file)).run
          (fresh w workspace extra store)).2.store) := rfl

theorem importModule_succ (fuel : Nat) (around : List Path) (file : Path) (content : String) :
    importModule w workspace extra (fuel + 1) around file content =
      if around.contains file then throw .importCycle
      else byNew w workspace extra (importModule w workspace extra fuel (file :: around)) file
        content := rfl

theorem refines_byNew {importer importer' : Importer}
    (refines : ∀ file content, Refines .importCycle (importer file content)
      (importer' file content))
    (file : Path) (content : String) :
    Refines .importCycle (byNew w workspace extra importer file content)
      (byNew w workspace extra importer' file content) := by
  intro store result next hresult h
  rw [run_byNew] at h ⊢
  obtain ⟨hanswer, rfl⟩ := Prod.mk.inj h
  rw [refines_analyzeWith refines content (fresh w workspace extra store) result _ hresult
    (Prod.ext hanswer rfl)]

/-- More fuel, and fewer modules around, keep an analysis that is not cut short. -/
theorem refines_importModule {fuel more : Nat} {around fewer : List Path} (hfuel : fuel ≤ more)
    (hsub : fewer ⊆ around) (file : Path) (content : String) :
    Refines .importCycle (importModule w workspace extra fuel around file content)
      (importModule w workspace extra more fewer file content) := by
  induction fuel generalizing more around fewer file content with
  | zero =>
    intro store result next hresult h
    exact absurd (Prod.mk.inj h).1.symm hresult
  | succ fuel ih =>
    obtain ⟨more, rfl⟩ : ∃ m, more = m + 1 := ⟨more - 1, by omega⟩
    rw [importModule_succ, importModule_succ]
    by_cases haround : around.contains file = true
    · rw [if_pos haround]
      intro store result next hresult h
      exact absurd (Prod.mk.inj h).1.symm hresult
    · have hfewer : ¬ fewer.contains file = true := by
        rw [List.contains_iff_mem] at haround ⊢
        exact fun hmem => haround (hsub hmem)
      rw [if_neg haround, if_neg hfewer]
      refine refines_byNew (fun file' content' => ?_) file content
      exact ih (by omega) (List.cons_subset_cons file hsub) file' content'

theorem length_files_le_importDepth (w : World) : w.files.files.length ≤ importDepth w :=
  calc w.files.files.length ≤ (w.files.files.length + 1) * 1 := by omega
    _ ≤ importDepth w := Nat.mul_le_mul_left _ (by omega)

theorem run_analyzeFile (w : World) (content : String) (current : Option Path) (s : AnalysisState) :
    (analyzeFile w content current).run s =
      (analyzeWith (importModule w s.analyzer.workspace s.analyzer.extra (importDepth w) []) w
        content current).run s := by
  rw [analyzeFile, run_bind, run_get]
  rfl

theorem run_analyzeFile_of_importModule {file : Path} {content : String} {store next : Store}
    {a : Analysis} (h : (importModule w workspace extra (importDepth w) [] file content).run store =
      (.ok a, next)) :
    ((analyzeFile w content (some file)).run (fresh w workspace extra store)).1 = .ok a := by
  obtain ⟨depth, hdepth⟩ : ∃ depth, importDepth w = depth + 1 :=
    ⟨(w.files.files.length + 1) * (w.moduleOrigins.size + 2) + w.files.files.length, rfl⟩
  -- The new analyzer has more fuel for the modules of the file, and none around it.
  have hmore : ∀ file' content', Refines .importCycle
      (importModule w workspace extra depth [file] file' content')
      (importModule w workspace extra (importDepth w) [] file' content') := fun file' content' =>
    refines_importModule (by omega) (List.nil_subset _) file' content'
  rw [hdepth, importModule_succ, if_neg (by simp)] at h
  have halone := refines_byNew hmore file content store (.ok a) next nofun h
  rw [run_byNew] at halone
  rw [run_analyzeFile]
  exact (Prod.mk.inj halone).1

/-- The analysis of modules within each other to a depth, whatever modules they are part of. -/
def nested (w : World) (workspace : Option Path) (extra : List String) : Nat → Importer
  | 0 => fun _ _ => throw .importCycle
  | depth + 1 => byNew w workspace extra (nested w workspace extra depth)

theorem refines_nested (fuel : Nat) (around : List Path) (file : Path) (content : String) :
    Refines .importCycle (importModule w workspace extra fuel around file content)
      (nested w workspace extra fuel file content) := by
  induction fuel generalizing around file content with
  | zero =>
    intro store result next hresult h
    exact absurd (Prod.mk.inj h).1.symm hresult
  | succ fuel ih =>
    rw [importModule_succ]
    split
    · intro store result next hresult h
      exact absurd (Prod.mk.inj h).1.symm hresult
    · exact refines_byNew (ih (file :: around)) file content

end

end ParamLens.Analysis
