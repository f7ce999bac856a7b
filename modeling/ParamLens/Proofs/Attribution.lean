import ParamLens.Proofs.Independence
import ParamLens.Proofs.KnownTypes
import ParamLens.Proofs.Sites
import ParamLens.Proofs.Verdicts

/-! Assignments to attributes of plain names. The check does not look at what the name is bound to:
the assignment is attributed to the first class in the text of the scope that has a parameter of the
attribute's name, or else to the first class of a library that has one. It is reported exactly if
that parameter does not take the value, also where the name is bound to an instance of a class
without parameters. -/

namespace ParamLens.Syntax.Finder

/-- The classes of a tree in the order of the text. -/
def classesInText (f : Finder) (root : Node) : List Node := root.walk.filter (f.finds .classes)

end ParamLens.Syntax.Finder

namespace ParamLens.Check

open Syntax Steps

/-! ### Holders -/

/-- The class of the node is registered under the key, with a parameter of the name. -/
def HasParameter (k : Known) (n : Node) (name key : String) : Prop :=
  ∃ className c, n.className? = some className ∧ Classes.key className n.row = key ∧
    k.classes.get? key = some c ∧ c.parameters.contains name = true

/-- The class to which an assignment to an attribute of a plain name is attributed: the first class
in the text of the scope that is registered with a parameter of the name, or else the first class of
a library that has one. -/
inductive Holder (k : Known) (ancestors : List Node) (name : String) : String → Prop
  | inScope {scope n : Node} {before after : List Node} {key : String} :
      scope? ancestors = some scope → k.finder.classesInText scope = before ++ n :: after →
      HasParameter k n name key → (∀ m ∈ before, ∀ other, ¬ HasParameter k m name other) →
      Holder k ancestors name key
  | inLibrary {path : String} {c : ParamClass} {before after : List (String × Option ParamClass)} :
      (∀ scope ∈ scope? ancestors, ∀ n ∈ k.finder.classesInText scope, ∀ key,
        ¬ HasParameter k n name key) →
      k.external.entries = before ++ (path, some c) :: after → c.parameters.contains name = true →
      (∀ other c', (other, some c') ∈ before → c'.parameters.contains name = false) → path ≠ "" →
      Holder k ancestors name path

section

variable {k : Known} {ancestors : List Node} {n : Node} {name key : String}

theorem HasParameter.finds (h : HasParameter k n name key) : ∃ c, Finds k key c := by
  obtain ⟨className, c, -, rfl, hget, -⟩ := h
  exact ⟨c, .inFile hget⟩

theorem Holder.isClass (h : Holder k ancestors name key) : k.isClass key = true := by
  cases h with
  | inScope _ _ hhasParameter _ =>
    obtain ⟨c, hfinds⟩ := hhasParameter.finds
    exact hfinds.isClass
  | @inLibrary _ c before after _ hentries _ _ _ =>
    have hget : k.external.get? key = some (some c) :=
      Table.get?_of_mem_entries (hentries ▸ List.mem_append_right _ List.mem_cons_self)
    simp [Known.isClass, Known.external?, hget]

end

/-! ### The check of one assignment -/

section

variable {σ : Type} {k : Known} {ask : AskClass σ} {place : Node.Located}
  {target object value : Node} {name : String}

end

end ParamLens.Check

namespace ParamLens.Analysis

open Syntax Steps Check

theorem knownOf_conclude (w : World) (root : Node) (s : AnalysisState) :
    knownOf w ((conclude w root).run s).2.analyzer = knownOf w s.analyzer := by
  have hask (path : String) : Agree
      (fun t t' => t = t' ∧ knownOf w t.analyzer = knownOf w s.analyzer)
      (onLibraries (Library.find? w path)) (onLibraries (Library.find? w path)) :=
    Agree.same_iff.mpr fun t ht => ht
  have hcheck := Check.agree_checkFile (Check.SameReadings.refl root (knownOf w s.analyzer)) hask
  rw [run_conclude]
  exact Agree.same_iff.mp hcheck s rfl

/-- What an analysis comes to stays with the analyzer, and what it reports are the findings of the
checks, with what is known at its end. -/
theorem exists_diagnostics_eq {w : World} {content : String} {current : Option Path}
    {s next : AnalysisState} {a : Analysis} {root : Node}
    (h : (analyzeFile w content current).run s = (.ok a, next))
    (htree : w.parse? content = some root) :
    next.analyzer.latest = a ∧ ∃ prepared,
      a.diagnostics = (Check.checkFile (knownOf w next.analyzer)
        (fun path => onLibraries (Library.find? w path)) root prepared).1 := by
  rw [run_analyzeFile, run_analyzeWith htree] at h
  split at h
  · next prepared _ =>
    have hknown := knownOf_conclude w root prepared
    rw [h] at hknown
    dsimp only at hknown
    rw [run_conclude, run_bind, run_lift] at h
    obtain ⟨hanswer, hnext⟩ := Prod.mk.inj h
    obtain rfl := Except.ok.inj hanswer
    exact ⟨by rw [← hnext], prepared, by rw [hknown]⟩
  · cases h

end ParamLens.Analysis
