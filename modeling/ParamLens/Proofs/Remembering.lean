import ParamLens.Proofs.Coherence
import ParamLens.Proofs.Entering

/-! What an analyzer remembers of modules while it analyses a file. A module comes from memory, by
its name or by its file, or it is analysed anew; what was remembered before stays, and what is added
is what the names mean in the file. -/

namespace ParamLens.Library

/-- A property of stores and sessions that new analyzers have and questions keep, and what it says
of the parameter types that new analyzers know. -/
structure Regime (w : World) (extra : List String) where
  session : Session → Prop
  store : Store → Prop
  types : List String → Prop
  start {s : Store} : store s →
    types (allTypes ⟨Session.start w extra, s⟩).1 ∧
      session (allTypes ⟨Session.start w extra, s⟩).2.session ∧
      store (allTypes ⟨Session.start w extra, s⟩).2.store
  ask {s : State} (path : String) : session s.session → store s.store →
    session (find? w path s).2.session ∧ store (find? w path s).2.store

def Regime.all (w : World) (extra : List String) : Regime w extra where
  session _ := True
  store _ := True
  types _ := True
  start _ := ⟨trivial, trivial, trivial⟩
  ask _ _ _ := ⟨trivial, trivial⟩

/-- The steady stores with the files of a stocked one. -/
def Regime.stocked {w : World} {extra : List String} {base : Store}
    (stocked : Stocked w extra base) : Regime w extra where
  session := Session.Settled w extra base
  store := Steady w base
  types := (· = settledTypes w extra base)
  start h := by
    obtain ⟨htypes, hstate⟩ := yields_allTypes stocked ⟨Session.start w extra, _⟩
      ⟨Session.settled_start w extra base, h⟩
    exact ⟨htypes, hstate.session, hstate.store⟩
  ask path hsession hstore := by
    obtain ⟨-, hstate⟩ := yields_settled stocked path _ ⟨hsession, hstore⟩
    exact ⟨hstate.session, hstate.store⟩

end ParamLens.Library

namespace ParamLens.Analysis

open Syntax Steps Library

/-! ### The import of a module -/

/-- The state with the analysis of a module kept under its name and its file. -/
def keep (s : AnalysisState) (name : String) (file : Path) (a : Analysis) : AnalysisState :=
  { s with
    analyzer := { s.analyzer with
      modules := s.analyzer.modules.insert name a
      files := s.analyzer.files.insert file.text a } }

/-- What the import of a module can do. -/
inductive ImportStep (importer : Importer) (w : World) (name : String) (current : Option Path)
    (s : AnalysisState) : Except Failure Analysis → AnalysisState → Prop
  | known {a : Analysis} : s.analyzer.modules.get? name = some a →
      ImportStep importer w name current s (.ok a) s
  | nameless {fault : NamelessPath} : s.analyzer.modules.get? name = none →
      Imports.moduleFile w s.analyzer.workspace current name = .error fault →
      ImportStep importer w name current s (.error (.namelessPath fault)) s
  | empty {found : Option Path} : s.analyzer.modules.get? name = none →
      Imports.moduleFile w s.analyzer.workspace current name = .ok found →
      found.bind w.read? = none → ImportStep importer w name current s (.ok {}) s
  | again {file : Path} {a : Analysis} : s.analyzer.modules.get? name = none →
      Imports.moduleFile w s.analyzer.workspace current name = .ok (some file) →
      s.analyzer.files.get? file.text = some a →
      ImportStep importer w name current s (.ok a) (keep s name file a)
  | made {file : Path} {content : String} {a : Analysis} {store : Store} :
      s.analyzer.modules.get? name = none →
      Imports.moduleFile w s.analyzer.workspace current name = .ok (some file) →
      w.read? file = some content → (importer file content).run s.store = (.ok a, store) →
      ImportStep importer w name current s (.ok a) (keep { s with store := store } name file a)
  | failed {file : Path} {content : String} {failure : Failure} {store : Store} :
      Imports.moduleFile w s.analyzer.workspace current name = .ok (some file) →
      w.read? file = some content →
      (importer file content).run s.store = (.error failure, store) →
      ImportStep importer w name current s (.error failure) { s with store := store }

theorem run_runImporter (importer : Importer) (file : Path) (content : String)
    (s : AnalysisState) : (runImporter importer file content).run s =
      (((importer file content).run s.store).1,
        { s with store := ((importer file content).run s.store).2 }) := rfl

theorem run_importedModule_of_known {importer : Importer} {w : World} {name : String}
    {current : Option Path} {s : AnalysisState} {a : Analysis}
    (h : s.analyzer.modules.get? name = some a) :
    (importedModule importer w name current).run s = (.ok a, s) := by
  rw [importedModule, run_bind, run_get]
  simp only [h]
  rfl

theorem importStep (importer : Importer) (w : World) (name : String) (current : Option Path)
    (s : AnalysisState) :
    ImportStep importer w name current s ((importedModule importer w name current).run s).1
      ((importedModule importer w name current).run s).2 := by
  rw [importedModule, run_bind, run_get]
  dsimp only
  cases hknown : s.analyzer.modules.get? name with
  | some a => exact .known hknown
  | none =>
    rcases hfile : Imports.moduleFile w s.analyzer.workspace current name with fault | _ | file
    · exact .nameless hknown hfile
    · exact .empty hknown hfile rfl
    · dsimp only
      cases hagain : s.analyzer.files.get? file.text with
      | some a => exact .again hknown hfile hagain
      | none =>
        cases hread : w.read? file with
        | none => exact .empty hknown hfile hread
        | some content =>
          dsimp only
          rw [run_bind, run_runImporter]
          rcases hrun : (importer file content).run s.store with ⟨failure | a, store⟩
          · exact .failed hfile hread hrun
          · exact .made hknown hfile hread hrun

/-! ### Memory during the analysis of a file -/

/-- The workspace and the origins of installed modules are straight paths. -/
structure Sited (w : World) (workspace : Option Path) : Prop where
  workspace : ∀ root ∈ workspace, root.Straight
  origins : ∀ name origin, w.moduleOrigins.get? name = some origin → origin.Straight

/-- The analysis is one of the file that a module name means in the current file; without a file
that can be read it is empty. -/
def Meant (w : World) (workspace current : Option Path) (good : Path → Analysis → Prop)
    (name : String) (a : Analysis) : Prop :=
  (∃ file, Imports.moduleFile w workspace current name = .ok (some file) ∧ good file a) ∨
    a = {} ∧ ∃ found, Imports.moduleFile w workspace current name = .ok found ∧
      found.bind w.read? = none

/-- The analysis is the one in the table, and for a name that is not there the one that is meant. -/
def Recalled (w : World) (workspace current : Option Path) (good : Path → Analysis → Prop)
    (old : Table Analysis) (name : String) (a : Analysis) : Prop :=
  match old.get? name with
  | some known => a = known
  | none => Meant w workspace current good name a

/-- What was remembered at the start of a file's analysis is there, under names that were new the
analyses that are meant in the file, and under files analyses of these files. -/
structure Recalls {w : World} {extra : List String} (b : Regime w extra)
    (workspace current : Option Path) (good : Path → Analysis → Prop) (old : Table Analysis)
    (s : AnalysisState) : Prop where
  site : s.analyzer.workspace = workspace
  libraries : s.analyzer.extra = extra
  types : b.types s.analyzer.types
  session : b.session s.analyzer.session
  store : b.store s.store
  kept {name : String} {a : Analysis} : old.get? name = some a →
    s.analyzer.modules.get? name = some a
  added {name : String} {a : Analysis} : old.get? name = none →
    s.analyzer.modules.get? name = some a →
    ∃ file, Imports.moduleFile w workspace current name = .ok (some file) ∧ good file a
  files {file : Path} {a : Analysis} : file.Plain →
    s.analyzer.files.get? file.text = some a → good file a

/-- A new analyzer on a store. -/
def fresh (w : World) (workspace : Option Path) (extra : List String) (store : Store) :
    AnalysisState :=
  ⟨(Analyzer.start w workspace extra store).1, (Analyzer.start w workspace extra store).2⟩

/-- The importer gives a good analysis of the file or fails as allowed. The regime stays with the
store. -/
def Serves {w : World} {extra : List String} (b : Regime w extra) (good : Path → Analysis → Prop)
    (F : Failure → Prop) (importer : Importer) (file : Path) (content : String) : Prop :=
  Triple b.store (importer file content) (fun a store => good file a ∧ b.store store)
    fun failure store => F failure ∧ b.store store

section

variable {w : World} {extra : List String} {b : Regime w extra} {workspace current : Option Path}
  {good : Path → Analysis → Prop} {old : Table Analysis} {s : AnalysisState} {importer : Importer}
  {name : String} {F : Failure → Prop}

theorem Sited.straight (sited : Sited w workspace) (hcurrent : ∀ path ∈ current, path.Straight)
    {file : Path} (hfile : Imports.moduleFile w workspace current name = .ok (some file)) :
    file.Straight :=
  Imports.straight_of_moduleFile sited.workspace hcurrent sited.origins hfile

theorem recalls_fresh {store : Store} (h : b.store store) :
    Recalls b workspace current good ∅ (fresh w workspace extra store) := by
  obtain ⟨htypes, hsession, hstore⟩ := b.start h
  refine ⟨rfl, rfl, htypes, hsession, hstore, ?_, ?_, ?_⟩
  · intro name a hget
    cases hget
  · intro name a _ hget
    cases hget
  · intro file a _ hget
    cases hget

theorem Recalls.keep (h : Recalls b workspace current good old s) {file : Path} {a : Analysis}
    (hnew : s.analyzer.modules.get? name = none)
    (hfile : Imports.moduleFile w workspace current name = .ok (some file)) (plain : file.Plain)
    (ha : good file a) : Recalls b workspace current good old (Analysis.keep s name file a) := by
  refine ⟨h.site, h.libraries, h.types, h.session, h.store, ?_, ?_, ?_⟩
  · intro other known hold
    have hkept := h.kept hold
    show (s.analyzer.modules.insert name a).get? other = some known
    rw [Table.get?_insert, if_neg]
    · exact hkept
    · rintro rfl
      rw [hnew] at hkept
      cases hkept
  · intro other found hold hget
    rw [Analysis.keep, Table.get?_insert] at hget
    split at hget
    · next heq =>
      obtain rfl := Option.some.inj hget
      exact ⟨file, heq ▸ hfile, ha⟩
    · exact h.added hold hget
  · intro other found hother hget
    rw [Analysis.keep, Table.get?_insert] at hget
    split at hget
    · next heq =>
      obtain rfl := Option.some.inj hget
      rwa [hother.eq_of_text_eq plain heq]
    · exact h.files hother hget

theorem Recalls.with_store (h : Recalls b workspace current good old s) {store : Store}
    (hstore : b.store store) : Recalls b workspace current good old { s with store := store } :=
  ⟨h.site, h.libraries, h.types, h.session, hstore, h.kept, h.added, h.files⟩

theorem Recalls.recalled (h : Recalls b workspace current good old s) {a : Analysis}
    (hget : s.analyzer.modules.get? name = some a) :
    Recalled w workspace current good old name a := by
  cases hold : old.get? name with
  | some known =>
    have hkept := h.kept hold
    rw [hget] at hkept
    simp only [Recalled, hold]
    exact Option.some.inj hkept
  | none =>
    simp only [Recalled, hold]
    exact .inl (h.added hold hget)

theorem Recalls.recalled_of_meant (h : Recalls b workspace current good old s)
    (hnew : s.analyzer.modules.get? name = none) {a : Analysis}
    (ha : Meant w workspace current good name a) :
    Recalled w workspace current good old name a := by
  cases hold : old.get? name with
  | some known =>
    rw [h.kept hold] at hnew
    cases hnew
  | none => simpa only [Recalled, hold] using ha

/-- The import of a module gives what was remembered or what is meant, if the importer gives good
analyses of the file. -/
theorem triple_importedModule (latest : Analysis)
    (plain : ∀ file, Imports.moduleFile w workspace current name = .ok (some file) → file.Plain)
    (named : ∀ fault, Imports.moduleFile w workspace current name = .error fault →
      F (.namelessPath fault))
    (serves : ∀ file content, Imports.moduleFile w workspace current name = .ok (some file) →
      w.read? file = some content → Serves b good F importer file content) :
    Triple (Stands (Recalls b workspace current good old) latest)
      (importedModule importer w name current)
      (fun a s => Recalled w workspace current good old name a ∧
        Stands (Recalls b workspace current good old) latest s)
      fun failure s => F failure ∧ Recalls b workspace current good old s := by
  rintro s ⟨hs, hlatest⟩
  have hstep := importStep importer w name current s
  generalize (importedModule importer w name current).run s = outcome at hstep ⊢
  obtain ⟨result, next⟩ := outcome
  cases hstep with
  | known hget => exact ⟨hs.recalled hget, hs, hlatest⟩
  | nameless hnew hfile =>
    rw [hs.site] at hfile
    exact ⟨named _ hfile, hs⟩
  | empty hnew hfile hread =>
    rw [hs.site] at hfile
    exact ⟨hs.recalled_of_meant hnew (.inr ⟨rfl, _, hfile, hread⟩), hs, hlatest⟩
  | again hnew hfile hget =>
    rw [hs.site] at hfile
    have ha := hs.files (plain _ hfile) hget
    exact ⟨hs.recalled_of_meant hnew (.inl ⟨_, hfile, ha⟩), hs.keep hnew hfile (plain _ hfile) ha,
      hlatest⟩
  | made hnew hfile hread hrun =>
    rw [hs.site] at hfile
    obtain ⟨ha, hstore⟩ := (serves _ _ hfile hread).of_ok hs.store hrun
    exact ⟨hs.recalled_of_meant hnew (.inl ⟨_, hfile, ha⟩),
      (hs.with_store hstore).keep hnew hfile (plain _ hfile) ha, hlatest⟩
  | failed hfile hread hrun =>
    rw [hs.site] at hfile
    have hspec := serves _ _ hfile hread s.store hs.store
    rw [hrun] at hspec
    exact ⟨hspec.1, hs.with_store hspec.2⟩

/-- The analysis of a file keeps to what it remembers, if the importer gives good analyses of the
files that the classes ask for. -/
theorem supports_recalls {root : Node} (sited : Sited w workspace)
    (hcurrent : ∀ path ∈ current, path.Straight)
    (named : ∀ name full, BaseName w root name →
      (Imports.ofTree w.finder root).get? name = some full → full ≠ "" → ∀ fault,
      Imports.moduleFile w workspace current (moduleOf full) = .error fault →
      F (.namelessPath fault))
    (serves : ∀ name full, BaseName w root name →
      (Imports.ofTree w.finder root).get? name = some full → full ≠ "" → ∀ file content,
      Imports.moduleFile w workspace current (moduleOf full) = .ok (some file) →
      w.read? file = some content → Serves b good F importer file content) :
    Supports (Recalls b workspace current good old) importer w current root
      (Recalled w workspace current good old) b.types
      fun failure s => F failure ∧ Recalls b workspace current good old s where
  known h := h.types
  change latest external h :=
    ⟨h.site, h.libraries, h.types, h.session, h.store, h.kept, h.added, h.files⟩
  ask path h := by
    obtain ⟨hsession, hstore⟩ := b.ask (s := ⟨_, _⟩) path h.session h.store
    exact ⟨h.site, h.libraries, h.types, hsession, hstore, h.kept, h.added, h.files⟩
  module latest hname hbound hfull :=
    triple_importedModule latest (fun _ hfile => (sited.straight hcurrent hfile).plain)
      (named _ _ hname hbound hfull) (serves _ _ hname hbound hfull)

end

end ParamLens.Analysis
