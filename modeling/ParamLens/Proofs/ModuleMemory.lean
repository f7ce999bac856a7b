import ParamLens.Proofs.Nesting

/-! The modules that an analyzer remembers from call to call. A module is remembered under the name
by which it was first imported. So the import of a name gives the analysis of the file that the name
meant in the file of that first import, which for an absolute name is the file that it means
everywhere. -/

namespace ParamLens.Analysis

open Syntax Steps Library

/-! ### Calls -/

/-- A call of an analyzer that can import modules. -/
inductive Call where
  /-- The analysis of a text. -/
  | file (content : String) (current : Option Path)
  /-- The import of a module by its name. -/
  | module (name : String) (current : Option Path)
  /-- The import of a class by the name that an import of the last file binds. -/
  | imported (className bound : String) (current : Option Path)

namespace Call

/-- The file in which the names of a call are meant. -/
def current : Call → Option Path
  | file _ current => current
  | module _ current => current
  | imported _ _ current => current

def next (w : World) (s : AnalysisState) : Call → AnalysisState
  | file content current => ((analyzeFile w content current).run s).2
  | module name current => ((importedModule (importer w s.analyzer) w name current).run s).2
  | imported className bound current =>
    ((importedClass (importer w s.analyzer) w className bound current).run s).2

end Call

def afterCalls (w : World) (calls : List Call) (s : AnalysisState) : AnalysisState :=
  calls.foldl (Call.next w) s

/-- The file in which a module's name was meant when the module came into memory, if it did. -/
def firstMeant (w : World) (name : String) : List Call → AnalysisState → Option (Option Path)
  | [], _ => none
  | c :: rest, s =>
    if (c.next w s).analyzer.modules.contains name then some c.current
    else firstMeant w name rest (c.next w s)

/-- The analysis is what a new analyzer finds in the file, on a store with the property. -/
def Alone {w : World} {extra : List String} (b : Regime w extra) (workspace : Option Path)
    (file : Path) (a : Analysis) : Prop :=
  ∃ content store, w.read? file = some content ∧ b.store store ∧
    ((analyzeFile w content (some file)).run (fresh w workspace extra store)).1 = .ok a

section

variable {w : World} {extra : List String} {b : Regime w extra} {workspace : Option Path}
  {s : AnalysisState} {F : Failure → Prop}

/-! ### One call -/

/-- Without circles of imports a module's analysis is what a new analyzer finds in its file, unless
the file leads nowhere. -/
theorem serves_importModule_alone (sited : Sited w workspace)
    (acyclic : Acyclic (Imported anyName w workspace)) {file : Path} {content : String}
    (hfile : file.Straight) (hread : w.read? file = some content)
    (named : LeadsNowhere anyName w workspace file → ∀ fault, F (.namelessPath fault)) :
    Serves b (Alone b workspace) F (importModule w workspace extra (importDepth w) []) file
      content := by
  have hmodule : Serves b (fun _ _ => True) F
      (importModule w workspace extra (importDepth w) []) file content :=
    serves_importModule_nil b (fun _ _ => True) (fun _ _ _ _ _ => trivial) sited hfile hread
      (fun f _ => acyclic f) named (length_files_le_importDepth w)
  intro store hstore
  have hspec := hmodule store hstore
  rcases hrun : (importModule w workspace extra (importDepth w) [] file content).run store
    with ⟨failure | a, next⟩
  · rwa [hrun] at hspec
  · rw [hrun] at hspec
    exact ⟨⟨content, store, hread, hstore, run_analyzeFile_of_importModule hrun⟩, hspec.2⟩

/-- Between calls: what is remembered under files are the analyses of these files. -/
def Rests (b : Regime w extra) (workspace : Option Path) (s : AnalysisState) : Prop :=
  Recalls b workspace none (Alone b workspace) s.analyzer.modules s

theorem Rests.recalls (h : Rests b workspace s) (current : Option Path) :
    Recalls b workspace current (Alone b workspace) s.analyzer.modules s := by
  refine ⟨h.site, h.libraries, h.types, h.session, h.store, h.kept, fun hold hget => ?_, h.files⟩
  rw [hold] at hget
  cases hget

theorem Recalls.rests {current : Option Path} {old : Table Analysis}
    (h : Recalls b workspace current (Alone b workspace) old s) : Rests b workspace s := by
  refine ⟨h.site, h.libraries, h.types, h.session, h.store, fun hget => hget, fun hold hget => ?_,
    h.files⟩
  rw [hold] at hget
  cases hget

/-- The name leads nowhere in the file: the module would be at a path without a last component, or
its file leads nowhere. -/
def NameLeadsNowhere (w : World) (workspace current : Option Path) (name : String) : Prop :=
  (∃ fault, Imports.moduleFile w workspace current name = .error fault) ∨
    ∃ file, Imports.moduleFile w workspace current name = .ok (some file) ∧
      LeadsNowhere anyName w workspace file

section

variable (sited : Sited w workspace) (acyclic : Acyclic (Imported anyName w workspace))
  {current : Option Path} (hcurrent : ∀ path ∈ current, path.Straight)

include sited acyclic hcurrent

/-- The import of a module gives what is remembered, or else the analysis of the file that the name
means, if it does not lead nowhere. -/
theorem triple_importedModule_alone (old : Table Analysis) (latest : Analysis) (name : String) :
    Triple (Stands (Recalls b workspace current (Alone b workspace) old) latest)
      (importedModule (importModule w workspace extra (importDepth w) []) w name current)
      (fun a s => Recalled w workspace current (Alone b workspace) old name a ∧
        Stands (Recalls b workspace current (Alone b workspace) old) latest s)
      fun failure s => (NameLeadsNowhere w workspace current name ∧
        ∃ fault, failure = .namelessPath fault) ∧
          Recalls b workspace current (Alone b workspace) old s :=
  triple_importedModule (F := fun failure => NameLeadsNowhere w workspace current name ∧
      ∃ fault, failure = .namelessPath fault) latest
    (fun _ hfile => (sited.straight hcurrent hfile).plain)
    (fun fault hfault => ⟨.inl ⟨fault, hfault⟩, fault, rfl⟩)
    fun file _ hfile hread =>
      serves_importModule_alone sited acyclic (sited.straight hcurrent hfile) hread
        fun hleads fault => ⟨.inr ⟨file, hfile, hleads⟩, fault, rfl⟩

theorem triple_importedClass_alone (old : Table Analysis) (latest : Analysis)
    (className bound : String) :
    Triple (Stands (Recalls b workspace current (Alone b workspace) old) latest)
      (importedClass (importModule w workspace extra (importDepth w) []) w className bound current)
      (fun _ => Recalls b workspace current (Alone b workspace) old)
      fun _ => Recalls b workspace current (Alone b workspace) old := by
  refine Triple.get_bind fun s _ => ?_
  split
  · exact Triple.pure fun s hs => hs.1
  · refine Triple.bind ((triple_importedModule_alone sited acyclic hcurrent old latest _).failing
      fun _ _ h => h.2) fun a => Triple.pure fun s hs => hs.2.1

end

theorem Call.recalls_next (sited : Sited w workspace)
    (acyclic : Acyclic (Imported anyName w workspace)) (c : Call)
    (hcurrent : ∀ path ∈ c.current, path.Straight) (h : Rests b workspace s) :
    Recalls b workspace c.current (Alone b workspace) s.analyzer.modules (c.next w s) := by
  cases c with
  | file content current =>
    simp only [Call.current, Call.next] at hcurrent ⊢
    have serves : ∀ g text, Asks anyName w workspace current content g → w.read? g = some text →
        Serves b (Alone b workspace) (fun _ => True)
          (importModule w workspace extra (importDepth w) []) g text :=
      fun g text hasks hread => serves_importModule_alone sited acyclic
        (hasks.straight sited hcurrent) hread fun _ _ => trivial
    rw [run_analyzeFile, h.site, h.libraries]
    exact (triple_analyzeWith_recalls sited hcurrent (fun _ _ => trivial) serves).final
      (fun _ _ hs => hs.2) (fun _ _ hs => hs.2) (h.recalls current)
  | module name current =>
    simp only [Call.current, Call.next] at hcurrent ⊢
    rw [importer, h.site, h.libraries]
    exact (triple_importedModule_alone sited acyclic hcurrent s.analyzer.modules s.analyzer.latest
      name).final (fun _ _ hs => hs.2.1) (fun _ _ hs => hs.2) ⟨h.recalls current, rfl⟩
  | imported className bound current =>
    simp only [Call.current, Call.next] at hcurrent ⊢
    rw [importer, h.site, h.libraries]
    exact (triple_importedClass_alone sited acyclic hcurrent s.analyzer.modules
      s.analyzer.latest className bound).final (fun _ _ hs => hs) (fun _ _ hs => hs)
      ⟨h.recalls current, rfl⟩

/-! ### Calls one after another -/

/-- What is remembered under a name is what the name meant in the file that `since` gives. -/
structure Noted (b : Regime w extra) (workspace : Option Path)
    (since : String → Option (Option Path)) (s : AnalysisState) : Prop where
  rests : Rests b workspace s
  meant {name : String} {a : Analysis} : s.analyzer.modules.get? name = some a →
    ∃ current, since name = some current ∧ Meant w workspace current (Alone b workspace) name a
  absent {name : String} : s.analyzer.modules.get? name = none → since name = none

theorem noted_fresh {store : Store} (h : b.store store) :
    Noted b workspace (fun _ => none) (fresh w workspace extra store) := by
  have hrecalls : Recalls b workspace none (Alone b workspace) ∅ (fresh w workspace extra store) :=
    recalls_fresh h
  refine ⟨hrecalls.rests, fun hget => ?_, fun _ => rfl⟩
  cases hget

/-- One call: a module that comes into memory is what its name means in the file of the call. -/
theorem Noted.next (sited : Sited w workspace) (acyclic : Acyclic (Imported anyName w workspace))
    {since : String → Option (Option Path)} (h : Noted b workspace since s) (c : Call)
    (hcurrent : ∀ path ∈ c.current, path.Straight) :
    Noted b workspace (fun name => (since name).or
      (if (c.next w s).analyzer.modules.contains name then some c.current else none))
      (c.next w s) := by
  have hnext := c.recalls_next sited acyclic hcurrent h.rests
  refine ⟨hnext.rests, fun {name a} hget => ?_, fun {name} hget => ?_⟩
  · cases hold : s.analyzer.modules.get? name with
    | some known =>
      -- The first file counts: a name in memory is never taken anew.
      obtain ⟨current, hsince, hmeant⟩ := h.meant hold
      rw [hnext.kept hold] at hget
      obtain rfl := Option.some.inj hget
      exact ⟨current, by rw [hsince, Option.some_or], hmeant⟩
    | none =>
      refine ⟨c.current, ?_, .inl (hnext.added hold hget)⟩
      rw [h.absent hold, Option.none_or, Table.contains_eq_isSome, hget]
      rfl
  · have hold : s.analyzer.modules.get? name = none := by
      cases hold : s.analyzer.modules.get? name with
      | none => rfl
      | some known =>
        rw [hnext.kept hold] at hget
        cases hget
    rw [h.absent hold, Option.none_or, Table.contains_eq_isSome, hget]
    rfl

theorem Noted.afterCalls (sited : Sited w workspace)
    (acyclic : Acyclic (Imported anyName w workspace)) {since : String → Option (Option Path)}
    (h : Noted b workspace since s) (calls : List Call)
    (hcurrent : ∀ c ∈ calls, ∀ path ∈ c.current, path.Straight) :
    Noted b workspace (fun name => (since name).or (firstMeant w name calls s))
      (afterCalls w calls s) := by
  induction calls generalizing since s with
  | nil =>
    simp only [firstMeant, Option.or_none]
    exact h
  | cons c rest ih =>
    have hnext := h.next sited acyclic c (hcurrent c List.mem_cons_self)
    have hrest := ih hnext fun c hc => hcurrent c (List.mem_cons_of_mem _ hc)
    have hsince (name : String) : (since name).or (firstMeant w name (c :: rest) s) =
        ((since name).or (if (c.next w s).analyzer.modules.contains name then some c.current
          else none)).or (firstMeant w name rest (c.next w s)) := by
      rw [firstMeant, Option.or_assoc]
      split <;> rfl
    simp only [hsince]
    exact hrest

theorem meant_of_absolute {current other : Option Path} {good : Path → Analysis → Prop}
    {name : String} {a : Analysis} (absolute : Text.startsWith name "." = false)
    (h : Meant w workspace current good name a) : Meant w workspace other good name a := by
  rw [Meant, moduleFile_of_absolute absolute current] at h
  rw [Meant, moduleFile_of_absolute absolute other]
  exact h

end

/-- After any calls of a new analyzer, where imports go round in no circle, the import of a module
succeeds with the analysis of the file that the name meant in the file of the call by which the
module came into memory; for a module that is not in memory and for every absolute name that is the
file which the name means now. The analysis is empty if there is no such file or it cannot be read.
The import fails only if the module is not in memory and its name leads nowhere. -/
theorem importedModule_after_calls (w : World) (workspace : Option Path) (extra : List String)
    (b : Regime w extra) (store : Store) (hstore : b.store store) (sited : Sited w workspace)
    (acyclic : Acyclic (Imported anyName w workspace)) (calls : List Call)
    (hcalls : ∀ c ∈ calls, ∀ path ∈ c.current, path.Straight) (name : String)
    (current : Option Path) (hcurrent : ∀ path ∈ current, path.Straight) :
    let start := fresh w workspace extra store
    let s := afterCalls w calls start
    let outcome := (importedModule (importer w s.analyzer) w name current).run s
    (∃ a, outcome.1 = .ok a ∧
      Meant w workspace ((firstMeant w name calls start).getD current) (Alone b workspace) name a ∧
      (Text.startsWith name "." = false →
        Meant w workspace current (Alone b workspace) name a)) ∨
    (∃ fault, outcome.1 = .error (.namelessPath fault)) ∧ firstMeant w name calls start = none ∧
      NameLeadsNowhere w workspace current name := by
  intro start s outcome
  have hnoted : Noted b workspace (fun name => firstMeant w name calls start) s := by
    have h := (noted_fresh hstore).afterCalls sited acyclic calls hcalls
    simpa only [Option.none_or] using h
  cases hold : s.analyzer.modules.get? name with
  | some known =>
    obtain ⟨first, hfirst, hmeant⟩ := hnoted.meant hold
    refine .inl ⟨known, congrArg Prod.fst (run_importedModule_of_known hold), ?_, fun absolute =>
      meant_of_absolute absolute hmeant⟩
    rw [hfirst]
    exact hmeant
  | none =>
    have hspec := triple_importedModule_alone sited acyclic hcurrent s.analyzer.modules
      s.analyzer.latest name s ⟨hnoted.rests.recalls current, rfl⟩
    have hrun : (importedModule (importModule w workspace extra (importDepth w) []) w name
        current).run s = (outcome.1, outcome.2) := by
      rw [← hnoted.rests.site, ← hnoted.rests.libraries]
      rfl
    rw [hrun] at hspec
    rw [hnoted.absent hold]
    cases hresult : outcome.1 with
    | ok a =>
      rw [hresult] at hspec
      have hanswer := hspec.1
      simp only [Recalled, hold] at hanswer
      exact .inl ⟨a, rfl, hanswer, fun _ => hanswer⟩
    | error failure =>
      rw [hresult] at hspec
      obtain ⟨⟨hleads, fault, rfl⟩, -⟩ := hspec
      exact .inr ⟨⟨fault, rfl⟩, rfl, hleads⟩

/-! ### Two packages -/

section

open Sketch

/-- A file with one class that has one parameter. -/
def ownFile (className parameter : String) : Sketch :=
  file [importsModule ["param"], classed className [rootBase] [declares parameter "Integer" []]]

end

/-- Two directories with a module `m` each. -/
def twoPackages : World :=
  .sketched [(["ws", "p", "m.py"], ownFile "M" "x"), (["ws", "q", "m.py"], ownFile "N" "y")]

def besidePath (directory : String) : Path := ⟨true, ["ws", directory, "f.py"]⟩

/-- After an import of `.m` beside the first module, `.m` is the first module beside the second one
too. -/
theorem importedModule_after_first_package :
    let start := fresh twoPackages (some workspacePath) [] {}
    let s := afterCalls twoPackages [.module ".m" (some (besidePath "p"))] start
    ∃ a, ((importedModule (importer twoPackages s.analyzer) twoPackages ".m"
        (some (besidePath "q"))).run s).1 = .ok a ∧
      Meant twoPackages (some workspacePath) (some (besidePath "p"))
        (Alone (Regime.all twoPackages []) (some workspacePath)) ".m" a := by
  have hstraight (directory : String) (h : (besidePath directory).Straight) :
      ∀ path ∈ some (besidePath directory), path.Straight := by
    intro path hpath
    rwa [← Option.some.inj hpath]
  have hfirst : firstMeant twoPackages ".m" [.module ".m" (some (besidePath "p"))]
      (fresh twoPackages (some workspacePath) [] {}) = some (some (besidePath "p")) := by
    decide +kernel
  obtain ⟨a, hrun, hmeant, -⟩ | ⟨-, hnone, -⟩ :=
    importedModule_after_calls twoPackages (some workspacePath) [] (Regime.all twoPackages []) {}
      trivial (sited_of_no_origins rfl) (acyclic_imported (fun _ => 0) (by decide +kernel))
      [.module ".m" (some (besidePath "p"))]
      (fun c hc => by
        rw [List.mem_singleton.mp hc]
        exact hstraight "p" (by decide))
      ".m" (some (besidePath "q")) (hstraight "q" (by decide))
  · rw [hfirst] at hmeant
    exact ⟨a, hrun, hmeant⟩
  · rw [hfirst] at hnone
    cases hnone

/-- The classes of a module that is imported beside a file. -/
def classNamesOf (name directory : String) (s : AnalysisState) : Option (List String) :=
  ((importedModule (importer twoPackages s.analyzer) twoPackages name
    (some (besidePath directory))).run s).1.toOption.map (·.classes.names)

/-- The module `.m` beside the second file is the second one, but after an import beside the first
file the first one is taken for it. -/
theorem importedModule_of_other_package :
    let start := fresh twoPackages (some workspacePath) [] {}
    (Imports.moduleFile twoPackages (some workspacePath) (some (besidePath "q")) ".m").toOption =
        some (some ⟨true, ["ws", "q", "m.py"]⟩) ∧
      classNamesOf ".m" "q" start = some ["N:1"] ∧
      classNamesOf ".m" "q" (afterCalls twoPackages [.module ".m" (some (besidePath "p"))] start) =
        some ["M:1"] := by
  decide +kernel

end ParamLens.Analysis
