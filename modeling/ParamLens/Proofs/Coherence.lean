import ParamLens.Proofs.Analyses
import ParamLens.Proofs.Paths
import ParamLens.Proofs.Stocked

/-! What an analyzer remembers from file to file: answers about libraries, and the analyses of
modules under their names and their files. On a stocked store all that it remembers is what it would
find again, except that a module with a relative name is remembered under that name whatever
directory the name was used in. -/

namespace ParamLens.Analysis

open Steps Library

/-! ### Settings -/

/-- Where an analyzer works: the world, its workspace and libraries, and the store at the start. -/
structure Setting where
  world : World
  workspace : Option Path
  extra : List String
  base : Store

/-- The modules that a file can import are in files with plain paths. -/
def Setting.Reaches (c : Setting) (current : Option Path) : Prop :=
  ∀ name file, Imports.moduleFile c.world c.workspace current name = .ok (some file) → file.Plain

/-- The store is stocked, and files with plain paths import modules from such files. -/
structure Setting.Sound (c : Setting) : Prop where
  stocked : Stocked c.world c.extra c.base
  reaches {current : Option Path} : (∀ file ∈ current, file.Plain) → c.Reaches current

/-- The analysis of a module is the same on every steady store, and leaves the store steady. -/
def Setting.Reliable (c : Setting) (importer : Importer) : Prop :=
  ∀ file content, file.Plain →
    Yields (Steady c.world c.base) (importer file content).run
      ((importer file content).run c.base).1

/-- What the import of a module comes to when nothing is remembered. -/
def Setting.moduleAnswer (c : Setting) (importer : Importer) (current : Option Path)
    (name : String) : Except Failure Analysis :=
  match Imports.moduleFile c.world c.workspace current name with
  | .error fault => .error (.namelessPath fault)
  | .ok none => .ok {}
  | .ok (some file) =>
    match c.world.read? file with
    | none => .ok {}
    | some content => ((importer file content).run c.base).1

/-- What the import of a module comes to when modules are remembered. -/
def Setting.recalled (c : Setting) (importer : Importer) (current : Option Path)
    (modules : Table Analysis) (name : String) : Except Failure Analysis :=
  ((modules.get? name).map .ok).getD (c.moduleAnswer importer current name)

/-- The analysis is the one of the module in the file with the text. -/
def Setting.IsModule (c : Setting) (importer : Importer) (text : String) (a : Analysis) : Prop :=
  ∃ file content, file.Plain ∧ file.text = text ∧ c.world.read? file = some content ∧
    ((importer file content).run c.base).1 = .ok a

/-- All that the analyzer remembers is what it would find again, but for modules with relative
names. -/
structure Coherent (c : Setting) (importer : Importer) (s : AnalysisState) : Prop where
  workspace : s.analyzer.workspace = c.workspace
  extra : s.analyzer.extra = c.extra
  types : s.analyzer.types = settledTypes c.world c.extra c.base
  libraries : State.Settled c.world c.extra c.base ⟨s.analyzer.session, s.store⟩
  external (path : String) (found : Option ParamClass) :
    s.analyzer.external.get? path = some found → found = settled c.world c.extra c.base path
  modules (name : String) (a : Analysis) : s.analyzer.modules.get? name = some a →
    Text.startsWith name "." = false → c.moduleAnswer importer none name = .ok a
  files (text : String) (a : Analysis) : s.analyzer.files.get? text = some a →
    c.IsModule importer text a

variable {c : Setting} {importer : Importer} {s t : AnalysisState}

theorem Coherent.store (h : Coherent c importer s) : Steady c.world c.base s.store :=
  h.libraries.store

/-! ### Libraries -/

theorem Coherent.onLibraries (sound : c.Sound) (h : Coherent c importer s) (path : String) :
    (onLibraries (find? c.world path) s).1 = settled c.world c.extra c.base path ∧
      Coherent c importer (onLibraries (find? c.world path) s).2 := by
  obtain ⟨hanswer, hnext⟩ := yields_settled sound.stocked path _ h.libraries
  exact ⟨hanswer, h.workspace, h.extra, h.types, hnext, h.external, h.modules, h.files⟩

/-- The table of library classes after a question. -/
def Setting.asked (c : Setting) (external : Table (Option ParamClass)) (path : Option String) :
    Table (Option ParamClass) :=
  match path with
  | none => external
  | some full =>
    if external.contains full then external
    else external.insert full (settled c.world c.extra c.base full)

/-- A question for a library class has the settled answer and changes only the table of library
classes and the session. -/
theorem Coherent.externalClass (sound : c.Sound) (h : Coherent c importer s)
    (path : Option String) :
    ((externalClass c.world path).run s).1 = .ok (path.bind (settled c.world c.extra c.base)) ∧
      Coherent c importer ((externalClass c.world path).run s).2 ∧
      ((externalClass c.world path).run s).2.analyzer =
        { s.analyzer with
          session := ((externalClass c.world path).run s).2.analyzer.session
          external := c.asked s.analyzer.external path } := by
  cases path with
  | none => exact ⟨rfl, h, rfl⟩
  | some full =>
    rw [Analysis.externalClass, run_bind, run_get]
    dsimp only
    cases hknown : s.analyzer.external.get? full with
    | some known =>
      have hcontains : s.analyzer.external.contains full = true := by
        rw [Table.contains_eq_isSome, hknown]; rfl
      refine ⟨?_, h, ?_⟩
      · rw [h.external full known hknown]; rfl
      · simp only [Setting.asked, hcontains, if_true]; rfl
    | none =>
      have hcontains : s.analyzer.external.contains full = false := by
        rw [Table.contains_eq_isSome, hknown]; rfl
      obtain ⟨hanswer, hnext⟩ := h.onLibraries sound full
      have hrun : ((do
          let found ← ExceptT.lift (Analysis.onLibraries (find? c.world full))
          changeAnalyzer fun a => { a with external := a.external.insert full found }
          return found : AnalysisM (Option ParamClass)).run s) =
          (.ok (settled c.world c.extra c.base full),
            { (Analysis.onLibraries (find? c.world full) s).2 with
              analyzer := { (Analysis.onLibraries (find? c.world full) s).2.analyzer with
                external := s.analyzer.external.insert full
                  (settled c.world c.extra c.base full) } }) := by
        rw [← hanswer]
        rfl
      rw [hrun]
      refine ⟨rfl, ⟨hnext.workspace, hnext.extra, hnext.types, hnext.libraries, ?_, hnext.modules,
        hnext.files⟩, ?_⟩
      · intro path found hget
        rw [Table.get?_insert] at hget
        split at hget
        · next heq => rw [heq, ← Option.some.inj hget]
        · exact h.external path found hget
      · simp only [Setting.asked, hcontains, Bool.false_eq_true, if_false]
        rfl

/-! ### Modules -/

theorem moduleFile_of_absolute {w : World} {workspace : Option Path} {name : String}
    (h : Text.startsWith name "." = false) (current : Option Path) :
    Imports.moduleFile w workspace current name = Imports.moduleFile w workspace none name := by
  simp [Imports.moduleFile, Imports.moduleFault?, Imports.target?, Imports.moduleFile?, h]

/-- A module found under its name is that of the file that the name means. -/
theorem Setting.moduleAnswer_of_isModule {current : Option Path} {name : String} {file : Path}
    {a : Analysis} (hfile : Imports.moduleFile c.world c.workspace current name = .ok (some file))
    (plain : file.Plain) (h : c.IsModule importer file.text a) :
    c.moduleAnswer importer current name = .ok a := by
  obtain ⟨file', content, plain', htext, hread, hanswer⟩ := h
  obtain rfl := plain'.eq_of_text_eq plain htext
  simp only [Setting.moduleAnswer, hfile, hread, hanswer]

theorem Coherent.keep (h : Coherent c importer s) {current : Option Path} {name : String}
    {file : Path} {a : Analysis}
    (hfile : Imports.moduleFile c.world c.workspace current name = .ok (some file))
    (plain : file.Plain) (hmodule : c.IsModule importer file.text a) :
    Coherent c importer { s with analyzer := { s.analyzer with
      modules := s.analyzer.modules.insert name a
      files := s.analyzer.files.insert file.text a } } := by
  refine ⟨h.workspace, h.extra, h.types, h.libraries, h.external, ?_, ?_⟩
  · intro name' a' hget habsolute
    rw [Table.get?_insert] at hget
    split at hget
    · next heq =>
      subst heq
      obtain rfl := Option.some.inj hget
      refine c.moduleAnswer_of_isModule ?_ plain hmodule
      rw [← moduleFile_of_absolute habsolute current]
      exact hfile
    · exact h.modules name' a' hget habsolute
  · intro text a' hget
    rw [Table.get?_insert] at hget
    split at hget
    · next heq =>
      obtain rfl := Option.some.inj hget
      exact heq ▸ hmodule
    · exact h.files text a' hget

theorem Coherent.with_store (h : Coherent c importer s) {store : Store}
    (steady : Steady c.world c.base store) :
    Coherent c importer { s with store := store } :=
  ⟨h.workspace, h.extra, h.types, ⟨h.libraries.session, steady⟩, h.external, h.modules, h.files⟩

/-- The step keeps all but the remembered modules, to which it can have added one under its name. -/
structure Entered (c : Setting) (importer : Importer) (current : Option Path) (name : String)
    (s next : AnalysisState) : Prop where
  latest : next.analyzer.latest = s.analyzer.latest
  external : next.analyzer.external = s.analyzer.external
  modules : next.analyzer.modules = s.analyzer.modules ∨
    s.analyzer.modules.get? name = none ∧ ∃ a, c.moduleAnswer importer current name = .ok a ∧
      next.analyzer.modules = s.analyzer.modules.insert name a

theorem Entered.recalled {current : Option Path} {name : String} {next : AnalysisState}
    (h : Entered c importer current name s next) (other : String) :
    c.recalled importer current next.analyzer.modules other =
      c.recalled importer current s.analyzer.modules other := by
  rcases h.modules with heq | ⟨hnone, a, hanswer, heq⟩
  · rw [heq]
  · rw [heq, Setting.recalled, Setting.recalled, Table.get?_insert]
    split
    · next hname =>
      rw [hname, hnone, hanswer]
      rfl
    · rfl

/-- The import of a module gives what is remembered under its name, or else what the module comes
to. -/
theorem Coherent.importedModule (reliable : c.Reliable importer) (h : Coherent c importer s)
    {current : Option Path} (reaches : c.Reaches current) (name : String) :
    ((importedModule importer c.world name current).run s).1 =
        c.recalled importer current s.analyzer.modules name ∧
      Coherent c importer ((importedModule importer c.world name current).run s).2 ∧
      Entered c importer current name s
        ((importedModule importer c.world name current).run s).2 := by
  have hsame : Entered c importer current name s s := ⟨rfl, rfl, .inl rfl⟩
  have hadded {text : String} {a : Analysis} {store : Store}
      (hnone : s.analyzer.modules.get? name = none)
      (hanswer : c.moduleAnswer importer current name = .ok a) :
      Entered c importer current name s
        { s with
          analyzer := { s.analyzer with
            modules := s.analyzer.modules.insert name a
            files := s.analyzer.files.insert text a }
          store := store } :=
    ⟨rfl, rfl, .inr ⟨hnone, a, hanswer, rfl⟩⟩
  rw [Analysis.importedModule, run_bind, run_get, Setting.recalled]
  dsimp only
  cases hknown : s.analyzer.modules.get? name with
  | some a => exact ⟨rfl, h, hsame⟩
  | none =>
    rw [h.workspace, Option.map_none, Option.getD_none]
    rcases hfile : Imports.moduleFile c.world c.workspace current name with fault | _ | file
    · exact ⟨by simp only [Setting.moduleAnswer, hfile]; rfl, h, hsame⟩
    · exact ⟨by simp only [Setting.moduleAnswer, hfile]; rfl, h, hsame⟩
    · dsimp only
      have hplain := reaches name file hfile
      cases hfiles : s.analyzer.files.get? file.text with
      | some a =>
        have hmodule := h.files file.text a hfiles
        have hanswer := c.moduleAnswer_of_isModule hfile hplain hmodule
        exact ⟨hanswer.symm, h.keep hfile hplain hmodule, hadded hknown hanswer⟩
      | none =>
        cases hread : c.world.read? file with
        | none => exact ⟨by simp only [Setting.moduleAnswer, hfile, hread]; rfl, h, hsame⟩
        | some content =>
          have hmeant : c.moduleAnswer importer current name =
              ((importer file content).run c.base).1 := by
            simp only [Setting.moduleAnswer, hfile, hread]
          obtain ⟨hanswer, hsteady⟩ := reliable file content hplain s.store h.store
          have himport : (runImporter importer file content).run s =
              (((importer file content).run c.base).1,
                { s with store := ((importer file content).run s.store).2 }) := by
            rw [← hanswer]
            rfl
          have hnext := h.with_store hsteady
          dsimp only
          rw [run_bind, himport, hmeant]
          cases hresult : ((importer file content).run c.base).1 with
          | error failure => exact ⟨rfl, hnext, rfl, rfl, .inl rfl⟩
          | ok a =>
            have hmodule : c.IsModule importer file.text a :=
              ⟨file, content, hplain, rfl, hread, hresult⟩
            exact ⟨rfl, hnext.keep hfile hplain hmodule, hadded hknown (hmeant.trans hresult)⟩

theorem moduleAnswer_of_absolute {name : String} (h : Text.startsWith name "." = false)
    (current : Option Path) :
    c.moduleAnswer importer current name = c.moduleAnswer importer none name := by
  rw [Setting.moduleAnswer, Setting.moduleAnswer, moduleFile_of_absolute h current]

/-- A name that is not relative is remembered for what it means in every file. -/
theorem Coherent.recalled_of_absolute (h : Coherent c importer s) {name : String}
    (absolute : Text.startsWith name "." = false) (current : Option Path) :
    c.recalled importer current s.analyzer.modules name = c.moduleAnswer importer current name := by
  rw [Setting.recalled]
  cases hknown : s.analyzer.modules.get? name with
  | none => rfl
  | some a =>
    rw [moduleAnswer_of_absolute absolute current, h.modules name a hknown absolute]
    rfl

end ParamLens.Analysis
