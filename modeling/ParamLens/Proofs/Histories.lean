import ParamLens.Command.Run
import ParamLens.Proofs.Documents
import ParamLens.Proofs.Independence

/-! Files that are analysed after others: by one analyzer, by a server between requests of its
editor, and in a check of several files. The main statement says when the findings in a file are
then those of a new analyzer. -/

namespace ParamLens.Analysis

open Steps Library

/-! ### Settings of analyzers -/

theorem Setting.sound_of_plain {w : World} {workspace : Option Path} {extra : List String}
    {base : Store} (stocked : Stocked w extra base) (plain : ∀ root ∈ workspace, root.Plain)
    (origins : ∀ name origin, w.moduleOrigins.get? name = some origin → origin.Plain) :
    Setting.Sound ⟨w, workspace, extra, base⟩ :=
  ⟨stocked, fun hcurrent _ _ hfile => Imports.plain_of_moduleFile plain hcurrent origins hfile⟩

theorem Setting.reaches_of_no_workspace {c : Setting} (h : c.workspace = none)
    (current : Option Path) : c.Reaches current := by
  intro name file hfile
  rw [Imports.moduleFile_eq_ok_iff, Imports.moduleFile?, h, Option.bind_none] at hfile
  cases hfile.2

theorem Setting.sound_of_no_workspace {w : World} {extra : List String} {base : Store}
    (stocked : Stocked w extra base) : Setting.Sound ⟨w, none, extra, base⟩ :=
  ⟨stocked, fun {current} _ => Setting.reaches_of_no_workspace rfl current⟩

/-- The setting of an analyzer on a store that has begun as `base`. -/
def settingOf (w : World) (base : Store) (a : Analyzer) : Setting := ⟨w, a.workspace, a.extra, base⟩

/-- The diagnostics of a file that is analysed in the state. -/
def reported (w : World) (s : AnalysisState) (current : Option Path) (content : String) :
    Except Failure (List Diagnostic) :=
  ((analyzeFile w content current).run s).1.map Analysis.diagnostics

/-- What a new analyzer reports about a file. -/
def Setting.alone (c : Setting) (current : Option Path) (content : String) :
    Except Failure (List Diagnostic) :=
  reported c.world (c.fresh c.base) current content

/-- A new analyzer that is handed the library classes and the modules another one remembers. -/
def Setting.handed (c : Setting) (a : Analyzer) : AnalysisState :=
  { c.fresh c.base with analyzer := { (c.fresh c.base).analyzer with
      external := a.external
      modules := a.modules } }

/-- What the analyzer remembers does not change what a new analyzer reports about a file. -/
def Setting.Indifferent (c : Setting) (a : Analyzer) (current : Option Path) (content : String) :
    Prop :=
  reported c.world (c.handed a) current content = c.alone current content

/-- Nothing that the analyzer remembers stands in the way of a file. -/
def Setting.Undisturbed (c : Setting) (a : Analyzer) (current : Option Path) (content : String) :
    Prop :=
  ∀ root, c.world.parse? content = some root →
    Harmless c c.ownImporter current root a
      ((analyzeFile c.world content current).run (c.fresh c.base)).2.analyzer

section

variable {c : Setting} {s : AnalysisState} {current : Option Path}

theorem Coherent.handed (sound : c.Sound) (h : Coherent c c.ownImporter s) :
    Coherent c c.ownImporter (c.handed s.analyzer) := by
  have hfresh := Setting.coherent_fresh sound c.ownImporter sound.stocked.steady
  exact ⟨hfresh.workspace, hfresh.extra, hfresh.types, hfresh.libraries, h.external, h.modules,
    hfresh.files⟩

/-- The report on a file is that of a new analyzer exactly when what is remembered does not change
that one. -/
theorem Coherent.reported_eq_alone_iff (sound : c.Sound) (h : Coherent c c.ownImporter s)
    (reaches : c.Reaches current) (content : String) :
    reported c.world s current content = c.alone current content ↔
      c.Indifferent s.analyzer current content := by
  have hhanded := h.handed sound
  have hsame := h.answer_of_same_memory sound (Setting.reliable_ownImporter sound) reaches hhanded
    rfl rfl content
  rw [Setting.Indifferent, reported, h.run_analyzeFile, hsame, ← hhanded.run_analyzeFile, reported]

theorem Coherent.indifferent_of_undisturbed (sound : c.Sound) (h : Coherent c c.ownImporter s)
    (reaches : c.Reaches current) {content : String}
    (undisturbed : c.Undisturbed s.analyzer current content) :
    c.Indifferent s.analyzer current content := by
  have hfresh : Coherent c c.ownImporter (c.fresh c.base) :=
    Setting.coherent_fresh sound _ sound.stocked.steady
  have hsame : ((analyzeFile c.world content current).run s).1 =
      ((analyzeFile c.world content current).run (c.fresh c.base)).1 := by
    rw [h.run_analyzeFile, hfresh.run_analyzeFile]
    refine h.answer_of_harmless sound (Setting.reliable_ownImporter sound) reaches hfresh rfl rfl
      fun root htree => ?_
    rw [← hfresh.run_analyzeFile]
    exact undisturbed root htree
  exact (h.reported_eq_alone_iff sound reaches content).mp (congrArg (Except.map _) hsame)

theorem Coherent.analyzeFile (sound : c.Sound) (h : Coherent c c.ownImporter s)
    (reaches : c.Reaches current) (content : String) :
    Coherent c c.ownImporter ((analyzeFile c.world content current).run s).2 := by
  rw [h.run_analyzeFile]
  exact h.analyzeWith sound (Setting.reliable_ownImporter sound) reaches content

theorem Coherent.complete (sound : c.Sound) (h : Coherent c c.ownImporter s) (types : List String)
    (content : String) (place : Editor.Cursor) :
    Coherent c c.ownImporter ((Editor.complete c.world types content place).run s).2 := by
  have hframe : Frame fun s next : AnalysisState =>
      Coherent c c.ownImporter s → Coherent c c.ownImporter next :=
    ⟨fun _ => id, fun h₁ h₂ => h₂ ∘ h₁⟩
  exact Editor.leads_complete hframe (fun path s hs => (hs.externalClass sound path).2.1) types
    content place s h

end

/-! ### One analyzer -/

/-- The state after analyses of files, one after another. -/
def analyzeAll (w : World) (history : List (Option Path × String)) (s : AnalysisState) :
    AnalysisState :=
  history.foldl (fun s file => ((analyzeFile w file.2 file.1).run s).2) s

theorem Coherent.analyzeAll {c : Setting} (sound : c.Sound)
    {history : List (Option Path × String)} (reaches : ∀ file ∈ history, c.Reaches file.1)
    {s : AnalysisState} (h : Coherent c c.ownImporter s) :
    Coherent c c.ownImporter (analyzeAll c.world history s) := by
  induction history generalizing s with
  | nil => exact h
  | cons file rest ih =>
    have hfirst := h.analyzeFile sound (reaches file List.mem_cons_self) file.2
    exact ih (fun other hmem => reaches other (List.mem_cons_of_mem _ hmem)) hfirst

/-- An analyzer that has begun new remembers, after any files, only what it would find again. -/
theorem Setting.coherent_history {c : Setting} (sound : c.Sound)
    (history : List (Option String × String)) :
    Coherent c c.ownImporter (Analysis.analyzeAll c.world
      (history.map (Prod.map (Option.map Path.ofText) id)) (c.fresh c.base)) := by
  refine (Setting.coherent_fresh sound _ sound.stocked.steady).analyzeAll sound fun file hmem => ?_
  obtain ⟨⟨written, content⟩, -, rfl⟩ := List.mem_map.mp hmem
  exact sound.reaches Path.plain_of_mem_map_ofText

end ParamLens.Analysis

namespace ParamLens.Editor.Server

open Steps Library Analysis

/-! ### The server -/

variable {w : World} {base : Store}

/-- The analyzer is in a sound setting and remembers only what it would find again. -/
structure Keeps (w : World) (base : Store) (s : AnalysisState) : Prop where
  sound : (settingOf w base s.analyzer).Sound
  coherent : Coherent (settingOf w base s.analyzer) (settingOf w base s.analyzer).ownImporter s

theorem keeps_of_coherent {c : Setting} {s : AnalysisState} (sound : c.Sound)
    (h : Coherent c c.ownImporter s) : Keeps c.world c.base s := by
  have hsetting : settingOf c.world c.base s.analyzer = c := by
    rw [settingOf, h.workspace, h.extra]
  exact ⟨hsetting ▸ sound, hsetting ▸ h⟩

theorem reaches_fileOf {c : Setting} (sound : c.Sound) (path : String) :
    c.Reaches (fileOf path) := by
  refine sound.reaches fun file hfile => ?_
  rw [fileOf] at hfile
  split at hfile
  · cases hfile
  · obtain rfl := Option.some.inj hfile
    exact Path.plain_ofText path

namespace Keeps

variable {s : AnalysisState}

theorem with_store (h : Keeps w base s) {store : Store} (steady : Steady w base store) :
    Keeps w base ⟨s.analyzer, store⟩ :=
  ⟨h.sound, h.coherent.with_store steady⟩

theorem analyzeFile (h : Keeps w base s) (path content : String) :
    Keeps w base ((analyzeFile w content (fileOf path)).run s).2 :=
  keeps_of_coherent h.sound
    (h.coherent.analyzeFile h.sound (reaches_fileOf h.sound path) content)

theorem complete (h : Keeps w base s) (types : List String) (content : String) (place : Cursor) :
    Keeps w base ((Editor.complete w types content place).run s).2 :=
  keeps_of_coherent h.sound (h.coherent.complete h.sound types content place)

end Keeps

/-- Each analyzer of the server remembers only what it would find again. -/
def Trusted (w : World) (base : Store) (s : Server) : Prop :=
  ∀ o, Keeps w base ⟨s.analyzerOf o, s.store⟩

theorem Trusted.onAnalyzer {α : Type} {s : Server} (h : Trusted w base s) (maker : Owner)
    {step : AnalysisM α} (hstep : ∀ s, Keeps w base s → Keeps w base (step.run s).2) :
    Trusted w base ((onAnalyzer maker step).run s).2 := by
  have hmade := hstep _ (h maker)
  have hsteady : Steady w base (step.run ⟨s.analyzerOf maker, s.store⟩).2.store :=
    hmade.coherent.store
  intro o
  rw [run_onAnalyzer]
  cases maker with
  | detached =>
    cases o with
    | detached => exact hmade
    | attached =>
      cases hattached : s.attached with
      | none => simpa only [analyzerOf, setAnalyzer, hattached, Option.getD_none] using hmade
      | some a =>
        have hother := (h .attached).with_store hsteady
        simpa only [analyzerOf, setAnalyzer, hattached, Option.getD_some] using hother
  | attached =>
    cases o with
    | detached => exact (h .detached).with_store hsteady
    | attached => exact hmade

section

variable {extra : List String} (stocked : Stocked w extra base)
  (origins : ∀ name origin, w.moduleOrigins.get? name = some origin → origin.Plain)

include stocked

theorem stocked_standard : Stocked w [] base :=
  stocked.mono fun library hmem => List.mem_append_left _ (by simpa [allowed] using hmem)

theorem trusted_start : Trusted w base (start w extra base) := by
  have sound : Setting.Sound ⟨w, none, extra, base⟩ := Setting.sound_of_no_workspace stocked
  have hkeeps := keeps_of_coherent sound (Setting.coherent_fresh sound _ stocked.steady)
  intro o
  cases o <;> exact hkeeps

include origins

theorem Trusted.ready {s : Server} (h : Trusted w base s) : Trusted w base (ready w s) := by
  rcases ready_cases w s with heq | ⟨-, root, heq⟩
  · rwa [heq]
  · let c : Setting := ⟨w, some (Path.ofText root), [], base⟩
    have sound : c.Sound := by
      have hplain : ∀ path ∈ (some root).map Path.ofText, path.Plain :=
        Path.plain_of_mem_map_ofText
      exact Setting.sound_of_plain (stocked_standard stocked) hplain origins
    have hfresh := Setting.coherent_fresh sound c.ownImporter (h .detached).coherent.store
    rw [heq]
    intro o
    cases o with
    | detached => exact (h .detached).with_store hfresh.store
    | attached => exact keeps_of_coherent sound hfresh

theorem Trusted.analyze {s : Server} (h : Trusted w base s) (address content : String) :
    Trusted w base ((analyze w address content).run s).2 := by
  rcases analyze_cases w address content s with ⟨-, heq⟩ | ⟨path, documents, -, -, heq⟩
  · rwa [heq]
  · have hmade := (h.ready stocked origins).onAnalyzer (Server.ready w s).owner fun s hs =>
      hs.analyzeFile path content
    rw [heq]
    intro o
    rw [analyzerOf_with_documents]
    exact hmade o

theorem Trusted.next {s : Server} (h : Trusted w base s) (r : Request) :
    Trusted w base (r.next w s) := by
  cases hsubject : r.subject? with
  | some address =>
    rw [next_of_subject w s hsubject]
    cases r.text? s with
    | none => exact h
    | some content => exact h.analyze stocked origins address content
  | none =>
    cases r with
    | load | change => simp [Request.subject?] at hsubject
    | hover => exact h
    | greet greeting =>
      obtain ⟨workspace, heq⟩ := run_greet_cases greeting s
      rw [Request.next, heq]
      intro o
      cases o
      · exact h .detached
      · exact h .attached
    | complete address place =>
      rw [Request.next]
      rcases run_complete_cases w address place s with heq | ⟨document, heq⟩
      · rwa [heq]
      · rw [heq]
        exact h.onAnalyzer document.owner fun s hs => hs.complete _ document.content place

theorem trusted_run (requests : List Request) :
    Trusted w base (run w (start w extra base) requests) := by
  have hrun (s : Server) (h : Trusted w base s) : Trusted w base (run w s requests) := by
    induction requests generalizing s with
    | nil => exact h
    | cons r rest ih => exact ih _ (h.next stocked origins r)
  exact hrun _ (trusted_start stocked)

end

/-- The analyzer that analyses documents now. -/
def present (w : World) (s : Server) : Analyzer := (ready w s).analyzerOf (ready w s).owner

theorem answer_analyze {s : Server} {address path content : String}
    (hpath : Address.path? address = some path) :
    ((analyze w address content).run s).1 =
      reported w ⟨present w s, (ready w s).store⟩ (fileOf path) content := by
  rw [run_analyze, hpath, reported, present]
  dsimp only
  rw [run_onAnalyzer]
  rcases (Analysis.analyzeFile w content (fileOf path)).run _ with ⟨result, next⟩
  cases result <;> rfl

end ParamLens.Editor.Server

namespace ParamLens.Command

open Steps Library Analysis

/-! ### Checks of several files -/

theorem findings_append (scene : Scene) (before after : List Path) (s : AnalysisState) :
    findings scene (before ++ after) s =
      match findings scene before s with
      | (.error stop, next) => (.error stop, next)
      | (.ok earlier, next) =>
        ((findings scene after next).1.map (earlier ++ ·), (findings scene after next).2) := by
  induction before generalizing s with
  | nil =>
    rcases hafter : findings scene after s with ⟨result, next⟩
    cases result <;> simp [findings, hafter, Except.map]
  | cons path rest ih =>
    rw [List.cons_append, findings, findings]
    dsimp only
    cases scene.world.files.read (scene.here.join path.text) with
    | error fault => rfl
    | ok content =>
      dsimp only
      rcases (analyzeFile scene.world content (some (scene.here.join path.text))).run s with
        ⟨result, next⟩
      cases result with
      | error failure => rfl
      | ok found =>
        dsimp only
        rw [ih]
        rcases findings scene rest next with ⟨result, last⟩
        cases result with
        | error stop => rfl
        | ok earlier =>
          dsimp only
          rcases hafter : findings scene after last with ⟨result, final⟩
          cases result <;> simp [hafter, Except.map]

section

variable {scene : Scene} {c : Setting} (sound : c.Sound) (hworld : c.world = scene.world)
  (hworkspace : c.workspace = none) {s : AnalysisState} (h : Coherent c c.ownImporter s)

include sound hworld hworkspace h

theorem coherent_findings (paths : List Path) :
    Coherent c c.ownImporter (findings scene paths s).2 := by
  induction paths generalizing s with
  | nil => exact h
  | cons path rest ih =>
    rw [findings]
    dsimp only
    cases scene.world.files.read (scene.here.join path.text) with
    | error fault => exact h
    | ok content =>
      have hnext := h.analyzeFile sound (c.reaches_of_no_workspace hworkspace
        (some (scene.here.join path.text))) content
      rw [hworld] at hnext
      dsimp only
      rcases hrun : (analyzeFile scene.world content (some (scene.here.join path.text))).run s with
        ⟨result, next⟩
      rw [hrun] at hnext
      cases result with
      | error failure => exact hnext
      | ok found => exact ih hnext

end

theorem map_injective {ε α β : Type} {f : α → β} (hf : f.Injective) :
    (Except.map f : Except ε α → Except ε β).Injective := by
  rintro (stop | a) (stop' | a') h
  · exact congrArg Except.error (Except.error.inj h)
  · cases h
  · cases h
  · exact congrArg Except.ok (hf (Except.ok.inj h))

theorem findings_eq_iff (scene : Scene) (path : Path) (s t : AnalysisState) :
    (findings scene [path] s).1 = (findings scene [path] t).1 ↔
      ∀ content, scene.world.files.read (scene.here.join path.text) = .ok content →
        reported scene.world s (some (scene.here.join path.text)) content =
          reported scene.world t (some (scene.here.join path.text)) content := by
  cases hread : scene.world.files.read (scene.here.join path.text) with
  | error fault => simp [findings, hread]
  | ok content =>
    have hone (s : AnalysisState) : (findings scene [path] s).1 =
        ((reported scene.world s (some (scene.here.join path.text)) content).mapError
          CheckStop.failed).map (List.map (Located.mk path content)) := by
      rw [findings, reported]
      dsimp only
      rw [hread]
      dsimp only
      rcases (analyzeFile scene.world content (some (scene.here.join path.text))).run s with
        ⟨result, next⟩
      cases result <;> simp [findings, Except.map, Except.mapError]
    have hlocated : (List.map (Located.mk path content)).Injective :=
      List.map_injective_iff.mpr fun _ _ h => (Located.mk.inj h).2.2
    rw [hone, hone, (map_injective hlocated).eq_iff]
    have hstop {r r' : Except Failure (List Diagnostic)} :
        r.mapError CheckStop.failed = r'.mapError CheckStop.failed ↔ r = r' := by
      cases r <;> cases r' <;> simp [Except.mapError]
    simp [hstop]

/-- A file adds to the findings in other files what it has alone exactly when the same is reported
about it after them. -/
theorem findings_append_eq_iff {scene : Scene} {before : List Path} {path : Path}
    {earlier : List Located} {s t : AnalysisState}
    (hbefore : findings scene before t = (.ok earlier, s)) :
    (findings scene (before ++ [path]) t).1 = (findings scene [path] t).1.map (earlier ++ ·) ↔
      ∀ content, scene.world.files.read (scene.here.join path.text) = .ok content →
        reported scene.world s (some (scene.here.join path.text)) content =
          reported scene.world t (some (scene.here.join path.text)) content := by
  rw [findings_append, hbefore, ← findings_eq_iff]
  exact (map_injective (List.append_right_injective earlier)).eq_iff

end ParamLens.Command

namespace ParamLens

open Steps Library Analysis Editor Command

/-! ### Files after others -/

/-- On a stocked store, the report on a file is that of a new analyzer exactly when what is
remembered does not change that one, which is so if nothing remembered stands in the way of the
file: for an analyzer after any files, for a server after any requests, and in a check after any
other files. -/
theorem same_findings_after_history_iff (w : World) (extra : List String) (base : Store)
    (stocked : Stocked w extra base)
    (origins : ∀ name origin, w.moduleOrigins.get? name = some origin → origin.Plain) :
    (∀ (workspace : Option String) (history : List (Option String × String))
        (file : Option String) (content : String),
      let c : Setting := ⟨w, workspace.map Path.ofText, extra, base⟩
      let s := analyzeAll w (history.map (Prod.map (Option.map Path.ofText) id)) (c.fresh base)
      let current := file.map Path.ofText
      (reported w s current content = c.alone current content ↔
        c.Indifferent s.analyzer current content) ∧
      (c.Undisturbed s.analyzer current content → c.Indifferent s.analyzer current content)) ∧
    (∀ (requests : List Server.Request) (address path content : String),
      Address.path? address = some path →
      let s := Server.run w (Server.start w extra base) requests
      let a := Server.present w s
      let c := settingOf w base a
      (((Server.analyze w address content).run s).1 = c.alone (Server.fileOf path) content ↔
        c.Indifferent a (Server.fileOf path) content) ∧
      (c.Undisturbed a (Server.fileOf path) content →
        c.Indifferent a (Server.fileOf path) content)) ∧
    ∀ (scene : Scene) (before : List Path) (path : Path) (earlier : List Located)
        (s : AnalysisState), scene.world = w →
      let c : Setting := ⟨w, none, [], base⟩
      let current := scene.here.join path.text
      findings scene before (c.fresh base) = (.ok earlier, s) →
      ((findings scene (before ++ [path]) (c.fresh base)).1 =
          (findings scene [path] (c.fresh base)).1.map (earlier ++ ·) ↔
        ∀ content, w.files.read current = .ok content →
          c.Indifferent s.analyzer (some current) content) ∧
      ∀ content, c.Undisturbed s.analyzer (some current) content →
        c.Indifferent s.analyzer (some current) content := by
  refine ⟨?_, ?_, ?_⟩
  · intro workspace history file content c s current
    have sound : c.Sound :=
      Setting.sound_of_plain stocked Path.plain_of_mem_map_ofText origins
    have hhistory : Coherent c c.ownImporter s := Setting.coherent_history sound history
    have reaches : c.Reaches current := sound.reaches Path.plain_of_mem_map_ofText
    exact ⟨hhistory.reported_eq_alone_iff sound reaches content,
      hhistory.indifferent_of_undisturbed sound reaches⟩
  · intro requests address path content hpath s a c
    have htrusted := (Server.trusted_run stocked origins requests).ready stocked origins
    have hkeeps : Server.Keeps w base ⟨a, (Server.ready w s).store⟩ :=
      htrusted (Server.ready w s).owner
    have reaches : c.Reaches (Server.fileOf path) := Server.reaches_fileOf hkeeps.sound path
    rw [Server.answer_analyze hpath]
    exact ⟨hkeeps.coherent.reported_eq_alone_iff hkeeps.sound reaches content,
      hkeeps.coherent.indifferent_of_undisturbed hkeeps.sound reaches⟩
  · intro scene before path earlier s hworld c current hbefore
    have sound : c.Sound := Setting.sound_of_no_workspace (Server.stocked_standard stocked)
    have hfresh : Coherent c c.ownImporter (c.fresh base) :=
      Setting.coherent_fresh sound _ stocked.steady
    have hhistory := coherent_findings sound hworld.symm rfl hfresh before
    rw [hbefore] at hhistory
    have reaches : c.Reaches (some current) := Setting.reaches_of_no_workspace rfl _
    refine ⟨?_, fun content => hhistory.indifferent_of_undisturbed sound reaches⟩
    rw [findings_append_eq_iff hbefore, hworld]
    exact forall₂_congr fun content _ => hhistory.reported_eq_alone_iff sound reaches content

/-! ### A library with one class -/

/-- A record with one class, which has a parameter for texts. -/
def panelRecord : Record :=
  { label := Label.current "panel" "1.0"
    classes := (∅ : Table ParamClass).insert "panel.Widget"
      ((ParamClass.ofName "Widget").add { name := "value", typeName := "String" }) }

/-- A store with the record in its file. -/
def panelStore : Store :=
  { enabled := true
    files := (∅ : Table StoredFile).insert (Store.fileName "panel" "1.0") (.record panelRecord) }

section

open Syntax Sketch

/-- The import of the library, and an instance of the class for the name `x`. -/
def making : List Statement :=
  [importsAs ["panel"] "pn", assign (name "x") (call (member "pn" "Widget") [])]

/-- A number for the parameter of `x`. -/
def assigning : Statement := assign (member "x" "value") (number "5")

/-- A file that makes an instance. -/
def makeFile : Sketch := file making

/-- A file that assigns to an attribute. -/
def assignFile : Sketch := file [assigning]

/-- A file that does both. -/
def bothFile : Sketch := file (making ++ [assigning])

/-- The three files. -/
def panelFiles : List (List String × Sketch) :=
  [(["a.py"], makeFile), (["b.py"], assignFile), (["c.py"], bothFile)]

def panelWorld : World :=
  { World.sketched panelFiles with
    distributions := (∅ : Table Distribution).insert "panel" ⟨"1.0", ["param"]⟩ }

theorem parse?_bothFile : panelWorld.parse? bothFile.written = some bothFile.node :=
  @World.parse?_sketched panelFiles (by decide +kernel) _ (.tail _ (.tail _ (.head _)))

end

/-- New analyzers without a workspace. -/
def panelSetting : Setting := ⟨panelWorld, none, [], panelStore⟩

/-- A check at the root of the files. -/
def panelScene : Scene :=
  { world := panelWorld, store := panelStore, storeDirectory := ⟨true, []⟩, here := ⟨true, []⟩ }

theorem stocked_panel : Stocked panelWorld [] panelStore := by
  have hpanel {library version : String} (h : Installed panelWorld library version) :
      library = "panel" ∧ version = "1.0" := by
    rw [Installed, panelWorld, Table.get?_insert, Table.get?_emptyCollection] at h
    split at h
    · next heq => exact ⟨heq, (Option.some.inj h).symm⟩
    · cases h
  refine ⟨fun _ installed => ?_, fun installed installed' _ => ?_, fun _ hget => ?_⟩
  · obtain ⟨rfl, rfl⟩ := hpanel installed
    exact ⟨rfl, panelRecord, rfl, rfl⟩
  · rw [(hpanel installed).1, (hpanel installed').1]
  · cases hget

/-- Nothing stands in the way of a file that asks for all that its checks read, when no module is
remembered. -/
theorem undisturbed_of_readings {c : Setting} {a : Analyzer} {current : Option Path}
    {content : String} {root : Syntax.Node} (htree : c.world.parse? content = some root)
    (hmodules : a.modules.isEmpty = true)
    (hnamed : ∀ name ∈ Check.lookedUp
        ((analyzeFile c.world content current).run (c.fresh c.base)).2.analyzer.latest.classes
        (Imports.ofTree c.world.finder root) root, a.external.contains name = true →
      ((analyzeFile c.world content current).run (c.fresh c.base)).2.analyzer.external.contains
        name = true)
    (hfirst : ∀ name ∈ Check.assignedNames root,
      ∀ path ∈ Check.externalWith? (knownOf c.world a) name,
      Check.externalWith? (knownOf c.world
        ((analyzeFile c.world content current).run (c.fresh c.base)).2.analyzer) name =
          some path) :
    c.Undisturbed a current content := by
  intro root' htree'
  obtain rfl := Option.some.inj (htree.symm.trans htree')
  refine ⟨hnamed, hfirst, fun bound full _ _ => ?_⟩
  have hget : a.modules.get? (moduleOf full) = none := by
    rw [Table.get?_eq_none_iff, Table.names, List.isEmpty_iff.mp hmodules]
    exact List.not_mem_nil
  rw [Setting.recalled, hget]
  rfl

/-- The file that does both has the same findings after the file that makes an instance as alone:
by one analyzer, by a server, and in a check. -/
theorem same_findings_after_instance :
    Stocked panelWorld [] panelStore ∧
    reported panelWorld (analyzeAll panelWorld [(some (Path.ofText "/a.py"), makeFile.written)]
        (panelSetting.fresh panelStore)) (some (Path.ofText "/c.py")) bothFile.written =
      panelSetting.alone (some (Path.ofText "/c.py")) bothFile.written ∧
    (let s := Server.run panelWorld (Server.start panelWorld [] panelStore)
        [.load "/a.py" makeFile.written]
     ((Server.analyze panelWorld "/c.py" bothFile.written).run s).1 =
      (settingOf panelWorld panelStore (Server.present panelWorld s)).alone
        (Server.fileOf "/c.py") bothFile.written) ∧
    (findings panelScene ([Path.ofText "/a.py"] ++ [Path.ofText "/c.py"])
        (panelSetting.fresh panelStore)).1 =
      (findings panelScene [Path.ofText "/c.py"]
        (panelSetting.fresh panelStore)).1.map ([] ++ ·) := by
  obtain ⟨hanalyzer, hserver, hcheck⟩ :=
    same_findings_after_history_iff panelWorld [] panelStore stocked_panel
      (fun name origin hget => nomatch hget)
  refine ⟨stocked_panel, ?_, ?_, ?_⟩
  · obtain ⟨hiff, hindifferent⟩ := hanalyzer none [(some "/a.py", makeFile.written)]
      (some "/c.py") bothFile.written
    exact hiff.mpr (hindifferent
      (undisturbed_of_readings parse?_bothFile (by decide +kernel) (by decide +kernel)
        (by decide +kernel)))
  · obtain ⟨hiff, hindifferent⟩ := hserver [.load "/a.py" makeFile.written] "/c.py" "/c.py"
      bothFile.written (by decide)
    exact hiff.mpr (hindifferent
      (undisturbed_of_readings parse?_bothFile (by decide +kernel) (by decide +kernel)
        (by decide +kernel)))
  · have hcount : (findings panelScene [Path.ofText "/a.py"]
        (panelSetting.fresh panelStore)).1.toOption.map List.length = some 0 := by decide +kernel
    have hbefore : (findings panelScene [Path.ofText "/a.py"] (panelSetting.fresh panelStore)).1 =
        .ok [] := by
      cases hfound : (findings panelScene [Path.ofText "/a.py"]
        (panelSetting.fresh panelStore)).1 with
      | error stop =>
        rw [hfound] at hcount
        cases hcount
      | ok found =>
        rw [hfound] at hcount
        rw [List.length_eq_zero_iff.mp (Option.some.inj hcount)]
    have hread : (panelWorld.files.read
        (panelScene.here.join (Path.ofText "/c.py").text)).toOption = some bothFile.written := by
      decide +kernel
    obtain ⟨hiff, hindifferent⟩ := hcheck panelScene [Path.ofText "/a.py"] (Path.ofText "/c.py") []
      _ rfl (Prod.ext hbefore rfl)
    refine hiff.mpr fun content hcontent => hindifferent content ?_
    replace hread : (Except.ok content).toOption = some bothFile.written := hcontent ▸ hread
    obtain rfl := Option.some.inj hread
    exact undisturbed_of_readings parse?_bothFile (by decide +kernel) (by decide +kernel)
      (by decide +kernel)

section

open Syntax Sketch

/-- A library with the class. -/
def widgetFile : Sketch :=
  file [importsModule ["param"], classed "Widget" [rootBase] [declares "value" "String" []]]

/-- A check with the library in a site directory and no store. -/
def siteScene : Scene :=
  { world :=
      { World.sketched ((["site", "panel", "__init__.py"], widgetFile) :: panelFiles) with
        distributions := panelWorld.distributions
        site := [Path.ofText "/site"] }
    store := {}
    storeDirectory := ⟨true, []⟩
    here := ⟨true, []⟩ }

end

/-- The file that assigns has no findings alone, and one after the file that makes an instance: with
a record of the library in the store, and with the library in a site directory. -/
theorem finding_from_other_file :
    Stocked panelWorld [] panelStore ∧
    [panelScene, siteScene].map (fun scene =>
      let c : Setting := ⟨scene.world, none, [], scene.store⟩
      [[Path.ofText "/a.py"], [Path.ofText "/b.py"], [Path.ofText "/a.py", Path.ofText "/b.py"]].map
        fun files => (findings scene files (c.fresh c.base)).1.toOption.map List.length) =
      [[some 0, some 0, some 1], [some 0, some 0, some 1]] :=
  ⟨stocked_panel, by decide +kernel⟩

end ParamLens
