import ParamLens.Proofs.Analyses
import ParamLens.Proofs.Documents
import ParamLens.Proofs.Population

/-! Which libraries the server analyses. No step of an analyzer changes them, so they are those with
which the analyzer was started: the standard ones and the extra ones of the server for the analyzer
from before a workspace is known, the standard ones alone for that of the workspace. -/

namespace ParamLens

open Steps

namespace Library

/-! ### Steps on libraries -/

/-- The session analyses the given libraries. -/
def Allows (libraries : List String) (s : State) : Prop := s.session.allowed = libraries

namespace Allows

variable {libraries : List String}

theorem ends_storeSurvey (library version : String) (survey : Survey) :
    Ends (Allows libraries) (storeSurvey library version survey) fun _ => Allows libraries := by
  have hstore (f : Store → Store) :
      Ends (Allows libraries) (changeStore f) fun _ => Allows libraries := fun _ h => h
  have haliases (entries : List (String × String)) : Ends (Allows libraries)
      (forIn entries PUnit.unit fun x _ => do
        changeStore (Store.setAlias library x.1 x.2 version)
        pure (ForInStep.yield PUnit.unit)) fun _ => Allows libraries :=
    Ends.forIn (I := fun _ => Allows libraries) (fun _ _ _ _ _ =>
      (hstore _).bind fun _ => Ends.pure fun _ h => ⟨⟨_, rfl⟩, h⟩) _
  rw [storeSurvey]
  refine Ends.get_bind fun s hs => ?_
  dsimp only
  refine Ends.bind (Q := fun _ => Allows libraries) (fun _ h => h) fun _ => ?_
  refine (hstore _).bind fun _ => (haliases _).bind fun _ => ?_
  refine (Ends.forIn (I := fun _ => Allows libraries) (fun _ path _ _ count => ?_) 0).bind
    fun count => ?_
  · cases survey.definitions.get? path with
    | none => exact Ends.pure fun _ h => ⟨⟨_, rfl⟩, h⟩
    | some d =>
      refine Ends.bind (Q := fun _ => Allows libraries) (fun _ h => h) fun c => ?_
      exact (hstore _).bind fun _ => Ends.pure fun _ h => ⟨⟨_, rfl⟩, h⟩
  · refine (haliases _).bind fun _ => (hstore _).bind fun _ => ?_
    exact Ends.bind (Q := fun _ => Allows libraries) (fun _ h => h) fun _ => Ends.pure fun _ h => h

theorem ends_populateWith (w : World) (fuel : Nat) (library : String) :
    Ends (Allows libraries) (populateWith w fuel library) fun _ => Allows libraries := by
  induction fuel generalizing library with
  | zero => exact Ends.pure fun _ h => h
  | succ fuel ih =>
    rw [populateWith]
    refine Ends.get_bind fun s _ => ?_
    dsimp only
    split
    · exact Ends.pure fun _ h => h
    refine Ends.bind (Q := fun _ => Allows libraries) (fun _ h => h) fun _ => ?_
    split
    · exact Ends.pure fun _ h => h
    next info _ =>
    refine Ends.bind (Q := fun _ => Allows libraries) (fun _ h => h) fun found => ?_
    split
    · exact Ends.pure fun _ h => h
    refine (ends_dependencies ih info.dependencies).bind fun _ => ?_
    rw [populateSources]
    dsimp only
    split
    · exact Ends.pure fun _ h => h
    · exact Ends.get_bind fun _ _ => ends_storeSurvey library info.version _

theorem ends_answer (path : String) (found : Option ParamClass) :
    Ends (Allows libraries) (answer path found) fun _ => Allows libraries := fun _ h => h

theorem ends_lookUp (w : World) (library path version : String) :
    Ends (Allows libraries) (lookUp w library path version) fun _ => Allows libraries := by
  have hsearch : Ends (Allows libraries)
      (onSearch w fun context => searchSources context path) fun _ => Allows libraries := by
    intro s hs
    rw [onSearch]
    split
    · exact hs
    · exact hs
  refine Ends.bind (Q := fun _ => Allows libraries) (fun _ h => h) fun found => ?_
  split
  · exact ends_answer path _
  · refine Ends.bind (Q := fun _ => Allows libraries) (fun _ h => h) fun stored => ?_
    split
    · exact ends_answer path none
    · refine hsearch.bind fun found => ?_
      split
      · exact ends_answer path none
      · exact Ends.bind (Q := fun _ => Allows libraries) (fun _ h => h) fun _ => ends_answer path _

theorem ends_find? (w : World) (path : String) :
    Ends (Allows libraries) (Library.find? w path) fun _ => Allows libraries := by
  rw [Library.find?]
  split
  · exact ends_answer path none
  refine Ends.get_bind fun _ _ => ?_
  split
  · exact Ends.pure fun _ h => h
  dsimp only
  refine Ends.get_bind fun _ _ => ?_
  split
  · exact ends_answer path none
  refine Ends.get_bind fun _ _ => ?_
  split
  · have hpopulate : Ends (Allows libraries) (populate w (Dotted.first path))
        fun _ => Allows libraries := Ends.get_bind fun _ _ => ends_populateWith w _ _
    refine hpopulate.bind fun _ => Ends.get_bind fun _ _ => ?_
    split
    · exact ends_answer path none
    · exact ends_lookUp w _ path _
  · refine Ends.get_bind fun _ _ => ?_
    split
    · exact ends_answer path none
    · exact ends_lookUp w _ path _

theorem ends_allTypes : Ends (Allows libraries) allTypes fun _ => Allows libraries := by
  refine Ends.get_bind fun s _ => Ends.bind (Ends.mapM fun library _ => ?_) fun _ =>
    Ends.pure fun _ h => h
  split
  · exact Ends.pure fun _ h => h
  · exact fun _ h => h

end Allows

end Library

theorem allowed_start (w : World) (workspace : Option Path) (extra : List String)
    (store : Library.Store) :
    (Analyzer.start w workspace extra store).1.session.allowed = Library.allowed extra :=
  Library.Allows.ends_allTypes ⟨Library.Session.start w extra, store⟩ rfl

namespace Analysis

/-! ### Steps of an analyzer -/

/-- The step leaves the libraries and the findings in the present file as they were. -/
structure Steady (s next : AnalysisState) : Prop where
  allowed : next.analyzer.session.allowed = s.analyzer.session.allowed
  latest : next.analyzer.latest = s.analyzer.latest

theorem frame_steady : Frame Steady :=
  ⟨fun _ => ⟨rfl, rfl⟩, fun h₁ h₂ => ⟨h₂.allowed.trans h₁.allowed, h₂.latest.trans h₁.latest⟩⟩

theorem Steady.run {libraries : List String} {imports : Imports} {s next : AnalysisState}
    (h : Steady s next)
    (hs : s.analyzer.session.allowed = libraries ∧ s.analyzer.latest.imports = imports) :
    next.analyzer.session.allowed = libraries ∧ next.analyzer.latest.imports = imports :=
  ⟨h.allowed.trans hs.1, h.latest ▸ hs.2⟩

theorem steady_onLibraries (w : World) (path : String) (s : AnalysisState) :
    Steady s (onLibraries (Library.find? w path) s).2 :=
  ⟨Library.Allows.ends_find? w path ⟨s.analyzer.session, s.store⟩ rfl, rfl⟩

theorem steady_externalClass (w : World) (path : Option String) :
    Leads Steady (externalClass w path) := by
  cases path with
  | none => exact frame_steady.pure none
  | some full =>
    refine frame_steady.bind frame_steady.get fun s => ?_
    split
    · exact frame_steady.pure _
    · refine frame_steady.bind (steady_onLibraries w full) fun found => ?_
      exact frame_steady.bind (fun _ => ⟨rfl, rfl⟩) fun _ => frame_steady.pure found

theorem steady_importedModule (importer : Importer) (w : World) (name : String)
    (current : Option Path) : Leads Steady (importedModule importer w name current) := by
  have hkeep (file : String) (a : Analysis) : Leads Steady (do keepModule name file a; return a) :=
    frame_steady.bind (fun _ => ⟨rfl, rfl⟩) fun _ => frame_steady.pure a
  refine frame_steady.bind frame_steady.get fun s => ?_
  dsimp only
  split
  · exact frame_steady.pure _
  split
  · exact fun _ => ⟨rfl, rfl⟩
  · exact frame_steady.pure _
  split
  · exact hkeep _ _
  split
  · exact frame_steady.pure _
  · exact frame_steady.bind (fun _ => ⟨rfl, rfl⟩) fun found => hkeep _ found

/-- Equal states in the analysis of a file with the imports, by an analyzer with the libraries. -/
def SteadyRun (libraries : List String) (imports : Imports) (s t : AnalysisState) : Prop :=
  s = t ∧ s.analyzer.session.allowed = libraries ∧ s.analyzer.latest.imports = imports

theorem carries_steadyRun (importer : Importer) (w : World) (current : Option Path)
    (libraries : List String) (imports : Imports) :
    Carries (SteadyRun libraries imports) importer w current imports where
  bindings h := h.2.2
  latest h := by rw [h.1]
  types h := by rw [h.1]
  allowed h := by rw [h.1]
  external path := Agree.same_iff.mpr fun s hs => (steady_externalClass w path s).run hs
  ask path := Agree.same_iff.mpr fun s hs => (steady_onLibraries w path s).run hs
  module {_ full} _ := Agree.same_iff.mpr fun s hs =>
    (steady_importedModule importer w (moduleOf full) current s).run hs
  change f h hf := by
    obtain ⟨rfl, hallowed, himports⟩ := h
    exact ⟨rfl, hallowed, (hf _).trans himports⟩

theorem allowed_analyzeFile (w : World) (content : String) (current : Option Path)
    (s : AnalysisState) :
    ((analyzeFile w content current).run s).2.analyzer.session.allowed =
      s.analyzer.session.allowed := by
  cases htree : w.parse? content with
  | none => rw [Editor.Server.run_analyzeFile_of_no_tree htree]
  | some root =>
    have carries := carries_steadyRun (importer w s.analyzer) w current
      s.analyzer.session.allowed (Imports.ofTree w.finder root)
    rw [analyzeFile, run_bind, run_get]
    refine (agree_analyzeWith carries htree ⟨rfl, rfl, rfl⟩ fun s' t' hR _ => ?_).2.2.1
    rw [hR.1]
    exact Check.SameReadings.refl root _

end Analysis

namespace Editor.Server

/-! ### Requests -/

/-- The analyzer from before a workspace is known has the standard libraries and the extra ones, and
that of the workspace has the standard ones. The owners of the documents have an analyzer. -/
structure Divided (extra : List String) (s : Server) : Prop where
  detached : s.detached.session.allowed = Library.allowed extra
  attached : ∀ a, s.attached = some a → a.session.allowed = Library.standard
  owners : ∀ address document, s.documents.get? address = some document → s.Has document.owner

variable {extra : List String} {s : Server}

theorem divided_start (w : World) (extra : List String) (store : Library.Store) :
    Divided extra (start w extra store) :=
  ⟨allowed_start w none extra store, by rintro a ⟨⟩, by rintro address document ⟨⟩⟩

theorem Divided.ready (h : Divided extra s) (w : World) : Divided extra (ready w s) := by
  rcases ready_cases w s with heq | ⟨-, root, heq⟩
  · rwa [heq]
  · refine ⟨by rw [heq]; exact h.detached, ?_, ?_⟩
    · rw [heq]
      rintro a ⟨⟩
      exact (allowed_start w _ [] s.store).trans (by simp [Library.allowed])
    · intro address document hdocument
      rw [documents_ready] at hdocument
      exact has_ready w (h.owners address document hdocument)

theorem Divided.onAnalyzer (h : Divided extra s) {α : Type} {o : Owner} {step : AnalysisM α}
    (hhas : s.Has o)
    (hstep : ∀ state, (step.run state).2.analyzer.session.allowed =
      state.analyzer.session.allowed) : Divided extra ((onAnalyzer o step).run s).2 := by
  refine ⟨?_, ?_, ?_⟩
  · cases o with
    | detached => exact (hstep _).trans h.detached
    | attached => exact h.detached
  · cases o with
    | detached => exact h.attached
    | attached =>
      obtain ⟨a, ha⟩ := Option.isSome_iff_exists.mp hhas
      rw [run_onAnalyzer]
      rintro b ⟨⟩
      rw [hstep, analyzerOf, ha]
      exact h.attached a ha
  · intro address document hdocument
    rw [documents_onAnalyzer] at hdocument
    exact has_onAnalyzer o step (h.owners address document hdocument)

theorem owner_of_analyze {w : World} {address content other : String} {document : Document}
    (h : ((analyze w address content).run s).2.documents.get? other = some document) :
    s.documents.get? other = some document ∨ document.owner = (ready w s).owner := by
  rw [run_analyze] at h
  split at h
  · exact .inl h
  next path _ =>
  have hdocuments := documents_onAnalyzer (ready w s).owner
    (Analysis.analyzeFile w content (fileOf path)) (ready w s)
  rw [documents_ready] at hdocuments
  split at h
  · next hrun =>
    rw [hrun] at hdocuments
    rw [Table.get?_insert, hdocuments] at h
    split at h
    · exact .inr (by rw [← Option.some.inj h])
    · exact .inl h
  · next hrun =>
    rw [hrun] at hdocuments
    exact .inl (hdocuments ▸ h)

theorem Divided.analyze (h : Divided extra s) (w : World) (address content : String) :
    Divided extra ((analyze w address content).run s).2 := by
  rcases analyze_cases w address content s with ⟨-, heq⟩ | ⟨path, documents, -, -, heq⟩
  · rwa [heq]
  · have hdivided := (h.ready w).onAnalyzer (has_owner (Server.ready w s))
      (Analysis.allowed_analyzeFile w content (fileOf path))
    refine ⟨by rw [heq]; exact hdivided.detached, by rw [heq]; exact hdivided.attached, ?_⟩
    intro other document hdocument
    have hhas : (Server.ready w s).Has document.owner := by
      rcases owner_of_analyze hdocument with hold | howner
      · exact has_ready w (h.owners other document hold)
      · exact howner ▸ has_owner (Server.ready w s)
    rw [heq]
    exact has_with_documents documents (has_onAnalyzer _ _ hhas)

/-- Every request leaves the libraries divided as they are. -/
theorem Divided.next (h : Divided extra s) (w : World) (r : Request) :
    Divided extra (r.next w s) := by
  cases hsubject : r.subject? with
  | some address =>
    rw [next_of_subject w s hsubject]
    split
    · exact h
    · exact h.analyze w address _
  | none =>
    cases r with
    | load | change => simp [Request.subject?] at hsubject
    | hover => exact h
    | greet greeting =>
      obtain ⟨workspace, heq⟩ := run_greet_cases greeting s
      rw [Request.next, heq]
      refine ⟨h.detached, h.attached, fun address document hdocument => ?_⟩
      have hhas := h.owners address document hdocument
      cases howner : document.owner <;> rw [howner] at hhas <;> exact hhas
    | complete address place =>
      rw [Request.next, run_complete]
      split
      · exact h
      · next document hdocument =>
        refine h.onAnalyzer (h.owners address document hdocument) fun state => ?_
        exact (leads_complete Analysis.frame_steady (Analysis.steady_externalClass w) s.types
          document.content place state).allowed

theorem Divided.run (h : Divided extra s) (w : World) (requests : List Request) :
    Divided extra (run w s requests) := by
  induction requests generalizing s with
  | nil => exact h
  | cons r rest ih => exact ih (h.next w r)

/-! ### When the analyzer of the workspace is started -/

/-- The request has a document analysed while a workspace is known. -/
def Request.attaches (s : Server) (r : Request) : Bool :=
  s.workspace.any (· != "") && (r.text? s).isSome && (r.subject?.bind Address.path?).isSome

/-- One of the requests has a document analysed while a workspace is known. -/
def attachesIn (w : World) : Server → List Request → Bool
  | _, [] => false
  | s, r :: rest => r.attaches s || attachesIn w (r.next w s) rest

theorem isSome_attached_ready (w : World) (s : Server) :
    (ready w s).attached.isSome = (s.attached.isSome || s.workspace.any (· != "")) := by
  simp only [Server.ready, attach, run_modify]
  cases hattached : s.attached with
  | some a => simp [hattached]
  | none =>
    cases s.workspace with
    | none => simp [hattached]
    | some root =>
      by_cases hroot : root = ""
      · simp [hroot, hattached]
      · have hfilter : (some root).filter (· != "") = some root := by simp [hroot]
        simp only [hfilter, Option.any_some, bne_iff_ne.mpr hroot, Bool.or_true]
        rfl

theorem isSome_attached_onAnalyzer {α : Type} {o : Owner} (step : AnalysisM α) (hhas : s.Has o) :
    ((onAnalyzer o step).run s).2.attached.isSome = s.attached.isSome := by
  cases o with
  | detached => rfl
  | attached => exact hhas.symm

theorem isSome_attached_next (h : Divided extra s) (w : World) (r : Request) :
    (r.next w s).attached.isSome = (s.attached.isSome || r.attaches s) := by
  cases hsubject : r.subject? with
  | some address =>
    rw [next_of_subject w s hsubject, Request.attaches, hsubject]
    cases r.text? s with
    | none => simp
    | some content =>
      rcases analyze_cases w address content s with ⟨hpath, heq⟩ | ⟨path, documents, hpath, -, heq⟩
      · simp [heq, hpath]
      · have hready := isSome_attached_onAnalyzer
          (Analysis.analyzeFile w content (fileOf path)) (has_owner (Server.ready w s))
        simp only [heq, hready, isSome_attached_ready, Option.bind_some, hpath, Option.isSome_some,
          Bool.and_true]
  | none =>
    have hquiet : r.attaches s = false := by simp [Request.attaches, hsubject]
    rw [hquiet, Bool.or_false]
    cases r with
    | load | change => simp [Request.subject?] at hsubject
    | hover => rfl
    | greet greeting =>
      obtain ⟨workspace, heq⟩ := run_greet_cases greeting s
      rw [Request.next, heq]
    | complete address place =>
      rw [Request.next, run_complete]
      split
      · rfl
      · next document hdocument =>
        exact isSome_attached_onAnalyzer _ (h.owners address document hdocument)

theorem isSome_attached_run (h : Divided extra s) (w : World) (requests : List Request) :
    (run w s requests).attached.isSome = (s.attached.isSome || attachesIn w s requests) := by
  induction requests generalizing s with
  | nil => simp [Server.run, attachesIn]
  | cons r rest ih =>
    rw [attachesIn, ← Bool.or_assoc, ← isSome_attached_next h w r]
    exact ih (h.next w r)

/-! ### The libraries of every analyzer in use -/

/-- The analyzer analyses the standard libraries and the given ones, and no others. -/
def AllowsExactly (libraries : List String) (a : Analyzer) : Prop :=
  ∀ library, library ∈ a.session.allowed ↔ library ∈ Library.standard ∨ library ∈ libraries

theorem mem_allowed_iff (extra : List String) (library : String) :
    library ∈ Library.allowed extra ↔ library ∈ Library.standard ∨ library ∈ extra := by
  simp only [Library.allowed, List.mem_append, List.mem_filter, Bool.not_eq_true',
    List.contains_eq_mem, decide_eq_false_iff_not]
  tauto

theorem Divided.allowsExactly_detached (h : Divided extra s) : AllowsExactly extra s.detached := by
  intro library
  rw [h.detached, mem_allowed_iff]

theorem Divided.allowsExactly_attached (h : Divided extra s) {a : Analyzer}
    (ha : s.attached = some a) : AllowsExactly [] a := by
  intro library
  simp [h.attached a ha]

theorem analyzerOf_of_not_attached (h : s.attached.isSome = false) (o : Owner) :
    s.analyzerOf o = s.detached := by
  cases o with
  | detached => rfl
  | attached =>
    rw [Option.isSome_eq_false_iff, Option.isNone_iff_eq_none] at h
    rw [analyzerOf, h, Option.getD_none]

/-- The analyzer in use and those of all open documents analyse exactly the standard libraries and
the given ones. -/
def AllAllowExactly (libraries : List String) (s : Server) : Prop :=
  AllowsExactly libraries (s.analyzerOf s.owner) ∧
  ∀ address document, s.documents.get? address = some document →
    AllowsExactly libraries (s.analyzerOf document.owner)

theorem Divided.allAllowExactly_iff (h : Divided extra s) :
    AllAllowExactly extra s ↔
      (∀ library ∈ extra, library ∈ Library.standard) ∨ s.attached.isSome = false := by
  constructor
  · rintro ⟨huse, -⟩
    by_contra hneither
    obtain ⟨hextra, hsome⟩ := not_or.mp hneither
    obtain ⟨a, ha⟩ := Option.isSome_iff_exists.mp (eq_true_of_ne_false hsome)
    have howner : s.analyzerOf s.owner = a := by simp [owner, analyzerOf, ha]
    refine hextra fun library hmem => ?_
    have hallowed := (huse library).mpr (.inr hmem)
    rw [howner, h.attached a ha] at hallowed
    exact hallowed
  · intro hcases
    have hall (o : Owner) : AllowsExactly extra (s.analyzerOf o) := by
      rcases hcases with hstandard | hnone
      · cases o with
        | detached => exact h.allowsExactly_detached
        | attached =>
          rw [analyzerOf]
          cases ha : s.attached with
          | none => exact h.allowsExactly_detached
          | some a =>
            intro library
            rw [Option.getD_some, h.allowsExactly_attached ha library]
            have := hstandard library
            simp only [List.not_mem_nil, or_false]
            tauto
      · rw [analyzerOf_of_not_attached hnone]
        exact h.allowsExactly_detached
    exact ⟨hall _, fun _ document _ => hall document.owner⟩

/-- A server that was started with extra libraries, after any requests. The analyzer from before a
workspace is known analyses the standard libraries and the extra ones, and that of the workspace the
standard ones alone. So the extra ones are still analysed everywhere exactly if they are standard
ones anyway, or no document was analysed while a workspace was known. -/
theorem allAllowExactly_run_iff (w : World) (extra : List String) (store : Library.Store)
    (requests : List Request) :
    AllowsExactly extra (run w (start w extra store) requests).detached ∧
    (∀ a, (run w (start w extra store) requests).attached = some a → AllowsExactly [] a) ∧
    (AllAllowExactly extra (run w (start w extra store) requests) ↔
      (∀ library ∈ extra, library ∈ Library.standard) ∨
        attachesIn w (start w extra store) requests = false) := by
  have hstart := divided_start w extra store
  have hlast := hstart.run w requests
  refine ⟨hlast.allowsExactly_detached, fun a ha => hlast.allowsExactly_attached ha, ?_⟩
  have hattached : (start w extra store).attached.isSome = false := rfl
  rw [hlast.allAllowExactly_iff, isSome_attached_run hstart, hattached, Bool.false_or]

/-- With a workspace and a document, an extra library is no longer analysed. -/
theorem extra_library_lost_in_workspace :
    ¬ AllAllowExactly ["gallery"] (run bareWorld (start bareWorld ["gallery"] {})
      [.greet { rootPath := some "/ws" }, .load "/ws/a.py" ""]) := by
  rintro ⟨huse, -⟩
  have hlost : "gallery" ∉ ((run bareWorld (start bareWorld ["gallery"] {})
      [.greet { rootPath := some "/ws" },
        .load "/ws/a.py" ""]).analyzerOf .attached).session.allowed := by decide +kernel
  exact hlost ((huse "gallery").mpr (.inr (List.mem_singleton.mpr rfl)))

end Editor.Server

end ParamLens
