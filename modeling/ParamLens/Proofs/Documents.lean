import ParamLens.Editor.Server
import ParamLens.Proofs.Completions
import ParamLens.Proofs.Splicing
import ParamLens.Syntax.Sketch

/-! The documents of the server. Changes of an open document put the text in place that they mean,
and a change that does not fit leaves the server as it was. The classes that are read for a document
are those of the last analysis that its analyzer has made, of whatever document: the main statement
says exactly when they are still those of the document itself. -/

namespace ParamLens.Editor.Server

open Steps

/-! ### Analysing a document -/

/-- The server with the analyzer of its workspace, once the workspace is known. -/
def ready (w : World) (s : Server) : Server := ((attach w).run s).2

/-- The file of a path in an address; an empty path is none. -/
def fileOf (path : String) : Option Path := if path = "" then none else some (Path.ofText path)

theorem run_attach (w : World) (s : Server) : (attach w).run s = (.ok (), ready w s) := rfl

theorem run_onAnalyzer {α : Type} (o : Owner) (step : AnalysisM α) (s : Server) :
    (onAnalyzer o step).run s =
      ((step.run ⟨s.analyzerOf o, s.store⟩).1,
        { s.setAnalyzer (step.run ⟨s.analyzerOf o, s.store⟩).2.analyzer o with
          store := (step.run ⟨s.analyzerOf o, s.store⟩).2.store }) := rfl

theorem run_analyze (w : World) (address content : String) (s : Server) :
    (analyze w address content).run s =
      match Address.path? address with
      | none => (.error .malformedAddress, s)
      | some path =>
        match (onAnalyzer (ready w s).owner
          (Analysis.analyzeFile w content (fileOf path))).run (ready w s) with
        | (.ok found, next) => (.ok found.diagnostics,
            { next with
              documents := next.documents.insert address ⟨content, (ready w s).owner⟩ })
        | (.error failure, next) => (.error failure, next) := by
  simp only [analyze, run_bind, pathOf]
  cases Address.path? address with
  | none => rfl
  | some path =>
    simp only [run_pure, run_attach, run_get, run_modify, fileOf]
    rcases (onAnalyzer (ready w s).owner _).run (ready w s) with ⟨result, next⟩
    cases result <;> rfl

theorem run_change (w : World) (address : String) (edits : List Edit) (s : Server) :
    (change w address edits).run s =
      match s.documents.get? address with
      | none => (.ok none, s)
      | some document =>
        match applyEdits document.content edits with
        | .error failure => (.error failure, s)
        | .ok content =>
          match (analyze w address content).run s with
          | (.ok published, next) => (.ok (some published), next)
          | (.error failure, next) => (.error failure, next) := by
  simp only [change, run_bind, run_get]
  cases s.documents.get? address with
  | none => rfl
  | some document =>
    simp only [run_bind, run_mk_pure]
    cases applyEdits document.content edits with
    | error failure => rfl
    | ok content =>
      rcases hrun : (analyze w address content).run s with ⟨result, next⟩
      cases result <;> simp only [hrun, run_pure]

theorem content_of_analyze {w : World} {address content : String} {s next : Server}
    {published : List Diagnostic}
    (h : (analyze w address content).run s = (.ok published, next)) :
    (next.documents.get? address).map Document.content = some content := by
  rw [run_analyze] at h
  split at h
  · cases h
  · split at h
    · cases h
      simp
    · cases h

/-! ### Changes of an open document -/

/-- Changes of an open document whose places are in order. When each of them begins on a line of the
text before it, and the analysis of the text that they mean comes to its end, the document then
holds that text. Otherwise the change fails and the server is as it was. -/
theorem change_open_document (w : World) (s : Server) (address : String) (document : Document)
    (edits : List Edit) (hopen : s.documents.get? address = some document)
    (hordered : ∀ e ∈ edits, e.Ordered) :
    (AllFit document.content edits → ∀ published next,
      (analyze w address (meantText document.content edits)).run s = (.ok published, next) →
        (change w address edits).run s = (.ok (some published), next) ∧
        (next.documents.get? address).map Document.content =
          some (meantText document.content edits)) ∧
    (¬ AllFit document.content edits →
      (change w address edits).run s = (.error .lineOutOfRange, s)) := by
  constructor
  · intro hfit published next hanalyze
    refine ⟨?_, content_of_analyze hanalyze⟩
    simp only [run_change, hopen, applyEdits_of_allFit hordered hfit, hanalyze]
  · intro hfit
    simp only [run_change, hopen, applyEdits_of_not_allFit hordered hfit]

/-- A world without files, libraries and trees. -/
def bareWorld : World := { files := ⟨[], []⟩ }

/-- A server with one open document. -/
def serverWith (address content : String) : Server :=
  { types := []
    detached :=
      { workspace := none, extra := [], session := { allowed := [], infos := ∅ }, types := [] }
    documents := (∅ : Table Document).insert address ⟨content, .detached⟩
    store := {} }

/-- Two changes, the second on a line that the first has made and up to a line that is not there. -/
theorem change_open_document_lines :
    ∃ next,
      (change bareWorld "/a" [.between ⟨0, 2⟩ ⟨1, 9⟩ "x\ny", .between ⟨1, 1⟩ ⟨7, 0⟩ "!"]).run
        (serverWith "/a" "one\ntwo\nthree") = (.ok (some []), next) ∧
      (next.documents.get? "/a").map Document.content = some "onx\ny!" := by
  have htext : meantText "one\ntwo\nthree"
      [.between ⟨0, 2⟩ ⟨1, 9⟩ "x\ny", .between ⟨1, 1⟩ ⟨7, 0⟩ "!"] = "onx\ny!" := by decide
  have h := (change_open_document bareWorld (serverWith "/a" "one\ntwo\nthree") "/a"
    ⟨"one\ntwo\nthree", .detached⟩
    [.between ⟨0, 2⟩ ⟨1, 9⟩ "x\ny", .between ⟨1, 1⟩ ⟨7, 0⟩ "!"] rfl (by decide)).1
    (by decide) [] _ rfl
  rw [htext] at h
  exact ⟨_, h⟩

/-! ### What steps of an analyzer do to its latest analysis -/

/-- The step leaves the latest analysis as it was. -/
def SameLatest (s next : AnalysisState) : Prop := next.analyzer.latest = s.analyzer.latest

theorem frame_sameLatest : Frame SameLatest := ⟨fun _ => rfl, fun h₁ h₂ => h₂.trans h₁⟩

theorem sameLatest_externalClass (w : World) (path : Option String) :
    Leads SameLatest (Analysis.externalClass w path) := by
  cases path with
  | none => exact frame_sameLatest.pure none
  | some full =>
    refine frame_sameLatest.bind frame_sameLatest.get fun s => ?_
    split
    · exact frame_sameLatest.pure _
    · refine frame_sameLatest.bind (fun s => rfl) fun found => ?_
      exact frame_sameLatest.bind (fun s => rfl) fun _ => frame_sameLatest.pure found

theorem sameLatest_complete (w : World) (types : List String) (content : String)
    (place : Cursor) : Leads SameLatest (Editor.complete w types content place) :=
  leads_complete frame_sameLatest (sameLatest_externalClass w) types content place

/-- The step answers with the latest analysis that it leaves. -/
def AnswersLatest (x : AnalysisM Analysis) : Prop :=
  ∀ s found next, x.run s = (.ok found, next) → next.analyzer.latest = found

theorem answersLatest_bind {α : Type} (x : AnalysisM α) {f : α → AnalysisM Analysis}
    (h : ∀ a, AnswersLatest (f a)) : AnswersLatest (x >>= f) := by
  intro s found next hrun
  rw [run_bind] at hrun
  split at hrun
  · exact h _ _ found next hrun
  · cases hrun

/-- The analysis of a text with a tree leaves what it answers in the analyzer. -/
theorem answersLatest_analyzeFile {w : World} {content : String} {root : Syntax.Node}
    (htree : w.parse? content = some root) (current : Option Path) :
    AnswersLatest (Analysis.analyzeFile w content current) := by
  refine answersLatest_bind _ fun s => ?_
  rw [Analysis.analyzeWith, htree]
  refine answersLatest_bind _ fun _ => ?_
  refine answersLatest_bind _ fun _ => ?_
  refine answersLatest_bind _ fun _ => ?_
  refine answersLatest_bind _ fun _ => ?_
  refine answersLatest_bind _ fun _ => ?_
  intro s found next hrun
  cases hrun
  rfl

theorem run_analyzeFile_of_no_tree {w : World} {content : String} (htree : w.parse? content = none)
    (current : Option Path) (s : AnalysisState) :
    (Analysis.analyzeFile w content current).run s = (.ok {}, s) := by
  rw [Analysis.analyzeFile, run_bind, run_get]
  simp only [Analysis.analyzeWith, htree]
  rfl

/-! ### Requests -/

/-- What an editor can tell the server and ask of it. -/
inductive Request where
  | greet (greeting : Greeting)
  | load (address content : String)
  | change (address : String) (edits : List Edit)
  | complete (address : String) (place : Cursor)
  | hover (address : String) (place : Cursor)

namespace Request

/-- The server after a request. -/
def next (w : World) (s : Server) : Request → Server
  | .greet greeting => ((Server.greet greeting).run s).2
  | .load address content => ((analyze w address content).run s).2
  | .change address edits => ((Server.change w address edits).run s).2
  | .complete address place => ((Server.complete w address place).run s).2
  | .hover _ _ => s

/-- The document that a request opens or changes. -/
def subject? : Request → Option String
  | .load address _ => some address
  | .change address _ => some address
  | _ => none

/-- The text that a request gives to its document. -/
def text? (s : Server) : Request → Option String
  | .load _ content => some content
  | .change address edits => (s.documents.get? address).bind fun document =>
    (applyEdits document.content edits).toOption
  | _ => none

/-- The analysis that a request makes: whose analyzer makes it, what it answers, and what it leaves.
A request makes none when it has no text, its address is malformed, or its text has no tree. -/
def analysis? (w : World) (s : Server) (r : Request) :
    Option (Owner × Except Failure Analysis × AnalysisState) := do
  let address ← r.subject?
  let content ← r.text? s
  let path ← Address.path? address
  let _ ← w.parse? content
  let start := ready w s
  some (start.owner, (Analysis.analyzeFile w content (fileOf path)).run
    ⟨start.analyzerOf start.owner, start.store⟩)

/-- The classes that a request leaves in the analyzer of an owner, if it makes an analysis with
it. -/
def left? (w : World) (s : Server) (r : Request) (o : Owner) : Option Classes :=
  (r.analysis? w s).bind fun outcome =>
    if outcome.1 = o then some outcome.2.2.analyzer.latest.classes else none

end Request

/-- The server after requests, one after another. -/
def run (w : World) (s : Server) (requests : List Request) : Server :=
  requests.foldl (Request.next w) s

/-- The classes that the last of the requests which make an analysis with the analyzer of an owner
leaves in it. -/
def lastLeft? (w : World) : Server → List Request → Owner → Option Classes
  | _, [], _ => none
  | s, r :: rest, o => (lastLeft? w (r.next w s) rest o).or (r.left? w s o)

/-- The server has an analyzer of the owner. -/
def Has (s : Server) : Owner → Prop
  | .detached => True
  | .attached => s.attached.isSome

/-! ### One request -/

theorem ready_cases (w : World) (s : Server) :
    ready w s = s ∨
      s.attached = none ∧ ∃ root, ready w s =
        { s with
          attached := some (Analyzer.start w (some (Path.ofText root)) [] s.store).1
          store := (Analyzer.start w (some (Path.ofText root)) [] s.store).2 } := by
  simp only [ready, attach, run_modify]
  split
  · rename_i hnone
    exact Or.inr ⟨hnone, _, rfl⟩
  · exact Or.inl rfl

theorem documents_ready (w : World) (s : Server) : (ready w s).documents = s.documents := by
  rcases ready_cases w s with h | ⟨-, root, h⟩ <;> rw [h]

theorem analyzerOf_ready (w : World) {s : Server} {o : Owner} (h : s.Has o) :
    (ready w s).analyzerOf o = s.analyzerOf o := by
  rcases ready_cases w s with heq | ⟨hnone, root, heq⟩
  · rw [heq]
  · cases o with
    | detached =>
      rw [heq]
      rfl
    | attached => simp [Has, hnone] at h

theorem has_ready (w : World) {s : Server} {o : Owner} (h : s.Has o) : (ready w s).Has o := by
  rcases ready_cases w s with heq | ⟨hnone, root, heq⟩
  · rwa [heq]
  · cases o with
    | detached => trivial
    | attached => simp [Has, hnone] at h

theorem has_owner (s : Server) : s.Has s.owner := by
  rw [owner]
  split
  · assumption
  · trivial

section

variable {α : Type} {s : Server} {o : Owner}

theorem documents_onAnalyzer (maker : Owner) (step : AnalysisM α) (s : Server) :
    ((onAnalyzer maker step).run s).2.documents = s.documents := by
  cases maker <;> rfl

theorem has_onAnalyzer (maker : Owner) (step : AnalysisM α) (h : s.Has o) :
    ((onAnalyzer maker step).run s).2.Has o := by
  cases o with
  | detached => trivial
  | attached =>
    cases maker with
    | detached => exact h
    | attached => rfl

theorem analyzerOf_onAnalyzer (maker : Owner) (step : AnalysisM α) (h : s.Has o) :
    ((onAnalyzer maker step).run s).2.analyzerOf o =
      if maker = o then (step.run ⟨s.analyzerOf maker, s.store⟩).2.analyzer
      else s.analyzerOf o := by
  rw [run_onAnalyzer]
  cases o with
  | detached => cases maker <;> rfl
  | attached =>
    cases maker with
    | attached => rfl
    | detached =>
      obtain ⟨a, ha⟩ := Option.isSome_iff_exists.mp h
      simp [setAnalyzer, analyzerOf, ha]

end

theorem latest_onAnalyzer_of_sameLatest {α : Type} {s : Server} {o : Owner} (maker : Owner)
    {step : AnalysisM α} (hstep : Leads SameLatest step) (h : s.Has o) :
    (((onAnalyzer maker step).run s).2.analyzerOf o).latest = (s.analyzerOf o).latest := by
  rw [analyzerOf_onAnalyzer maker step h]
  split
  · rename_i hmaker
    rw [← hmaker]
    exact hstep ⟨s.analyzerOf maker, s.store⟩
  · rfl

theorem next_of_subject (w : World) (s : Server) {r : Request} {address : String}
    (h : r.subject? = some address) :
    r.next w s = match r.text? s with
      | none => s
      | some content => ((analyze w address content).run s).2 := by
  cases r with
  | greet | complete | hover => simp [Request.subject?] at h
  | load other content =>
    cases h
    rfl
  | change other edits =>
    cases h
    rw [Request.next, run_change, Request.text?]
    cases s.documents.get? address with
    | none => rfl
    | some document =>
      cases hedits : applyEdits document.content edits with
      | error failure => simp [hedits, Except.toOption]
      | ok content =>
        rcases hrun : (analyze w address content).run s with ⟨result, next⟩
        cases result <;> simp [hedits, hrun, Except.toOption]

/-- What the analysis of a document does to the server, but for the document itself. -/
theorem analyze_cases (w : World) (address content : String) (s : Server) :
    Address.path? address = none ∧ ((analyze w address content).run s).2 = s ∨
    ∃ path documents, Address.path? address = some path ∧
      (∀ other, other ≠ address → documents.get? other = s.documents.get? other) ∧
      ((analyze w address content).run s).2 =
        { ((onAnalyzer (ready w s).owner (Analysis.analyzeFile w content (fileOf path))).run
          (ready w s)).2 with documents := documents } := by
  rw [run_analyze]
  cases Address.path? address with
  | none => exact Or.inl ⟨rfl, rfl⟩
  | some path =>
    refine Or.inr ⟨path, ?_⟩
    have hdocuments := documents_onAnalyzer (ready w s).owner
      (Analysis.analyzeFile w content (fileOf path)) (ready w s)
    rw [documents_ready] at hdocuments
    rcases hrun : (onAnalyzer (ready w s).owner
      (Analysis.analyzeFile w content (fileOf path))).run (ready w s) with ⟨result, next⟩
    rw [hrun] at hdocuments
    cases result with
    | error failure =>
      refine ⟨next.documents, rfl, ?_, by simp only [hrun]⟩
      intro other _
      rw [hdocuments]
    | ok found =>
      refine ⟨next.documents.insert address ⟨content, (ready w s).owner⟩, rfl, ?_,
        by simp only [hrun]⟩
      intro other hne
      rw [Table.get?_insert_ne _ hne, hdocuments]

theorem run_greet_cases (greeting : Greeting) (s : Server) :
    ∃ workspace, ((greet greeting).run s).2 = { s with workspace := workspace } := by
  have hpath (address : String) : ∃ workspace, ((do
      let path ← pathOf address
      modify fun s => { s with workspace := some path } : ServerM Unit).run s).2 =
        { s with workspace := workspace } := by
    rw [run_bind, pathOf]
    cases Address.path? address with
    | none => exact ⟨s.workspace, rfl⟩
    | some path => exact ⟨some path, rfl⟩
  rw [greet]
  split
  · exact hpath _
  · exact hpath _
  · exact ⟨_, rfl⟩
  · exact ⟨s.workspace, rfl⟩

theorem run_complete (w : World) (address : String) (place : Cursor) (s : Server) :
    (complete w address place).run s = match s.documents.get? address with
      | none => (.ok [], s)
      | some document => (onAnalyzer document.owner
          (Editor.complete w s.types document.content place)).run s := by
  rw [complete, run_bind, run_get]
  simp only [onDocument, run_bind, run_get]
  cases s.documents.get? address <;> rfl

theorem run_complete_cases (w : World) (address : String) (place : Cursor) (s : Server) :
    ((complete w address place).run s).2 = s ∨
    ∃ document : Document, ((complete w address place).run s).2 =
      ((onAnalyzer document.owner
        (Editor.complete w s.types document.content place)).run s).2 := by
  rw [run_complete]
  cases s.documents.get? address with
  | none => exact Or.inl rfl
  | some document => exact Or.inr ⟨document, rfl⟩

/-- The request leaves every document, every analyzer and its latest analysis in place. -/
structure Quiet (s next : Server) : Prop where
  documents : next.documents = s.documents
  has {o : Owner} : s.Has o → next.Has o
  latest {o : Owner} : s.Has o → (next.analyzerOf o).latest = (s.analyzerOf o).latest

theorem Quiet.refl (s : Server) : Quiet s s := ⟨rfl, id, fun _ => rfl⟩

theorem quiet_next (w : World) (s : Server) {r : Request} (h : r.subject? = none) :
    Quiet s (r.next w s) := by
  cases r with
  | load | change => simp [Request.subject?] at h
  | hover => exact Quiet.refl s
  | greet greeting =>
    obtain ⟨workspace, heq⟩ := run_greet_cases greeting s
    rw [Request.next, heq]
    exact ⟨rfl, fun {o} hhas => by cases o <;> exact hhas, fun {o} _ => by cases o <;> rfl⟩
  | complete address place =>
    rw [Request.next]
    rcases run_complete_cases w address place s with heq | ⟨document, heq⟩
    · rw [heq]
      exact Quiet.refl s
    · have hstep := sameLatest_complete w s.types document.content place
      rw [heq]
      exact ⟨documents_onAnalyzer _ _ s, has_onAnalyzer _ _,
        latest_onAnalyzer_of_sameLatest document.owner hstep⟩

theorem has_with_documents {s : Server} {o : Owner} (documents : Table Document) (h : s.Has o) :
    { s with documents := documents }.Has o := by
  cases o <;> exact h

theorem analyzerOf_with_documents (s : Server) (o : Owner) (documents : Table Document) :
    { s with documents := documents }.analyzerOf o = s.analyzerOf o := by
  cases o <;> rfl

theorem has_next (w : World) {s : Server} {o : Owner} (h : s.Has o) (r : Request) :
    (r.next w s).Has o := by
  cases hsubject : r.subject? with
  | none => exact (quiet_next w s hsubject).has h
  | some address =>
    rw [next_of_subject w s hsubject]
    cases r.text? s with
    | none => exact h
    | some content =>
      rcases analyze_cases w address content s with ⟨-, heq⟩ | ⟨path, documents, -, -, heq⟩
      · simpa only [heq] using h
      · simp only [heq]
        exact has_with_documents documents (has_onAnalyzer _ _ (has_ready w h))

theorem documents_next (w : World) (s : Server) {r : Request} {u : String}
    (h : r.subject? ≠ some u) : (r.next w s).documents.get? u = s.documents.get? u := by
  cases hsubject : r.subject? with
  | none => rw [(quiet_next w s hsubject).documents]
  | some address =>
    have hne : u ≠ address := fun e => h (e ▸ hsubject)
    rw [next_of_subject w s hsubject]
    cases r.text? s with
    | none => rfl
    | some content =>
      rcases analyze_cases w address content s with ⟨-, heq⟩ | ⟨path, documents, -, hothers, heq⟩
      · simp only [heq]
      · simp only [heq]
        exact hothers u hne

/-- After a request the analyzer of an owner holds the classes that the request leaves in it, or
those that it held before. -/
theorem classes_next (w : World) {s : Server} {o : Owner} (h : s.Has o) (r : Request) :
    ((r.next w s).analyzerOf o).latest.classes =
      (r.left? w s o).getD (s.analyzerOf o).latest.classes := by
  cases hsubject : r.subject? with
  | none =>
    have hnone : r.left? w s o = none := by simp [Request.left?, Request.analysis?, hsubject]
    rw [(quiet_next w s hsubject).latest h, hnone, Option.getD_none]
  | some address =>
    rw [next_of_subject w s hsubject]
    cases htext : r.text? s with
    | none =>
      have hnone : r.left? w s o = none := by
        simp [Request.left?, Request.analysis?, hsubject, htext]
      rw [hnone, Option.getD_none]
    | some content =>
      rcases analyze_cases w address content s with ⟨hpath, heq⟩ | ⟨path, documents, hpath, -, heq⟩
      · have hnone : r.left? w s o = none := by
          simp [Request.left?, Request.analysis?, hsubject, htext, hpath]
        simp only [heq, hnone, Option.getD_none]
      · simp only [heq]
        rw [analyzerOf_with_documents, analyzerOf_onAnalyzer _ _ (has_ready w h),
          analyzerOf_ready w h]
        cases htree : w.parse? content with
        | none =>
          have hnone : r.left? w s o = none := by
            simp [Request.left?, Request.analysis?, hsubject, htext, htree]
          rw [run_analyzeFile_of_no_tree htree, hnone, Option.getD_none]
          split
          · rename_i howner
            rw [howner, analyzerOf_ready w h]
          · rfl
        | some root =>
          simp only [Request.left?, Request.analysis?, hsubject, htext, hpath, htree,
            Option.bind_eq_bind, Option.bind_some]
          split <;> rfl

/-! ### Runs -/

theorem documents_run (w : World) (s : Server) {requests : List Request} {u : String}
    (h : ∀ r ∈ requests, r.subject? ≠ some u) :
    (run w s requests).documents.get? u = s.documents.get? u := by
  induction requests generalizing s with
  | nil => rfl
  | cons r rest ih =>
    have hrest := ih (r.next w s) fun q hq => h q (List.mem_cons_of_mem _ hq)
    exact hrest.trans (documents_next w s (h r List.mem_cons_self))

theorem classes_run (w : World) {s : Server} {o : Owner} (h : s.Has o) (requests : List Request) :
    ((run w s requests).analyzerOf o).latest.classes =
      (lastLeft? w s requests o).getD (s.analyzerOf o).latest.classes := by
  induction requests generalizing s with
  | nil => rfl
  | cons r rest ih =>
    have hrest := ih (has_next w h r)
    rw [classes_next w h r] at hrest
    rw [run, List.foldl_cons, ← run, hrest, lastLeft?]
    cases lastLeft? w (r.next w s) rest o <;> simp

/-- A request that opens or changes a document, and whose analysis comes to its end, leaves the
document with its analyzer, and the classes of the analysis in that analyzer. -/
theorem next_of_analysis {w : World} {s : Server} {r : Request} {u : String} {o : Owner}
    {found : Analysis} {left : AnalysisState} (hsubject : r.subject? = some u)
    (hanalysis : r.analysis? w s = some (o, .ok found, left)) :
    ((r.next w s).documents.get? u).map Document.owner = some o ∧ (r.next w s).Has o ∧
      ((r.next w s).analyzerOf o).latest.classes = found.classes := by
  simp only [Request.analysis?, hsubject, Option.bind_eq_bind, Option.bind_some,
    Option.bind_eq_some_iff] at hanalysis
  obtain ⟨content, htext, path, hpath, root, htree, houtcome⟩ := hanalysis
  obtain ⟨rfl, hrun⟩ := Prod.mk.inj (Option.some.inj houtcome)
  have hlatest := answersLatest_analyzeFile htree (fileOf path) _ _ _ hrun
  have hhas : (ready w s).Has (ready w s).owner := has_owner (ready w s)
  have hnext : r.next w s =
      { ((onAnalyzer (ready w s).owner (Analysis.analyzeFile w content (fileOf path))).run
        (ready w s)).2 with
        documents := s.documents.insert u ⟨content, (ready w s).owner⟩ } := by
    rw [next_of_subject w s hsubject, htext]
    simp only [run_analyze, hpath, run_onAnalyzer, hrun]
    cases (ready w s).owner <;> simp [setAnalyzer, documents_ready]
  refine ⟨?_, ?_, ?_⟩
  · rw [hnext]
    simp
  · rw [hnext]
    exact has_with_documents _ (has_onAnalyzer _ _ hhas)
  · rw [hnext, analyzerOf_with_documents, analyzerOf_onAnalyzer _ _ hhas, if_pos rfl, hrun, hlatest]

/-- Let a request open or change a document, let its analysis come to its end, and let no later
request open or change that document. The classes then read for the document are those that the last
later analysis with the same analyzer has left, if there was one. So they are the classes that were
found in the document exactly when no such analysis was made, or the last one has left the same. -/
theorem classesOf_run_iff (w : World) (s : Server) (r : Request) (later : List Request) (u : String)
    (o : Owner) (found : Analysis) (left : AnalysisState) (hsubject : r.subject? = some u)
    (hanalysis : r.analysis? w s = some (o, .ok found, left))
    (hlater : ∀ q ∈ later, q.subject? ≠ some u) :
    (run w (r.next w s) later).classesOf? u =
      some ((lastLeft? w (r.next w s) later o).getD found.classes) ∧
    ((run w (r.next w s) later).classesOf? u = some found.classes ↔
      ∀ classes, lastLeft? w (r.next w s) later o = some classes → classes = found.classes) := by
  obtain ⟨howner, hhas, hclasses⟩ := next_of_analysis hsubject hanalysis
  have hread : (run w (r.next w s) later).classesOf? u =
      some ((lastLeft? w (r.next w s) later o).getD found.classes) := by
    obtain ⟨document, hdocument, rfl⟩ := Option.map_eq_some_iff.mp howner
    rw [classesOf?, documents_run w (r.next w s) hlater, hdocument, Option.map_some,
      classes_run w hhas later, hclasses]
  refine ⟨hread, ?_⟩
  rw [hread]
  cases lastLeft? w (r.next w s) later o <;> simp

/-! ### Two documents -/

section

open Syntax Sketch

/-- A document that declares a class with parameters. -/
def classDocument : Sketch :=
  file [importsModule ["param"], classed "A" [member "param" "Parameterized"] []]

def classText : String := classDocument.written

example : classText = "import param\nclass A(param.Parameterized):\n    pass" := by decide +kernel

/-- A world with the trees of two texts, of which the second is empty. -/
def twoTexts : World :=
  { files := ⟨[], []⟩, trees := [(classText, classDocument.node), ("", (file []).node)] }

end

theorem exists_analysis_classText :
    ∃ found left, (Request.load "/a.py" classText).analysis? twoTexts (start twoTexts [] {}) =
      some (.detached, .ok found, left) ∧ found.classes.names = ["A:1"] := by
  have hfound : ((Request.load "/a.py" classText).analysis? twoTexts (start twoTexts [] {})).map
      (fun outcome => (outcome.1, outcome.2.1.toOption.map (·.classes.names))) =
        some (.detached, some ["A:1"]) := by decide +kernel
  obtain ⟨⟨o, answer, left⟩, hanalysis, heq⟩ := Option.map_eq_some_iff.mp hfound
  cases answer with
  | error failure => simp [Except.toOption] at heq
  | ok found =>
    simp only [Except.toOption, Option.map_some, Prod.mk.injEq, Option.some.injEq] at heq
    obtain ⟨rfl, hnames⟩ := heq
    exact ⟨found, left, hanalysis, hnames⟩

/-- The condition at two documents: the second one is opened, and has no classes. -/
theorem classesOf_run_iff_two_documents :
    ∃ found left, (Request.load "/a.py" classText).analysis? twoTexts (start twoTexts [] {}) =
        some (.detached, .ok found, left) ∧
      ((run twoTexts ((Request.load "/a.py" classText).next twoTexts (start twoTexts [] {}))
        [.load "/b.py" ""]).classesOf? "/a.py" = some found.classes ↔
        ∀ classes, lastLeft? twoTexts
          ((Request.load "/a.py" classText).next twoTexts (start twoTexts [] {}))
          [.load "/b.py" ""] .detached = some classes → classes = found.classes) := by
  obtain ⟨found, left, hanalysis, -⟩ := exists_analysis_classText
  exact ⟨found, left, hanalysis, (classesOf_run_iff twoTexts (start twoTexts [] {})
    (.load "/a.py" classText) [.load "/b.py" ""] "/a.py" .detached found left rfl hanalysis
    (by decide)).2⟩

/-- A document loses its classes when another one is opened. -/
theorem classesOf_lost_by_other_document :
    ∃ found left, (Request.load "/a.py" classText).analysis? twoTexts (start twoTexts [] {}) =
        some (.detached, .ok found, left) ∧
      (run twoTexts (start twoTexts [] {})
        [.load "/a.py" classText, .load "/b.py" ""]).classesOf? "/a.py" ≠ some found.classes := by
  obtain ⟨found, left, hanalysis, hnames⟩ := exists_analysis_classText
  refine ⟨found, left, hanalysis, ?_⟩
  intro hkept
  have hlost : ((run twoTexts (start twoTexts [] {})
      [.load "/a.py" classText, .load "/b.py" ""]).classesOf? "/a.py").map Table.names =
        some [] := by decide +kernel
  rw [hkept, Option.map_some, hnames] at hlost
  cases hlost

end ParamLens.Editor.Server
