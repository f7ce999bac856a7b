import ParamLens.Proofs.Analyses
import ParamLens.Proofs.Documents
import ParamLens.Proofs.Importers
import ParamLens.Proofs.Places
import ParamLens.Proofs.Sites

/-! The positions that the server publishes. A diagnostic stands at a node of the tree of the
document, and its columns count bytes. They count characters exactly where the line has only
characters of one byte up to the node's end; there the published range is the range that edits
use. -/

namespace ParamLens.Analysis

open Syntax Steps Check

/-- The diagnostics of an analysis are made at nodes of the tree of the text; a text without a tree
has none. -/
theorem madeIn_of_analyzeWith {importer : Importer} {w : World} {content : String}
    {current : Option Path} {s next : AnalysisState} {a : Analysis}
    (h : (analyzeWith importer w content current).run s = (.ok a, next)) {d : Diagnostic}
    (hd : d ∈ a.diagnostics) :
    ∃ root, w.parse? content = some root ∧ ∃ n ∈ root.walk, MadeAt n d := by
  cases htree : w.parse? content with
  | none =>
    rw [analyzeWith, htree] at h
    obtain rfl : ({} : Analysis) = a := Except.ok.inj (congrArg Prod.fst h)
    cases hd
  | some root =>
    refine ⟨root, rfl, ?_⟩
    rw [run_analyzeWith htree] at h
    split at h
    · next prepared hprepared =>
      rw [run_conclude, run_bind, run_lift] at h
      have hmade := ends_checkFile (knownOf w prepared.analyzer)
        (fun path => onLibraries (Library.find? w path)) root prepared trivial
      have hfound : (Check.checkFile (knownOf w prepared.analyzer)
          (fun path => onLibraries (Library.find? w path)) root prepared).1 = a.diagnostics := by
        rw [← Except.ok.inj (congrArg Prod.fst h)]
      exact hmade d (hfound ▸ hd)
    · cases h

end ParamLens.Analysis

namespace ParamLens.Editor.Server

open Syntax Steps Check Text

/-- In a state of the server, diagnostics are published about a text: when a document is opened or
changed. -/
inductive Publishes (w : World) (s : Server) : String → List Diagnostic → Prop
  | opened {address content : String} {ds : List Diagnostic} {next : Server} :
      (analyze w address content).run s = (.ok ds, next) → Publishes w s content ds
  | changed {address content : String} {document : Document} {edits : List Edit}
      {ds : List Diagnostic} {next : Server} :
      s.documents.get? address = some document → applyEdits document.content edits = .ok content →
      (change w address edits).run s = (.ok (some ds), next) → Publishes w s content ds

theorem Publishes.exists_analyze {w : World} {s : Server} {content : String}
    {ds : List Diagnostic} (h : Publishes w s content ds) :
    ∃ address next, (analyze w address content).run s = (.ok ds, next) := by
  cases h with
  | opened h => exact ⟨_, _, h⟩
  | @changed address _ document edits _ next hopen hedits h =>
    rw [run_change, hopen] at h
    simp only [hedits] at h
    rcases hrun : (analyze w address content).run s with ⟨result, next'⟩
    rw [hrun] at h
    cases result with
    | error failure => cases h
    | ok published =>
      obtain rfl : published = ds := by simpa using congrArg Prod.fst h
      exact ⟨address, next', hrun⟩

theorem Publishes.madeIn {w : World} {s : Server} {content : String} {ds : List Diagnostic}
    (h : Publishes w s content ds) {d : Diagnostic} (hd : d ∈ ds) :
    ∃ root, w.parse? content = some root ∧ ∃ n ∈ root.walk, MadeAt n d := by
  obtain ⟨address, next, hrun⟩ := h.exists_analyze
  rw [run_analyze] at hrun
  cases hpath : Address.path? address with
  | none =>
    rw [hpath] at hrun
    cases hrun
  | some path =>
    rw [hpath] at hrun
    dsimp only at hrun
    rw [run_onAnalyzer] at hrun
    rcases hfile : (Analysis.analyzeFile w content (fileOf path)).run
      ⟨(ready w s).analyzerOf (ready w s).owner, (ready w s).store⟩ with ⟨result, left⟩
    rw [hfile] at hrun
    cases result with
    | error failure => cases hrun
    | ok found =>
      obtain rfl : found.diagnostics = ds := Except.ok.inj (congrArg Prod.fst hrun)
      rw [Analysis.run_analyzeFile] at hfile
      exact Analysis.madeIn_of_analyzeWith hfile hd

theorem apply_between_line {content line : String} {row start stop : Nat}
    (h : (lines content)[row]? = some line) (text : String) :
    (Edit.between ⟨row, start⟩ ⟨row, stop⟩ text).apply content =
      .ok (unlines ((lines content).set row (take line start ++ text ++ drop line stop))) := by
  simp only [Edit.apply, replaceLines?, h, Option.map_some, if_true, List.getD_eq_getElem?_getD,
    Option.getD_some]

/-- Every diagnostic that the server publishes is made at a node of the tree of the document. Where
the node is on one line, the columns count the bytes of the line before the node and up to its end.
They count the characters exactly if those characters take one byte each; then the characters in
the published range are the node's text, and an edit of the range replaces that text. -/
theorem published_range {w : World} {s : Server} {content : String} {ds : List Diagnostic}
    (h : Publishes w s content ds) (d : Diagnostic) (hd : d ∈ ds) :
    ∃ root n, w.parse? content = some root ∧ n ∈ root.walk ∧ MadeAt n d ∧
      ∀ outline : Outline, root = outline.toNode content → outline.Fits content →
        d.start.row = d.stop.row →
        ∃ before after : String,
          (lines content)[d.start.row]? = some (before ++ n.text ++ after) ∧
          d.start.column = before.utf8ByteSize ∧
          d.stop.column = (before ++ n.text).utf8ByteSize ∧
          (d.start.column = length before ↔ IsAscii before) ∧
          (d.stop.column = length (before ++ n.text) ↔ IsAscii (before ++ n.text)) ∧
          (IsAscii (before ++ n.text) →
            slice (before ++ n.text ++ after) d.start.column d.stop.column = n.text ∧
            ∀ new, (Edit.between ⟨d.start.row, d.start.column⟩ ⟨d.stop.row, d.stop.column⟩
              new).apply content =
                .ok (unlines ((lines content).set d.start.row (before ++ new ++ after)))) := by
  obtain ⟨root, htree, n, hn, hmade⟩ := h.madeIn hd
  refine ⟨root, n, htree, hn, hmade, ?_⟩
  rintro outline rfl fits hrow
  rw [hmade.1, hmade.2] at hrow ⊢
  obtain ⟨before, after, hline, hstart, hstop⟩ := exists_line_of_mem_walk fits hn hrow
  have hcount (part : String) : part.utf8ByteSize = length part ↔ IsAscii part := by
    rw [← size_toList]
    exact size_eq_length_iff part.toList
  refine ⟨before, after, hline, hstart, hstop, hstart ▸ hcount before, hstop ▸ hcount _, ?_⟩
  intro hascii
  have hbefore : n.span.start.column = before.toList.length := by
    rw [hstart]
    exact (hcount before).mpr fun c hc => hascii c (by simp [hc])
  have hupTo : n.span.stop.column = (before ++ n.text).toList.length := by
    rw [hstop]
    exact (hcount _).mpr hascii
  have htake : take (before ++ n.text ++ after) n.span.start.column = before := by
    refine String.toList_injective ?_
    rw [toList_take, hbefore, String.append_assoc, String.toList_append, List.take_left]
  have hdrop : drop (before ++ n.text ++ after) n.span.stop.column = after := by
    refine String.toList_injective ?_
    rw [toList_drop, hupTo, String.toList_append (s := before ++ n.text), List.drop_left]
  constructor
  · refine String.toList_injective ?_
    rw [slice, String.toList_ofList, hbefore, hupTo, String.toList_append (s := before ++ n.text),
      List.take_left, String.toList_append, List.drop_left]
  · intro new
    rw [← hrow, apply_between_line hline, htake, hdrop]

/-- A document with a parameter of the name, whose default has another type. -/
def documentText (name : String) : String :=
  "import param\nclass A(param.Parameterized):\n    " ++ name ++
    " = param.Integer(default=\"a\") # x"

/-- The outline of the document; its name ends at an offset in bytes. -/
def documentOutline (stop : Nat) : Outline :=
  ⟨"module", 0, stop + 33, none,
    [⟨"import_statement", 0, 12, none,
      [⟨"dotted_name", 7, 12, some "name", [⟨"identifier", 7, 12, none, []⟩]⟩]⟩,
     ⟨"class_definition", 13, stop + 29, none,
      [⟨"identifier", 19, 20, some "name", []⟩,
       ⟨"argument_list", 20, 41, some "superclasses",
        [⟨"attribute", 21, 40, none,
          [⟨"identifier", 21, 26, some "object", []⟩,
           ⟨"identifier", 27, 40, some "attribute", []⟩]⟩]⟩,
       ⟨"block", 47, stop + 29, some "body",
        [⟨"expression_statement", 47, stop + 29, none,
          [⟨"assignment", 47, stop + 29, none,
            [⟨"identifier", 47, stop, some "left", []⟩,
             ⟨"call", stop + 3, stop + 29, some "right",
              [⟨"attribute", stop + 3, stop + 16, some "function",
                [⟨"identifier", stop + 3, stop + 8, some "object", []⟩,
                 ⟨"identifier", stop + 9, stop + 16, some "attribute", []⟩]⟩,
               ⟨"argument_list", stop + 16, stop + 29, some "arguments",
                [⟨"keyword_argument", stop + 17, stop + 28, none,
                  [⟨"identifier", stop + 17, stop + 24, some "name", []⟩,
                   ⟨"string", stop + 25, stop + 28, some "value", []⟩]⟩]⟩]⟩]⟩]⟩]⟩]⟩]⟩

/-- A world that knows the tree of the document with the name. -/
def documentWorld (name : String) : World :=
  { files := ⟨[], []⟩
    trees := [(documentText name,
      (documentOutline (47 + name.utf8ByteSize)).toNode (documentText name))] }

/-- What is published when the document is opened. -/
def documentDiagnostics (name : String) : Except Failure (List Diagnostic) :=
  ((analyze (documentWorld name) "/a.py" (documentText name)).run
    (start (documentWorld name) [] {})).1

theorem parse?_documentWorld (name : String) :
    (documentWorld name).parse? (documentText name) =
      some ((documentOutline (47 + name.utf8ByteSize)).toNode (documentText name)) := by
  simp [documentWorld, World.parse?]

theorem publishes_document {name : String} {ds : List Diagnostic}
    (h : documentDiagnostics name = .ok ds) :
    Publishes (documentWorld name) (start (documentWorld name) [] {}) (documentText name) ds :=
  .opened (Prod.ext h rfl)

/-- In a document with only characters of one byte, the characters in the published range are those
of the node. -/
theorem published_range_document : ∃ d root n,
    Publishes (documentWorld "x") (start (documentWorld "x") [] {}) (documentText "x") [d] ∧
    (documentWorld "x").parse? (documentText "x") = some root ∧ n ∈ root.walk ∧ MadeAt n d ∧
    ∃ line, (lines (documentText "x"))[d.start.row]? = some line ∧
      slice line d.start.column d.stop.column = n.text := by
  have hanswer : documentDiagnostics "x" = .ok [⟨⟨2, 4⟩, ⟨2, 34⟩, .typeMismatch,
      "Parameter 'x' of type Integer expects int but got str"⟩] := by decide +kernel
  have hpublishes := publishes_document hanswer
  obtain ⟨root, n, htree, hn, hmade, hrange⟩ := published_range hpublishes _ List.mem_cons_self
  refine ⟨_, root, n, hpublishes, htree, hn, hmade, ?_⟩
  have hroot := Option.some.inj (htree.symm.trans (parse?_documentWorld "x"))
  obtain ⟨before, after, hline, -, -, -, -, hascii⟩ := hrange _ hroot (by decide +kernel) rfl
  refine ⟨_, hline, (hascii fun c hc => ?_).1⟩
  have hall : ∀ line ∈ (lines (documentText "x"))[2]?, IsAscii line := by decide +kernel
  exact hall _ hline c (by
    rw [String.toList_append (s := before ++ n.text)]
    exact List.mem_append_left _ hc)

/-- Behind a character of two bytes the published range is off: its characters are the text of no
node that stands there. -/
theorem published_range_two_bytes : ∃ d root,
    Publishes (documentWorld "é") (start (documentWorld "é") [] {}) (documentText "é") [d] ∧
    (documentWorld "é").parse? (documentText "é") = some root ∧
    (∃ outline : Outline, root = outline.toNode (documentText "é") ∧
      outline.Fits (documentText "é")) ∧
    d.start.row = d.stop.row ∧ ∀ n ∈ root.walk, MadeAt n d →
      ∀ line ∈ (lines (documentText "é"))[d.start.row]?,
        slice line d.start.column d.stop.column ≠ n.text := by
  have hanswer : documentDiagnostics "é" = .ok [⟨⟨2, 4⟩, ⟨2, 35⟩, .typeMismatch,
      "Parameter 'é' of type Integer expects int but got str"⟩] := by decide +kernel
  refine ⟨_, _, publishes_document hanswer, parse?_documentWorld "é",
    ⟨_, rfl, by decide +kernel⟩, rfl, ?_⟩
  have hnodes : ∀ n ∈ ((documentOutline 49).toNode (documentText "é")).walk,
      n.span.start = ⟨2, 4⟩ → n.span.stop = ⟨2, 35⟩ →
      ∀ line ∈ (lines (documentText "é"))[2]?, slice line 4 35 ≠ n.text := by decide +kernel
  intro n hn hmade
  exact hnodes n hn hmade.1.symm hmade.2.symm

end ParamLens.Editor.Server
