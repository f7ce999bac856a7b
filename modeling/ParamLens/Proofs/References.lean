import ParamLens.Proofs.AllowedLibraries
import ParamLens.Proofs.Histories
import ParamLens.Proofs.KnownTypes
import ParamLens.Proofs.Splitting
import ParamLens.Proofs.Verdicts

/-! References to classes of libraries. A reference is a plain name or a chain of names, and its
full name is what is written with the first name replaced by what an import binds it to. Chains are
looked up by their full names in all four uses: when calls are discovered, as bases of classes, when
calls are checked and when they are completed. Of a plain name only discovery looks up the full
name, so that a class that is imported by its name is known, but no call of it is checked. -/

namespace ParamLens.Syntax.Node

/-- The node writes the names: one as a plain name, several as members of what the names before the
last one write. -/
inductive Names : Node → List String → Prop
  | plain {n : Node} : n.kind = .identifier → '.' ∉ n.text.toList → Names n [n.text]
  | member {n object last : Node} {parts : List String} : n.kind = .attribute →
      n.child? .object = some object → Names object parts → n.child? .attribute = some last →
      '.' ∉ last.text.toList → Names n (parts ++ [last.text])

namespace Names

variable {n : Node} {parts : List String}

theorem ne_nil (h : Names n parts) : parts ≠ [] := by
  cases h <;> simp

theorem dotless (h : Names n parts) : ∀ part ∈ parts, '.' ∉ part.toList := by
  induction h with
  | plain _ hdot => simpa using hdot
  | member _ _ _ _ hdot ih =>
    intro part hpart
    rcases List.mem_append.mp hpart with hpart | hpart
    · exact ih part hpart
    · rwa [List.mem_singleton.mp hpart]

theorem chain_eq (h : Names n parts) : n.chain = parts := by
  induction h with
  | plain hkind _ =>
    rw [chain]
    simp only [hkind]
  | member hkind hobject _ hlast _ ih =>
    rw [chain]
    simp only [hkind, hlast, Option.toList_some, List.map_cons, List.map_nil]
    split
    · next found hfound =>
      obtain rfl := Option.some.inj (hobject.symm.trans hfound)
      rw [ih]
    · next hnone =>
      rw [hobject] at hnone
      cases hnone

theorem one_or_more (h : Names n parts) :
    (∃ name, parts = [name]) ∨ ∃ first next rest, parts = first :: next :: rest := by
  match parts, h.ne_nil with
  | [name], _ => exact .inl ⟨name, rfl⟩
  | first :: next :: rest, _ => exact .inr ⟨first, next, rest, rfl⟩

theorem of_singleton {name : String} (h : Names n [name]) :
    n.kind = .identifier ∧ n.text = name := by
  generalize hparts : [name] = parts at h
  cases h with
  | plain hkind _ => exact ⟨hkind, by simpa using hparts.symm⟩
  | @member _ _ _ before _ _ hbefore _ _ =>
    have hlength := congrArg List.length hparts
    exact absurd (by simpa using hlength) hbefore.ne_nil

theorem of_cons_cons {first next : String} {rest : List String}
    (h : Names n (first :: next :: rest)) :
    n.kind = .attribute ∧
      (n.child? .attribute).map Node.text = (first :: next :: rest).getLast? := by
  generalize hparts : first :: next :: rest = parts at h
  cases h with
  | plain => simp at hparts
  | member hkind _ _ hlast _ => exact ⟨hkind, by simp [hlast]⟩

end Names

end ParamLens.Syntax.Node

namespace ParamLens.Analysis

open Syntax Steps Check Editor

/-! ### Looking up classes of libraries -/

/-- The step looks up at most the class of a library with the name, and looks up that. -/
def LooksUp {α : Type} (x : AnalysisM α) (s : AnalysisState) (path : Option String) : Prop :=
  ∀ name, (x.run s).2.analyzer.external.contains name = true ↔
    s.analyzer.external.contains name = true ∨ path = some name

section

variable {α β : Type} {w : World} {s : AnalysisState}

theorem looksUp_pure (a : α) : LooksUp (pure a) s none := by
  intro name
  rw [run_pure]
  simp

theorem LooksUp.congr {x : AnalysisM α} {y : AnalysisM β} {path : Option String}
    (h : LooksUp x s path) (hrun : (y.run s).2 = (x.run s).2) : LooksUp y s path := by
  intro name
  rw [hrun]
  exact h name

theorem LooksUp.bind_pure {x : AnalysisM α} {path : Option String} (h : LooksUp x s path)
    (f : α → β) : LooksUp (x >>= fun a => pure (f a)) s path := by
  refine h.congr ?_
  rw [run_bind]
  rcases x.run s with ⟨_ | a, next⟩ <;> rfl

theorem external_onLibraries (step : Library.LibraryM α) (s : AnalysisState) :
    (onLibraries step s).2.analyzer.external = s.analyzer.external := rfl

theorem run_changeAnalyzer (f : Analyzer → Analyzer) (s : AnalysisState) :
    (changeAnalyzer f).run s = (.ok (), { s with analyzer := f s.analyzer }) := rfl

theorem run_externalClass (w : World) (full : String) (s : AnalysisState) :
    ∃ found next, (externalClass w (some full)).run s = (.ok found, next) ∧
      ∀ name, next.analyzer.external.contains name = true ↔
        s.analyzer.external.contains name = true ∨ full = name := by
  rw [externalClass, run_bind, run_get]
  dsimp only
  split
  · next known hknown =>
    have hcontains : s.analyzer.external.contains full = true := by
      rw [Table.contains_eq_isSome, hknown, Option.isSome_some]
    exact ⟨known, s, rfl, fun name => ⟨.inl, fun h => h.elim id fun hname => hname ▸ hcontains⟩⟩
  · rw [run_bind, run_lift]
    dsimp only
    rw [run_bind, run_changeAnalyzer]
    refine ⟨_, _, rfl, fun name => ?_⟩
    rw [Table.contains_insert, external_onLibraries]

theorem run_externalClass_ok (w : World) (path : Option String) (s : AnalysisState) :
    ∃ found, (externalClass w path).run s = (.ok found, ((externalClass w path).run s).2) := by
  cases path with
  | none => exact ⟨none, rfl⟩
  | some full =>
    obtain ⟨found, next, hrun, -⟩ := run_externalClass w full s
    exact ⟨found, by rw [hrun]⟩

theorem looksUp_externalClass (w : World) (path : Option String) (s : AnalysisState) :
    LooksUp (externalClass w path) s path := by
  intro name
  cases path with
  | none => exact looksUp_pure (none : Option ParamClass) name
  | some full =>
    obtain ⟨found, next, hrun, hnext⟩ := run_externalClass w full s
    rw [hrun, Option.some.injEq]
    exact hnext name

/-! ### Discovery -/

/-- The state after the discovery of what a call names. -/
def discovered (w : World) (s : AnalysisState) (call : Node) : AnalysisState :=
  ((externalClass w ((s.analyzer.latest.imports.classPath? call).filter
    (isAllowed s.analyzer))).run s).2

theorem run_discover (w : World) (root : Node) (s : AnalysisState) :
    (discover w root).run s = (.ok (), (w.finder.nodes .calls root).foldl (discovered w) s) := by
  rw [discover, run_bind, run_forIn_yield (g := discovered w) fun call t => ?_]
  · rfl
  · rw [run_bind, run_get]
    dsimp only
    rw [discovered]
    cases (t.analyzer.latest.imports.classPath? call).filter (isAllowed t.analyzer) with
    | none => rfl
    | some path =>
      obtain ⟨found, hfound⟩ := run_externalClass_ok w (some path) t
      dsimp only
      rw [run_bind, hfound]
      rfl

/-- Discovery looks up exactly the allowed classes that are named by calls. -/
theorem contains_discover (w : World) (root : Node) (s : AnalysisState) (name : String) :
    ((discover w root).run s).2.analyzer.external.contains name = true ↔
      s.analyzer.external.contains name = true ∨ isAllowed s.analyzer name = true ∧
        ∃ call ∈ w.finder.nodes .calls root,
          s.analyzer.latest.imports.classPath? call = some name := by
  rw [run_discover]
  dsimp only
  -- What a call names and which libraries are allowed stay the same from call to call.
  induction w.finder.nodes .calls root generalizing s with
  | nil => simp
  | cons call rest ih =>
    have hsteady : Steady s (discovered w s call) := steady_externalClass w _ s
    have hallowed : isAllowed (discovered w s call).analyzer name = isAllowed s.analyzer name := by
      rw [isAllowed, isAllowed, hsteady.allowed]
    rw [List.foldl_cons, ih, hallowed, hsteady.latest, discovered,
      looksUp_externalClass w _ s name, Option.filter_eq_some_iff]
    simp only [List.mem_cons, exists_eq_or_imp]
    tauto

/-! ### Imported modules -/

/-- The step leaves the table of library classes as it was. -/
def SameExternal (s next : AnalysisState) : Prop := next.analyzer.external = s.analyzer.external

theorem frame_sameExternal : Frame SameExternal := ⟨fun _ => rfl, fun h₁ h₂ => h₂.trans h₁⟩

theorem sameExternal_importedClass (importer : Importer) (w : World) (className bound : String)
    (current : Option Path) :
    Leads SameExternal (importedClass importer w className bound current) := by
  have hkeep (name file : String) (a : Analysis) :
      Leads SameExternal (do keepModule name file a; return a) :=
    frame_sameExternal.bind (fun _ => rfl) fun _ => frame_sameExternal.pure a
  have hmodule (name : String) : Leads SameExternal (importedModule importer w name current) := by
    refine frame_sameExternal.bind frame_sameExternal.get fun s => ?_
    dsimp only
    split
    · exact frame_sameExternal.pure _
    split
    · exact fun _ => rfl
    · exact frame_sameExternal.pure _
    split
    · exact hkeep _ _ _
    split
    · exact frame_sameExternal.pure _
    · exact frame_sameExternal.bind (fun _ => rfl) fun found => hkeep _ _ found
  refine frame_sameExternal.bind frame_sameExternal.get fun s => ?_
  split
  · exact frame_sameExternal.pure none
  · exact frame_sameExternal.bind (hmodule _) fun _ => frame_sameExternal.pure _

theorem looksUp_importedClass (importer : Importer) (w : World) (className bound : String)
    (current : Option Path) (s : AnalysisState) :
    LooksUp (importedClass importer w className bound current) s none := by
  intro name
  have hsame : _ = s.analyzer.external :=
    sameExternal_importedClass importer w className bound current s
  rw [hsame]
  simp

end

/-! ### Uses of a reference -/

/-- What a reference to a class is used for: to discover the class of a call, as the base of a
class, to check a call, and to complete one. -/
inductive Use where
  | discovery
  | inheritance
  | construction
  | completion
deriving DecidableEq

/-- The name under which a class of a library is looked up for a use of the names. Only discovery
replaces a plain name by what an import binds it to, and no class of a library is a base by its
plain name. -/
def Use.path? (imports : Imports) (use : Use) : List String → Option String
  | [name] =>
    match use with
    | .discovery => imports.expand [name]
    | .inheritance => none
    | .construction => some name
    | .completion => some name
  | parts => imports.expand parts

/-- The call makes an instance of what the node names. -/
structure Constructs (call n : Node) : Prop where
  kind : call.kind = .call
  head : call.children.head? = some n
  function : call.child? .function = some n

/-- The names are those of no class of the file, and not of the root of all classes with
parameters. -/
structure Elsewhere (a : Analyzer) (parts : List String) : Prop where
  last : parts.getLast?.bind a.latest.classes.keyOf? = none
  written : a.latest.classes.named? (Dotted.ofComponents parts) = none
  memberRoot : isMemberRoot a.latest.imports parts = false
  root : a.latest.imports.expand parts ≠ some "param.Parameterized"

/-- The use looks up the class of a library with the path, in a state of the analysis. -/
def Looks (w : World) (importer : Importer) (current : Option Path) (s : AnalysisState)
    (call n : Node) (path : Option String) : Use → Prop
  | .discovery => s.analyzer.latest.imports.classPath? call = path ∧
      ∀ root name, call ∈ w.finder.nodes .calls root → path = some name →
        isAllowed s.analyzer name = true →
        ((discover w root).run s).2.analyzer.external.contains name = true
  | .inheritance =>
      LooksUp (isParameterizedBase (outside importer w current) s.analyzer.latest.imports
        s.analyzer.latest.classes n) s path ∧
      LooksUp (baseClass? (outside importer w current) s.analyzer.latest.imports
        s.analyzer.latest.classes n) s path
  | .construction => ∀ (σ : Type) (ask : AskClass σ) (t : σ),
      (2 ≤ n.chain.length → ∀ name ∈ path, (ask name t).1.isSome = true) →
        (instanceClass? (knownOf w s.analyzer) ask call t).1 = path
  | .completion => LooksUp (constructedClass w (Dotted.ofComponents n.chain)) s path

section

variable {w : World} {importer : Importer} {current : Option Path} {s : AnalysisState}
  {call n : Node} {parts : List String} {imports : Imports}

theorem classPath?_of_names (imports : Imports) (h : n.Names parts) :
    imports.classPath? n = imports.expand parts := by
  have hkind : n.kind = .identifier ∨ n.kind = .attribute := by
    cases h with
    | plain hkind _ => exact .inl hkind
    | member hkind _ _ _ _ => exact .inr hkind
  rw [Imports.classPath?]
  rcases hkind with hkind | hkind <;> simp only [hkind, h.chain_eq]

theorem classPath?_of_constructs (imports : Imports) (h : n.Names parts)
    (hcall : Constructs call n) :
    imports.classPath? call = imports.expand parts := by
  rw [Imports.classPath?]
  simp only [hcall.kind]
  split
  · next function hfunction =>
    obtain rfl := Option.some.inj (hcall.function.symm.trans hfunction)
    exact classPath?_of_names imports h
  · next hnone =>
    rw [hcall.function] at hnone
    cases hnone

theorem looks_discovery (h : n.Names parts) (hcall : Constructs call n) :
    Looks w importer current s call n (s.analyzer.latest.imports.expand parts) .discovery := by
  have hpath := classPath?_of_constructs s.analyzer.latest.imports h hcall
  refine ⟨hpath, fun root name hmem hname hallowed => ?_⟩
  rw [contains_discover]
  exact .inr ⟨hallowed, call, hmem, hpath.trans hname⟩

theorem looks_inheritance_plain {name : String} (h : n.Names [name]) :
    Looks w importer current s call n none .inheritance := by
  obtain ⟨hkind, -⟩ := h.of_singleton
  constructor
  · unfold isParameterizedBase
    simp only [hkind]
    split
    · exact looksUp_pure false
    split
    · exact looksUp_pure true
    · exact (looksUp_importedClass importer w _ _ current s).bind_pure _
  · unfold baseClass?
    simp only [hkind]
    split
    · exact looksUp_pure none
    split
    · exact looksUp_pure _
    · exact looksUp_importedClass importer w _ _ current s

theorem looks_inheritance_member {first next : String} {rest : List String}
    (h : n.Names (first :: next :: rest))
    (elsewhere : Elsewhere s.analyzer (first :: next :: rest)) :
    Looks w importer current s call n
      (s.analyzer.latest.imports.expand (first :: next :: rest)) .inheritance := by
  obtain ⟨hkind, -⟩ := h.of_cons_cons
  have hpath := classPath?_of_names s.analyzer.latest.imports h
  constructor
  · unfold isParameterizedBase
    have hshort : ¬ (first :: next :: rest).length < 2 := by simp
    simp only [hkind, h.chain_eq, if_neg hshort, elsewhere.memberRoot, hpath, Bool.false_eq_true,
      if_false]
    have hlook : LooksUp ((outside importer w current).external
        (s.analyzer.latest.imports.expand (first :: next :: rest))) s
        (s.analyzer.latest.imports.expand (first :: next :: rest)) := looksUp_externalClass w _ s
    exact hlook.bind_pure _
  · unfold baseClass?
    simp only [hkind, hpath, if_neg elsewhere.root]
    exact looksUp_externalClass w _ s

/-- The class by which a call is checked; one of a library that is named by several names has to be
found. -/
theorem instanceClass?_of_names (h : n.Names parts) (hcall : Constructs call n)
    (elsewhere : Elsewhere s.analyzer parts) {σ : Type} {ask : AskClass σ} {t : σ}
    (hfound : 2 ≤ parts.length → ∀ name ∈ Use.construction.path? s.analyzer.latest.imports parts,
      (ask name t).1.isSome = true) :
    (instanceClass? (knownOf w s.analyzer) ask call t).1 =
      Use.construction.path? s.analyzer.latest.imports parts := by
  unfold instanceClass?
  simp only [hcall.kind, hcall.head, beq_self_eq_true, if_true]
  obtain ⟨name, rfl⟩ | ⟨first, next, rest, rfl⟩ := h.one_or_more
  · obtain ⟨hkind, rfl⟩ := h.of_singleton
    have hlast : s.analyzer.latest.classes.keyOf? n.text = none := elsewhere.last
    simp only [hkind, knownOf, hlast, Option.getD_none]
    rfl
  · obtain ⟨hkind, hlast⟩ := h.of_cons_cons
    have hfull := hfound (by simp) _ rfl
    simp only [hkind, knownOf, hlast, elsewhere.last, h.chain_eq]
    have hbind (f : Option ParamClass → StateM σ (Option String)) (path : String) :
        (ask path >>= f) t = f (ask path t).1 (ask path t).2 := rfl
    rw [Imports.expand]
    dsimp only
    rw [hbind, hfull]
    rfl

theorem externalPath_of_names (h : n.Names parts) :
    some (externalPath imports (Dotted.ofComponents parts)) =
      Use.completion.path? imports parts := by
  obtain ⟨name, rfl⟩ | ⟨first, next, rest, rfl⟩ := h.one_or_more
  · have hdot : Dotted.isDotted name = false := by simpa [Dotted.isDotted] using h.dotless
    rw [Dotted.ofComponents_singleton, externalPath, hdot]
    rfl
  · rw [externalPath, if_pos Dotted.isDotted_ofComponents, boundPath?,
      Dotted.components_ofComponents (by simp) h.dotless]
    show _ = imports.expand (first :: next :: rest)
    rw [Imports.expand, Dotted.ofComponents_cons_cons, Dotted.ofComponents_cons_cons]
    dsimp only
    cases imports.get? first with
    | none => rfl
    | some full => rfl

theorem run_constructedClass (h : n.Names parts) (elsewhere : Elsewhere s.analyzer parts) :
    (constructedClass w (Dotted.ofComponents parts)).run s =
      (externalClass w (Use.completion.path? s.analyzer.latest.imports parts)).run s := by
  rw [constructedClass, run_bind, run_get]
  dsimp only
  rw [elsewhere.written, ← externalPath_of_names h]
  dsimp only
  rw [writtenExternal, run_bind, run_get]

theorem looks_completion (h : n.Names parts) (elsewhere : Elsewhere s.analyzer parts) :
    Looks w importer current s call n (Use.completion.path? s.analyzer.latest.imports parts)
      .completion := by
  show LooksUp (constructedClass w (Dotted.ofComponents n.chain)) s _
  rw [h.chain_eq]
  refine (looksUp_externalClass w _ s).congr ?_
  rw [run_constructedClass h elsewhere]

theorem looks_path? (h : n.Names parts) (hcall : Constructs call n)
    (elsewhere : Elsewhere s.analyzer parts) (use : Use) :
    Looks w importer current s call n (use.path? s.analyzer.latest.imports parts) use := by
  cases use with
  | discovery =>
    have hpath : Use.discovery.path? s.analyzer.latest.imports parts =
        s.analyzer.latest.imports.expand parts := by
      obtain ⟨name, rfl⟩ | ⟨first, next, rest, rfl⟩ := h.one_or_more <;> rfl
    rw [hpath]
    exact looks_discovery h hcall
  | inheritance =>
    obtain ⟨name, rfl⟩ | ⟨first, next, rest, rfl⟩ := h.one_or_more
    · exact looks_inheritance_plain h
    · exact looks_inheritance_member h elsewhere
  | construction => exact fun σ ask t hfound =>
      instanceClass?_of_names h hcall elsewhere (h.chain_eq ▸ hfound)
  | completion => exact looks_completion h elsewhere

/-- A use looks up the full name of a reference exactly if the reference has two or more names, the
use is discovery, or no import gives the plain name another meaning; a plain name of a base is never
looked up. -/
theorem path?_eq_expand_iff (h : n.Names parts) (use : Use) :
    use.path? imports parts = imports.expand parts ↔ 2 ≤ parts.length ∨ use = .discovery ∨
      use ≠ .inheritance ∧ imports.expand parts = some (Dotted.ofComponents parts) := by
  obtain ⟨name, rfl⟩ | ⟨first, next, rest, rfl⟩ := h.one_or_more
  · rw [Dotted.ofComponents_singleton]
    cases use <;> simp [Use.path?, Imports.expand, eq_comm]
  · simp [Use.path?]

theorem run_checkCall_of_names (w : World) (h : n.Names parts) (hcall : Constructs call n)
    (elsewhere : Elsewhere s.analyzer parts) {σ : Type} {ask : AskClass σ} {t : σ} {path : String}
    (hpath : Use.construction.path? s.analyzer.latest.imports parts = some path)
    (hfound : 2 ≤ parts.length → (ask path t).1.isSome = true) :
    (checkCall (knownOf w s.analyzer) ask call t).1 =
      constructorDiagnostics (knownOf w s.analyzer) path call := by
  have hclass : (instanceClass? (knownOf w s.analyzer) ask call t).1 = some path := by
    rw [← hpath]
    refine instanceClass?_of_names h hcall elsewhere fun hlength name hname => ?_
    rw [Option.some.inj (hpath.symm.trans hname)] at hfound
    exact hfound hlength
  exact run_checkCall hclass

/-- The completions in the constructor call of a class of a library are those for the class with the
path of the use. -/
theorem run_constructorItems (h : n.Names parts) (elsewhere : Elsewhere s.analyzer parts)
    {line : String} {place : Cursor}
    (hline : Phrase.constructor? (Text.take line place.character) =
      some (Dotted.ofComponents parts)) :
    ((constructorItems w line place).run s).1 =
      ((externalClass w (Use.completion.path? s.analyzer.latest.imports parts)).run s).1.map
        fun found => (found.map (argumentItems (Text.take line place.character)
          (Dotted.ofComponents parts) place)).getD [] := by
  rw [constructorItems]
  simp only [hline]
  rw [run_bind, run_constructedClass h elsewhere]
  obtain ⟨found, hfound⟩ :=
    run_externalClass_ok w (Use.completion.path? s.analyzer.latest.imports parts) s
  rw [hfound]
  cases found with
  | none => rfl
  | some c => rfl

/-- How a reference to a class of a library is looked up, and what follows. The full name of the
reference is what is written, with the first name replaced by what an import binds it to. Every use
of two or more names looks up the full name. Of a plain name only discovery does: a call is checked
and completed by the plain name itself, and as a base it is looked up in the imported modules only.
So unless a class is known under the plain name, a call of it is never reported. -/
theorem class_references_by_use (w : World) (importer : Importer) (current : Option Path)
    (h : n.Names parts) (hcall : Constructs call n) (elsewhere : Elsewhere s.analyzer parts) :
    s.analyzer.latest.imports.classPath? n = s.analyzer.latest.imports.expand parts ∧
    (∀ use : Use,
      Looks w importer current s call n (use.path? s.analyzer.latest.imports parts) use ∧
      (use.path? s.analyzer.latest.imports parts = s.analyzer.latest.imports.expand parts ↔
        2 ≤ parts.length ∨ use = .discovery ∨ use ≠ .inheritance ∧
          s.analyzer.latest.imports.expand parts = some (Dotted.ofComponents parts))) ∧
    (∀ (σ : Type) (ask : AskClass σ) (t : σ) (path : String),
      Use.construction.path? s.analyzer.latest.imports parts = some path →
      (2 ≤ parts.length → (ask path t).1.isSome = true) →
      (checkCall (knownOf w s.analyzer) ask call t).1 =
        constructorDiagnostics (knownOf w s.analyzer) path call ∧
      ((knownOf w s.analyzer).isClass path = false →
        (checkCall (knownOf w s.analyzer) ask call t).1 = [])) ∧
    ∀ (line : String) (place : Cursor),
      Phrase.constructor? (Text.take line place.character) = some (Dotted.ofComponents parts) →
      ((constructorItems w line place).run s).1 =
        ((externalClass w (Use.completion.path? s.analyzer.latest.imports parts)).run s).1.map
          fun found => (found.map (argumentItems (Text.take line place.character)
            (Dotted.ofComponents parts) place)).getD [] := by
  refine ⟨classPath?_of_names _ h, fun use => ⟨looks_path? h hcall elsewhere use,
    path?_eq_expand_iff h use⟩, fun σ ask t path hpath hfound => ?_, fun line place hline =>
      run_constructorItems h elsewhere hline⟩
  have hrun := run_checkCall_of_names w h hcall elsewhere hpath hfound
  refine ⟨hrun, fun hunknown => ?_⟩
  rw [hrun, constructorDiagnostics, hunknown, Bool.and_false]
  rfl

end

section

open Sketch

/-- A file that imports the library, and calls the class as a member of it with a number for a
parameter that takes texts. -/
def memberFile : Sketch :=
  file [importsModule ["panel"],
    evaluates (call (member "panel" "Widget") [keyword "value" (number "5")])]

/-- A file that imports the class from the library, and calls it by its plain name. -/
def nameFile : Sketch :=
  file [takesName ["panel"] "Widget",
    evaluates (call (name "Widget") [keyword "value" (number "5")])]

end

def widgetFiles : World :=
  { World.sketched [(["member.py"], memberFile), (["name.py"], nameFile)] with
    distributions := (∅ : Table Distribution).insert "panel" ⟨"1.0", []⟩ }

/-- The class as a member of its library. -/
def widgetMember : Node := memberFile.nodeAt [1, 0, 0]

/-- An analyzer of the files, with the class in the store. -/
def widgetState : AnalysisState := fresh widgetFiles none [] panelStore

/-- The use of the member looks up its full name. -/
def LooksUpMember : Use → Prop :=
  Looks widgetFiles (importer widgetFiles widgetState.analyzer) none widgetState
    (memberFile.nodeAt [1, 0]) widgetMember (some "panel.Widget")

/-- The member is looked up by its full name for every use. -/
theorem class_references_to_member :
    LooksUpMember .discovery ∧ LooksUpMember .inheritance ∧ LooksUpMember .construction ∧
      LooksUpMember .completion := by
  have hlibrary : (memberFile.nodeAt [1, 0, 0, 0]).Names ["panel"] := .plain rfl (by decide)
  have hlast : widgetMember.child? .attribute = some (memberFile.nodeAt [1, 0, 0, 2]) := rfl
  have hnames : widgetMember.Names ["panel", "Widget"] := .member rfl rfl hlibrary hlast (by decide)
  have hcall : Constructs (memberFile.nodeAt [1, 0]) widgetMember := ⟨rfl, rfl, rfl⟩
  have helsewhere : Elsewhere widgetState.analyzer ["panel", "Widget"] :=
    ⟨by decide +kernel, rfl, by decide +kernel, by decide +kernel⟩
  obtain ⟨-, huses, -⟩ := class_references_by_use widgetFiles
    (importer widgetFiles widgetState.analyzer) none hnames hcall helsewhere
  have hlooks (use : Use) : LooksUpMember use := by
    have hfull : use.path? widgetState.analyzer.latest.imports ["panel", "Widget"] =
        some "panel.Widget" := (huses use).2.mpr (.inl (by decide))
    rw [LooksUpMember, ← hfull]
    exact (huses use).1
  exact ⟨hlooks .discovery, hlooks .inheritance, hlooks .construction, hlooks .completion⟩

/-- The member is reported, and the same class by its plain name is not. -/
theorem call_by_imported_name_unreported :
    ((analyzeFile widgetFiles memberFile.written none).run widgetState).1.map
      (fun a => a.diagnostics.map (·.rule)) = .ok [.constructorTypeMismatch] ∧
    ((analyzeFile widgetFiles nameFile.written none).run widgetState).1.map
      (fun a => a.diagnostics.map (·.rule)) = .ok [] := by
  decide +kernel

end ParamLens.Analysis
