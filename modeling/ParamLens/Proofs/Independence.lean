import ParamLens.Proofs.Coherence

/-! An analysis against what its analyzer remembers. The same file is analysed by two analyzers, and
the two runs stay side by side. They come to the same findings when the two remember the same
library classes and modules, and also when one remembers none and nothing that the other remembers
stands in the way of the file's own. -/

namespace ParamLens.Analysis

open Syntax Steps Library

variable {c : Setting} {importer : Importer} {s t : AnalysisState} {current : Option Path}
  {imports : Imports}

theorem Coherent.changeLatest (h : Coherent c importer s) (latest : Analysis) :
    Coherent c importer { s with analyzer := { s.analyzer with latest := latest } } :=
  ⟨h.workspace, h.extra, h.types, h.libraries, h.external, h.modules, h.files⟩

/-! ### One run -/

/-- Equal coherent states in the analysis of a file with the imports. -/
def OneRun (c : Setting) (importer : Importer) (imports : Imports) (s t : AnalysisState) : Prop :=
  s = t ∧ Coherent c importer s ∧ s.analyzer.latest.imports = imports

theorem carries_oneRun (sound : c.Sound) (reliable : c.Reliable importer)
    (reaches : c.Reaches current) (imports : Imports) :
    Carries (OneRun c importer imports) importer c.world current imports where
  bindings h := h.2.2
  latest h := by rw [h.1]
  types h := by rw [h.1]
  allowed h := by rw [h.1]
  external path := Agree.same_iff.mpr fun s ⟨hs, himports⟩ => by
    obtain ⟨-, hnext, hanalyzer⟩ := hs.externalClass sound path
    exact ⟨hnext, by rw [hanalyzer]; exact himports⟩
  ask path := Agree.same_iff.mpr fun s ⟨hs, himports⟩ => ⟨(hs.onLibraries sound path).2, himports⟩
  module _ := Agree.same_iff.mpr fun s ⟨hs, himports⟩ => by
    obtain ⟨-, hnext, hentered⟩ := hs.importedModule reliable reaches _
    exact ⟨hnext, by rw [hentered.latest]; exact himports⟩
  change f h hf := by
    obtain ⟨rfl, hs, himports⟩ := h
    exact ⟨rfl, hs.changeLatest _, (hf _).trans himports⟩

theorem Coherent.analyzeWith (sound : c.Sound) (reliable : c.Reliable importer)
    (reaches : c.Reaches current) (h : Coherent c importer s) (content : String) :
    Coherent c importer ((analyzeWith importer c.world content current).run s).2 := by
  cases htree : c.world.parse? content with
  | none =>
    rw [Analysis.analyzeWith, htree]
    exact h
  | some root =>
    have carries := carries_oneRun sound reliable reaches (Imports.ofTree c.world.finder root)
    have hbegin : OneRun c importer (Imports.ofTree c.world.finder root) (begun c.world root s)
        (begun c.world root s) :=
      ⟨rfl, h.changeLatest _, rfl⟩
    refine (agree_analyzeWith carries htree hbegin fun s' t' hR _ => ?_).2.2.1
    rw [hR.1]
    exact Check.SameReadings.refl root _

/-! ### Tables side by side -/

/-- The table has the entries of `old`, and after them those of `own` that are not in `old`. -/
def Beside {α : Type} (old new own : Table α) : Prop :=
  new.entries = old.entries ++ own.entries.filter fun entry => !old.contains entry.1

section

variable {α : Type} {old new own : Table α}

theorem beside_empty (old : Table α) : Beside old old ∅ := (List.append_nil old.entries).symm

theorem beside_self (own : Table α) : Beside ∅ own own :=
  (List.filter_eq_self.mpr fun _ _ => rfl).symm

theorem Beside.eq_of_empty (h : Beside ∅ new own) : new = own := by
  have hentries : new.entries = own.entries := h.trans (beside_self own).symm
  obtain ⟨entries, distinct⟩ := new
  obtain ⟨entries', distinct'⟩ := own
  obtain rfl : entries = entries' := hentries
  rfl

theorem Beside.contains (h : Beside old new own) (name : String) :
    new.contains name = (old.contains name || own.contains name) := by
  rw [Table.contains, h, List.any_append, List.any_filter]
  cases hold : old.contains name with
  | true =>
    rw [Table.contains] at hold
    rw [hold, Bool.true_or, Bool.true_or]
  | false =>
    have hsame : (fun entry : String × α => !old.contains entry.1 && entry.1 == name) =
        fun entry => entry.1 == name := by
      funext entry
      by_cases heq : entry.1 = name
      · simp [heq, hold]
      · simp [heq]
    rw [hsame]
    rw [Table.contains] at hold
    rw [hold]
    rfl

theorem Beside.get?_of_contains (h : Beside old new own) {name : String}
    (hold : old.contains name = true) : new.get? name = old.get? name := by
  rw [Table.contains_eq_isSome, Option.isSome_iff_exists] at hold
  obtain ⟨value, hvalue⟩ := hold
  have hmem : (name, value) ∈ new.entries := by
    rw [h]
    exact List.mem_append_left _ (Table.mem_entries_of_get? hvalue)
  rw [Table.get?_of_mem_entries hmem, hvalue]

theorem Beside.get?_of_not_contains (h : Beside old new own) {name : String}
    (hold : old.contains name = false) : new.get? name = own.get? name := by
  cases hown : own.get? name with
  | some value =>
    refine Table.get?_of_mem_entries ?_
    rw [h]
    refine List.mem_append_right _ (List.mem_filter.mpr ⟨Table.mem_entries_of_get? hown, ?_⟩)
    rw [hold]
    rfl
  | none =>
    have hcontains := h.contains name
    rw [hold, Table.contains_eq_isSome own, hown, Table.contains_eq_isSome] at hcontains
    exact Option.isSome_eq_false_iff.mp hcontains |> Option.isNone_iff_eq_none.mp

theorem Beside.insert (h : Beside old new own) {name : String} (hnew : new.contains name = false)
    (value : α) : Beside old (new.insert name value) (own.insert name value) := by
  obtain ⟨hold, hown⟩ := Bool.or_eq_false_iff.mp ((h.contains name).symm.trans hnew)
  rw [Beside, Table.entries_insert_of_not_contains hnew, Table.entries_insert_of_not_contains hown,
    List.filter_append, ← List.append_assoc, ← h, List.filter_singleton, hold]
  rfl

theorem Beside.insert_own (h : Beside old new own) {name : String} (hold : old.contains name = true)
    (hown : own.contains name = false) (value : α) : Beside old new (own.insert name value) := by
  rw [Beside, Table.entries_insert_of_not_contains hown, List.filter_append, ← List.append_assoc,
    ← h, List.filter_singleton, hold]
  exact (List.append_nil new.entries).symm

end

theorem Beside.asked {old new own : Table (Option ParamClass)} (h : Beside old new own)
    (path : Option String) : Beside old (c.asked new path) (c.asked own path) := by
  cases path with
  | none => exact h
  | some full =>
    rw [Setting.asked, Setting.asked]
    have hcontains := h.contains full
    cases hold : old.contains full with
    | true =>
      rw [hold, Bool.true_or] at hcontains
      cases hown : own.contains full with
      | true => simpa only [hcontains, if_true] using h
      | false =>
        simpa only [hcontains, if_true, Bool.false_eq_true, if_false] using h.insert_own hold hown _
    | false =>
      rw [hold, Bool.false_or] at hcontains
      cases hown : own.contains full with
      | true => simpa only [hcontains, hown, if_true] using h
      | false =>
        simpa only [hcontains, hown, Bool.false_eq_true, if_false] using
          h.insert (hcontains.trans hown) _

/-! ### Two runs -/

/-- The imports of a file come to the same with either table of remembered modules. -/
def SameModules (c : Setting) (importer : Importer) (current : Option Path) (imports : Imports)
    (modules modules' : Table Analysis) : Prop :=
  ∀ bound full, imports.get? bound = some full →
    c.recalled importer current modules (moduleOf full) =
      c.recalled importer current modules' (moduleOf full)

/-- Coherent states in the analysis of a file with the imports, which come to the same. The left one
has remembered the library classes of `old` from before. -/
structure TwoRuns (c : Setting) (importer : Importer) (current : Option Path) (imports : Imports)
    (old : Table (Option ParamClass)) (s t : AnalysisState) : Prop where
  left : Coherent c importer s
  right : Coherent c importer t
  latest : s.analyzer.latest = t.analyzer.latest
  bindings : s.analyzer.latest.imports = imports
  external : Beside old s.analyzer.external t.analyzer.external
  modules : SameModules c importer current imports s.analyzer.modules t.analyzer.modules

section

variable {old : Table (Option ParamClass)}

theorem TwoRuns.externalClass (sound : c.Sound)
    (path : Option String) : Agree (TwoRuns c importer current imports old)
      (externalClass c.world path).run (externalClass c.world path).run := by
  intro s t h
  obtain ⟨hs, hleft, hsnext⟩ := h.left.externalClass sound path
  obtain ⟨ht, hright, htnext⟩ := h.right.externalClass sound path
  refine ⟨hs.trans ht.symm, hleft, hright, ?_, ?_, ?_, ?_⟩
  · exact (congrArg Analyzer.latest hsnext).trans
      (h.latest.trans (congrArg Analyzer.latest htnext).symm)
  · exact (congrArg (fun a => a.latest.imports) hsnext).trans h.bindings
  · have hbeside : Beside old (c.asked s.analyzer.external path)
        (c.asked t.analyzer.external path) := h.external.asked path
    rw [hsnext, htnext]
    exact hbeside
  · rw [hsnext, htnext]
    exact h.modules

theorem TwoRuns.onLibraries (sound : c.Sound) (path : String) :
    Agree (TwoRuns c importer current imports old) (onLibraries (find? c.world path))
      (onLibraries (find? c.world path)) := by
  intro s t h
  obtain ⟨hs, hleft⟩ := h.left.onLibraries sound path
  obtain ⟨ht, hright⟩ := h.right.onLibraries sound path
  exact ⟨hs.trans ht.symm, hleft, hright, h.latest, h.bindings, h.external, h.modules⟩

theorem TwoRuns.importedModule (reliable : c.Reliable importer) (reaches : c.Reaches current)
    {bound full : String} (hbound : imports.get? bound = some full) :
    Agree (TwoRuns c importer current imports old)
      (importedModule importer c.world (moduleOf full) current).run
      (importedModule importer c.world (moduleOf full) current).run := by
  intro s t h
  obtain ⟨hs, hleft, hsnext⟩ := h.left.importedModule reliable reaches (moduleOf full)
  obtain ⟨ht, hright, htnext⟩ := h.right.importedModule reliable reaches (moduleOf full)
  have hanswer := hs.trans ((h.modules bound full hbound).trans ht.symm)
  refine ⟨hanswer, hleft, hright, ?_, ?_, ?_, ?_⟩
  · exact hsnext.latest.trans (h.latest.trans htnext.latest.symm)
  · exact (congrArg Analysis.imports hsnext.latest).trans h.bindings
  · have hbeside := h.external
    rw [← hsnext.external, ← htnext.external] at hbeside
    exact hbeside
  · intro bound' full' hbound'
    rw [hsnext.recalled, htnext.recalled]
    exact h.modules bound' full' hbound'

theorem carries_twoRuns (sound : c.Sound) (reliable : c.Reliable importer)
    (reaches : c.Reaches current) :
    Carries (TwoRuns c importer current imports old) importer c.world current imports where
  bindings h := h.bindings
  latest h := h.latest
  types h := h.left.types.trans h.right.types.symm
  allowed h := h.left.libraries.session.allowed.trans h.right.libraries.session.allowed.symm
  external path := TwoRuns.externalClass sound path
  ask path := TwoRuns.onLibraries sound path
  module hbound := TwoRuns.importedModule reliable reaches hbound
  change f h hf :=
    ⟨h.left.changeLatest _, h.right.changeLatest _, congrArg f h.latest, (hf _).trans h.bindings,
      h.external, h.modules⟩

end

/-! ### The same memory -/

theorem TwoRuns.known_eq (h : TwoRuns c importer current imports ∅ s t) :
    knownOf c.world s.analyzer = knownOf c.world t.analyzer := by
  simp only [knownOf, recognition, h.latest, h.left.types, h.right.types, h.external.eq_of_empty]

/-- The analysis of a file depends on nothing that is remembered but library classes and modules. -/
theorem Coherent.answer_of_same_memory (sound : c.Sound) (reliable : c.Reliable importer)
    (reaches : c.Reaches current) (hs : Coherent c importer s) (ht : Coherent c importer t)
    (hexternal : s.analyzer.external = t.analyzer.external)
    (hmodules : s.analyzer.modules = t.analyzer.modules) (content : String) :
    ((Analysis.analyzeWith importer c.world content current).run s).1 =
      ((Analysis.analyzeWith importer c.world content current).run t).1 := by
  cases htree : c.world.parse? content with
  | none =>
    rw [Analysis.analyzeWith, htree]
    rfl
  | some root =>
    have hbegin : TwoRuns c importer current (Imports.ofTree c.world.finder root) ∅
        (begun c.world root s) (begun c.world root t) := by
      refine ⟨hs.changeLatest _, ht.changeLatest _, rfl, rfl, ?_, fun bound full _ => ?_⟩
      · show Beside ∅ s.analyzer.external t.analyzer.external
        rw [hexternal]
        exact beside_self _
      · show c.recalled importer current s.analyzer.modules (moduleOf full) =
          c.recalled importer current t.analyzer.modules (moduleOf full)
        rw [hmodules]
    refine (agree_analyzeWith (carries_twoRuns sound reliable reaches) htree hbegin
      fun s' t' hR _ => ?_).1
    rw [hR.known_eq]
    exact Check.SameReadings.refl root _

/-! ### Harmless memory -/

/-- Nothing that the analyzer `a` remembers stands in the way of a file with the tree; `own` is the
analyzer that has analysed the file and no other. -/
structure Harmless (c : Setting) (importer : Importer) (current : Option Path) (root : Node)
    (a own : Analyzer) : Prop where
  /-- A library class under a name that the checks of the file look up is one that the file itself
  asks for. -/
  named : ∀ name ∈ Check.lookedUp own.latest.classes (Imports.ofTree c.world.finder root) root,
    a.external.contains name = true → own.external.contains name = true
  /-- The first library class with a parameter to which the file assigns is the first for the file
  itself. -/
  first : ∀ name ∈ Check.assignedNames root, ∀ path ∈ Check.externalWith? (knownOf c.world a) name,
    Check.externalWith? (knownOf c.world own) name = some path
  /-- What the relative names that the file imports come to is what they mean in the file. -/
  modules (bound full : String) : (Imports.ofTree c.world.finder root).get? bound = some full →
    Text.startsWith (moduleOf full) "." = true →
    c.recalled importer current a.modules (moduleOf full) =
      c.moduleAnswer importer current (moduleOf full)

theorem Harmless.sameModules {root : Node} {own : Analyzer}
    (h : Harmless c importer current root s.analyzer own) (hs : Coherent c importer s) :
    SameModules c importer current (Imports.ofTree c.world.finder root) s.analyzer.modules ∅ := by
  intro bound full hbound
  show _ = c.moduleAnswer importer current (moduleOf full)
  cases hrelative : Text.startsWith (moduleOf full) "." with
  | true => exact h.modules bound full hbound hrelative
  | false => exact hs.recalled_of_absolute hrelative current

theorem Beside.externalWith? {old new own : Check.Known}
    (h : Beside old.external new.external own.external)
    (values : ∀ name found found', old.external.get? name = some found →
      own.external.get? name = some found' → found = found') (name : String) :
    Check.externalWith? new name =
      (Check.externalWith? old name).or (Check.externalWith? own name) := by
  rw [Check.externalWith?, h, List.find?_append, List.find?_filter, Check.externalWith?]
  cases hfind : old.external.entries.find? fun entry =>
    entry.2.any fun c => c.parameters.contains name with
  | some entry => rfl
  | none =>
    -- An entry of `own` with the parameter is not in `old`, which would have the same value for it.
    have hsame : ∀ entry ∈ own.external.entries,
        decide ((!old.external.contains entry.1) = true ∧
          entry.2.any (fun c => c.parameters.contains name) = true) =
        entry.2.any fun c => c.parameters.contains name := by
      intro entry hentry
      cases hcontains : old.external.contains entry.1 with
      | false => simp
      | true =>
        rw [Table.contains_eq_isSome, Option.isSome_iff_exists] at hcontains
        obtain ⟨found, hfound⟩ := hcontains
        have heq := values entry.1 found entry.2 hfound (Table.get?_of_mem_entries hentry)
        have hnone := List.find?_eq_none.mp hfind _ (Table.mem_entries_of_get? hfound)
        rw [← heq, Bool.eq_false_iff.mpr hnone]
        rfl
    rw [Option.none_or, Option.map_none, Option.none_or, Check.externalWith?, ← List.head?_filter,
      ← List.head?_filter, List.filter_congr hsame]

theorem run_conclude_keeps (w : World) (root : Node) (s : AnalysisState) :
    ((conclude w root).run s).2.analyzer.external = s.analyzer.external ∧
      ((conclude w root).run s).2.analyzer.latest.classes = s.analyzer.latest.classes := by
  have hask (path : String) : Agree
      (fun t t' => t = t' ∧ t.analyzer.external = s.analyzer.external ∧
        t.analyzer.latest.classes = s.analyzer.latest.classes)
      (onLibraries (find? w path)) (onLibraries (find? w path)) :=
    Agree.same_iff.mpr fun t ht => ht
  have hcheck := Check.agree_checkFile (Check.SameReadings.refl root (knownOf w s.analyzer)) hask
  rw [run_conclude]
  exact Agree.same_iff.mp hcheck s ⟨rfl, rfl⟩

/-- When nothing stands in its way, the checks read the same in both runs. -/
theorem TwoRuns.sameReadings {root : Node} {own : Analyzer} {before : AnalysisState}
    (hbefore : Coherent c importer before)
    (h : TwoRuns c importer current (Imports.ofTree c.world.finder root)
      before.analyzer.external s t)
    (harmless : Harmless c importer current root before.analyzer own)
    (hexternal : own.external = t.analyzer.external)
    (hclasses : own.latest.classes = t.analyzer.latest.classes) :
    Check.SameReadings root (knownOf c.world s.analyzer) (knownOf c.world t.analyzer) := by
  have hvalues : ∀ name found found', before.analyzer.external.get? name = some found →
      t.analyzer.external.get? name = some found' → found = found' := by
    intro name found found' hfound hfound'
    rw [hbefore.external name found hfound, h.right.external name found' hfound']
  refine ⟨congrArg Analysis.classes h.latest, congrArg Analysis.imports h.latest, ?_, rfl, ?_, ?_,
    ?_⟩
  · simp only [knownOf, recognition, h.latest, h.left.types, h.right.types]
  · intro name hlooked
    cases hold : before.analyzer.external.contains name with
    | false => exact h.external.get?_of_not_contains hold
    | true =>
      have hlooked' : name ∈ Check.lookedUp own.latest.classes
          (Imports.ofTree c.world.finder root) root := by
        rw [hclasses, ← h.latest, ← h.bindings]
        exact hlooked
      have hown := harmless.named name hlooked' hold
      rw [hexternal, Table.contains_eq_isSome, Option.isSome_iff_exists] at hown
      rw [Table.contains_eq_isSome, Option.isSome_iff_exists] at hold
      obtain ⟨found, hfound⟩ := hold
      obtain ⟨found', hfound'⟩ := hown
      have hcontains : before.analyzer.external.contains name = true := by
        rw [Table.contains_eq_isSome, hfound]
        rfl
      show s.analyzer.external.get? name = t.analyzer.external.get? name
      rw [h.external.get?_of_contains hcontains, hfound, hfound', hvalues name _ _ hfound hfound']
  · intro name hassigned
    have hown : Check.externalWith? (knownOf c.world own) name =
        Check.externalWith? (knownOf c.world t.analyzer) name := by
      simp only [Check.externalWith?, knownOf, hexternal]
    have hbeside : Beside (knownOf c.world before.analyzer).external
        (knownOf c.world s.analyzer).external (knownOf c.world t.analyzer).external := h.external
    rw [hbeside.externalWith? hvalues name]
    cases hfirst : Check.externalWith? (knownOf c.world before.analyzer) name with
    | none => exact Option.none_or
    | some path => rw [Option.some_or, ← hown, harmless.first name hassigned path hfirst]
  · intro name found found' hfound hfound'
    rw [h.left.external name found hfound, h.right.external name found' hfound']

/-- The analysis of a file comes to the same as by an analyzer that remembers nothing, when nothing
that is remembered stands in its way. -/
theorem Coherent.answer_of_harmless (sound : c.Sound) (reliable : c.Reliable importer)
    (reaches : c.Reaches current) (hs : Coherent c importer s) (ht : Coherent c importer t)
    (hexternal : t.analyzer.external = ∅) (hmodules : t.analyzer.modules = ∅) {content : String}
    (harmless : ∀ root, c.world.parse? content = some root →
      Harmless c importer current root s.analyzer
        ((Analysis.analyzeWith importer c.world content current).run t).2.analyzer) :
    ((Analysis.analyzeWith importer c.world content current).run s).1 =
      ((Analysis.analyzeWith importer c.world content current).run t).1 := by
  cases htree : c.world.parse? content with
  | none =>
    rw [Analysis.analyzeWith, htree]
    rfl
  | some root =>
    have hfree := harmless root htree
    have hbegin : TwoRuns c importer current (Imports.ofTree c.world.finder root)
        s.analyzer.external (begun c.world root s) (begun c.world root t) := by
      refine ⟨hs.changeLatest _, ht.changeLatest _, rfl, rfl, ?_, ?_⟩
      · show Beside s.analyzer.external s.analyzer.external t.analyzer.external
        rw [hexternal]
        exact beside_empty _
      · show SameModules c importer current _ s.analyzer.modules t.analyzer.modules
        rw [hmodules]
        exact hfree.sameModules hs
    refine (agree_analyzeWith (carries_twoRuns sound reliable reaches) htree hbegin
      fun s' t' hR hprepared => ?_).1
    rw [run_analyzeWith htree, hprepared] at hfree
    obtain ⟨hkeptExternal, hkeptClasses⟩ := run_conclude_keeps c.world root t'
    exact hR.sameReadings hs hfree hkeptExternal hkeptClasses

/-! ### New analyzers -/

/-- A new analyzer on a store. -/
def Setting.fresh (c : Setting) (store : Store) : AnalysisState :=
  ⟨(Analyzer.start c.world c.workspace c.extra store).1,
    (Analyzer.start c.world c.workspace c.extra store).2⟩

theorem Setting.coherent_fresh (sound : c.Sound) (importer : Importer) {store : Store}
    (steady : Steady c.world c.base store) : Coherent c importer (c.fresh store) := by
  obtain ⟨htypes, hlibraries⟩ := yields_allTypes sound.stocked
    ⟨Session.start c.world c.extra, store⟩ ⟨Session.settled_start c.world c.extra c.base, steady⟩
  refine ⟨rfl, rfl, htypes, hlibraries, ?_, ?_, ?_⟩
  · intro path found hget
    cases hget
  · intro name a hget
    cases hget
  · intro text a hget
    cases hget

/-- The analysis of a module by an analyzer of its own is the same on every steady store. -/
theorem Setting.reliable_importModule (sound : c.Sound) (fuel : Nat) (around : List Path) :
    c.Reliable (importModule c.world c.workspace c.extra fuel around) := by
  -- The modules that the module imports are analysed with less fuel.
  induction fuel generalizing around with
  | zero => exact fun file content _ store steady => ⟨rfl, steady⟩
  | succ fuel ih =>
    intro file content plain store steady
    rw [importModule]
    split
    · exact ⟨rfl, steady⟩
    · have reliable := ih (file :: around)
      have hreaches : c.Reaches (some file) := sound.reaches fun path hpath =>
        Option.some.inj hpath ▸ plain
      let importer := importModule c.world c.workspace c.extra fuel (file :: around)
      have hstore := Setting.coherent_fresh sound importer steady
      have hbase := Setting.coherent_fresh sound importer sound.stocked.steady
      have hnext := hstore.analyzeWith sound reliable hreaches content
      refine ⟨?_, hnext.store⟩
      exact hstore.answer_of_same_memory sound reliable hreaches hbase rfl rfl content

/-- How the analyzers of a setting analyse modules. -/
def Setting.ownImporter (c : Setting) : Importer :=
  importModule c.world c.workspace c.extra (importDepth c.world) []

theorem Setting.reliable_ownImporter (sound : c.Sound) : c.Reliable c.ownImporter :=
  Setting.reliable_importModule sound _ []

theorem Coherent.run_analyzeFile (h : Coherent c importer s) (content : String)
    (current : Option Path) :
    (analyzeFile c.world content current).run s =
      (Analysis.analyzeWith c.ownImporter c.world content current).run s := by
  rw [analyzeFile, run_bind, run_get]
  dsimp only
  rw [Analysis.importer, h.workspace, h.extra, Setting.ownImporter]

end ParamLens.Analysis
