import Mathlib.Data.List.Perm.Subperm
import ParamLens.Proofs.Acyclic
import ParamLens.Proofs.Documents
import ParamLens.Proofs.Importers

/-! How deep the analyses of modules stand within each other. A class that refers to an imported
base makes the analysis ask for a module, which is analysed by a new analyzer before the analysis
goes on. If no file is entered again while it is being analysed, the analysis of a file finishes,
and no more analyses stand within each other than there are files. A file that is entered again is
entered without end. -/

namespace ParamLens.Analysis

open Syntax Steps Library Relation

/-! ### The files that are asked for -/

/-- A class of the tree refers to a base by the name, which an import binds to what is in the
module. -/
def Names (w : World) (root : Node) (name module : String) : Prop :=
  BaseName w root name ∧
    ∃ full, (Imports.ofTree w.finder root).get? name = some full ∧ full ≠ "" ∧
      moduleOf full = module

/-- The text asks for the file by one of the admitted names. -/
def Asks (admits : Node → String → Prop) (w : World) (workspace current : Option Path)
    (content : String) (file : Path) : Prop :=
  ∃ root name module, w.parse? content = some root ∧ admits root name ∧ Names w root name module ∧
    Imports.moduleFile w workspace current module = .ok (some file) ∧
    (w.read? file).isSome = true

/-- The text asks by one of the admitted names for a module that would be at a path without a last
component. -/
def AsksNowhere (admits : Node → String → Prop) (w : World) (workspace current : Option Path)
    (content : String) : Prop :=
  ∃ root name module fault, w.parse? content = some root ∧ admits root name ∧
    Names w root name module ∧ Imports.moduleFile w workspace current module = .error fault

/-- The file `f` asks for `g` by one of the admitted names. -/
def Imported (admits : Node → String → Prop) (w : World) (workspace : Option Path)
    (g f : Path) : Prop :=
  f.Straight ∧ ∃ content, w.read? f = some content ∧ Asks admits w workspace (some f) content g

def anyName (_ : Node) (_ : String) : Prop := True

/-- No class of the tree can be found under the name, so that only the import tells what it is. -/
def Foreign (w : World) (root : Node) (name : String) : Prop :=
  ∀ n ∈ w.finder.classes root, ∀ className, n.className? = some className →
    Classes.keyHasName name (Classes.key className n.row) = false

/-- Among the files for whose analysis a text asks is one that asks for itself, directly or through
others. -/
def Reenters (admits : Node → String → Prop) (w : World) (workspace current : Option Path)
    (content : String) : Prop :=
  ∃ f g, Asks admits w workspace current content g ∧
    ReflTransGen (Imported admits w workspace) f g ∧ TransGen (Imported admits w workspace) f f

/-- The file, or one for whose analysis it asks, asks for a module at a path without a last
component. -/
def LeadsNowhere (admits : Node → String → Prop) (w : World) (workspace : Option Path)
    (file : Path) : Prop :=
  ∃ f text, ReflTransGen (Imported admits w workspace) f file ∧ w.read? f = some text ∧
    AsksNowhere admits w workspace (some f) text

/-- The text, or a file for whose analysis it asks, asks for a module at a path without a last
component. -/
def Stumbles (admits : Node → String → Prop) (w : World) (workspace current : Option Path)
    (content : String) : Prop :=
  AsksNowhere admits w workspace current content ∨
    ∃ g, Asks admits w workspace current content g ∧ LeadsNowhere admits w workspace g

section

variable {w : World} {workspace : Option Path} {extra : List String}

theorem Asks.straight {admits : Node → String → Prop} (sited : Sited w workspace)
    {current : Option Path} (hcurrent : ∀ path ∈ current, path.Straight) {content : String}
    {g : Path} (h : Asks admits w workspace current content g) : g.Straight := by
  obtain ⟨_, _, _, -, -, -, hmodule, -⟩ := h
  exact sited.straight hcurrent hmodule

theorem Imported.straight {admits : Node → String → Prop} (sited : Sited w workspace) {g f : Path}
    (h : Imported admits w workspace g f) : g.Straight := by
  obtain ⟨hf, content, -, hasks⟩ := h
  refine hasks.straight sited fun path hpath => ?_
  rwa [← Option.some.inj hpath]

theorem Imported.readable {admits : Node → String → Prop} {g f : Path}
    (h : Imported admits w workspace g f) : (w.read? g).isSome = true := by
  obtain ⟨-, _, -, _, _, _, -, -, -, -, hread⟩ := h
  exact hread

theorem LeadsNowhere.of_imported {admits : Node → String → Prop} {g f : Path}
    (himported : Imported admits w workspace g f) (h : LeadsNowhere admits w workspace g) :
    LeadsNowhere admits w workspace f := by
  obtain ⟨last, text, hreach, hnowhere⟩ := h
  exact ⟨last, text, hreach.tail himported, hnowhere⟩

/-- Distinct straight paths that can be read are at most as many as the files. -/
theorem length_le_files {paths : List Path} (distinct : paths.Nodup)
    (h : ∀ p ∈ paths, p.Straight ∧ (w.read? p).isSome = true) :
    paths.length ≤ w.files.files.length := by
  have hparts : (paths.map Path.parts).Nodup := by
    refine distinct.map_on fun p hp q hq heq => ?_
    exact (h p hp).1.eq_of_parts_eq (h q hq).1 heq
  have hsub : paths.map Path.parts ⊆ w.files.files.map Prod.fst := by
    intro parts hmem
    obtain ⟨p, hp, rfl⟩ := List.mem_map.mp hmem
    obtain ⟨content, hread⟩ := Option.isSome_iff_exists.mp (h p hp).2
    exact FileSystem.mem_files_of_read? (h p hp).1 hread
  simpa using (List.subperm_of_subset hparts hsub).length_le

/-- Where the modules are looked for that the classes of a tree name, and perhaps others. -/
def lookups (w : World) (workspace current : Option Path) (root : Node) :
    List (Except NamelessPath (Option Path)) :=
  (w.finder.classes root).flatMap fun n => n.bases.filterMap fun base =>
    ((Imports.ofTree w.finder root).get? base.text).map fun full =>
      Imports.moduleFile w workspace current (moduleOf full)

def lookupsOf (w : World) (workspace : Option Path) (f : Path) :
    List (Except NamelessPath (Option Path)) :=
  (((w.read? f).bind w.parse?).map (lookups w workspace (some f))).getD []

def importsOf (w : World) (workspace : Option Path) (f : Path) : List Path :=
  (lookupsOf w workspace f).filterMap fun found => found.toOption.join

theorem Names.mem_lookups {root : Node} {name module : String} (h : Names w root name module)
    (current : Option Path) :
    Imports.moduleFile w workspace current module ∈ lookups w workspace current root := by
  obtain ⟨⟨-, n, hn, -, base, hbase, -, rfl⟩, full, hbound, -, rfl⟩ := h
  refine List.mem_flatMap.mpr ⟨n, hn, List.mem_filterMap.mpr ⟨base, hbase, ?_⟩⟩
  rw [hbound, Option.map_some]

theorem lookupsOf_eq {f : Path} {content : String} {root : Node}
    (hread : w.read? f = some content) (htree : w.parse? content = some root) :
    lookupsOf w workspace f = lookups w workspace (some f) root := by
  rw [lookupsOf, hread, Option.bind_some, htree, Option.map_some, Option.getD_some]

theorem Imported.mem_importsOf {admits : Node → String → Prop} {g f : Path}
    (h : Imported admits w workspace g f) : g ∈ importsOf w workspace f := by
  obtain ⟨-, content, hread, root, name, module, htree, -, hnames, hmodule, -⟩ := h
  have hmem : Imports.moduleFile w workspace (some f) module ∈ lookups w workspace (some f) root :=
    hnames.mem_lookups (some f)
  rw [hmodule] at hmem
  rw [importsOf, lookupsOf_eq hread htree]
  exact List.mem_filterMap.mpr ⟨_, hmem, rfl⟩

/-- Imports that go down in a ranking of the files go round in no circle. -/
theorem acyclic_imported {admits : Node → String → Prop} (rank : Path → Nat)
    (h : ∀ file ∈ w.files.files, ∀ g ∈ importsOf w workspace ⟨true, file.1⟩,
      rank g < rank ⟨true, file.1⟩) : Acyclic (Imported admits w workspace) := by
  refine acyclic_of_rank (p := fun _ => True) rank (fun _ _ _ => trivial) fun g f himported _ => ?_
  have hmem := himported.mem_importsOf
  obtain ⟨hf, content, hread, -⟩ := himported
  obtain ⟨file, hfile, hparts⟩ := List.mem_map.mp (FileSystem.mem_files_of_read? hf hread)
  have hpath : (⟨true, file.1⟩ : Path) = f := by
    rw [hparts, ← hf.absolute]
  exact hpath ▸ h file hfile g (hpath.symm ▸ hmem)

theorem not_reenters {admits : Node → String → Prop} {current : Option Path} {content : String}
    (rank : Path → Nat)
    (h : ∀ file ∈ w.files.files, ∀ g ∈ importsOf w workspace ⟨true, file.1⟩,
      rank g < rank ⟨true, file.1⟩) : ¬ Reenters admits w workspace current content :=
  fun ⟨f, _, _, _, hcircle⟩ => acyclic_imported rank h f hcircle

/-- Where every file finds a path to look at for the modules that it names, no file leads
nowhere. -/
theorem not_leadsNowhere {admits : Node → String → Prop} (sited : Sited w workspace)
    (h : ∀ file ∈ w.files.files, ∀ found ∈ lookupsOf w workspace ⟨true, file.1⟩,
      found.toOption.isSome = true) {file : Path} (hfile : file.Straight) :
    ¬ LeadsNowhere admits w workspace file := by
  rintro ⟨f, text, hreach, hread, root, name, module, fault, htree, -, hnames, hfault⟩
  have hf : f.Straight := by
    rcases hreach.cases_head with rfl | ⟨_, himported, -⟩
    · exact hfile
    · exact himported.straight sited
  obtain ⟨entry, hentry, hparts⟩ := List.mem_map.mp (FileSystem.mem_files_of_read? hf hread)
  have hpath : (⟨true, entry.1⟩ : Path) = f := by
    rw [hparts, ← hf.absolute]
  have hfound := h entry hentry
  rw [hpath, lookupsOf_eq hread htree] at hfound
  have hsome := hfound _ (hnames.mem_lookups (some f))
  rw [hfault] at hsome
  cases hsome

theorem not_stumbles {admits : Node → String → Prop} (sited : Sited w workspace)
    (h : ∀ file ∈ w.files.files, ∀ found ∈ lookupsOf w workspace ⟨true, file.1⟩,
      found.toOption.isSome = true) {file : Path} {content : String}
    (hfile : ∀ path ∈ some file, path.Straight) (hread : w.read? file = some content) :
    ¬ Stumbles admits w workspace (some file) content := by
  have hleads {g : Path} (hg : g.Straight) : ¬ LeadsNowhere admits w workspace g :=
    not_leadsNowhere sited h hg
  rintro (hnowhere | ⟨g, hasks, hnowhere⟩)
  · exact hleads (hfile file rfl) ⟨file, content, .refl, hread, hnowhere⟩
  · exact hleads (hasks.straight sited hfile) hnowhere

/-! ### Analyses by new analyzers -/

variable {b : Regime w extra} {good : Path → Analysis → Prop} {importer : Importer}
  {F : Failure → Prop}

theorem triple_analyzeWith_recalls (sited : Sited w workspace) {current : Option Path}
    (hcurrent : ∀ path ∈ current, path.Straight) {old : Table Analysis} {content : String}
    (named : AsksNowhere anyName w workspace current content → ∀ fault, F (.namelessPath fault))
    (serves : ∀ g text, Asks anyName w workspace current content g → w.read? g = some text →
      Serves b good F importer g text) :
    Triple (Recalls b workspace current good old) (analyzeWith importer w content current)
      (fun a s => Analysed (Recalled w workspace current good old) b.types w content a ∧
        Recalls b workspace current good old s)
      fun failure s => F failure ∧ Recalls b workspace current good old s := by
  refine triple_analyzeWith fun root htree => supports_recalls sited hcurrent ?_ ?_
  · intro name full hname hbound hfull fault hfault
    exact named ⟨root, name, _, fault, htree, trivial, ⟨hname, full, hbound, hfull, rfl⟩, hfault⟩
      fault
  · intro name full hname hbound hfull file text hfile hread
    refine serves file text ⟨root, name, _, htree, trivial, ⟨hname, full, hbound, hfull, rfl⟩,
      hfile, ?_⟩ hread
    rw [hread]
    rfl

theorem triple_byNew (sited : Sited w workspace) {file : Path} (hfile : file.Straight)
    {content : String} (hread : w.read? file = some content)
    (named : AsksNowhere anyName w workspace (some file) content → ∀ fault,
      F (.namelessPath fault))
    (serves : ∀ g text, Imported anyName w workspace g file → w.read? g = some text →
      Serves b good F importer g text) :
    Triple b.store (byNew w workspace extra importer file content)
      (fun a store => Analysed (Meant w workspace (some file) good) b.types w content a ∧
        b.store store)
      fun failure store => F failure ∧ b.store store := by
  have hcurrent : ∀ path ∈ some file, path.Straight := by
    intro path hpath
    rwa [← Option.some.inj hpath]
  have hrun : Triple (Recalls b workspace (some file) good ∅)
      (analyzeWith importer w content (some file))
      (fun a s => Analysed (Meant w workspace (some file) good) b.types w content a ∧
        Recalls b workspace (some file) good ∅ s)
      fun failure s => F failure ∧ Recalls b workspace (some file) good ∅ s :=
    triple_analyzeWith_recalls sited hcurrent named fun g text hasks =>
      serves g text ⟨hfile, content, hread, hasks⟩
  intro store hstore
  have hspec := hrun (fresh w workspace extra store) (recalls_fresh hstore)
  rw [run_byNew]
  rcases hout : (analyzeWith importer w content (some file)).run (fresh w workspace extra store)
    with ⟨failure | a, next⟩
  · rw [hout] at hspec
    exact ⟨hspec.1, hspec.2.store⟩
  · rw [hout] at hspec
    exact ⟨hspec.1, hspec.2.store⟩

/-- A module from which no file is entered again has a good analysis, if an analysis from good ones
is good, or fails because it leads nowhere. `around` holds the modules whose analysis this one is
part of. -/
theorem serves_importModule (b : Regime w extra) (good : Path → Analysis → Prop)
    (closed : ∀ file content a, w.read? file = some content →
      Analysed (Meant w workspace (some file) good) b.types w content a → good file a)
    (sited : Sited w workspace) {fuel : Nat} {around : List Path} {file : Path} {content : String}
    (hfile : file.Straight) (hread : w.read? file = some content)
    (free : ∀ f, ReflTransGen (Imported anyName w workspace) f file →
      ¬ TransGen (Imported anyName w workspace) f f)
    (named : LeadsNowhere anyName w workspace file → ∀ fault, F (.namelessPath fault))
    (apart : ∀ f ∈ around, ¬ ReflTransGen (Imported anyName w workspace) f file)
    (distinct : around.Nodup) (haround : ∀ f ∈ around, f.Straight ∧ (w.read? f).isSome = true)
    (hfuel : w.files.files.length ≤ fuel + around.length) :
    Serves b good F (importModule w workspace extra fuel around) file content := by
  -- The modules around and this one are distinct files, so there is fuel left.
  have hnew : file ∉ around := fun hmem => apart file hmem .refl
  have hall : ∀ f ∈ file :: around, f.Straight ∧ (w.read? f).isSome = true := by
    intro f hf
    rcases List.mem_cons.mp hf with rfl | hf
    · exact ⟨hfile, by rw [hread]; rfl⟩
    · exact haround f hf
  have hlength := length_le_files (List.nodup_cons.mpr ⟨hnew, distinct⟩) hall
  induction fuel generalizing around file content with
  | zero =>
    rw [List.length_cons] at hlength
    omega
  | succ fuel ih =>
    rw [Serves, importModule_succ, if_neg (by simpa using hnew)]
    refine Triple.weaken (triple_byNew sited hfile hread
      (fun hnowhere => named ⟨file, content, .refl, hread, hnowhere⟩)
      fun g text himported hgread => ?_)
      (fun _ hs => hs) fun a _ hs => ⟨closed file content a hread hs.1, hs.2⟩
    have hg := himported.straight sited
    -- A file around that is reached from what is asked for here would be entered again.
    have hapart : ∀ f ∈ file :: around,
        ¬ ReflTransGen (Imported anyName w workspace) f g := by
      intro f hf hreach
      rcases List.mem_cons.mp hf with rfl | hf
      · exact free f .refl (.tail' hreach himported)
      · exact apart f hf (hreach.tail himported)
    have hgnew : g ∉ file :: around := fun hmem => hapart g hmem .refl
    have hgall : ∀ f ∈ g :: file :: around, f.Straight ∧ (w.read? f).isSome = true := by
      intro f hf
      rcases List.mem_cons.mp hf with rfl | hf
      · exact ⟨hg, himported.readable⟩
      · exact hall f hf
    have hdistinct := List.nodup_cons.mpr ⟨hnew, distinct⟩
    refine ih hg hgread (fun f hf => free f (hf.tail himported))
      (fun hleads => named (hleads.of_imported himported)) hapart hdistinct hall ?_ hgnew
      hgall (length_le_files (List.nodup_cons.mpr ⟨hgnew, hdistinct⟩) hgall)
    rw [List.length_cons]
    omega

theorem serves_importModule_nil (b : Regime w extra) (good : Path → Analysis → Prop)
    (closed : ∀ file content a, w.read? file = some content →
      Analysed (Meant w workspace (some file) good) b.types w content a → good file a)
    (sited : Sited w workspace) {fuel : Nat} {file : Path} {content : String}
    (hfile : file.Straight) (hread : w.read? file = some content)
    (free : ∀ f, ReflTransGen (Imported anyName w workspace) f file →
      ¬ TransGen (Imported anyName w workspace) f f)
    (named : LeadsNowhere anyName w workspace file → ∀ fault, F (.namelessPath fault))
    (hfuel : w.files.files.length ≤ fuel) :
    Serves b good F (importModule w workspace extra fuel []) file content :=
  serves_importModule b good closed sited hfile hread free named
    (fun _ hf => absurd hf List.not_mem_nil) .nil (fun _ hf => absurd hf List.not_mem_nil) hfuel

/-! ### Analyses that finish -/

/-- The analysis of a file from which no file is entered again is not cut short, whatever the
analyzer remembers, with fuel for as many analyses within each other as there are files. It succeeds
unless it stumbles. -/
theorem finishes_of_not_reenters {s : AnalysisState} {content : String} {current : Option Path}
    (sited : Sited w s.analyzer.workspace) (hcurrent : ∀ path ∈ current, path.Straight)
    (h : ¬ Reenters anyName w s.analyzer.workspace current content) :
    ∃ result next, (analyzeWith (importModule w s.analyzer.workspace s.analyzer.extra
        w.files.files.length []) w content current).run s = (result, next) ∧
      ((∃ a, result = .ok a) ∨ Stumbles anyName w s.analyzer.workspace current content ∧
        ∃ fault, result = .error (.namelessPath fault)) := by
  let b := Regime.all w s.analyzer.extra
  let F (failure : Failure) : Prop := Stumbles anyName w s.analyzer.workspace current content ∧
    ∃ fault, failure = .namelessPath fault
  have hrecalls : Recalls b s.analyzer.workspace current (fun _ _ => True)
      s.analyzer.modules s := by
    refine ⟨rfl, rfl, trivial, trivial, trivial, fun hget => hget, fun hnone hget => ?_,
      fun _ _ => trivial⟩
    rw [hnone] at hget
    cases hget
  have serves : ∀ g text, Asks anyName w s.analyzer.workspace current content g →
      w.read? g = some text → Serves b (fun _ _ => True) F (importModule w s.analyzer.workspace
        s.analyzer.extra w.files.files.length []) g text := by
    intro g text hasks hread
    exact serves_importModule_nil b (fun _ _ => True) (fun _ _ _ _ _ => trivial) sited
      (hasks.straight sited hcurrent) hread
      (fun f hreach hcircle => h ⟨f, g, hasks, hreach, hcircle⟩)
      (fun hleads fault => ⟨.inr ⟨g, hasks, hleads⟩, fault, rfl⟩) (Nat.le_refl _)
  have hspec := triple_analyzeWith_recalls (F := F) sited hcurrent
    (fun hnowhere fault => ⟨.inl hnowhere, fault, rfl⟩) serves s hrecalls
  rcases hrun : (analyzeWith (importModule w s.analyzer.workspace s.analyzer.extra
    w.files.files.length []) w content current).run s with ⟨failure | a, next⟩
  · rw [hrun] at hspec
    obtain ⟨⟨hstumbles, fault, rfl⟩, -⟩ := hspec
    exact ⟨_, next, rfl, .inr ⟨hstumbles, fault, rfl⟩⟩
  · exact ⟨_, next, rfl, .inl ⟨a, rfl⟩⟩

/-! ### Analyses that do not finish -/

/-- What a name that belongs to no class of the tree is bound to is asked for in every analysis of
the tree. -/
theorem exists_means_of_foreign {means : String → Analysis → Prop} {types : List String → Prop}
    {content : String} {root : Node} {a : Analysis} (h : Enrols means types w content root a)
    {name module : String} (hnames : Names w root name module) (hforeign : Foreign w root name) :
    ∃ found, means module found := by
  obtain ⟨latest, htraverses, -, -⟩ := h
  obtain ⟨⟨hfilled, n, hn, hnamed, base, hbase, hkind, rfl⟩, full, hbound, hfull, rfl⟩ := hnames
  obtain ⟨before, after, ⟨hkeyed, himports⟩, htakes⟩ := htraverses.exists_step
    (I := fun latest => Keyed w root latest.classes ∧
      latest.imports = Imports.ofTree w.finder root)
    (fun m hm k k' hstep hk =>
      ⟨hstep.keyed (mem_classOrder.mp hm).1 hk.1, hstep.imports.trans hk.2⟩)
    ⟨keyed_empty w root, rfl⟩ (mem_classOrder.mpr ⟨hn, hnamed⟩)
  -- No class of the file is ever entered under the name, so the import decides.
  have hnone : before.classes.findName? (Classes.keyHasName base.text) = none := by
    refine List.find?_eq_none.mpr fun entry hentry => ?_
    obtain ⟨m, hm, className, hclass, hkey⟩ := hkeyed entry.1 entry.2
      (Table.get?_of_mem_entries hentry)
    rw [hkey, hforeign m hm className hclass]
    exact Bool.false_ne_true
  have hfound : ∀ c, Found means before.imports base.text c →
      ∃ found, means (moduleOf full) found := by
    intro c hc
    have hfilter : (before.imports.get? base.text).filter (· != "") = some full := by
      rw [himports, hbound, Option.filter_some, if_pos (by simpa using hfull)]
    simp only [Found, hfilter] at hc
    obtain ⟨found, hmeans, -⟩ := hc
    exact ⟨found, hmeans⟩
  cases htakes with
  | passed htests =>
    have htest := htests base hbase
    simp only [Tests, hkind, if_neg hfilled] at htest
    split at htest
    · cases htest
    · obtain ⟨c, hc, -⟩ := htest
      exact hfound c hc
  | entered _ _ _ hbrings _ =>
    obtain ⟨c, -, hc⟩ := exists_of_mem_forall₂ hbrings hbase
    simp only [Brings, hkind, if_neg hfilled, Classes.named?, hnone, Option.map_none] at hc
    exact hfound c hc

/-- An analysis that succeeds had a good analysis of each file that the text asks for by a foreign
name. -/
theorem Analysed.exists_good {current : Option Path} {content : String}
    {types : List String → Prop} {a : Analysis} {g : Path}
    (h : Analysed (Meant w workspace current good) types w content a)
    (hasks : Asks (Foreign w) w workspace current content g) : ∃ found, good g found := by
  obtain ⟨root, name, module, htree, hforeign, hnames, hmodule, hread⟩ := hasks
  simp only [Analysed, htree] at h
  obtain ⟨found, hmeant⟩ := exists_means_of_foreign h hnames hforeign
  rcases hmeant with ⟨file, hfile, hgood⟩ | ⟨-, looked, hlooked, hnone⟩
  · rw [hmodule] at hfile
    obtain rfl := Option.some.inj (Except.ok.inj hfile)
    exact ⟨found, hgood⟩
  · rw [hmodule] at hlooked
    obtain rfl := Except.ok.inj hlooked
    rw [Option.bind_some] at hnone
    rw [hnone] at hread
    cases hread

/-- An analysis that succeeds asked by no foreign name for a module at a path without a last
component. -/
theorem Analysed.not_asksNowhere {current : Option Path} {content : String}
    {types : List String → Prop} {a : Analysis}
    (h : Analysed (Meant w workspace current good) types w content a) :
    ¬ AsksNowhere (Foreign w) w workspace current content := by
  rintro ⟨root, name, module, fault, htree, hforeign, hnames, hfault⟩
  simp only [Analysed, htree] at h
  obtain ⟨found, hmeant⟩ := exists_means_of_foreign h hnames hforeign
  rcases hmeant with ⟨file, hfile, -⟩ | ⟨-, looked, hlooked, -⟩
  · rw [hfault] at hfile
    cases hfile
  · rw [hfault] at hlooked
    cases hlooked

/-- By foreign names the file asks for no module without end, and does not lead nowhere. -/
structure Grounded (w : World) (workspace : Option Path) (file : Path) : Prop where
  ends : Acc (Imported (Foreign w) w workspace) file
  named : ¬ LeadsNowhere (Foreign w) w workspace file

/-- A file is grounded if the files are that it asks for, and it asks for no module at a path
without a last component. -/
theorem grounded_of_imported {file : Path} {content : String} (hread : w.read? file = some content)
    (h : ∀ g, Imported (Foreign w) w workspace g file → Grounded w workspace g)
    (hnowhere : ¬ AsksNowhere (Foreign w) w workspace (some file) content) :
    Grounded w workspace file := by
  refine ⟨⟨file, fun g himported => (h g himported).ends⟩, ?_⟩
  rintro ⟨f, text, hreach, hf, hasks⟩
  rcases hreach.cases_tail with rfl | ⟨g, hreach, himported⟩
  · rw [hread] at hf
    obtain rfl := Option.some.inj hf
    exact hnowhere hasks
  · exact (h g himported).named ⟨f, text, hreach, hf, hasks⟩

/-- A module whose analysis succeeds at some depth is grounded. -/
theorem grounded_of_nested (sited : Sited w workspace) {depth : Nat} {file : Path}
    {content : String} {store next : Store} {a : Analysis} (hfile : file.Straight)
    (hread : w.read? file = some content)
    (h : (nested w workspace extra depth file content).run store = (.ok a, next)) :
    Grounded w workspace file := by
  induction depth generalizing file content store next a with
  | zero => cases h
  | succ depth ih =>
    -- What the module asks for succeeds one level below, and is grounded by induction.
    have serves : ∀ g text, Imported anyName w workspace g file → w.read? g = some text →
        Serves (Regime.all w extra) (fun g _ => Grounded w workspace g) (fun _ => True)
          (nested w workspace extra depth) g text := by
      intro g text himported hgread
      exact Triple.of_success (fun _ _ => ⟨trivial, trivial⟩) fun _ _ _ _ hrun =>
        ⟨ih (himported.straight sited) hgread hrun, trivial⟩
    have hspec := (triple_byNew sited hfile hread (fun _ _ => trivial) serves).of_ok trivial h
    refine grounded_of_imported hread (fun g himported => ?_) hspec.1.not_asksNowhere
    obtain ⟨-, content', hread', hasks⟩ := himported
    rw [hread] at hread'
    obtain rfl := Option.some.inj hread'
    obtain ⟨-, hgrounded⟩ := hspec.1.exists_good hasks
    exact hgrounded

/-- The analysis of a file that stumbles by foreign names, or from which a file is entered again by
foreign names, succeeds at no depth. -/
theorem not_ok_of_reenters_or_stumbles {s : AnalysisState} {content : String}
    {current : Option Path} (sited : Sited w s.analyzer.workspace)
    (hcurrent : ∀ path ∈ current, path.Straight)
    (hmodules : s.analyzer.modules = ∅) (hfiles : s.analyzer.files = ∅)
    (h : Reenters (Foreign w) w s.analyzer.workspace current content ∨
      Stumbles (Foreign w) w s.analyzer.workspace current content)
    (depth : Nat) (a : Analysis) (next : AnalysisState) :
    (analyzeWith (nested w s.analyzer.workspace s.analyzer.extra depth) w content current).run s ≠
      (.ok a, next) := by
  intro hrun
  let b := Regime.all w s.analyzer.extra
  have hrecalls : Recalls b s.analyzer.workspace current
      (fun g _ => Grounded w s.analyzer.workspace g) ∅ s := by
    refine ⟨rfl, rfl, trivial, trivial, trivial, fun hget => ?_, fun _ hget => ?_,
      fun _ hget => ?_⟩
    · cases hget
    · rw [hmodules] at hget
      cases hget
    · rw [hfiles] at hget
      cases hget
  have serves : ∀ g text, Asks anyName w s.analyzer.workspace current content g →
      w.read? g = some text → Serves b (fun g _ => Grounded w s.analyzer.workspace g)
        (fun _ => True) (nested w s.analyzer.workspace s.analyzer.extra depth) g text := by
    intro g text hasks hgread
    exact Triple.of_success (fun _ _ => ⟨trivial, trivial⟩) fun _ _ _ _ hout =>
      ⟨grounded_of_nested sited (hasks.straight sited hcurrent) hgread hout, trivial⟩
  have hspec := (triple_analyzeWith_recalls sited hcurrent (fun _ _ => trivial) serves).of_ok
    hrecalls hrun
  rcases h with ⟨f, g, hasks, hreach, hcircle⟩ | hnowhere | ⟨g, hasks, hleads⟩
  · obtain ⟨-, hgrounded⟩ := Analysed.exists_good hspec.1 hasks
    exact not_transGen_of_acc hgrounded.ends hreach hcircle
  · exact Analysed.not_asksNowhere hspec.1 hnowhere
  · obtain ⟨-, hgrounded⟩ := Analysed.exists_good hspec.1 hasks
    exact hgrounded.named hleads

/-- Where no imported base has the name of a class beside it, every name that is asked for is
foreign. -/
theorem asks_foreign_iff
    (clear : ∀ text root name, w.parse? text = some root → BaseName w root name →
      (Imports.ofTree w.finder root).contains name = true → Foreign w root name) :
    Asks (Foreign w) w workspace = Asks anyName w workspace ∧
      AsksNowhere (Foreign w) w workspace = AsksNowhere anyName w workspace := by
  have hforeign {content : String} {root : Node} {name module : String}
      (htree : w.parse? content = some root) (hnames : Names w root name module) :
      Foreign w root name := by
    obtain ⟨hname, full, hbound, -⟩ := hnames
    refine clear content root name htree hname ?_
    rw [Table.contains_eq_isSome, hbound]
    rfl
  constructor
  · funext current content g
    refine propext ⟨?_, ?_⟩
    · rintro ⟨root, name, module, htree, -, hrest⟩
      exact ⟨root, name, module, htree, trivial, hrest⟩
    · rintro ⟨root, name, module, htree, -, hnames, hrest⟩
      exact ⟨root, name, module, htree, hforeign htree hnames, hnames, hrest⟩
  · funext current content
    refine propext ⟨?_, ?_⟩
    · rintro ⟨root, name, module, fault, htree, -, hrest⟩
      exact ⟨root, name, module, fault, htree, trivial, hrest⟩
    · rintro ⟨root, name, module, fault, htree, -, hnames, hrest⟩
      exact ⟨root, name, module, fault, htree, hforeign htree hnames, hnames, hrest⟩

end

/-- The analysis of a file finishes if no file is entered again while it is being analysed: then no
more analyses of modules stand within each other than there are files, and the analysis succeeds, or
it stumbles and fails for a path without a last component. If a file is entered again, or the
analysis stumbles, by names that belong to no class beside them, the analysis succeeds at no depth.
So where no imported base has the name of a class beside it, an analyzer that remembers no module
succeeds with the file exactly if no file is entered again and the analysis does not stumble. -/
theorem analyzeFile_finishes_iff_not_reentered (w : World) (s : AnalysisState) (content : String)
    (current : Option Path) (sited : Sited w s.analyzer.workspace)
    (hcurrent : ∀ path ∈ current, path.Straight) :
    let workspace := s.analyzer.workspace
    let within depth :=
      (analyzeWith (nested w workspace s.analyzer.extra depth) w content current).run s
    (¬ Reenters anyName w workspace current content → ∃ result next,
      (analyzeFile w content current).run s = (result, next) ∧
        within w.files.files.length = (result, next) ∧
        ((∃ a, result = .ok a) ∨ Stumbles anyName w workspace current content ∧
          ∃ fault, result = .error (.namelessPath fault))) ∧
    (s.analyzer.modules = ∅ → s.analyzer.files = ∅ →
      Reenters (Foreign w) w workspace current content ∨
        Stumbles (Foreign w) w workspace current content →
        (∀ a next, (analyzeFile w content current).run s ≠ (.ok a, next)) ∧
          ∀ depth a next, within depth ≠ (.ok a, next)) ∧
    (s.analyzer.modules = ∅ → s.analyzer.files = ∅ →
      (∀ text root name, w.parse? text = some root → BaseName w root name →
        (Imports.ofTree w.finder root).contains name = true → Foreign w root name) →
      ((∃ a next, (analyzeFile w content current).run s = (.ok a, next)) ↔
        ¬ Reenters anyName w workspace current content ∧
          ¬ Stumbles anyName w workspace current content)) := by
  intro workspace within
  have hfinish : ¬ Reenters anyName w workspace current content → ∃ result next,
      (analyzeFile w content current).run s = (result, next) ∧
        within w.files.files.length = (result, next) ∧
        ((∃ a, result = .ok a) ∨ Stumbles anyName w workspace current content ∧
          ∃ fault, result = .error (.namelessPath fault)) := by
    intro h
    obtain ⟨result, next, hrun, hresult⟩ := finishes_of_not_reenters sited hcurrent h
    have hwhole : result ≠ .error .importCycle := by
      rcases hresult with ⟨a, rfl⟩ | ⟨-, fault, rfl⟩ <;> nofun
    refine ⟨result, next, ?_, ?_, hresult⟩
    · rw [run_analyzeFile]
      exact refines_analyzeWith (fun _ _ => refines_importModule (length_files_le_importDepth w)
        (List.Subset.refl _) _ _) content s result next hwhole hrun
    · exact refines_analyzeWith (fun _ _ => refines_nested _ _ _ _) content s result next
        hwhole hrun
  have hnever : s.analyzer.modules = ∅ → s.analyzer.files = ∅ →
      Reenters (Foreign w) w workspace current content ∨
        Stumbles (Foreign w) w workspace current content →
        (∀ a next, (analyzeFile w content current).run s ≠ (.ok a, next)) ∧
          ∀ depth a next, within depth ≠ (.ok a, next) := by
    intro hmodules hfiles h
    have hnested := not_ok_of_reenters_or_stumbles sited hcurrent hmodules hfiles h
    refine ⟨fun a next hrun => ?_, hnested⟩
    rw [run_analyzeFile] at hrun
    exact hnested (importDepth w) a next
      (refines_analyzeWith (fun _ _ => refines_nested _ _ _ _) content s (.ok a) next nofun hrun)
  refine ⟨hfinish, hnever, fun hmodules hfiles clear => ?_⟩
  obtain ⟨hasks, hnowhere⟩ : Asks (Foreign w) w workspace = Asks anyName w workspace ∧
      AsksNowhere (Foreign w) w workspace = AsksNowhere anyName w workspace :=
    asks_foreign_iff clear
  have hnames : Imported (Foreign w) w workspace = Imported anyName w workspace := by
    funext g f
    simp only [Imported, hasks]
  constructor
  · rintro ⟨a, next, hrun⟩
    have hnot := fun h => (hnever hmodules hfiles h).1 a next hrun
    simp only [Reenters, Stumbles, LeadsNowhere, hasks, hnowhere, hnames] at hnot
    simp only [Reenters, Stumbles, LeadsNowhere]
    exact ⟨fun h => hnot (.inl h), fun h => hnot (.inr h)⟩
  · rintro ⟨h, hsteady⟩
    obtain ⟨result, next, hrun, -, ⟨a, rfl⟩ | ⟨hstumbles, -⟩⟩ := hfinish h
    · exact ⟨a, next, hrun⟩
    · exact absurd hstumbles hsteady

/-! ### Two modules -/

section

open Sketch

/-- A workspace with the modules `a` and `b`. -/
def twoModules (a b : Sketch) : World := .sketched [(["ws", "a.py"], a), (["ws", "b.py"], b)]

def workspacePath : Path := ⟨true, ["ws"]⟩

def modulePath (name : String) : Path := ⟨true, ["ws", name ++ ".py"]⟩

theorem sited_of_no_origins {w : World} (h : w.moduleOrigins.entries = []) :
    Sited w (some workspacePath) := by
  refine ⟨fun root hroot => ?_, fun name origin hget => ?_⟩
  · rw [← Option.some.inj hroot]
    decide
  · have hmem := Table.mem_entries_of_get? hget
    rw [h] at hmem
    cases hmem

/-- A class that inherits from one of the module `b`. -/
def heirFile : Sketch := file [takesName ["b"] "B", classed "A" [name "B"] []]

/-- The class `B` with the parameter `x`. -/
def baseFile : Sketch :=
  file [importsModule ["param"], classed "B" [rootBase] [declares "x" "Integer" []]]

/-- A class of `a` inherits from one of `b`. -/
def chain : World := twoModules heirFile baseFile

/-- In a chain of two modules the analysis succeeds, with at most two analyses within each other. -/
theorem analyzeFile_finishes_chain :
    let s := fresh chain (some workspacePath) [] {}
    ∃ a next, (analyzeFile chain heirFile.written (some (modulePath "a"))).run s = (.ok a, next) ∧
      (analyzeWith (nested chain (some workspacePath) [] 2) chain heirFile.written
        (some (modulePath "a"))).run s = (.ok a, next) := by
  have hsited : Sited chain (some workspacePath) := sited_of_no_origins rfl
  have hcurrent : ∀ path ∈ some (modulePath "a"), path.Straight := by
    intro path hpath
    rw [← Option.some.inj hpath]
    decide
  obtain ⟨result, next, hrun, hwithin, ⟨a, rfl⟩ | ⟨hstumbles, -⟩⟩ :=
    (analyzeFile_finishes_iff_not_reentered chain (fresh chain (some workspacePath) [] {})
      heirFile.written (some (modulePath "a")) hsited hcurrent).1
      (not_reenters (fun f => if f = modulePath "a" then 1 else 0) (by decide +kernel))
  · exact ⟨a, next, hrun, hwithin⟩
  · exact absurd hstumbles (not_stumbles hsited (by decide +kernel) hcurrent (by decide +kernel))

/-- A class with a parameter, and a class that inherits from one of the module `b`. -/
def firstFile : Sketch :=
  file [importsModule ["param"], classed "A0" [rootBase] [declares "x" "Integer" []],
    takesName ["b"] "B", classed "A" [name "B"] []]

/-- A class that inherits from one of the module `a`. -/
def secondFile : Sketch := file [takesName ["a"] "A0", classed "B" [name "A0"] []]

/-- A class of `b` inherits from one of `a`, and another class of `a` from the one of `b`. -/
def circle : World := twoModules firstFile secondFile

end

theorem foreign_of_all {w : World} {root : Node} {name : String}
    (h : ((w.finder.classes root).all fun n => n.className?.all fun className =>
      !Classes.keyHasName name (Classes.key className n.row)) = true) : Foreign w root name := by
  intro n hn className hclass
  have hkey := List.all_eq_true.mp h n hn
  rw [hclass] at hkey
  simpa using hkey

theorem reenters_circle : Reenters (Foreign circle) circle (some workspacePath)
    (some (modulePath "a")) firstFile.written := by
  have hfirst : Asks (Foreign circle) circle (some workspacePath) (some (modulePath "a"))
      firstFile.written (modulePath "b") := by
    refine ⟨firstFile.node, "B", "b", World.parse?_sketched (by decide +kernel) (.head _),
      foreign_of_all (by decide +kernel),
      ⟨?_, "b.B", by decide +kernel, by decide, by decide +kernel⟩, by decide +kernel,
      by decide +kernel⟩
    unfold BaseName
    decide +kernel
  have hsecond : Asks (Foreign circle) circle (some workspacePath) (some (modulePath "b"))
      secondFile.written (modulePath "a") := by
    refine ⟨secondFile.node, "A0", "a", World.parse?_sketched (by decide +kernel)
      (.tail _ (.head _)), foreign_of_all (by decide +kernel),
      ⟨?_, "a.A0", by decide +kernel, by decide, by decide +kernel⟩, by decide +kernel,
      by decide +kernel⟩
    unfold BaseName
    decide +kernel
  have hinner : Imported (Foreign circle) circle (some workspacePath) (modulePath "b")
      (modulePath "a") := ⟨by decide, firstFile.written, by decide +kernel, hfirst⟩
  have houter : Imported (Foreign circle) circle (some workspacePath) (modulePath "a")
      (modulePath "b") := ⟨by decide, secondFile.written, by decide +kernel, hsecond⟩
  exact ⟨modulePath "b", modulePath "b", hfirst, .refl, .tail (.single hinner) houter⟩

/-- The analysis of a module of the circle finishes at no depth. -/
theorem analyzeFile_never_finishes_circle :
    let s := fresh circle (some workspacePath) [] {}
    (∀ a next, (analyzeFile circle firstFile.written (some (modulePath "a"))).run s ≠
        (.ok a, next)) ∧
      ∀ depth a next, (analyzeWith (nested circle (some workspacePath) [] depth) circle
        firstFile.written (some (modulePath "a"))).run s ≠ (.ok a, next) := by
  have hcurrent : ∀ path ∈ some (modulePath "a"), path.Straight := by
    intro path hpath
    rw [← Option.some.inj hpath]
    decide
  have hnested := not_ok_of_reenters_or_stumbles
    (s := fresh circle (some workspacePath) [] {}) (sited_of_no_origins rfl) hcurrent rfl rfl
    (.inl reenters_circle)
  refine ⟨fun a next hrun => ?_, hnested⟩
  rw [run_analyzeFile] at hrun
  exact hnested (importDepth circle) a next
    (refines_analyzeWith (fun _ _ => refines_nested _ _ _ _) firstFile.written _ (.ok a) next nofun
      hrun)

end ParamLens.Analysis
