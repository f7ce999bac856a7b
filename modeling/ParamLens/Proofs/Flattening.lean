import ParamLens.Proofs.Hierarchy

/-! The analysis of a file finds the classes with parameters of its hierarchy, however deep it is
and over however many files it goes: the classes of a file are taken after those that they inherit
from, and imported ones come from analyses of their files. -/

namespace ParamLens.Analysis

open Syntax Steps Library Relation

/-! ### Tables of parameters -/

theorem parameters_built (name : String) (inherited : Table Parameter) (own : List Parameter) :
    (built name inherited own).parameters = inherited.update (own.map fun p => (p.name, p)) := by
  rw [built, ParamClass.parameters_foldl_add]
  show ((∅ : Table Parameter).fill inherited.entries).update _ = _
  rw [Table.fill_empty_entries]

/-- The parameters that a class brings, if there is one. -/
def brought (c : Option ParamClass) : Table Parameter := (c.map ParamClass.parameters).getD ∅

theorem foldl_lay (cs : List (Option ParamClass)) : cs.foldl lay ∅ = layAll (cs.map brought) := by
  rw [layAll, List.foldl_map]
  congr
  funext found c
  cases c <;> rfl

/-! ### What is found of a class -/

/-- One text asks for the file of the other. -/
def Source.AsksFor {w : World} (workspace : Option Path) (src src' : Source w) : Prop :=
  ∃ g, Asks anyName w workspace src.file src.content g ∧ Source.ofFile? w g = some src'

/-- The text and the files for which it asks, directly or through others, are well-formed, and the
bases of their classes that are taken for the root are those that count as it. -/
def Source.Sound {w : World} (isRoot : Source w → Node → Bool) (workspace : Option Path)
    (src : Source w) : Prop :=
  ∀ src', ReflTransGen (Source.AsksFor workspace) src src' → src'.WellFormed ∧
    ∀ n ∈ src'.classes, ∀ base ∈ n.bases, src'.isTakenForRoot base = isRoot src' base

section

variable {w : World} (isRoot : Source w → Node → Bool) (types : List String → Prop)
  (workspace : Option Path)

/-- A class is found exactly if it reaches a root, with the parameters that are its own and
inherited. -/
def Tells (src : Source w) (n : Node) : Option ParamClass → Prop
  | none => ¬ Reaches isRoot workspace src n
  | some c => Reaches isRoot workspace src n ∧ Flat isRoot types workspace src n c.parameters

/-- The analysis has found the classes with parameters of the text. -/
structure Flattens (src : Source w) (a : Analysis) : Prop where
  keyed : Keyed w src.root a.classes
  tells : ∀ n ∈ src.classes, ∀ name, n.className? = some name →
    Tells isRoot types workspace src n (a.classes.get? (Classes.key name n.row))

/-- The class that is found for a reference. -/
def Told (target : Option (Source w × Node)) (c : Option ParamClass) : Prop :=
  match target with
  | none => c = none
  | some (src, n) => Tells isRoot types workspace src n c

/-- The analysis of a file has found its classes with parameters; a file without a tree has none. -/
def Good (file : Path) (a : Analysis) : Prop :=
  match Source.ofFile? w file with
  | none => a.classes = ∅
  | some src => src.Sound isRoot workspace → Flattens isRoot types workspace src a

/-- The classes of the text that are done have been found, and no others. -/
structure Stage (src : Source w) (done : List Node) (latest : Analysis) : Prop where
  imports : latest.imports = src.imports
  keyed : Keyed w src.root latest.classes
  found : ∀ n ∈ src.classes, n ∈ done → ∀ name, n.className? = some name →
    Tells isRoot types workspace src n (latest.classes.get? (Classes.key name n.row))
  pending : ∀ n ∈ src.classes, n ∉ done → ∀ name, n.className? = some name →
    latest.classes.get? (Classes.key name n.row) = none

end

section

variable {w : World} {isRoot : Source w → Node → Bool} {types : List String → Prop}
  {workspace : Option Path} {src : Source w}

theorem Source.Sound.wellFormed (sound : src.Sound isRoot workspace) : src.WellFormed :=
  (sound src .refl).1

theorem Source.Sound.asked (sound : src.Sound isRoot workspace) {src' : Source w}
    (h : src.AsksFor workspace src') : src'.Sound isRoot workspace :=
  fun src'' hreach => sound src'' (.head h hreach)

theorem Tells.isSome_iff {n : Node} {c : Option ParamClass}
    (h : Tells isRoot types workspace src n c) :
    c.isSome = true ↔ Reaches isRoot workspace src n := by
  cases c with
  | none => exact ⟨fun hsome => absurd hsome Bool.false_ne_true, fun hreach => absurd hreach h⟩
  | some c => exact ⟨fun _ => h.1, fun _ => rfl⟩

theorem Told.isSome_iff {target : Option (Source w × Node)} {c : Option ParamClass}
    (h : Told isRoot types workspace target c) :
    c.isSome = true ↔ ∃ src' m, target = some (src', m) ∧ Reaches isRoot workspace src' m := by
  cases target with
  | none =>
    have hnone : c = none := h
    simp [hnone]
  | some found =>
    obtain ⟨src', m⟩ := found
    have htells : Tells isRoot types workspace src' m c := h
    simp [htells.isSome_iff]

theorem Told.flat {src' : Source w} {m : Node} {c : Option ParamClass}
    (h : Told isRoot types workspace (some (src', m)) c)
    (hreach : Reaches isRoot workspace src' m) :
    Flat isRoot types workspace src' m (brought c) := by
  cases c with
  | none => exact absurd hreach h
  | some c => exact h.2

theorem Told.brought_eq_empty {target : Option (Source w × Node)} {c : Option ParamClass}
    (h : Told isRoot types workspace target c)
    (hnot : ∀ src' m, target = some (src', m) → ¬ Reaches isRoot workspace src' m) :
    brought c = ∅ := by
  cases c with
  | none => rfl
  | some c =>
    obtain ⟨src', m, htarget, hreach⟩ := h.isSome_iff.mp rfl
    exact absurd hreach (hnot src' m htarget)

theorem Flattens.told_named? (wf : src.WellFormed) {a : Analysis}
    (h : Flattens isRoot types workspace src a) (name : String) :
    Told isRoot types workspace ((src.classNamed? name).map (src, ·))
      (a.classes.named? name) := by
  rw [wf.named?_eq h.keyed]
  cases hclass : src.classNamed? name with
  | none => rfl
  | some n =>
    obtain ⟨hn, hname⟩ := wf.classNamed?_eq_some.mp hclass
    exact h.tells n hn name hname

theorem Found.told {name : String} {c : Option ParamClass}
    (h : Found (Meant w workspace src.file (Good isRoot types workspace)) src.imports name c)
    (sound : src.Sound isRoot workspace) (htree : w.parse? src.content = some src.root)
    (hname : BaseName w src.root name) :
    Told isRoot types workspace (src.imported? workspace name) c := by
  cases hfull : (src.imports.get? name).filter (· != "") with
  | none =>
    simp only [Found, hfull] at h
    simp only [Source.imported?, hfull]
    exact h
  | some full =>
    simp only [Found, hfull] at h
    obtain ⟨hbound, hfilled⟩ := Option.filter_eq_some_iff.mp hfull
    obtain ⟨a, hmeant, rfl⟩ := h
    simp only [Source.imported?, hfull]
    rcases hmeant with ⟨file, hfile, hgood⟩ | ⟨rfl, found, hfound, hnone⟩
    · rw [hfile]
      simp only [Except.toOption, Option.join_some, Option.bind_some]
      cases hsource : Source.ofFile? w file with
      | none =>
        simp only [Good, hsource] at hgood
        show a.classes.named? _ = none
        rw [hgood]
        rfl
      | some src' =>
        simp only [Good, hsource] at hgood
        have hread : (w.read? file).isSome = true := by
          cases hread : w.read? file with
          | none => simp [Source.ofFile?, hread] at hsource
          | some content => rfl
        have hasks : src.AsksFor workspace src' :=
          ⟨file, ⟨src.root, name, _, htree, trivial,
            ⟨hname, full, hbound, by simpa using hfilled, rfl⟩, hfile, hread⟩, hsource⟩
        have hsound := sound.asked hasks
        exact (hgood hsound).told_named? hsound.wellFormed (nameIn name full)
    · have hsource : found.bind (Source.ofFile? w) = none := by
        cases found with
        | none => rfl
        | some file =>
          rw [Option.bind_some] at hnone
          simp [Source.ofFile?, hnone]
      rw [hfound]
      simp only [Except.toOption, Option.join_some, hsource]
      rfl

/-! ### One class after another -/

section

variable {done : List Node} {latest : Analysis}
  (stage : Stage isRoot types workspace src done latest)
  (sound : src.Sound isRoot workspace) (htree : w.parse? src.content = some src.root)
  {n : Node} (hn : n ∈ src.classes) (hnamed : n.className?.isSome = true)
  (hlocal : ∀ m, LocalBase src.classes m n → m ∈ done)

include stage sound

theorem Stage.tells_named? {m : Node} {name : String} (hclass : src.classNamed? name = some m)
    (hdone : m ∈ done) :
    Tells isRoot types workspace src m (latest.classes.named? name) := by
  rw [sound.wellFormed.named?_eq stage.keyed, hclass, Option.bind_some]
  obtain ⟨hm, hname⟩ := sound.wellFormed.classNamed?_eq_some.mp hclass
  exact stage.found m hm hdone name hname

include htree hn hnamed hlocal

theorem Stage.told_of_brings {base : Node} (hbase : base ∈ n.bases) {c : Option ParamClass}
    (h : Brings (Meant w workspace src.file (Good isRoot types workspace)) latest base c) :
    Told isRoot types workspace (src.target? workspace base) c := by
  rcases sound.wellFormed.bases n hn hnamed base hbase with ⟨hkind, htext⟩ | ⟨hkind, hroot⟩
  · have hname : BaseName w src.root base.text := ⟨htext, n, hn, hnamed, base, hbase, hkind, rfl⟩
    simp only [Brings, hkind, if_neg htext, stage.imports] at h
    rw [Source.target?, if_pos ⟨hkind, htext⟩]
    cases hclass : src.classNamed? base.text with
    | none =>
      have hnone : latest.classes.named? base.text = none := by
        rw [sound.wellFormed.named?_eq stage.keyed, hclass, Option.bind_none]
      rw [hnone] at h
      exact Found.told h sound htree hname
    | some m =>
      obtain ⟨hm, hmname⟩ := sound.wellFormed.classNamed?_eq_some.mp hclass
      have htells := stage.tells_named? sound hclass
        (hlocal m ⟨hm, base, hbase, hkind, hmname⟩)
      cases hfound : latest.classes.named? base.text with
      | some found =>
        rw [hfound] at h htells
        obtain rfl : c = some found := h
        exact htells
      | none =>
        -- The name of a class of the text is not imported, so nothing else is found.
        rw [hfound] at h htells
        have hunbound := sound.wellFormed.notImported m hm base.text hmname
        simp only [Found, hunbound, Option.filter_none] at h
        obtain rfl : c = none := h
        exact htells
  · have hpath : latest.imports.classPath? base = some "param.Parameterized" := by
      rw [stage.imports]
      exact classPath?_of_isRootBase hkind hroot
    simp only [Brings, hkind] at h
    rw [Source.target?, if_neg (by simp [hkind])]
    exact h hpath

/-- A base makes the class one with parameters if it is the root or refers to a class that reaches
it. -/
theorem Stage.tests_iff {base : Node} (hbase : base ∈ n.bases) {b : Bool}
    (h : Tests (Meant w workspace src.file (Good isRoot types workspace)) latest base b) :
    b = true ↔ isRoot src base = true ∨ ∃ src' m,
      src.target? workspace base = some (src', m) ∧ Reaches isRoot workspace src' m := by
  rw [← (sound src .refl).2 n hn base hbase]
  rcases sound.wellFormed.bases n hn hnamed base hbase with ⟨hkind, htext⟩ | ⟨hkind, hroot⟩
  · simp only [Source.isTakenForRoot, hkind]
    simp only [Tests, hkind, if_neg htext, stage.imports] at h
    split at h
    · next hknown =>
      -- The base is taken for the root, or a class of its name was entered.
      refine ⟨fun _ => ?_, fun _ => h⟩
      rcases Bool.or_eq_true_iff.mp hknown with hroot | hfound
      · exact .inl hroot
      · obtain ⟨found, hfound⟩ : ∃ found, latest.classes.named? base.text = some found := by
          rw [Classes.keyOf?, Option.isSome_map] at hfound
          obtain ⟨entry, hentry⟩ := Option.isSome_iff_exists.mp hfound
          exact ⟨entry.2, by rw [Classes.named?, hentry]; rfl⟩
        have hbrings : Brings (Meant w workspace src.file (Good isRoot types workspace))
            latest base (some found) := by
          simp only [Brings, hkind, if_neg htext, hfound]
        have htold := stage.told_of_brings sound htree hn hnamed hlocal hbase hbrings
        exact .inr (htold.isSome_iff.mp rfl)
    · next hnew =>
      obtain ⟨c, hc, rfl⟩ := h
      obtain ⟨hroot, hnone⟩ := Bool.or_eq_false_iff.mp (Bool.eq_false_iff.mpr hnew)
      have hbrings : Brings (Meant w workspace src.file (Good isRoot types workspace))
          latest base c := by
        have hnamed? : latest.classes.named? base.text = none := by
          rw [Classes.keyOf?, Option.isSome_map, Option.isSome_eq_false_iff,
            Option.isNone_iff_eq_none] at hnone
          rw [Classes.named?, hnone, Option.map_none]
        simp only [Brings, hkind, if_neg htext, hnamed?, stage.imports]
        exact hc
      rw [(stage.told_of_brings sound htree hn hnamed hlocal hbase hbrings).isSome_iff, hroot]
      simp
  · have hmember := (isMemberRoot_of_isRootBase hkind hroot).2
    simp only [Tests, hkind, stage.imports] at h
    simp only [Source.isTakenForRoot, hkind, hmember, true_or, iff_true]
    exact h hmember

theorem Stage.flat_of_brings {known : List String} (hknown : types known)
    {cs : List (Option ParamClass)}
    (h : List.Forall₂ (Brings (Meant w workspace src.file (Good isRoot types workspace)) latest)
      n.bases cs) :
    Flat isRoot types workspace src n
      ((cs.foldl lay ∅).update (ownParametersOf known src n)) := by
  have htold : ∀ base t, (base, t) ∈ n.bases.zip (cs.map brought) →
      ∃ c, t = brought c ∧ Told isRoot types workspace (src.target? workspace base) c := by
    intro base t hmem
    rw [List.zip_map_right] at hmem
    obtain ⟨⟨base, c⟩, hpair, heq⟩ := List.mem_map.mp hmem
    obtain ⟨rfl, rfl⟩ := Prod.mk.inj heq
    exact ⟨c, rfl, stage.told_of_brings sound htree hn hnamed hlocal (List.of_mem_zip hpair).1
      ((List.forall₂_iff_zip.mp h).2 hpair)⟩
  rw [foldl_lay]
  refine .intro hknown (by rw [List.length_map, h.length_eq]) ?_ ?_
  · intro base t hmem src' m htarget hreach
    obtain ⟨c, rfl, hc⟩ := htold base t hmem
    rw [htarget] at hc
    exact hc.flat hreach
  · intro base t hmem hnot
    obtain ⟨c, rfl, hc⟩ := htold base t hmem
    exact hc.brought_eq_empty hnot

theorem Stage.step {next : Analysis}
    (h : Takes (Meant w workspace src.file (Good isRoot types workspace)) types src.content
      n latest next) : Stage isRoot types workspace src (done ++ [n]) next := by
  have htests {base : Node} (hbase : base ∈ n.bases) {b : Bool} :=
    stage.tests_iff sound htree hn hnamed hlocal hbase (b := b)
  cases h with
  | passed hpassed =>
    have hnot : ¬ Reaches isRoot workspace src n := by
      intro hreach
      obtain ⟨base, hbase, htest⟩ := reaches_iff.mp hreach
      exact Bool.false_ne_true ((htests hbase (hpassed base hbase)).mpr htest)
    refine ⟨stage.imports, stage.keyed, fun m hm hmem name hname => ?_, fun m hm hnew => ?_⟩
    · by_cases hdone : m ∈ done
      · exact stage.found m hm hdone name hname
      · obtain rfl : m = n := by simpa [hdone] using hmem
        rw [stage.pending m hn hdone name hname]
        exact hnot
    · exact stage.pending m hm fun hdone => hnew (List.mem_append_left _ hdone)
  | @entered name base cs used hname hbase htest hbrings hused =>
    have hreach : Reaches isRoot workspace src n :=
      reaches_iff.mpr ⟨base, hbase, (htests hbase htest).mp rfl⟩
    refine ⟨stage.imports, ?_, fun m hm hmem other hmname => ?_, fun m hm hnew other hmname => ?_⟩
    · exact Takes.keyed (.entered hname hbase htest hbrings hused) hn stage.keyed
    · show Tells _ _ _ _ _ ((latest.classes.insert _ _).get? _)
      by_cases hmn : m = n
      · subst hmn
        obtain rfl := Option.some.inj (hname.symm.trans hmname)
        rw [Table.get?_insert, if_pos rfl]
        refine ⟨hreach, ?_⟩
        rw [parameters_built, stage.imports]
        exact stage.flat_of_brings sound htree hn hnamed hlocal hused hbrings
      · have hdone : m ∈ done := by simpa [hmn] using hmem
        rw [Table.get?_insert, if_neg (sound.wellFormed.key_ne hm hn hmn hmname hname)]
        exact stage.found m hm hdone other hmname
    · show (latest.classes.insert _ _).get? _ = none
      rw [Table.get?_insert, if_neg]
      · exact stage.pending m hm (fun hdone => hnew (List.mem_append_left _ hdone)) other hmname
      · refine sound.wellFormed.key_ne hm hn ?_ hmname hname
        rintro rfl
        exact hnew (List.mem_append_right _ List.mem_cons_self)

omit hn hnamed hlocal

theorem Stage.traverses {rest : List Node} {final : Analysis}
    (horder : classOrder src.classes = done ++ rest)
    (h : Traverses (Takes (Meant w workspace src.file (Good isRoot types workspace)) types
      src.content) rest latest final) :
    Stage isRoot types workspace src (classOrder src.classes) final := by
  have hpairwise := classOrder_pairwise sound.wellFormed.acyclic
    (fun n hn hnamed base hbase hkind _ =>
      (sound.wellFormed.bases n hn hnamed base hbase).elim And.right fun h => by simp [hkind] at h)
    sound.wellFormed.distinct
  induction h generalizing done with
  | nil => simpa [horder] using stage
  | @cons n rest latest next final hstep _ ih =>
    obtain ⟨hn, hnamed⟩ := mem_classOrder.mp
      (horder ▸ List.mem_append_right done List.mem_cons_self : n ∈ classOrder src.classes)
    -- A base of the class in the text comes before it in the order, and all before it are done.
    have hlocal : ∀ m, LocalBase src.classes m n → m ∈ done := by
      intro m hm
      have hmem : m ∈ classOrder src.classes := by
        obtain ⟨hmem, base, -, -, hname⟩ := hm
        exact mem_classOrder.mpr ⟨hmem, by rw [hname]; rfl⟩
      rw [horder] at hmem hpairwise
      rcases List.mem_append.mp hmem with hdone | hrest
      · exact hdone
      · rcases List.mem_cons.mp hrest with rfl | hlater
        · exact absurd (.single hm) (sound.wellFormed.acyclic m)
        · have hafter := (List.pairwise_append.mp hpairwise).2.1
          exact absurd hm ((List.pairwise_cons.mp hafter).1 m hlater)
    refine ih (stage.step sound htree hn hnamed hlocal hstep) ?_
    rw [horder, List.append_assoc, List.singleton_append]

end

/-- The analysis of a text finds its classes with parameters, if those of the files that it asks for
do. -/
theorem flattens_of_analysed {a : Analysis} (sound : src.Sound isRoot workspace)
    (htree : w.parse? src.content = some src.root)
    (h : Analysed (Meant w workspace src.file (Good isRoot types workspace)) types w
      src.content a) : Flattens isRoot types workspace src a := by
  simp only [Analysed, htree] at h
  obtain ⟨latest, htraverses, hclasses, -⟩ := h
  have hstart : Stage isRoot types workspace src [] { imports := src.imports } :=
    ⟨rfl, keyed_empty w src.root, fun n _ hn => absurd hn List.not_mem_nil, fun _ _ _ _ _ => rfl⟩
  have hend := hstart.traverses sound htree (List.nil_append _).symm htraverses
  refine ⟨hclasses ▸ hend.keyed, fun n hn name hname => ?_⟩
  rw [hclasses]
  exact hend.found n hn (mem_classOrder.mpr ⟨hn, by rw [hname]; rfl⟩) name hname

end

/-! ### One file after another -/

section

variable {w : World} {isRoot : Source w → Node → Bool} {workspace current : Option Path}
  {extra : List String}

theorem good_of_analysed {file : Path} {content : String} (hread : w.read? file = some content)
    {types : List String → Prop} {a : Analysis}
    (h : Analysed (Meant w workspace (some file) (Good isRoot types workspace)) types w
      content a) : Good isRoot types workspace file a := by
  cases htree : w.parse? content with
  | none =>
    simp only [Analysed, htree] at h
    simp only [Good, Source.ofFile?, hread, Option.bind_some, htree, Option.map_none]
    rw [h]
  | some root =>
    simp only [Good, Source.ofFile?, hread, Option.bind_some, htree, Option.map_some]
    intro sound
    exact flattens_of_analysed sound htree h

/-- The analysis of a text from which no file is entered again succeeds, unless it stumbles. -/
theorem exists_flattens_or_stumbles (b : Regime w extra) (sited : Sited w workspace)
    {src : Source w} (hfile : ∀ path ∈ src.file, path.Straight)
    (htree : w.parse? src.content = some src.root) (sound : src.Sound isRoot workspace)
    (free : ¬ Reenters anyName w workspace src.file src.content) {store : Store}
    (hstore : b.store store) :
    ∃ result next,
      (analyzeFile w src.content src.file).run (fresh w workspace extra store) = (result, next) ∧
      ((∃ a, result = .ok a ∧ Flattens isRoot b.types workspace src a) ∨
        Stumbles anyName w workspace src.file src.content ∧
          ∃ fault, result = .error (.namelessPath fault)) := by
  let F (failure : Failure) : Prop := Stumbles anyName w workspace src.file src.content ∧
    ∃ fault, failure = .namelessPath fault
  have serves : ∀ g text, Asks anyName w workspace src.file src.content g →
      w.read? g = some text → Serves b (Good isRoot b.types workspace) F
        (importModule w workspace extra (importDepth w) []) g text := by
    intro g text hasks hread
    exact serves_importModule_nil b (Good isRoot b.types workspace)
      (fun _ _ _ hread h => good_of_analysed hread h) sited (hasks.straight sited hfile) hread
      (fun f hreach hcircle => free ⟨f, g, hasks, hreach, hcircle⟩)
      (fun hleads fault => ⟨.inr ⟨g, hasks, hleads⟩, fault, rfl⟩) (length_files_le_importDepth w)
  have hspec := triple_analyzeWith_recalls (F := F) sited hfile
    (fun hnowhere fault => ⟨.inl hnowhere, fault, rfl⟩) serves _ (recalls_fresh hstore)
  rw [run_analyzeFile]
  rcases hrun : (analyzeWith (importModule w workspace extra (importDepth w) []) w src.content
    src.file).run (fresh w workspace extra store) with ⟨failure | a, next⟩
  · rw [hrun] at hspec
    obtain ⟨⟨hstumbles, fault, rfl⟩, -⟩ := hspec
    exact ⟨_, next, hrun, .inr ⟨hstumbles, fault, rfl⟩⟩
  · rw [hrun] at hspec
    exact ⟨_, next, hrun, .inl ⟨a, rfl, flattens_of_analysed sound htree hspec.1⟩⟩

end

/-! ### The classes that are registered -/

/-- The analysis registers those classes of the text that reach a root, and nothing else, each with
its own parameters over the inherited ones. Where one list of parameter types is in use, there is
one such table of parameters. -/
def Registers {w : World} (isRoot : Source w → Node → Bool) (types : List String → Prop)
    (workspace : Option Path) (src : Source w) (a : Analysis) : Prop :=
  Keyed w src.root a.classes ∧ ∀ n ∈ src.classes, ∀ name, n.className? = some name →
    ((a.classes.get? (Classes.key name n.row)).isSome = true ↔ Reaches isRoot workspace src n) ∧
    ∀ c, a.classes.get? (Classes.key name n.row) = some c →
      Flat isRoot types workspace src n c.parameters ∧
      ∀ known, (∀ used, types used → used = known) → ∀ t,
        Flat isRoot types workspace src n t → t = c.parameters

theorem Flattens.registers {w : World} {isRoot : Source w → Node → Bool}
    {types : List String → Prop} {workspace : Option Path} {src : Source w} {a : Analysis}
    (h : Flattens isRoot types workspace src a) : Registers isRoot types workspace src a := by
  refine ⟨h.keyed, fun n hn name hname => ?_⟩
  have htells := h.tells n hn name hname
  refine ⟨htells.isSome_iff, fun c hc => ?_⟩
  rw [hc] at htells
  exact ⟨htells.2, fun known only t ht => ht.unique only htells.2⟩

/-- A new analyzer, on any store, registers the classes of a file that reach what is taken for the
root of all classes with parameters, with their own and inherited parameters, at any depth and
across any number of files. These are the classes that reach the root, if in the file and in those
that it asks for, directly or through others, the root alone is taken for it. The analysis fails
only if it stumbles over a module at a path without a last component. -/
theorem analyzeFile_registers_flattened {w : World} {workspace : Option Path}
    {extra : List String} (b : Regime w extra) {store : Store} (hstore : b.store store)
    {src : Source w} (sited : Sited w workspace) (hfile : ∀ path ∈ src.file, path.Straight)
    (htree : w.parse? src.content = some src.root)
    (free : ¬ Reenters anyName w workspace src.file src.content)
    (wellFormed : ∀ other, ReflTransGen (Source.AsksFor workspace) src other →
      other.WellFormed) :
    ∃ result next,
      (analyzeFile w src.content src.file).run (fresh w workspace extra store) = (result, next) ∧
      ((∃ a, result = .ok a ∧ Registers Source.isTakenForRoot b.types workspace src a ∧
        ((∀ other, ReflTransGen (Source.AsksFor workspace) src other → other.TellsRoot) →
          Registers Source.isRoot b.types workspace src a)) ∨
        Stumbles anyName w workspace src.file src.content ∧
          ∃ fault, result = .error (.namelessPath fault)) := by
  have htakenSound : src.Sound Source.isTakenForRoot workspace :=
    fun other hreach => ⟨wellFormed other hreach, fun _ _ _ _ => rfl⟩
  obtain ⟨result, next, hrun, ⟨a, rfl, htaken⟩ | hstumbles⟩ :=
    exists_flattens_or_stumbles b sited hfile htree htakenSound free hstore
  · refine ⟨_, next, hrun, .inl ⟨a, rfl, htaken.registers, fun agree => ?_⟩⟩
    have hrootSound : src.Sound Source.isRoot workspace :=
      fun other hreach => ⟨wellFormed other hreach, agree other hreach⟩
    obtain ⟨result', next', hrun', hresult⟩ :=
      exists_flattens_or_stumbles b sited hfile htree hrootSound free hstore
    obtain ⟨rfl, -⟩ := Prod.mk.inj (hrun.symm.trans hrun')
    obtain ⟨a', hsame, hroot⟩ | ⟨-, fault, hfault⟩ := hresult
    · obtain rfl := Except.ok.inj hsame
      exact hroot.registers
    · cases hfault
  · exact ⟨result, next, hrun, .inr hstumbles⟩

theorem Source.forall_reached {w : World} {workspace : Option Path} (sited : Sited w workspace)
    {P : Source w → Prop} {top : Source w} (hfile : ∀ path ∈ top.file, path.Straight) (htop : P top)
    (h : ∀ file ∈ w.files.files, ∀ src ∈ Source.ofFile? w ⟨true, file.1⟩, P src) {src : Source w}
    (hreach : ReflTransGen (Source.AsksFor workspace) top src) : P src := by
  have hboth : (∀ path ∈ src.file, path.Straight) ∧ P src := by
    induction hreach with
    | refl => exact ⟨hfile, htop⟩
    | @tail before src _ hasks ih =>
      obtain ⟨g, hasks, hsource⟩ := hasks
      have hg := hasks.straight sited ih.1
      obtain ⟨content, hread, hrest⟩ := Option.bind_eq_some_iff.mp hsource
      obtain ⟨root, htree, rfl⟩ := Option.map_eq_some_iff.mp hrest
      obtain ⟨file, hfiles, hparts⟩ := List.mem_map.mp (FileSystem.mem_files_of_read? hg hread)
      have hpath : (⟨true, file.1⟩ : Path) = g := by
        rw [hparts, ← hg.absolute]
      refine ⟨fun path hmem => ?_, h file hfiles _ (hpath ▸ hsource)⟩
      obtain rfl := Option.some.inj hmem
      exact hg
  exact hboth.2

section

open Sketch

/-- A class of the file inherits from a later one, and that one from a class of the module `b`. -/
def stairFile : Sketch :=
  file [takesName ["b"] "B", classed "C" [name "A"] [], classed "A" [name "B"] []]

/-- A class of `a` inherits from a later one there, and that one from a class of `b`. -/
def stair : World := twoModules stairFile baseFile

/-- The text of the file as a source. -/
def stairSource : Source stair := ⟨some (modulePath "a"), stairFile.written, stairFile.node⟩

/-- A class that inherits from one with the name of the root. -/
def namesakeFile : Sketch :=
  file [takesName ["myparam"] "Parameterized", classed "C" [name "Parameterized"] []]

/-- A class of `a` inherits from one that has the name of the root, in a module whose name ends with
that of the root's module. -/
def namesake : World :=
  .sketched [(["ws", "a.py"], namesakeFile),
    (["ws", "myparam.py"], file [classed "Parameterized" [] []])]

/-- The text of the file as a source. -/
def namesakeSource : Source namesake :=
  ⟨some (modulePath "a"), namesakeFile.written, namesakeFile.node⟩

end

/-- All classes of the file are registered, each with its flattened parameters. -/
theorem analyzeFile_registers_stair :
    ∃ a next, (analyzeFile stair stairFile.written (some (modulePath "a"))).run
        (fresh stair (some workspacePath) [] {}) = (.ok a, next) ∧
      ∀ n ∈ stairSource.classes, ∀ name ∈ n.className?,
        ∃ c, a.classes.get? (Classes.key name n.row) = some c ∧
          ∀ t, Flat Source.isRoot (· = settledTypes stair [] {}) (some workspacePath)
            stairSource n t ↔ t = c.parameters := by
  have hstocked : Stocked stair [] {} := stocked_of_none_installed rfl
  have hsited : Sited stair (some workspacePath) := sited_of_no_origins rfl
  have hcurrent : ∀ path ∈ some (modulePath "a"), path.Straight := by decide
  have htree : stair.parse? stairFile.written = some stairFile.node :=
    World.parse?_sketched (by decide +kernel) (.head _)
  let rank (n : Node) : Nat := if n.className? = some "C" then 1 else 0
  have hfiles : ∀ file ∈ stair.files.files, ∀ src ∈ Source.ofFile? stair ⟨true, file.1⟩,
      src.Ranked rank ∧ src.TellsRoot := by decide +kernel
  have htop : stairSource.Ranked rank ∧ stairSource.TellsRoot ∧
      ∀ n ∈ stairSource.classes, reachesWithin Source.isRoot (some workspacePath) 3
        stairSource n = true := by decide +kernel
  obtain ⟨hranked, htells, hreaches⟩ := htop
  have hreached {src : Source stair}
      (hreach : ReflTransGen (Source.AsksFor (some workspacePath)) stairSource src) :=
    Source.forall_reached hsited hcurrent ⟨hranked, htells⟩ hfiles hreach
  obtain ⟨_, next, hrun, ⟨a, rfl, -, hregisters⟩ | ⟨hstumbles, -⟩⟩ :=
    analyzeFile_registers_flattened (Regime.stocked hstocked) hstocked.steady hsited hcurrent htree
      (not_reenters (fun f => if f = modulePath "a" then 1 else 0) (by decide +kernel))
      fun src hreach => (hreached hreach).1.wellFormed
  case inr =>
    exact absurd hstumbles (not_stumbles hsited (by decide +kernel) hcurrent (by decide +kernel))
  refine ⟨a, next, hrun, fun n hn name hname => ?_⟩
  obtain ⟨hiff, hflat⟩ := (hregisters fun src hreach => (hreached hreach).2).2 n hn name hname
  obtain ⟨c, hc⟩ := Option.isSome_iff_exists.mp
    (hiff.mpr (reaches_of_reachesWithin (hreaches n hn)))
  obtain ⟨hown, honly⟩ := hflat c hc
  refine ⟨c, hc, fun t => ⟨honly _ (fun used hused => hused) t, ?_⟩⟩
  rintro rfl
  exact hown

/-- Each class of the file is registered, and none reaches the root. -/
theorem analyzeFile_registers_namesake :
    ∃ a next, (analyzeFile namesake namesakeFile.written (some (modulePath "a"))).run
        (fresh namesake (some workspacePath) [] {}) = (.ok a, next) ∧
      (∃ n ∈ namesakeSource.classes, n.className? = some "C") ∧
      ∀ n ∈ namesakeSource.classes, ∀ name ∈ n.className?,
        (a.classes.get? (Classes.key name n.row)).isSome = true ∧
          ¬ Reaches Source.isRoot (some workspacePath) namesakeSource n := by
  have hsited : Sited namesake (some workspacePath) := sited_of_no_origins rfl
  have hcurrent : ∀ path ∈ some (modulePath "a"), path.Straight := by decide
  have htree : namesake.parse? namesakeFile.written = some namesakeFile.node :=
    World.parse?_sketched (by decide +kernel) (.head _)
  have hfiles : ∀ file ∈ namesake.files.files, ∀ src ∈ Source.ofFile? namesake ⟨true, file.1⟩,
      src.Ranked fun _ => 0 := by decide +kernel
  have htop : namesakeSource.Ranked (fun _ => 0) ∧
      (∃ n ∈ namesakeSource.classes, n.className? = some "C") ∧
      (∀ n ∈ namesakeSource.classes, reachesWithin Source.isTakenForRoot (some workspacePath) 1
        namesakeSource n = true) ∧
      ∀ n ∈ namesakeSource.classes, ∀ base ∈ n.bases, namesakeSource.isRoot base = false ∧
        ∀ target ∈ namesakeSource.target? (some workspacePath) base,
          target.2.bases.isEmpty = true := by
    decide +kernel
  obtain ⟨hranked, hclass, htaken, hbases⟩ := htop
  have hsound : namesakeSource.Sound Source.isTakenForRoot (some workspacePath) :=
    fun src hreach => ⟨(Source.forall_reached hsited hcurrent hranked hfiles hreach).wellFormed,
      fun _ _ _ _ => rfl⟩
  obtain ⟨_, next, hrun, ⟨a, rfl, hflattens⟩ | ⟨hstumbles, -⟩⟩ :=
    exists_flattens_or_stumbles (Regime.all namesake []) hsited hcurrent htree hsound
      (not_reenters (fun f => if f = modulePath "a" then 1 else 0) (by decide +kernel))
      (by trivial : (Regime.all namesake []).store {})
  case inr =>
    exact absurd hstumbles (not_stumbles hsited (by decide +kernel) hcurrent (by decide +kernel))
  refine ⟨a, next, hrun, hclass, fun n hn name hname => ⟨?_, fun hreach => ?_⟩⟩
  · exact (hflattens.tells n hn name hname).isSome_iff.mpr (reaches_of_reachesWithin (htaken n hn))
  · obtain ⟨base, hbase, hroot | ⟨src', m, htarget, hreach⟩⟩ := reaches_iff.mp hreach
    · rw [(hbases n hn base hbase).1] at hroot
      cases hroot
    · have hempty : m.bases = [] := List.isEmpty_iff.mp ((hbases n hn base hbase).2 _ htarget)
      obtain ⟨base', hbase', -⟩ := reaches_iff.mp hreach
      simp [hempty] at hbase'

end ParamLens.Analysis
