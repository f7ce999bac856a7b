import ParamLens.Proofs.Nesting
import ParamLens.Proofs.Recording

/-! Going through a library of which the store has no record. The libraries on which it depends come
first and leave it without one; then its own survey is recorded. Afterwards each of its classes with
parameters is found with what a recursion over its ancestors gives. -/

namespace ParamLens.Library

open Syntax Steps Analysis

variable {w : World} {library : String} {root : Path} {info : Info} {s : State}

/-! ### Regularity that can be computed -/

theorem sources_eq_of_listed {directory : Path} {parts : List String} {found : List Path}
    (hroots : installedRoots w library = [directory])
    (hplace : w.files.isFile directory = false ∧ w.files.isDirectory directory = true)
    (hparts : w.files.locate? directory = some parts)
    (hfound : ((w.files.files.map Prod.fst).filter fun item =>
      parts.isPrefixOf item && parts.length < item.length &&
        FileSystem.isSourceName (item.getLastD "")).map (fun item =>
          { directory with parts := directory.parts ++ item.drop parts.length }) = found)
    (hsorted : found.Pairwise fun p q => p.before q = true) (hdistinct : found.eraseDups = found) :
    sources w library = found := by
  rw [sources, hroots, List.flatMap_singleton, sourceFiles, if_neg (by simp [hplace.1]),
    if_pos hplace.2, FileSystem.sourcesBelow, FileSystem.below, hparts]
  dsimp only
  rw [hfound, Path.sorted, List.mergeSort_of_pairwise hsorted, hdistinct]

/-- The classes of the files, with their full names and bases. -/
def declaredClasses (w : World) (library : String) (root : Path) (files : List Path) :
    List (String × Definition × List String) :=
  files.flatMap fun file =>
    (w.read? file).toList.flatMap fun content =>
      (w.parse? content).toList.flatMap fun tree =>
        let imports := Imports.ofTree w.finder tree
        let classes := namedClasses w.finder tree
        classes.filterMap fun (n, name) => (classPathIn? library root file name).map fun path =>
          (path, ⟨n, imports, file, content⟩,
            basePaths w imports (some library) (some file) (classes.map Prod.snd) n)

theorem Declared.mem {files : List Path} {path : String} {d : Definition} {listed : List String}
    (h : Declared w library root files path d listed) :
    (path, d, listed) ∈ declaredClasses w library root files := by
  obtain ⟨node, imports, file, content⟩ := d
  obtain ⟨hfile, hread, tree, name, hparse, rfl, hnode, hpath, rfl⟩ := h
  refine List.mem_flatMap.mpr ⟨file, hfile, List.mem_flatMap.mpr ⟨content, ?_, ?_⟩⟩
  · simpa using hread
  · refine List.mem_flatMap.mpr ⟨tree, by simpa using hparse, List.mem_filterMap.mpr ?_⟩
    exact ⟨(node, name), hnode, Option.map_eq_some_iff.mpr ⟨path, hpath, rfl⟩⟩

/-- The classes have different full names, the rank of a class is above those of its parents, and
the rest of what makes a library regular holds of them. -/
def Ranked (classes : List (String × Definition × List String)) (library : String)
    (detected : List String) (rank : String → Nat) : Prop :=
  (classes.map Prod.fst).Nodup ∧
    ∀ x ∈ classes, x.1 ∈ detected → (x.2.2.map (fullName x.1 x.2.1)).Nodup ∧
      ∀ base ∈ x.2.2, (fullName x.1 x.2.1 base ∈ detected →
          rank (fullName x.1 x.2.1 base) < rank x.1) ∧
        (isParameterizedRoot base (some library) = true ∨ fullName x.1 x.2.1 base ∈ detected ∨
          fullName x.1 x.2.1 base ∉ classes.map Prod.fst)

instance (classes : List (String × Definition × List String)) (library : String)
    (detected : List String) (rank : String → Nat) :
    Decidable (Ranked classes library detected rank) :=
  inferInstanceAs (Decidable (_ ∧ _))

theorem Ranked.regular {rank : String → Nat}
    (h : Ranked (declaredClasses w library root (sources w library)) library
      (detected w library root) rank)
    (wildcards : NoWildcards w (sources w library)) : Regular w library root where
  wildcards := wildcards
  distinct := by
    intro path d listed d' listed' hd hd'
    have heq := List.inj_on_of_nodup_map h.1 hd.mem hd'.mem rfl
    simpa using heq
  acyclic := by
    refine acyclic_of_rank rank (fun a b hab => hab.1) ?_
    rintro a b ⟨ha, hb, d, listed, hd, base, hbase, rfl⟩ -
    exact ((h.2 _ hd.mem hb).2 base hbase).1 ha
  once path hpath d listed hd := (h.2 _ hd.mem hpath).1
  bases path hpath d listed hd base hbase := by
    rcases ((h.2 _ hd.mem hpath).2 base hbase).2 with hroot | hmem | hnone
    · exact .inl hroot
    · exact .inr (.inl hmem)
    · exact .inr (.inr fun d' listed' hd' => hnone (List.mem_map_of_mem hd'.mem))

/-! ### The first time -/

/-- The library can be gone through and has not been, its version is known, the store can keep its
record and has none, and no other library is kept in memory under its key. -/
structure Ready (library : String) (info : Info) (s : State) : Prop where
  allowed : library ∈ s.session.allowed
  new : library ∉ s.session.populated
  known : s.session.infos.get? library = some info
  wholes : s.session.wholes = []
  blank : s.store.Blank library info.version
  apart : ∀ other info', s.session.infos.get? other = some info' →
    Store.key other info'.version = Store.key library info.version → other = library

theorem Ready.separate (h : Ready library info s)
    (other : String) (info' : Info) (hother : s.session.infos.get? other = some info') :
    Store.Separate library info.version other info'.version := by
  by_cases heq : other = library
  · subst heq
    obtain rfl := Option.some.inj (h.known.symm.trans hother)
    exact .inl ⟨rfl, rfl⟩
  · exact .inr ⟨heq, fun hkey => heq (h.apart other info' hother hkey)⟩

theorem recorded_populateWith (ready : Ready library info s) (named : library ≠ "")
    (plain : '.' ∉ library.toList) (hroot : rootOf? w library (sources w library) = some root)
    (regular : Regular w library root) (taken : BasesTaken w library root) (fuel : Nat) :
    Recorded w library root info.version (populateWith w (fuel + 1) library s).2 := by
  have hstep : Ends (· = s) (populateWith w (fuel + 1) library) fun _ =>
      Recorded w library root info.version := by
    rw [populateWith]
    refine Ends.get_bind fun st hst => ?_
    obtain rfl := hst
    dsimp only
    rw [if_neg (by simp [ready.allowed, ready.new]), ready.known]
    have hentered : Ends (· = st)
        (changeSession fun session => { session with populated := session.populated ++ [library] })
        fun _ => Awaiting library info.version st.session.allowed st.session.infos := by
      rintro st rfl
      exact ⟨rfl, rfl, List.mem_append_right _ List.mem_cons_self, ready.wholes, ready.blank⟩
    -- The store knows no classes of the library, so its source files are gone through.
    have hasked : Ends (Awaiting library info.version st.session.allowed st.session.infos)
        (onStore (Store.hasClasses library info.version)) fun found st' => found = false ∧
          Awaiting library info.version st.session.allowed st.session.infos st' := by
      intro st' h
      have hrun : onStore (Store.hasClasses library info.version) st' = (false, st') := by
        rw [onStore, h.store.hasClasses_eq]
      rw [hrun]
      exact ⟨rfl, h⟩
    have hown : Ends (Awaiting library info.version st.session.allowed st.session.infos)
        (populateSources w library info.version) fun _ => Recorded w library root info.version := by
      rw [populateSources]
      dsimp only
      rw [hroot]
      refine Ends.get_bind fun st' h => ?_
      rw [h.wholes]
      exact ends_storeSurvey_regular regular taken named plain ready.known
    refine Ends.bind hentered fun _ => Ends.bind hasked fun found => ?_
    cases found with
    | true => exact fun st' h => absurd h.1 (by simp)
    | false =>
      rw [if_neg (by simp)]
      refine Ends.bind (Ends.weaken (ends_dependencies (ends_populateWith ready.separate w fuel)
        info.dependencies) (fun _ h => h.2) fun _ _ h => h) fun _ => hown
  exact hstep s rfl

/-- After a library is gone through for the first time, each of its classes with parameters is found
in the store, with the parameters that it declares and inherits. -/
theorem populate_records_whole (ready : Ready library info s) (named : library ≠ "")
    (plain : '.' ∉ library.toList) (hroot : rootOf? w library (sources w library) = some root)
    (regular : Regular w library root) (taken : BasesTaken w library root) :
    let next := (populate w library s).2
    ∀ path ∈ detected w library root, ∃ c,
      (Store.find? library path info.version next.store).1 = some c ∧
        ∀ t, Whole w library root next.session.types (detected w library root) path t ↔
          t = c.parameters := by
  intro next path hpath
  have hrecorded : Recorded w library root info.version next :=
    recorded_populateWith ready named plain hroot regular taken s.session.allowed.length
  obtain ⟨c, hfound, hwhole⟩ := hrecorded path hpath
  refine ⟨c, hfound, fun t => ⟨fun h => h.unique regular.distinct hwhole, ?_⟩⟩
  rintro rfl
  exact hwhole

/-- Libraries with these files, in a site directory. -/
def siteOf (libraries : List (String × Distribution × List (List String × Sketch))) : World :=
  { World.sketched (libraries.flatMap fun library =>
      library.2.2.map fun file => ("site" :: library.1 :: file.1, file.2)) with
    site := [⟨true, ["site"]⟩]
    distributions := Table.ofList (libraries.map fun library => (library.1, library.2.1)) }

/-- The library `panel` with these files. -/
def panelOf (files : List (List String × Sketch)) : World := siteOf [("panel", ⟨"1.0", []⟩, files)]

def panelRoot : Path := ⟨true, ["site", "panel"]⟩

def panelInfo : Info := ⟨"1.0", []⟩

def firstState (w : World) : State := ⟨Session.start w [], { enabled := true }⟩

def panelState : State :=
  ⟨{ allowed := ["param", "panel", "holoviews"], infos := Table.ofList [("panel", panelInfo)] },
    { enabled := true }⟩

theorem firstState_panelOf (files : List (List String × Sketch)) :
    firstState (panelOf files) = panelState := by
  have hone : (panelOf files).distributions.entries.filter
      (fun entry => (allowed []).contains entry.1) = [("panel", ⟨"1.0", []⟩)] := rfl
  rw [firstState, Session.start, infos, World.distributionsOf, hone, List.mergeSort_singleton]
  rfl

theorem ready_panelOf (files : List (List String × Sketch)) :
    Ready "panel" panelInfo (firstState (panelOf files)) := by
  rw [firstState_panelOf]
  refine ⟨by decide, by decide, by decide, rfl, ⟨by decide, by decide, by decide⟩, ?_⟩
  intro other info' hother _
  exact congrArg Prod.fst (List.mem_singleton.mp (Table.mem_of_get?_ofList hother))

section

open Sketch

/-- A class of a module inherits from one of a module above, and a second one from both. -/
def ladder : World :=
  panelOf
    [(["base.py"], Analysis.baseFile),
     (["pkg", "mod.py"],
      file [importsModule ["param"], takesNear ".." ["base"] "B",
        classed "C" [name "B"] [declares "y" "Integer" []],
        classed "D" [name "C", name "B"] []])]

/-- A class of a module inherits from one of the package around it, which it takes from a dot. -/
def huddle : World :=
  panelOf
    [(["pkg", "__init__.py"], Analysis.baseFile),
     (["pkg", "mod.py"], file [takesNear "." [] "B", classed "C" [name "B"] []])]

end

/-- The classes of the ladder are found with all their parameters. -/
theorem populate_records_ladder :
    detected ladder "panel" panelRoot = ["panel.base.B", "panel.pkg.mod.C", "panel.pkg.mod.D"] ∧
      let next := (populate ladder "panel" (firstState ladder)).2
      ∀ path ∈ detected ladder "panel" panelRoot, ∃ c,
        (Store.find? "panel" path "1.0" next.store).1 = some c ∧
          ∀ t, Whole ladder "panel" panelRoot next.session.types
            (detected ladder "panel" panelRoot) path t ↔ t = c.parameters := by
  have hsources : sources ladder "panel" =
      [⟨true, ["site", "panel", "base.py"]⟩, ⟨true, ["site", "panel", "pkg", "mod.py"]⟩] := by
    exact sources_eq_of_listed (by decide +kernel : _ = [panelRoot]) (by decide +kernel)
      (by decide +kernel : _ = some ["site", "panel"]) (by decide +kernel) (by decide) (by decide)
  have hdetected : detected ladder "panel" panelRoot =
      ["panel.base.B", "panel.pkg.mod.C", "panel.pkg.mod.D"] := by
    rw [detected, surveyOf, hsources]
    decide +kernel
  have hroot : rootOf? ladder "panel" (sources ladder "panel") = some panelRoot := by
    rw [hsources]
    decide +kernel
  have hwildcards : NoWildcards ladder (sources ladder "panel") := by
    rw [NoWildcards, hsources]
    decide +kernel
  have hranked : Ranked (declaredClasses ladder "panel" panelRoot (sources ladder "panel")) "panel"
      (detected ladder "panel" panelRoot) fun path =>
        if path = "panel.base.B" then 0 else if path = "panel.pkg.mod.C" then 1 else 2 := by
    rw [hdetected, hsources]
    decide +kernel
  have htaken : ∀ x ∈ declaredClasses ladder "panel" panelRoot (sources ladder "panel"),
      ∀ base ∈ x.2.2, TakenFromModule base := by
    rw [hsources]
    unfold TakenFromModule
    decide +kernel
  refine ⟨hdetected, populate_records_whole (ready_panelOf _) (by decide) (by decide) hroot
    (hranked.regular hwildcards) ?_⟩
  exact fun path _ d listed hd base hbase => htaken _ hd.mem base hbase

theorem Whole.of_base {types classes : List String} {path base : String} {d : Definition}
    {t : Table Parameter} (hdeclared : Declared w library root (sources w library) path d [base])
    (hsome : ∀ parent, parentOf? library classes path d base = some parent →
      Whole w library root types classes parent t)
    (hnone : parentOf? library classes path d base = none → t = ∅) :
    Whole w library root types classes path (fillAll (declaredParameters types d) [t]) := by
  refine .intro hdeclared rfl (fun base' t' hmem => ?_) fun base' t' hmem => ?_
  · obtain ⟨rfl, rfl⟩ := Prod.mk.inj (List.mem_singleton.mp hmem)
    exact hsome
  · obtain ⟨rfl, rfl⟩ := Prod.mk.inj (List.mem_singleton.mp hmem)
    exact hnone

/-- A parent that is taken from a dot alone is not found: its parameter is missing in the record. -/
theorem populate_misses_parent_from_dot :
    let next := (populate huddle "panel" (firstState huddle)).2
    Ready "panel" panelInfo (firstState huddle) ∧
      rootOf? huddle "panel" (sources huddle "panel") = some panelRoot ∧
      Regular huddle "panel" panelRoot ∧
      ∃ path ∈ detected huddle "panel" panelRoot, ∃ c t,
        (Store.find? "panel" path "1.0" next.store).1 = some c ∧ c.parameters.names = [] ∧
          Whole huddle "panel" panelRoot next.session.types
            (detected huddle "panel" panelRoot) path t ∧ t.names = ["x"] := by
  have hsources : sources huddle "panel" =
      [⟨true, ["site", "panel", "pkg", "__init__.py"]⟩,
       ⟨true, ["site", "panel", "pkg", "mod.py"]⟩] := by
    exact sources_eq_of_listed (by decide +kernel : _ = [panelRoot]) (by decide +kernel)
      (by decide +kernel : _ = some ["site", "panel"]) (by decide +kernel) (by decide) (by decide)
  have hdetected : detected huddle "panel" panelRoot = ["panel.pkg.B", "panel.pkg.mod.C"] := by
    rw [detected, surveyOf, hsources]
    decide +kernel
  have hroot : rootOf? huddle "panel" (sources huddle "panel") = some panelRoot := by
    rw [hsources]
    decide +kernel
  have hwildcards : NoWildcards huddle (sources huddle "panel") := by
    rw [NoWildcards, hsources]
    decide +kernel
  have hranked : Ranked (declaredClasses huddle "panel" panelRoot (sources huddle "panel")) "panel"
      (detected huddle "panel" panelRoot) fun path => if path = "panel.pkg.B" then 0 else 1 := by
    rw [hdetected, hsources]
    decide +kernel
  have hrun : (populate huddle "panel" (firstState huddle)).2.session.types = [] ∧
      (Store.find? "panel" "panel.pkg.mod.C" "1.0"
        (populate huddle "panel" (firstState huddle)).2.store).1.map
          (·.parameters.names) = some [] := by
    have hstart : populate huddle "panel" (firstState huddle) =
        populateWith huddle 4 "panel" panelState := by
      rw [huddle, firstState_panelOf]
      rfl
    rw [hstart]
    simp only [populateWith, populateSources, hsources]
    decide +kernel
  have hsurvey : (surveyOf huddle "panel" panelRoot).bases.get? "panel.pkg.B" =
        some ["param.Parameterized"] ∧
      (surveyOf huddle "panel" panelRoot).bases.get? "panel.pkg.mod.C" = some ["..B"] ∧
      ∀ d ∈ (surveyOf huddle "panel" panelRoot).definitions.get? "panel.pkg.B",
        ∀ d' ∈ (surveyOf huddle "panel" panelRoot).definitions.get? "panel.pkg.mod.C",
          fullName "panel.pkg.mod.C" d' "..B" = "panel.pkg.B" ∧
            (fillAll (declaredParameters [] d')
              [fillAll (declaredParameters [] d) [∅]]).names = ["x"] := by
    rw [surveyOf, hsources]
    decide +kernel
  obtain ⟨htypes, hfound⟩ := hrun
  obtain ⟨c, hc, hempty⟩ := Option.map_eq_some_iff.mp hfound
  obtain ⟨hlisted, hlisted', hdefinitions⟩ := hsurvey
  have hparent : "panel.pkg.B" ∈ detected huddle "panel" panelRoot := by simp [hdetected]
  have hchild : "panel.pkg.mod.C" ∈ detected huddle "panel" panelRoot := by simp [hdetected]
  obtain ⟨d, listed, hd, hbases, hdeclared⟩ := exists_declared hparent
  obtain ⟨d', listed', hd', hbases', hdeclared'⟩ := exists_declared hchild
  obtain rfl := Option.some.inj (hlisted.symm.trans hbases)
  obtain rfl := Option.some.inj (hlisted'.symm.trans hbases')
  obtain ⟨hfull, hnames⟩ := hdefinitions d hd d' hd'
  have hmeant : parentOf? "panel" (detected huddle "panel" panelRoot) "panel.pkg.mod.C" d' "..B" =
      some "panel.pkg.B" := by
    rw [parentOf?, if_neg (by decide), hfull, if_pos (by simp [hdetected])]
  have hwhole : Whole huddle "panel" panelRoot [] (detected huddle "panel" panelRoot) "panel.pkg.B"
      (fillAll (declaredParameters [] d) [∅]) := by
    refine .of_base hdeclared (fun parent hparent => ?_) fun _ => rfl
    cases hparent
  have hwhole' : Whole huddle "panel" panelRoot [] (detected huddle "panel" panelRoot)
      "panel.pkg.mod.C" (fillAll (declaredParameters [] d')
        [fillAll (declaredParameters [] d) [∅]]) := by
    refine .of_base hdeclared' (fun parent hparent => ?_) fun hnone => ?_
    · obtain rfl := Option.some.inj (hmeant.symm.trans hparent)
      exact hwhole
    · cases hmeant.symm.trans hnone
  exact ⟨ready_panelOf _, hroot, hranked.regular hwildcards, _, hchild, c, _, hc, hempty,
    htypes ▸ hwhole', hnames⟩

end ParamLens.Library
