import ParamLens.Proofs.Ancestors
import ParamLens.Proofs.Ordering
import ParamLens.Proofs.Population

/-! What is recorded of a library that is gone through for the first time. Its classes with
parameters are completed in the order of inheritance, so that each one finds its parents complete in
the record. What it takes from there is what it would take from its ancestors one by one. -/

namespace ParamLens.Library

open Syntax Steps

/-! ### Regular libraries -/

/-- The survey of the source files of a library. -/
def surveyOf (w : World) (library : String) (root : Path) : Survey :=
  let files := sources w library
  Survey.ofFiles w library root
    (orderFiles files (dependenciesIn (dependencyGraph w library root files))) {}

/-- The classes of a library that have parameters. -/
def detected (w : World) (library : String) (root : Path) : List String :=
  parameterizedClasses library (surveyOf w library root).bases

/-- The class `b` with parameters lists the class `a` with parameters as a base. -/
def Inherits (w : World) (library : String) (root : Path) (a b : String) : Prop :=
  a ∈ detected w library root ∧ b ∈ detected w library root ∧
    ∃ d listed, Declared w library root (sources w library) b d listed ∧
      ∃ base ∈ listed, fullName b d base = a

/-- The source files take all names of no module, the full names of the classes are distinct, no
class inherits from itself or lists a base twice, and each base of a class with parameters is a form
of the root, another class with parameters, or no class of the library. -/
structure Regular (w : World) (library : String) (root : Path) : Prop where
  wildcards : NoWildcards w (sources w library)
  distinct : ∀ path d listed d' listed',
    Declared w library root (sources w library) path d listed →
    Declared w library root (sources w library) path d' listed' → d = d' ∧ listed = listed'
  acyclic : Acyclic (Inherits w library root)
  once : ∀ path ∈ detected w library root, ∀ d listed,
    Declared w library root (sources w library) path d listed →
    (listed.map (fullName path d)).Nodup
  bases : ∀ path ∈ detected w library root, ∀ d listed,
    Declared w library root (sources w library) path d listed → ∀ base ∈ listed,
    isParameterizedRoot base (some library) = true ∨
      fullName path d base ∈ detected w library root ∨
      ∀ d' listed', ¬ Declared w library root (sources w library) (fullName path d base) d' listed'

theorem holds_surveyOf (w : World) (library : String) (root : Path) :
    (surveyOf w library root).Holds w library root (sources w library) :=
  Survey.holds_ofFiles w library root (fun _ h => mem_of_mem_orderBy h) {}

variable {w : World} {library : String} {root : Path}

theorem exists_declared {path : String} (h : path ∈ detected w library root) :
    ∃ d listed, (surveyOf w library root).definitions.get? path = some d ∧
      (surveyOf w library root).bases.get? path = some listed ∧
      Declared w library root (sources w library) path d listed := by
  have hmem := (marked_parameterizedClasses library (surveyOf w library root).bases).known path h
  cases hbases : (surveyOf w library root).bases.get? path with
  | none => exact absurd hmem ((Table.get?_eq_none_iff _ _).mp hbases)
  | some listed =>
    obtain ⟨d, hd⟩ := (holds_surveyOf w library root).bases hbases
    obtain ⟨listed', hlisted', hdeclared⟩ := (holds_surveyOf w library root).definitions hd
    rw [hbases] at hlisted'
    obtain rfl := Option.some.inj hlisted'
    exact ⟨d, listed, hd, rfl, hdeclared⟩

/-- The bases of the classes with parameters are taken from modules, not from dots alone. -/
def BasesTaken (w : World) (library : String) (root : Path) : Prop :=
  ∀ path ∈ detected w library root, ∀ d listed,
    Declared w library root (sources w library) path d listed → ∀ base ∈ listed,
    TakenFromModule base

theorem get?_fullBases {s : Survey} {path : String} {d : Definition} {listed : List String}
    (hd : s.definitions.get? path = some d) (hlisted : s.bases.get? path = some listed)
    (htaken : ∀ base ∈ listed, TakenFromModule base) :
    s.fullBases.get? path = some (listed.map (fullName path d)) := by
  rw [Survey.fullBases, Table.get?_mapEntries, hlisted, Option.map_some]
  congr 1
  refine List.map_congr_left fun base hbase => ?_
  rw [hd, Option.any_some, fullName]
  split
  · next hdots =>
    dsimp only
    rw [filter_resolveRelative? (htaken base hbase) hdots]
  · next hdots => rw [meantName?, if_neg hdots, Option.getD_some]

theorem wholeAliases_of_nil {classes : List String} {offers : Offers} (h : offers.wholes = []) :
    wholeAliases classes offers = ∅ := by
  rw [wholeAliases, h]
  rfl

theorem ordered_eq (s : Survey) (classes : List String) :
    s.ordered classes ∅ = orderClasses classes fun name => (s.fullBases.get? name).getD [] := by
  rw [Survey.ordered]
  congr 1
  funext name
  rw [Table.get?_mapEntries]
  simp

theorem Survey.mem_classSet {s : Survey} {library path : String} :
    path ∈ s.classSet library ↔ path ∈ parameterizedClasses library s.bases :=
  (s.setOrder.perm _).mem_iff

theorem Survey.nodup_classSet {s : Survey} {library : String} : (s.classSet library).Nodup :=
  (s.setOrder.perm _).nodup_iff.mpr (marked_parameterizedClasses library s.bases).distinct

section

variable (regular : Regular w library root) (taken : BasesTaken w library root)

include regular taken

theorem getD_fullBases {path : String} (hpath : path ∈ detected w library root) {d : Definition}
    {listed : List String} (hdeclared : Declared w library root (sources w library) path d listed) :
    ((surveyOf w library root).fullBases.get? path).getD [] = listed.map (fullName path d) := by
  obtain ⟨d', listed', hd', hlisted', hdeclared'⟩ := exists_declared hpath
  obtain ⟨rfl, rfl⟩ := regular.distinct path d listed d' listed' hdeclared hdeclared'
  rw [get?_fullBases hd' hlisted' (taken path hpath d listed hdeclared), Option.getD_some]

/-- The classes with parameters are put in an order in which each one comes after those that it
lists. -/
theorem ordered_supported :
    let order := (surveyOf w library root).ordered ((surveyOf w library root).classSet library) ∅
    Supported (detected w library root)
        (fun name => ((surveyOf w library root).fullBases.get? name).getD []) order ∧
      order.Perm (detected w library root) := by
  intro order
  have hmem {path : String} : path ∈ (surveyOf w library root).classSet library ↔
      path ∈ detected w library root := Survey.mem_classSet
  have hsupported := @orderClasses_supported String ((surveyOf w library root).classSet library) _ _
    (fun name => ((surveyOf w library root).fullBases.get? name).getD [])
    Survey.nodup_classSet ?_ ?_
  · rw [← ordered_eq] at hsupported
    refine ⟨fun before path after horder base hbase hdetected => ?_, hsupported.2.trans
      ((surveyOf w library root).setOrder.perm _)⟩
    exact hsupported.1 before path after horder base hbase (hmem.mpr hdetected)
  · intro path hpath
    obtain ⟨d, listed, -, -, hdeclared⟩ := exists_declared (hmem.mp hpath)
    rw [getD_fullBases regular taken (hmem.mp hpath) hdeclared]
    exact regular.once path (hmem.mp hpath) d listed hdeclared
  · refine fun a hcircle => regular.acyclic a (Relation.TransGen.mono ?_ _ _ hcircle)
    rintro a b ⟨ha, hb, hlists⟩
    obtain ⟨d, listed, -, -, hdeclared⟩ := exists_declared (hmem.mp hb)
    rw [getD_fullBases regular taken (hmem.mp hb) hdeclared] at hlists
    obtain ⟨base, hbase, hfull⟩ := List.mem_map.mp hlists
    exact ⟨hmem.mp ha, hmem.mp hb, d, listed, hdeclared, base, hbase, hfull⟩

end

/-! ### The record in memory -/

/-- The record of the library is in memory and has the property. -/
def Store.Held (library version : String) (p : Record → Prop) (s : Store) : Prop :=
  s.keeps version = true ∧ ∃ r, s.pending.get? (Store.key library version) = some r ∧
    r.isFor library version = true ∧ p r

section

variable {version : String} {p q : Record → Prop} {s : Store}

theorem Store.Held.change (h : s.Held library version p) {f : Record → Record}
    (hfor : ∀ r, (f r).isFor library version = r.isFor library version)
    (hf : ∀ r, p r → q (f r)) : (Store.change library version f s).Held library version q := by
  obtain ⟨hkeeps, r, hr, hisFor, hp⟩ := h
  rw [Store.change, if_pos hkeeps, Store.current, hr, Option.some_or, Option.getD_some]
  refine ⟨hkeeps, f r, ?_, (hfor r).trans hisFor, hf r hp⟩
  rw [Store.load, Table.get?_insert, if_pos rfl]

theorem Store.Blank.held_change (h : s.Blank library version) {f : Record → Record}
    (hfor : ∀ r, (f r).isFor library version = r.isFor library version)
    (hf : p (f (.fresh library version))) :
    (Store.change library version f s).Held library version p := by
  rw [Store.change, if_pos h.keeps, Store.current, h.memory, h.file, Option.none_or,
    Option.getD_none]
  refine ⟨h.keeps, _, ?_, ?_, hf⟩
  · rw [Store.load, Table.get?_insert, if_pos rfl]
  · rw [hfor, Record.isFor, Record.fresh, beq_self_eq_true]

theorem stored?_change (f : Record → Record) (library' version' : String) :
    (Store.change library version f s).stored? library' version' = s.stored? library' version' := by
  rw [Store.change]
  split <;> rfl

theorem Store.Held.find?_flush (h : s.Held library version p) :
    ∃ r, p r ∧ ∀ path c, r.classes.get? path = some c →
      (Store.find? library path version (s.flush library version)).1 = some c := by
  obtain ⟨hkeeps, r, hr, hisFor, hp⟩ := h
  refine ⟨r, hp, fun path c hc => ?_⟩
  have hstored : (s.flush library version).stored? library version = some r := by
    rw [Store.flush, if_pos hkeeps, hr, Store.stored?]
    simp only [Table.get?_insert, if_true, hisFor]
  have hmemory : (s.flush library version).pending.get? (Store.key library version) = none := by
    rw [Store.flush, if_pos hkeeps, hr]
    exact Table.get?_erase_self _ _
  have hkeeps' : (s.flush library version).keeps version = true := by
    rw [Store.flush, if_pos hkeeps, hr]
    exact hkeeps
  rw [Store.find?, if_pos hkeeps', hmemory, Option.bind_none, hstored]
  show r.find? path = some c
  rw [Record.find?, hc]

end

/-- The record has the classes that are done, each with its parameters, and neither other classes
nor aliases. -/
structure Record.Lists (good : String → Table Parameter → Prop) (done : List String) (r : Record) :
    Prop where
  aliases : r.aliases = ∅
  present : ∀ path ∈ done, ∃ c, r.classes.get? path = some c ∧ good path c.parameters
  others : ∀ path, path ∉ done → r.classes.get? path = none

theorem Record.Lists.find? {good : String → Table Parameter → Prop} {done : List String}
    {r : Record} (h : r.Lists good done) (name : String) : r.find? name = r.classes.get? name := by
  rw [Record.find?, h.aliases]
  cases r.classes.get? name <;> rfl

theorem Record.Lists.setClass {good : String → Table Parameter → Prop} {done : List String}
    {r : Record} (h : r.Lists good done) {path : String} {c : ParamClass}
    (hc : good path c.parameters) : (r.setClass path c).Lists good (done ++ [path]) := by
  refine ⟨h.aliases, fun other hother => ?_, fun other hother => ?_⟩
  · by_cases heq : other = path
    · subst heq
      exact ⟨c, by rw [Record.setClass, Table.get?_insert, if_pos rfl], hc⟩
    · obtain ⟨c', hc', hgood⟩ := h.present other (by simpa [heq] using hother)
      exact ⟨c', by rw [Record.setClass, Table.get?_insert, if_neg heq]; exact hc', hgood⟩
  · rw [Record.setClass, Table.get?_insert, if_neg fun heq => hother (by simp [heq])]
    exact h.others other fun hmem => hother (List.mem_append_left _ hmem)

/-! ### Completing a class -/

/-- The parameters that a base passes on, by the record. -/
def passedOn (library : String) (classes : List String) (r : Record) (path : String)
    (d : Definition) (base : String) : Table Parameter :=
  (((parentOf? library classes path d base).bind r.classes.get?).map ParamClass.parameters).getD ∅

section

variable {version : String} {good : String → Table Parameter → Prop} {done : List String}
  {r : Record} {s : Store} {a : Ancestry} {info : Info}
  (hkeeps : s.keeps info.version = true) (hfile : s.stored? library info.version = none)
  (hr : s.pending.get? (Store.key library info.version) = some r) (hlists : r.Lists good done)
  (hinfo : a.infos.get? library = some info) (plain : '.' ∉ library.toList)
  {path : String} {d : Definition} {listed : List String}
  (hd : a.definitions.get? path = some d)
  (hdeclared : Declared w library root (sources w library) path d listed)

include hkeeps hfile hr hlists in
theorem run_find? (name : String) :
    Store.find? library name info.version s = (r.classes.get? name, s) := by
  rw [Store.find?, if_pos hkeeps, hr, Option.bind_some, hlists.find?]
  cases r.classes.get? name with
  | some c => rfl
  | none =>
    dsimp only
    rw [hfile]

include hkeeps hfile hr hlists hinfo plain hd hdeclared

theorem run_stored? (named : library ≠ "")
    (hdone : ∀ name ∈ done, name ∈ detected w library root) {base : String}
    (htaken : TakenFromModule base) :
    a.stored? path base s = (r.classes.get? (fullName path d base), s) := by
  have hunlisted (h : fullName path d base ∉ detected w library root) :
      r.classes.get? (fullName path d base) = none :=
    hlists.others _ fun hmem => h (hdone _ hmem)
  rw [Ancestry.stored?, hdeclared.first_eq plain, hinfo, Ancestry.storedName?, hd]
  by_cases hdots : Text.startsWith base "." = true
  · rw [if_pos hdots]
    dsimp only
    rw [Option.any_some, filter_resolveRelative? htaken hdots]
    cases hmeant : meantName? base (Dotted.parent path) (isPackageFile d.file) with
    | none =>
      -- A name that goes up too far stays relative, and no class has such a full name.
      have hfull : fullName path d base = base := by rw [fullName, hmeant, Option.getD_none]
      rw [hunlisted]
      · rfl
      · intro hmem
        obtain ⟨d', listed', -, -, hdeclared'⟩ := exists_declared hmem
        rw [hfull] at hdeclared'
        rw [hdeclared'.not_relative named plain] at hdots
        cases hdots
    | some full =>
      have hfull : fullName path d base = full := by rw [fullName, hmeant, Option.getD_some]
      have hne : (full != "") = true := by simpa using ne_empty_of_meantName? htaken hdots hmeant
      rw [Option.filter_some, if_pos hne, hfull]
      exact run_find? hkeeps hfile hr hlists full
  · have hfull : fullName path d base = base := by
      rw [fullName, meantName?, if_neg hdots, Option.getD_some]
    rw [if_neg hdots, hfull]
    by_cases hempty : base = ""
    · subst hempty
      rw [hfull] at hunlisted
      rw [hunlisted]
      · rfl
      · intro hmem
        obtain ⟨d', listed', -, -, hdeclared'⟩ := exists_declared hmem
        exact hdeclared'.ne_empty rfl
    · have hne : (base != "") = true := by simpa using hempty
      rw [Option.filter_some, if_pos hne]
      exact run_find? hkeeps hfile hr hlists base

theorem run_inheritBase (regular : Regular w library root) (named : library ≠ "")
    (hdone : ∀ name ∈ done, name ∈ detected w library root)
    (hsurvey : a.definitions = (surveyOf w library root).definitions)
    (hpath : path ∈ detected w library root) {base : String} (hbase : base ∈ listed)
    (htaken : TakenFromModule base)
    (hparent : fullName path d base ∈ detected w library root → fullName path d base ∈ done)
    (more : Definition → ParamClass → StateM Store ParamClass) (c : ParamClass) :
    (if isParameterizedRoot base (some (Dotted.first path)) then pure c else do
      match ← a.stored? path base with
      | some parent => return c.merge parent.parameters
      | none =>
        match a.definitions.get? base with
        | none => return c
        | some d => more d c : StateM Store ParamClass) s =
      (c.merge (passedOn library (detected w library root) r path d base), s) := by
  have hmerge : c.merge ∅ = c := rfl
  rw [hdeclared.first_eq plain]
  by_cases hroot : isParameterizedRoot base (some library) = true
  · rw [if_pos hroot, passedOn, parentOf?, if_pos hroot]
    rfl
  · have hstored := run_stored? hkeeps hfile hr hlists hinfo plain hd hdeclared named hdone htaken
    have hbind (f : Option ParamClass → StateM Store ParamClass) :
        (a.stored? path base >>= f) s = f (r.classes.get? (fullName path d base)) s := by
      show f (a.stored? path base s).1 (a.stored? path base s).2 = _
      rw [hstored]
    rw [if_neg hroot, hbind]
    cases hget : r.classes.get? (fullName path d base) with
    | some parent =>
      have hmem : fullName path d base ∈ detected w library root := by
        refine hdone _ (Decidable.byContradiction fun hnot => ?_)
        rw [hlists.others _ hnot] at hget
        cases hget
      rw [passedOn, parentOf?, if_neg hroot, if_pos (by simpa using hmem), Option.bind_some, hget]
      rfl
    | none =>
      -- The base is no class of the library, so nothing is taken from its definition either.
      have hnot : fullName path d base ∉ detected w library root := by
        intro hmem
        obtain ⟨parent, hsome, -⟩ := hlists.present _ (hparent hmem)
        rw [hget] at hsome
        cases hsome
      have hnone : a.definitions.get? base = none := by
        cases hfound : a.definitions.get? base with
        | none => rfl
        | some d' =>
          rw [hsurvey] at hfound
          obtain ⟨listed', -, hdeclared'⟩ := (holds_surveyOf w library root).definitions hfound
          have hfull : fullName path d base = base := by
            rw [fullName, meantName?, if_neg (by rw [hdeclared'.not_relative named plain]; simp),
              Option.getD_some]
          rcases regular.bases path hpath d listed hdeclared base hbase with h | h | h
          · exact absurd h hroot
          · exact absurd h hnot
          · exact absurd (hfull.symm ▸ hdeclared') (h d' listed')
      rw [passedOn, parentOf?, if_neg hroot, if_neg (by simpa using hnot)]
      simp only [hnone]
      rfl

end

theorem mem_zip_map {α β : Type} {l : List α} {f : α → β} {a : α} {b : β}
    (h : (a, b) ∈ l.zip (l.map f)) : a ∈ l ∧ b = f a := by
  induction l with
  | nil => cases h
  | cons x rest ih =>
    rw [List.map_cons, List.zip_cons_cons, List.mem_cons] at h
    rcases h with heq | hrest
    · obtain ⟨rfl, rfl⟩ := Prod.mk.inj heq
      exact ⟨List.mem_cons_self, rfl⟩
    · exact ⟨List.mem_cons_of_mem _ (ih hrest).1, (ih hrest).2⟩

/-- A class whose parents are recorded is completed to what it is by its ancestors, and the store
stays as it is. -/
theorem run_complete {done : List String} {r : Record} {s : Store} {a : Ancestry} {info : Info}
    {types : List String} (regular : Regular w library root) (taken : BasesTaken w library root)
    (named : library ≠ "") (plain : '.' ∉ library.toList)
    (hkeeps : s.keeps info.version = true) (hfile : s.stored? library info.version = none)
    (hr : s.pending.get? (Store.key library info.version) = some r)
    (hlists : r.Lists (Whole w library root types (detected w library root)) done)
    (hinfo : a.infos.get? library = some info)
    (hdefinitions : a.definitions = (surveyOf w library root).definitions)
    (hdone : ∀ name ∈ done, name ∈ detected w library root) {path : String} {d : Definition}
    {listed : List String} (hpath : path ∈ detected w library root)
    (hd : a.definitions.get? path = some d) (hlisted : a.bases.get? path = some listed)
    (hdeclared : Declared w library root (sources w library) path d listed)
    (hparents : ∀ base ∈ listed, fullName path d base ∈ detected w library root →
      fullName path d base ∈ done) :
    ∃ c, a.complete types path d s = (c, s) ∧
      Whole w library root types (detected w library root) path c.parameters := by
  let maps := listed.map (passedOn library (detected w library root) r path d)
  let own := ownClass types d ((d.node.className?).getD "")
  have hrun : a.complete types path d s = (maps.foldl ParamClass.merge own, s) := by
    rw [Ancestry.complete, Ancestry.inherit, if_neg (by simp), hlisted, Option.getD_some,
      List.foldl_map]
    refine Ends.run_foldlM (fun c base hbase => ?_) own
    exact run_inheritBase hkeeps hfile hr hlists hinfo plain hd hdeclared regular named hdone
      hdefinitions hpath hbase (taken path hpath d listed hdeclared base hbase)
      (hparents base hbase) (fun d' c => a.inherit ⟨d.imports, types⟩ a.definitions.size [path] base
        (c.merge (byName (ownParameters ⟨d.imports, types⟩ d'.imports d'.content d'.node)))) c
  refine ⟨_, hrun, ?_⟩
  have hown : own.parameters = declaredParameters types d := ParamClass.parameters_foldl_add _ _
  rw [ParamClass.parameters_foldl_merge, hown]
  refine .intro hdeclared (List.length_map _) (fun base t hmem parent hparent => ?_)
    fun base t hmem hparent => ?_
  · obtain ⟨hbase, rfl⟩ := mem_zip_map hmem
    have hfull : parent = fullName path d base ∧ parent ∈ detected w library root := by
      rw [parentOf?] at hparent
      split at hparent
      · cases hparent
      · split at hparent
        · next hmem =>
          obtain rfl := Option.some.inj hparent
          exact ⟨rfl, by simpa using hmem⟩
        · cases hparent
    obtain ⟨c, hc, hwhole⟩ := hlists.present parent
      (hfull.1 ▸ hparents base hbase (hfull.1 ▸ hfull.2))
    rw [passedOn, hparent, Option.bind_some, hc]
    exact hwhole
  · obtain ⟨-, rfl⟩ := mem_zip_map hmem
    rw [passedOn, hparent]
    rfl

/-! ### Going through a library -/

/-- The classes that are done are in the record, complete. -/
def Completed (w : World) (library : String) (root : Path) (version : String) (types : List String)
    (done : List String) (s : State) : Prop :=
  s.session.types = types ∧ s.store.stored? library version = none ∧
    s.store.Held library version
      (Record.Lists (Whole w library root types (detected w library root)) done)

/-- Every class with parameters is found, with its own parameters and all that it inherits. -/
def Recorded (w : World) (library : String) (root : Path) (version : String) (s : State) : Prop :=
  ∀ path ∈ detected w library root, ∃ c,
    (Store.find? library path version s.store).1 = some c ∧
      Whole w library root s.session.types (detected w library root) path c.parameters

section

variable {allowed : List String} {infos : Table Info} {info : Info}
  (regular : Regular w library root) (taken : BasesTaken w library root) (named : library ≠ "")
  (plain : '.' ∉ library.toList) (hinfo : infos.get? library = some info)

include regular taken named plain hinfo

theorem Completed.step {types done : List String} {path : String} {rest : List String}
    {a : Ancestry} (hinfos : a.infos = infos)
    (hdefinitions : a.definitions = (surveyOf w library root).definitions)
    (hbases : a.bases = (surveyOf w library root).bases)
    (horder : (surveyOf w library root).ordered ((surveyOf w library root).classSet library) ∅ =
      done ++ path :: rest)
    {d : Definition} (hd : a.definitions.get? path = some d) :
    Ends (Completed w library root info.version types done) (do
        let c ← onStore (a.complete types path d)
        changeStore (Store.setClass library path c info.version))
      fun _ => Completed w library root info.version types (done ++ [path]) := by
  rintro s ⟨htypes, hfile, hheld⟩
  obtain ⟨hsupported, hperm⟩ := ordered_supported regular taken
  have hmem (name : String) (hname : name ∈ done ++ path :: rest) :
      name ∈ detected w library root := hperm.mem_iff.mp (horder ▸ hname)
  have hpath := hmem path (List.mem_append_right _ List.mem_cons_self)
  obtain ⟨d', listed, hd', hlisted, hdeclared⟩ := exists_declared hpath
  obtain rfl : d = d' := by
    rw [hdefinitions] at hd
    exact Option.some.inj (hd.symm.trans hd')
  -- The parents come before the class in the order, so they are done.
  have hparents : ∀ base ∈ listed, fullName path d base ∈ detected w library root →
      fullName path d base ∈ done := by
    intro base hbase hfull
    refine hsupported done path rest horder (fullName path d base) ?_ hfull
    show fullName path d base ∈ ((surveyOf w library root).fullBases.get? path).getD []
    rw [getD_fullBases regular taken hpath hdeclared]
    exact List.mem_map_of_mem hbase
  have hheld' := hheld
  obtain ⟨hkeeps, r, hr, -, hlists⟩ := hheld
  obtain ⟨c, hrun, hwhole⟩ := run_complete regular taken named plain hkeeps hfile hr hlists
    (hinfos ▸ hinfo) hdefinitions (fun name hname => hmem name (List.mem_append_left _ hname)) hpath
    hd (hbases ▸ hlisted) hdeclared hparents
  show Completed w library root info.version types (done ++ [path])
    ⟨s.session, Store.setClass library path (a.complete types path d s.store).1 info.version
      (a.complete types path d s.store).2⟩
  rw [hrun]
  refine ⟨htypes, ?_, ?_⟩
  · exact (stored?_change _ _ _).trans hfile
  · exact hheld'.change (fun r => rfl) fun r hr => hr.setClass hwhole

/-- The survey of a regular library is recorded. -/
theorem ends_storeSurvey_regular :
    Ends (Awaiting library info.version allowed infos)
      (storeSurvey library info.version (surveyOf w library root))
      fun _ => Recorded w library root info.version := by
  have hwholes : (surveyOf w library root).offers.wholes = [] :=
    wholes_ofFiles (fun file hfile => regular.wildcards file (mem_of_mem_orderBy hfile)) {}
  obtain ⟨-, hperm⟩ := ordered_supported regular taken
  rw [storeSurvey]
  refine Ends.get_bind fun s hs => ?_
  dsimp only
  rw [wholeAliases_of_nil hwholes]
  generalize htypes : parameterTypes library (surveyOf w library root).bases s.session.types = types
  let whole (r : Record) : Prop := ∀ path ∈ detected w library root, ∃ c,
    r.classes.get? path = some c ∧
      Whole w library root types (detected w library root) path c.parameters
  let held (s : State) : Prop :=
    s.session.types = types ∧ s.store.Held library info.version whole
  have hfirst : Ends (Awaiting library info.version allowed infos)
      (changeSession fun session => { session with types, latestTypes := types, wholes := [] })
      fun _ s => s.session.types = types ∧ s.store.Blank library info.version :=
    fun s hs => ⟨rfl, hs.store⟩
  have hbegun : Ends (fun s => s.session.types = types ∧ s.store.Blank library info.version)
      (changeStore (Store.setTypes library types info.version))
      fun _ => Completed w library root info.version types [] := by
    rintro s ⟨htypes, hblank⟩
    refine ⟨htypes, (stored?_change _ _ _).trans hblank.file, hblank.held_change (fun r => rfl) ?_⟩
    exact ⟨rfl, fun path hpath => absurd hpath List.not_mem_nil, fun path _ => rfl⟩
  -- The names that packages offer come last and leave the classes alone.
  have haliases : Ends held
      (forIn (surveyOf w library root).offers.names.entries PUnit.unit fun x _ => do
        changeStore (Store.setAlias library x.1 x.2 info.version)
        pure (ForInStep.yield PUnit.unit)) fun _ => held := by
    refine Ends.forIn (I := fun _ => held) (fun _ x _ _ _ s hs => ⟨⟨_, rfl⟩, hs.1, ?_⟩) _
    exact hs.2.change (fun r => rfl) fun r hr => hr
  refine Ends.bind hfirst fun _ => Ends.bind hbegun fun _ => ?_
  refine Ends.bind (Q := fun _ => Completed w library root info.version types [])
    (Ends.pure fun s hs => hs) fun _ => ?_
  refine Ends.bind (Q := fun _ => held) ?_ fun count => Ends.bind haliases fun _ => ?_
  · refine Ends.weaken (Ends.forIn (I := Completed w library root info.version types)
      (fun before path after horder count => ?_) 0) (fun s hs => hs) ?_
    · have hpath : path ∈ detected w library root :=
        hperm.mem_iff.mp (horder ▸ List.mem_append_right _ List.mem_cons_self)
      obtain ⟨d, -, hd, -, -⟩ := exists_declared hpath
      rw [hd]
      intro st hst
      exact ⟨⟨_, rfl⟩,
        Completed.step regular taken named plain hinfo hs.infos rfl rfl horder hd st hst⟩
    · rintro _ s ⟨htypes, -, hkeeps, r, hr, hfor, hlists⟩
      exact ⟨htypes, hkeeps, r, hr, hfor, fun path hpath =>
        hlists.present path (hperm.mem_iff.mpr hpath)⟩
  · rintro s ⟨htypes, hheld⟩
    obtain ⟨r, hr, hfind⟩ := hheld.find?_flush
    intro path hpath
    obtain ⟨c, hc, hwhole⟩ := hr path hpath
    exact ⟨c, hfind path c hc, htypes.symm ▸ hwhole⟩

end

end ParamLens.Library
