import ParamLens.Proofs.KnownTypes
import ParamLens.Proofs.Records

/-! What the bases of a class hand on to it. When the turn of a class comes, the record of its
library holds classes of this library only, under their own names and under those that come with all
names of a module. So a base hands on nothing if it is a class of another library, or a name that
packages offer one by one. -/

namespace ParamLens.Library

open Syntax Steps Analysis

theorem Record.find?_of_unaliased {r : Record} {name : String} (h : r.aliases.get? name = none) :
    r.find? name = r.classes.get? name := by
  rw [Record.find?]
  cases r.classes.get? name with
  | some c => rfl
  | none =>
    cases r.aliases.size with
    | zero => rfl
    | succ steps =>
      dsimp only
      rw [Record.followAliases?, h]

namespace Survey

variable {s : Survey} {library version : String} {types : List String}

/-! ### What a base hands on -/

/-- The parameters that a class takes from one of its bases. -/
def handed (s : Survey) (find? : String → Option ParamClass) (r : Recognition) (fuel : Nat)
    (path : List String) (name base : String) : Table Parameter :=
  if isParameterizedRoot base (some (Dotted.first name)) then ∅
  else match (s.sought? name base).bind find? with
    | some parent => parent.parameters
    | none =>
      match s.definitions.get? base with
      | none => ∅
      | some d => (s.gather find? r fuel (name :: path) base
          ((ParamClass.ofName "").merge
            (byName (ownParameters r d.imports d.content d.node)))).parameters

theorem get?_foldl {step : ParamClass → String → ParamClass} {given : String → Option Parameter}
    {asked : String} (h : ∀ c base, (step c base).parameters.get? asked =
      (c.parameters.get? asked).or (given base)) (listed : List String) (c : ParamClass) :
    (listed.foldl step c).parameters.get? asked =
      (c.parameters.get? asked).or (listed.findSome? given) := by
  induction listed generalizing c with
  | nil => exact Option.or_none.symm
  | cons base rest ih =>
    rw [List.foldl_cons, ih, h, Option.or_assoc, List.findSome?_cons]
    cases given base <;> rfl

section

variable (find? : String → Option ParamClass) (r : Recognition)

/-- What a class gathers along the bases of another one does not depend on what it has. -/
def GathersApart (s : Survey) (fuel : Nat) : Prop :=
  ∀ path name c asked, (s.gather find? r fuel path name c).parameters.get? asked =
    (c.parameters.get? asked).or
      ((s.gather find? r fuel path name (.ofName "")).parameters.get? asked)

theorem get?_gather_succ {fuel : Nat} (apart : s.GathersApart find? r fuel) {path : List String}
    {name : String} (hpath : ¬ path.contains name = true) (c : ParamClass) (asked : String) :
    (s.gather find? r (fuel + 1) path name c).parameters.get? asked =
      (c.parameters.get? asked).or (((s.bases.get? name).getD []).findSome? fun base =>
        (s.handed find? r fuel path name base).get? asked) := by
  rw [gather, if_neg hpath]
  refine get?_foldl (fun c base => ?_) _ c
  rw [handed]
  split
  · exact Option.or_none.symm
  · cases (s.sought? name base).bind find? with
    | some parent => exact c.get?_merge parent.parameters asked
    | none =>
      cases s.definitions.get? base with
      | none => exact Option.or_none.symm
      | some d =>
        dsimp only
        rw [apart, apart _ _ ((ParamClass.ofName "").merge _), ParamClass.get?_merge,
          ParamClass.get?_merge, Option.or_assoc]
        rfl

theorem gathersApart (fuel : Nat) : s.GathersApart find? r fuel := by
  induction fuel with
  | zero => exact fun _ _ _ _ => Option.or_none.symm
  | succ fuel ih =>
    intro path name c asked
    by_cases hpath : path.contains name = true
    · rw [gather, gather, if_pos hpath, if_pos hpath]
      exact Option.or_none.symm
    · rw [get?_gather_succ find? r ih hpath, get?_gather_succ find? r ih hpath]
      rfl

end

theorem get?_completed (find? : String → Option ParamClass) {path : String} {d : Definition}
    {listed : List String} (hlisted : s.bases.get? path = some listed) (asked : String) :
    (s.completed types find? path d).parameters.get? asked =
      ((declaredParameters types d).get? asked).or (listed.findSome? fun base =>
        (s.handed find? ⟨d.imports, types⟩ s.definitions.size [] path base).get? asked) := by
  have hown : (ownClass types d ((d.node.className?).getD "")).parameters =
      declaredParameters types d := ParamClass.parameters_foldl_add _ _
  rw [completed, get?_gather_succ _ _ (gathersApart _ _ _) (by simp), hown, hlisted,
    Option.getD_some]

/-- The record when the turn of a class comes. -/
def turn (s : Survey) (library version : String) (types : List String) (path : String) : Record :=
  ((s.order library).takeWhile (· != path)).foldl (s.enter types) (s.opened library version types)

/-- What a base of a class hands on to it, when its turn comes. -/
def handsOn (s : Survey) (library version : String) (types : List String) (path : String)
    (d : Definition) (base : String) : Table Parameter :=
  s.handed (s.turn library version types path).find? ⟨d.imports, types⟩ s.definitions.size [] path
    base

theorem order_eq_append {path : String} (hpath : path ∈ parameterizedClasses library s.bases) :
    ∃ after, s.order library = (s.order library).takeWhile (· != path) ++ path :: after ∧
      path ∉ after := by
  obtain ⟨before, after, hsplit⟩ := List.append_of_mem (mem_order.mpr hpath)
  have hnodup : (before ++ path :: after).Nodup := hsplit ▸ nodup_order
  obtain ⟨-, hrest, hdisjoint⟩ := List.nodup_append.mp hnodup
  have hbefore : ∀ name ∈ before, (name != path) = true := by
    intro name hname
    simpa using hdisjoint name hname path List.mem_cons_self
  refine ⟨after, ?_, (List.nodup_cons.mp hrest).1⟩
  rw [hsplit, List.takeWhile_append_of_pos hbefore, List.takeWhile_cons_of_neg (by simp),
    List.append_nil]

variable (version types) in
theorem get?_record {path : String} {d : Definition} {listed : List String}
    (hpath : path ∈ parameterizedClasses library s.bases) (hd : s.definitions.get? path = some d)
    (hlisted : s.bases.get? path = some listed) :
    ∃ c, (s.record library version types).classes.get? path = some c ∧ ∀ asked,
      c.parameters.get? asked = ((declaredParameters types d).get? asked).or
        (listed.findSome? fun base =>
          (s.handsOn library version types path d base).get? asked) := by
  obtain ⟨after, hsplit, hafter⟩ := order_eq_append hpath
  refine ⟨_, ?_, get?_completed (s.turn library version types path).find? hlisted⟩
  rw [record, Record.classes_setAliases, hsplit]
  exact get?_foldl_enter hd hafter _

variable (version types) in
theorem mem_names_record {path : String} {d : Definition} {listed : List String}
    (hpath : path ∈ parameterizedClasses library s.bases) (hd : s.definitions.get? path = some d)
    (hlisted : s.bases.get? path = some listed) :
    ∃ c, (s.record library version types).classes.get? path = some c ∧ ∀ name,
      name ∈ c.parameters.names ↔ name ∈ (declaredParameters types d).names ∨
        ∃ base ∈ listed, name ∈ (s.handsOn library version types path d base).names := by
  obtain ⟨c, hc, hget⟩ := get?_record version types hpath hd hlisted
  have hnames (t : Table Parameter) (name : String) : name ∈ t.names ↔ (t.get? name).isSome := by
    rw [Option.isSome_iff_ne_none, Ne, Table.get?_eq_none_iff, not_not]
  refine ⟨c, hc, fun name => ?_⟩
  simp only [hnames, hget, Option.isSome_or, Bool.or_eq_true, List.findSome?_isSome_iff]

/-- A class is recorded with all of the names, its own apart, exactly if it is one of the classes
with parameters and its bases hand them on. -/
theorem takes_iff {path : String} {d : Definition} {listed : List String}
    (hd : s.definitions.get? path = some d) (hlisted : s.bases.get? path = some listed)
    (names : List String) :
    (∃ c, (s.record library version types).classes.get? path = some c ∧ ∀ name ∈ names,
        name ∉ (declaredParameters types d).names → name ∈ c.parameters.names) ↔
      path ∈ parameterizedClasses library s.bases ∧
        ∀ name ∈ names, name ∉ (declaredParameters types d).names →
          ∃ base ∈ listed, name ∈ (s.handsOn library version types path d base).names := by
  constructor
  · rintro ⟨c, hc, htakes⟩
    have hpath := mem_of_get?_record hc
    obtain ⟨c', hc', hnames⟩ := mem_names_record version types hpath hd hlisted
    obtain rfl := Option.some.inj (hc.symm.trans hc')
    exact ⟨hpath, fun name hname hown =>
      ((hnames name).mp (htakes name hname hown)).resolve_left hown⟩
  · rintro ⟨hpath, hhands⟩
    obtain ⟨c, hc, hnames⟩ := mem_names_record version types hpath hd hlisted
    exact ⟨c, hc, fun name hname hown => (hnames name).mpr (.inr (hhands name hname hown))⟩

/-! ### Bases that hand on nothing -/

theorem get?_aliases_foldl_enter (paths : List String) (asked : String) :
    (paths.foldl (s.enter types) (s.opened library version types)).aliases.get? asked =
      (s.aliases library).get? asked := by
  rw [aliases_foldl_enter, opened, Record.aliases_setAliases, Table.get?_update]
  exact Option.or_none

/-- A name stands in the record for what the packages offer under it one by one, or else for what
they offer with all names of a module. -/
theorem get?_aliases_record (asked : String) :
    (s.record library version types).aliases.get? asked =
      (s.offers.names.get? asked).or ((s.aliases library).get? asked) := by
  rw [record, Record.aliases_setAliases, Table.get?_update, get?_aliases_foldl_enter]

@[simp] theorem aliases_turn (path asked : String) :
    (s.turn library version types path).aliases.get? asked = (s.aliases library).get? asked :=
  get?_aliases_foldl_enter _ asked

theorem get?_foldl_enter_of_undefined {asked : String} (h : s.definitions.get? asked = none)
    (paths : List String) (r : Record) :
    (paths.foldl (s.enter types) r).classes.get? asked = r.classes.get? asked := by
  refine List.foldlRecOn (motive := fun found : Record =>
    found.classes.get? asked = r.classes.get? asked) _ _ rfl fun found hfound path _ => ?_
  cases hpath : s.definitions.get? path with
  | none => simpa only [enter, hpath] using hfound
  | some d =>
    have hne : asked ≠ path := fun heq => by simp [heq, hpath] at h
    rw [get?_enter hpath, if_neg hne]
    exact hfound

theorem classes_turn_of_undefined {path asked : String} (h : s.definitions.get? asked = none) :
    (s.turn library version types path).classes.get? asked = none := by
  rw [turn, get?_foldl_enter_of_undefined h, classes_opened]
  rfl

theorem find?_turn_eq_none {path full : String} (hclass : s.definitions.get? full = none)
    (halias : (s.aliases library).get? full = none) :
    (s.turn library version types path).find? full = none := by
  rw [Record.find?_of_unaliased (by rw [aliases_turn, halias]), classes_turn_of_undefined hclass]

theorem handsOn_eq_empty {path base : String} {d : Definition}
    (hbase : s.definitions.get? base = none)
    (hfull : ∀ full, s.sought? path base = some full →
      s.definitions.get? full = none ∧ (s.aliases library).get? full = none) :
    s.handsOn library version types path d base = ∅ := by
  have hnone : (s.sought? path base).bind (s.turn library version types path).find? = none := by
    rw [Option.bind_eq_none_iff]
    intro full hsought
    obtain ⟨hclass, halias⟩ := hfull full hsought
    exact find?_turn_eq_none hclass halias
  rw [handsOn, handed, hnone, hbase]
  split <;> rfl

theorem exists_offer_of_alias {name target : String}
    (h : (s.aliases library).get? name = some target) :
    ∃ offer ∈ s.offers.wholes, ∃ full, name = Dotted.append offer.1 (Dotted.last full) := by
  obtain ⟨offer, hoffer, hmem⟩ := List.mem_flatMap.mp (Table.mem_of_get?_ofList h)
  refine ⟨offer, hoffer, ?_⟩
  rcases List.mem_append.mp hmem with hmem | hmem
  · obtain ⟨_, -, heq⟩ := List.mem_map.mp hmem
    exact ⟨_, (congrArg Prod.fst heq).symm⟩
  · obtain ⟨_, -, heq⟩ := List.mem_map.mp hmem
    exact ⟨_, (congrArg Prod.fst heq).symm⟩

end Survey

variable {w : World} {library : String} {root : Path} {info : Info} {s : State}

theorem exists_toList_of_alias {name target : String}
    (h : ((surveyOf w library root).aliases library).get? name = some target) :
    ∃ rest, name.toList = library.toList ++ '.' :: rest := by
  obtain ⟨offer, hoffer, full, rfl⟩ := Survey.exists_offer_of_alias h
  obtain ⟨parts, hparts⟩ := Survey.packagesOf_ofFiles w library root _ offer hoffer
  rw [hparts]
  exact exists_toList_append library (Dotted.last full) parts

/-- The name is written in full and is not one of the library. -/
def Foreign (library base : String) : Prop :=
  Text.startsWith base "." = false ∧ Dotted.first base ≠ library

instance (library base : String) : Decidable (Foreign library base) :=
  inferInstanceAs (Decidable (_ ∧ _))

theorem undefined_of_foreign {base : String} (plain : '.' ∉ library.toList)
    (h : Foreign library base) : (surveyOf w library root).definitions.get? base = none := by
  cases hd : (surveyOf w library root).definitions.get? base with
  | none => rfl
  | some d => exact absurd (of_surveyOf plain base d hd) h.2

theorem unaliased_of_foreign {base : String} (plain : '.' ∉ library.toList)
    (h : Foreign library base) : ((surveyOf w library root).aliases library).get? base = none := by
  cases hget : ((surveyOf w library root).aliases library).get? base with
  | none => rfl
  | some target =>
    obtain ⟨rest, hrest⟩ := exists_toList_of_alias hget
    exact absurd (first_eq_of_toList plain hrest) h.2

theorem handsOn_of_foreign {version path base : String} {types : List String} {d : Definition}
    (plain : '.' ∉ library.toList) (h : Foreign library base) :
    (surveyOf w library root).handsOn library version types path d base = ∅ := by
  have hclass : (surveyOf w library root).definitions.get? base = none :=
    undefined_of_foreign plain h
  refine Survey.handsOn_eq_empty hclass fun full hsought => ?_
  -- A name that is written in full is looked for as it is.
  obtain rfl : base = full := by
    rw [Survey.sought?, Ancestry.storedName?, if_neg (by simp [h.1])] at hsought
    exact Option.some.inj (Option.filter_eq_some_iff.mp hsought).1
  exact ⟨hclass, unaliased_of_foreign plain h⟩

/-- What a class takes from a base that is a class of another library. The base hands on nothing,
whatever is stored of it; and the class is recorded only for one of its bases that is the root or
names a class of its own library. -/
theorem populate_takes_nothing_from_other_library (ready : Ready library info s)
    (plain : '.' ∉ library.toList) (hroot : rootOf? w library (sources w library) = some root)
    {path : String} {d : Definition} {listed : List String}
    (hd : (surveyOf w library root).definitions.get? path = some d)
    (hlisted : (surveyOf w library root).bases.get? path = some listed) :
    let next := (populate w library s).2
    let own := (declaredParameters next.session.types d).names
    let handsOn :=
      (surveyOf w library root).handsOn library info.version next.session.types path d
    ∃ r, next.store.stored? library info.version = some r ∧
      ∀ base ∈ listed, Foreign library base → handsOn base = ∅ ∧
        ∀ version b, (Store.find? (Dotted.first base) base version next.store).1 = some b →
          ((∃ c, r.classes.get? path = some c ∧ ∀ name ∈ b.parameters.names, name ∉ own →
              name ∈ c.parameters.names) ↔
            (isParameterizedRoot path (some library) = true ∨
              ∃ other ∈ listed, isParameterizedRoot other (some library) = true ∨
                matchesParameterized (detected w library root) other = true) ∧
            ∀ name ∈ b.parameters.names, name ∉ own →
              ∃ other ∈ listed, ¬ Foreign library other ∧ name ∈ (handsOn other).names) := by
  intro next own handsOn
  obtain ⟨-, hstored⟩ := populate_stores_record ready plain hroot
  refine ⟨_, hstored, fun base _ hforeign => ⟨handsOn_of_foreign plain hforeign, fun _ b _ => ?_⟩⟩
  rw [Survey.takes_iff hd hlisted, mem_parameterizedClasses_iff hlisted]
  refine and_congr_right fun _ => forall₃_congr fun name _ _ => exists_congr fun other =>
    and_congr_right fun _ => ?_
  refine (and_iff_right_of_imp fun hname hother => ?_).symm
  rw [handsOn_of_foreign plain hother] at hname
  cases hname

open Sketch in
/-- Two classes of a library inherit from one of the library that it depends on, and one of them
from the root as well. -/
def transit : World :=
  siteOf
    [("holoviews", ⟨"2.0", ["panel"]⟩,
      [(["core.py"], file [importsModule ["param"], takesName ["panel", "base"] "B",
          classed "C" [name "B"] [],
          classed "K" [name "B", rootBase] [declares "y" "Integer" []]])]),
     ("panel", ⟨"1.0", []⟩, [(["base.py"], baseFile)])]

def transitRoot : Path := ⟨true, ["site", "holoviews"]⟩

theorem infos_transit : infos transit (allowed []) =
    Table.ofList [("holoviews", ⟨"2.0", ["panel"]⟩), ("panel", ⟨"1.0", []⟩)] := by
  rw [infos_of_sorted (w := transit) rfl (by decide)]
  rfl

theorem sources_transit :
    sources transit "holoviews" = [⟨true, ["site", "holoviews", "core.py"]⟩] ∧
      sources transit "panel" = [⟨true, ["site", "panel", "base.py"]⟩] := by
  constructor
  · exact sources_eq_of_listed (by decide +kernel : _ = [transitRoot]) (by decide +kernel)
      (by decide +kernel : _ = some ["site", "holoviews"]) (by decide +kernel) (by decide)
      (by decide)
  · exact sources_eq_of_listed (by decide +kernel : _ = [panelRoot]) (by decide +kernel)
      (by decide +kernel : _ = some ["site", "panel"]) (by decide +kernel) (by decide) (by decide)

def transitState : State :=
  ⟨{ allowed := ["param", "panel", "holoviews"],
     infos := Table.ofList [("holoviews", ⟨"2.0", ["panel"]⟩), ("panel", ⟨"1.0", []⟩)] },
    { enabled := true }⟩

theorem firstState_transit : firstState transit = transitState := by
  rw [firstState, Session.start, infos_transit]
  rfl

theorem ready_transit : Ready "holoviews" ⟨"2.0", ["panel"]⟩ (firstState transit) := by
  refine ready_start ?_ ?_ ⟨by decide, by decide, by decide⟩
  · rw [infos_transit]
    exact wellNamed_ofList (by decide)
  · rw [infos_transit]
    decide

theorem populate_transit : populate transit "holoviews" (firstState transit) =
    populateSources transit "holoviews" "2.0" (populateWith transit 3 "panel"
      { transitState with
        session := { transitState.session with populated := ["holoviews"] } }).2 := by
  have hready := ready_transit
  rw [firstState_transit] at hready ⊢
  refine (populate_of_one (w := transit) hready rfl (by decide)).trans ?_
  rfl

/-- All bases of the second class are of other libraries, so that it lacks the parameter. -/
theorem populate_transit_takes_nothing :
    let next := (populate transit "holoviews" (firstState transit)).2
    ∃ r b d, next.store.stored? "holoviews" "2.0" = some r ∧
      (Store.find? "panel" "panel.base.B" "1.0" next.store).1 = some b ∧
      (surveyOf transit "holoviews" transitRoot).definitions.get? "holoviews.core.K" = some d ∧
      ¬ ∃ c, r.classes.get? "holoviews.core.K" = some c ∧ ∀ name ∈ b.parameters.names,
        name ∉ (declaredParameters next.session.types d).names → name ∈ c.parameters.names := by
  intro next
  have hroot : rootOf? transit "holoviews" (sources transit "holoviews") = some transitRoot := by
    rw [sources_transit.1]
    decide +kernel
  have hlisted : (surveyOf transit "holoviews" transitRoot).bases.get? "holoviews.core.K" =
      some ["panel.base.B", "param.Parameterized"] := by
    rw [surveyOf, sources_transit.1]
    decide +kernel
  have hown : ∀ d ∈ (surveyOf transit "holoviews" transitRoot).definitions.get? "holoviews.core.K",
      "x" ∉ (declaredParameters [] d).names := by
    rw [surveyOf, sources_transit.1]
    decide +kernel
  have hstored : next.session.types = [] ∧
      (Store.find? "panel" "panel.base.B" "1.0" next.store).1.map (·.parameters.names) =
        some ["x"] := by
    simp only [next, populate_transit, populateWith, populateSources, sources_transit]
    decide +kernel
  obtain ⟨b, hb, hnames⟩ := Option.map_eq_some_iff.mp hstored.2
  obtain ⟨d, hd⟩ := (holds_surveyOf transit "holoviews" transitRoot).bases hlisted
  obtain ⟨r, hr, htakes⟩ := populate_takes_nothing_from_other_library ready_transit (by decide)
    hroot hd hlisted
  obtain ⟨-, hiff⟩ := htakes "panel.base.B" (by decide) (by decide)
  refine ⟨r, b, d, hr, hb, hd, fun hall => ?_⟩
  obtain ⟨other, hother, hforeign, -⟩ := ((hiff "1.0" b hb).mp hall).2 "x" (by simp [hnames])
    (hstored.1 ▸ hown d hd)
  have hall : ∀ other ∈ ["panel.base.B", "param.Parameterized"], Foreign "holoviews" other := by
    decide
  exact hforeign (hall other hother)

/-- The class of the other library is stored with its parameter. The class that lists it alone is
not recorded, and the one that lists the root as well is recorded without the parameter. -/
theorem populate_misses_class_of_dependency :
    let next := (populate transit "holoviews" (firstState transit)).2
    let recorded (path : String) := (next.store.stored? "holoviews" "2.0").bind fun r =>
      (r.classes.get? path).map (·.parameters.names)
    Ready "holoviews" ⟨"2.0", ["panel"]⟩ (firstState transit) ∧
      (surveyOf transit "holoviews" transitRoot).bases.get? "holoviews.core.C" =
        some ["panel.base.B"] ∧
      (surveyOf transit "holoviews" transitRoot).bases.get? "holoviews.core.K" =
        some ["panel.base.B", "param.Parameterized"] ∧
      (Store.find? "panel" "panel.base.B" "1.0" next.store).1.map (·.parameters.names) =
        some ["x"] ∧
      recorded "holoviews.core.C" = none ∧ recorded "holoviews.core.K" = some ["y"] := by
  intro next recorded
  have hsurvey : (surveyOf transit "holoviews" transitRoot).bases.get? "holoviews.core.C" =
        some ["panel.base.B"] ∧
      (surveyOf transit "holoviews" transitRoot).bases.get? "holoviews.core.K" =
        some ["panel.base.B", "param.Parameterized"] := by
    rw [surveyOf, sources_transit.1]
    decide +kernel
  refine ⟨ready_transit, hsurvey.1, hsurvey.2, ?_⟩
  simp only [next, recorded, populate_transit, populateWith, populateSources, sources_transit]
  decide +kernel

/-! ### Names that stand for classes -/

namespace Survey

variable {s : Survey} {library version : String} {types : List String}

/-- The bases of a class by which it is put in its place. A name that comes with all names of a
module is replaced by what it stands for. -/
def parents (s : Survey) (library name : String) : List String :=
  ((s.fullBases.mapEntries fun _ listed =>
    listed.map fun base => ((s.aliases library).get? base).getD base).get? name).getD []

theorem order_eq_orderClasses :
    s.order library = orderClasses (s.classSet library) (s.parents library) :=
  rfl

/-- No class with parameters inherits from itself or lists one class twice. -/
structure Layered (s : Survey) (library : String) : Prop where
  once : ∀ path ∈ parameterizedClasses library s.bases, (s.parents library path).Nodup
  acyclic : Acyclic fun a b => a ∈ parameterizedClasses library s.bases ∧
    b ∈ parameterizedClasses library s.bases ∧ a ∈ s.parents library b

/-- A base stands for the class that has its full name, or for the one whose name comes with all
names of a module. -/
def StandsFor (s : Survey) (library path base target : String) : Prop :=
  isParameterizedRoot base (some library) = false ∧
    ∃ full, s.sought? path base = some full ∧ ((s.aliases library).get? full).getD full = target ∧
      (full = target ∨ s.definitions.get? full = none)

theorem mem_parents {path base full : String} {listed : List String}
    (hlisted : s.bases.get? path = some listed) (hbase : base ∈ listed)
    (hsought : s.sought? path base = some full) :
    ((s.aliases library).get? full).getD full ∈ s.parents library path := by
  rw [parents, Table.get?_mapEntries, fullBases, Table.get?_mapEntries, hlisted, Option.map_some,
    Option.map_some, Option.getD_some, List.map_map]
  refine List.mem_map.mpr ⟨base, hbase, ?_⟩
  rw [Function.comp_apply]
  obtain ⟨hstored, -⟩ := Option.filter_eq_some_iff.mp hsought
  rw [Ancestry.storedName?] at hstored
  split at hstored
  · next hdots =>
    rw [if_pos hdots]
    dsimp only at hstored ⊢
    rw [hstored, Option.getD_some]
  · next hdots =>
    obtain rfl := Option.some.inj hstored
    rw [if_neg hdots]

theorem classes_turn_of_mem {path target : String}
    (hpath : path ∈ parameterizedClasses library s.bases)
    (hmem : target ∈ (s.order library).takeWhile (· != path)) :
    (s.turn library version types path).classes.get? target =
      (s.record library version types).classes.get? target := by
  obtain ⟨after, hsplit, -⟩ := order_eq_append hpath
  have hnodup : (s.order library).Nodup := nodup_order
  rw [hsplit] at hnodup
  have hafter : target ∉ path :: after := fun h =>
    (List.nodup_append.mp hnodup).2.2 target hmem target h rfl
  rw [record, Record.classes_setAliases, hsplit, List.foldl_append,
    get?_foldl_enter_of_notMem hafter]
  rfl

theorem handsOn_of_standsFor {path base target : String} {d : Definition} {listed : List String}
    {b : ParamClass} (layered : s.Layered library) (hfirst : Dotted.first path = library)
    (hpath : path ∈ parameterizedClasses library s.bases)
    (hlisted : s.bases.get? path = some listed) (hbase : base ∈ listed)
    (hstands : s.StandsFor library path base target)
    (hb : (s.record library version types).classes.get? target = some b) :
    s.handsOn library version types path d base = b.parameters := by
  obtain ⟨hroot, full, hsought, htarget, hclass⟩ := hstands
  have hbefore : target ∈ (s.order library).takeWhile (· != path) := by
    obtain ⟨after, hsplit, -⟩ := order_eq_append hpath
    have hmem {path : String} : path ∈ s.classSet library ↔
        path ∈ parameterizedClasses library s.bases := mem_classSet
    obtain ⟨hsupported, -⟩ := @orderClasses_supported String (s.classSet library) _ _
      (s.parents library) nodup_classSet (fun path h => layered.once path (hmem.mp h))
      (by simpa only [hmem] using layered.acyclic)
    exact hsupported _ path after (order_eq_orderClasses.symm.trans hsplit) target
      (htarget ▸ mem_parents hlisted hbase hsought) (hmem.mpr (mem_of_get?_record hb))
  have hrecorded : (s.turn library version types path).classes.get? target = some b :=
    (classes_turn_of_mem hpath hbefore).trans hb
  have hfind : (s.turn library version types path).find? full = some b := by
    rw [Record.find?_eq_some_iff]
    rcases hclass with rfl | hclass
    · exact ⟨_, .here hrecorded⟩
    · -- The name is no class, so that it is an alias of the class.
      have hlink : (s.turn library version types path).facts.aliases full = some target := by
        refine (aliases_turn path full).trans ?_
        cases halias : (s.aliases library).get? full with
        | some other => exact congrArg some (by simpa [halias] using htarget)
        | none =>
          obtain rfl : full = target := by simpa [halias] using htarget
          rw [classes_turn_of_undefined hclass] at hrecorded
          cases hrecorded
      exact ⟨_, .along (classes_turn_of_undefined hclass) hlink (.here hrecorded)⟩
  rw [handsOn, handed, hfirst, if_neg (by simp [hroot]), hsought, Option.bind_some, hfind]

/-- By the names that packages offer one by one, each for another one, from a name that is no class
to a class. -/
inductive Offered (s : Survey) : String → String → Prop
  | one {name target : String} (bare : s.definitions.get? name = none)
      (link : s.offers.names.get? name = some target) : Offered s name target
  | more {name next target : String} (bare : s.definitions.get? name = none)
      (link : s.offers.names.get? name = some next) (rest : Offered s next target) :
      Offered s name target

theorem classes_record_of_undefined {asked : String} (h : s.definitions.get? asked = none) :
    (s.record library version types).classes.get? asked = none := by
  rw [record, Record.classes_setAliases, get?_foldl_enter_of_undefined h, classes_opened]
  rfl

theorem find?_record_of_offered {name target : String} {b : ParamClass} (h : s.Offered name target)
    (hb : (s.record library version types).classes.get? target = some b) :
    (s.record library version types).find? name = some b := by
  rw [Record.find?_eq_some_iff]
  have hlink {name next : String} (link : s.offers.names.get? name = some next) :
      (s.record library version types).aliases.get? name = some next := by
    rw [get?_aliases_record, link, Option.some_or]
  induction h with
  | one bare link =>
    exact ⟨_, .along (classes_record_of_undefined bare) (hlink link) (.here hb)⟩
  | more bare link rest ih =>
    obtain ⟨names, htrail⟩ := ih hb
    exact ⟨_, .along (classes_record_of_undefined bare) (hlink link) htrail⟩

theorem layered_of_rank (rank : String → Nat)
    (h : ∀ path ∈ parameterizedClasses library s.bases, (s.parents library path).Nodup ∧
      ∀ parent ∈ s.parents library path, parent ∈ parameterizedClasses library s.bases →
        rank parent < rank path) : s.Layered library where
  once path hpath := (h path hpath).1
  acyclic := by
    refine acyclic_of_rank rank (fun a b hab => hab.1) ?_
    rintro a b ⟨ha, hb, hparent⟩ -
    exact (h b hb).2 a hparent ha

theorem Offered.bare {name target : String} (h : s.Offered name target) :
    s.definitions.get? name = none := by
  cases h with
  | one bare _ => exact bare
  | more bare _ _ => exact bare

end Survey

theorem definitions_eq_none_of_relative {base : String} (named : library ≠ "")
    (plain : '.' ∉ library.toList) (h : Text.startsWith base "." = true) :
    (surveyOf w library root).definitions.get? base = none := by
  cases hd : (surveyOf w library root).definitions.get? base with
  | none => rfl
  | some d =>
    obtain ⟨listed, -, hdeclared⟩ := (holds_surveyOf w library root).definitions hd
    rw [hdeclared.not_relative named plain] at h
    cases h

theorem handsOn_of_bare {version path base full : String} {types : List String} {d : Definition}
    (named : library ≠ "") (plain : '.' ∉ library.toList)
    (hsought : (surveyOf w library root).sought? path base = some full)
    (hclass : (surveyOf w library root).definitions.get? full = none)
    (halias : ((surveyOf w library root).aliases library).get? full = none) :
    (surveyOf w library root).handsOn library version types path d base = ∅ := by
  refine Survey.handsOn_eq_empty ?_ fun full' hsought' => ?_
  · by_cases hdots : Text.startsWith base "." = true
    · exact definitions_eq_none_of_relative named plain hdots
    · rw [Survey.sought?, Ancestry.storedName?, if_neg hdots] at hsought
      obtain rfl : base = full := Option.some.inj (Option.filter_eq_some_iff.mp hsought).1
      exact hclass
  · obtain rfl := Option.some.inj (hsought.symm.trans hsought')
    exact ⟨hclass, halias⟩

/-- What a class takes from a base that is a name which packages offer one by one. In the whole
record the name finds the class that it stands for. But the base hands on nothing, unless a package
offers it with all names of a module as well; and the class is recorded only for one of its bases
that is the root or matches a class as it is written. A base that stands for a class hands on what
is recorded of it. -/
theorem populate_takes_nothing_from_offered_name (ready : Ready library info s)
    (named : library ≠ "") (plain : '.' ∉ library.toList)
    (hroot : rootOf? w library (sources w library) = some root)
    (layered : (surveyOf w library root).Layered library)
    {path : String} {d : Definition} {listed : List String}
    (hd : (surveyOf w library root).definitions.get? path = some d)
    (hlisted : (surveyOf w library root).bases.get? path = some listed) :
    let next := (populate w library s).2
    let own := (declaredParameters next.session.types d).names
    let survey := surveyOf w library root
    let handsOn := survey.handsOn library info.version next.session.types path d
    ∃ r, next.store.stored? library info.version = some r ∧
      (∀ base ∈ listed, ∀ parent p, survey.StandsFor library path base parent →
        r.classes.get? parent = some p → path ∈ detected w library root →
          handsOn base = p.parameters) ∧
      ∀ base ∈ listed, ∀ full target, survey.sought? path base = some full →
        survey.Offered full target → target ∈ detected w library root →
          ((survey.aliases library).get? full = none → handsOn base = ∅) ∧
          ∃ b, r.classes.get? target = some b ∧ r.find? full = some b ∧
            ((∃ c, r.classes.get? path = some c ∧ ∀ name ∈ b.parameters.names, name ∉ own →
                name ∈ c.parameters.names) ↔
              (isParameterizedRoot path (some library) = true ∨
                ∃ other ∈ listed, isParameterizedRoot other (some library) = true ∨
                  matchesParameterized (detected w library root) other = true) ∧
              ∀ name ∈ b.parameters.names, name ∉ own →
                ∃ other ∈ listed, name ∈ (handsOn other).names) := by
  intro next own survey handsOn
  obtain ⟨-, hstored⟩ := populate_stores_record ready plain hroot
  refine ⟨_, hstored, ?_, ?_⟩
  · intro base hbase parent p hstands hp hpath
    exact Survey.handsOn_of_standsFor layered (of_surveyOf plain path d hd) hpath hlisted hbase
      hstands hp
  · intro base _ full target hsought hoffered htarget
    obtain ⟨d', listed', hd', hlisted', -⟩ := exists_declared htarget
    obtain ⟨b, hb, -⟩ := Survey.get?_record info.version next.session.types htarget hd' hlisted'
    refine ⟨handsOn_of_bare named plain hsought hoffered.bare, b, hb,
      Survey.find?_record_of_offered hoffered hb, ?_⟩
    rw [Survey.takes_iff hd hlisted, mem_parameterizedClasses_iff hlisted]
    rfl

section

open Sketch

/-- A package offers a class by these imports. Two modules take it from there, one by the full name
of the package and one by a relative one, and derive a class from it. -/
def gallery (offers : List Statement) : World :=
  panelOf
    [(["layout", "__init__.py"], file offers),
     (["layout", "feed.py"], file [importsModule ["param"],
        classed "Feed" [rootBase] [declares "x" "Integer" []]]),
     (["page.py"], file [takesName ["panel", "layout"] "Feed", classed "Page" [name "Feed"] []]),
     (["side.py"], file [takesNear "." ["layout"] "Feed", classed "Side" [name "Feed"] []])]

/-- All names of a module, and the class once more. -/
def wholeOffers : List Statement := [takesEvery "." ["feed"], takesNear "." ["feed"] "Feed"]

/-- The class alone. -/
def plainOffers : List Statement := [takesNear "." ["feed"] "Feed"]

theorem sources_gallery (offers : List Statement) : sources (gallery offers) "panel" =
    [⟨true, ["site", "panel", "layout", "__init__.py"]⟩,
     ⟨true, ["site", "panel", "layout", "feed.py"]⟩,
     ⟨true, ["site", "panel", "page.py"]⟩, ⟨true, ["site", "panel", "side.py"]⟩] := by
  have hnames : (gallery offers).files.files.map Prod.fst =
      [["site", "panel", "layout", "__init__.py"], ["site", "panel", "layout", "feed.py"],
       ["site", "panel", "page.py"], ["site", "panel", "side.py"]] := rfl
  refine sources_eq_of_listed (rfl : _ = [panelRoot]) ⟨rfl, rfl⟩ (rfl : _ = some ["site", "panel"])
    ?_ (by decide) (by decide)
  rw [hnames]
  decide +kernel

end

def galleryRank (path : String) : Nat := if path = "panel.layout.feed.Feed" then 0 else 1

/-- With all names of the module offered as well, the class that is taken by a relative name
inherits. -/
theorem gallery_takes_from_whole :
    let w := gallery wholeOffers
    let next := (populate w "panel" (firstState w)).2
    ∃ r b c d, next.store.stored? "panel" "1.0" = some r ∧
      r.classes.get? "panel.layout.feed.Feed" = some b ∧
      r.classes.get? "panel.side.Side" = some c ∧
      (surveyOf w "panel" panelRoot).definitions.get? "panel.side.Side" = some d ∧
      ∀ name ∈ b.parameters.names,
        name ∉ (declaredParameters next.session.types d).names → name ∈ c.parameters.names := by
  intro w next
  have hroot : rootOf? w "panel" (sources w "panel") = some panelRoot := by
    rw [sources_gallery]
    decide +kernel
  have hclasses : detected w "panel" panelRoot =
      ["panel.layout.feed.Feed", "panel.side.Side"] := by
    rw [detected, surveyOf, sources_gallery]
    decide +kernel
  have hlayered : (surveyOf w "panel" panelRoot).Layered "panel" := by
    refine Survey.layered_of_rank galleryRank ?_
    rw [surveyOf, sources_gallery]
    decide +kernel
  have hlisted : (surveyOf w "panel" panelRoot).bases.get? "panel.side.Side" =
      some [".layout.Feed"] := by
    rw [surveyOf, sources_gallery]
    decide +kernel
  have hnames : (surveyOf w "panel" panelRoot).sought? "panel.side.Side" ".layout.Feed" =
        some "panel.layout.Feed" ∧
      (surveyOf w "panel" panelRoot).offers.names.get? "panel.layout.Feed" =
        some "panel.layout.feed.Feed" ∧
      ((surveyOf w "panel" panelRoot).aliases "panel").get? "panel.layout.Feed" =
        some "panel.layout.feed.Feed" ∧
      ((surveyOf w "panel" panelRoot).definitions.get? "panel.layout.Feed").isNone = true := by
    rw [surveyOf, sources_gallery]
    decide +kernel
  obtain ⟨hsought, hlink, halias, hnone⟩ := hnames
  have hbare := Option.isNone_iff_eq_none.mp hnone
  obtain ⟨d, hd⟩ := (holds_surveyOf w "panel" panelRoot).bases hlisted
  obtain ⟨r, hr, hhands, htakes⟩ :=
    populate_takes_nothing_from_offered_name (ready_panelOf _) (by decide) (by decide) hroot
      hlayered hd hlisted
  obtain ⟨-, b, hb, -, hiff⟩ := htakes ".layout.Feed" List.mem_cons_self _ _ hsought
    (.one hbare hlink) (by simp [hclasses])
  have hbase := hhands ".layout.Feed" List.mem_cons_self "panel.layout.feed.Feed" b
    ⟨by decide, "panel.layout.Feed", hsought, by rw [halias, Option.getD_some], .inr hbare⟩ hb
    (by simp [hclasses])
  have hmatch : matchesParameterized (detected w "panel" panelRoot) ".layout.Feed" = true := by
    rw [hclasses]
    decide
  obtain ⟨c, hc, hall⟩ := hiff.mpr ⟨.inr ⟨".layout.Feed", List.mem_cons_self, .inr hmatch⟩,
    fun name hname _ => ⟨".layout.Feed", List.mem_cons_self, hbase ▸ hname⟩⟩
  exact ⟨r, b, c, d, hr, hb, hc, hd, hall⟩

/-- The package offers the class by its name alone. Taken by the full name of the package the
derived class is not recorded, and taken by a relative name it is recorded without the parameter. -/
theorem populate_misses_offered_class :
    let w := gallery plainOffers
    let next := (populate w "panel" (firstState w)).2
    let recorded (path : String) := (next.store.stored? "panel" "1.0").bind fun r =>
      (r.classes.get? path).map (·.parameters.names)
    Ready "panel" panelInfo (firstState w) ∧
      (surveyOf w "panel" panelRoot).Layered "panel" ∧
      (surveyOf w "panel" panelRoot).offers.names.get? "panel.layout.Feed" =
        some "panel.layout.feed.Feed" ∧
      (surveyOf w "panel" panelRoot).bases.get? "panel.page.Page" = some ["panel.layout.Feed"] ∧
      (surveyOf w "panel" panelRoot).bases.get? "panel.side.Side" = some [".layout.Feed"] ∧
      (surveyOf w "panel" panelRoot).sought? "panel.side.Side" ".layout.Feed" =
        some "panel.layout.Feed" ∧
      recorded "panel.layout.feed.Feed" = some ["x"] ∧ recorded "panel.page.Page" = none ∧
      recorded "panel.side.Side" = some [] := by
  intro w next recorded
  refine ⟨ready_panelOf _, Survey.layered_of_rank galleryRank ?_, ?_⟩
  · rw [surveyOf, sources_gallery]
    decide +kernel
  · have hstart : populate w "panel" (firstState w) = populateWith w 4 "panel" panelState := by
      simp only [w, gallery, firstState_panelOf]
      rfl
    simp only [next, recorded, hstart, populateWith, populateSources, surveyOf, w, sources_gallery]
    decide +kernel

end ParamLens.Library
