import ParamLens.Proofs.Inheriting
import ParamLens.Proofs.Paths
import ParamLens.Proofs.Triples

/-! The names under which a package offers what it takes from other modules. An import binds a name
for each one that it takes, which is another name if the import gives one. The package offers what
is taken under the name that it has in its own module, so it offers the names that it binds exactly
if no import gives another name. -/

namespace ParamLens.Dotted

theorem append_inj {before before' part part' : String} (hpart : '.' ∉ part.toList)
    (hpart' : '.' ∉ part'.toList) (h : append before part = append before' part') :
    before = before' ∧ part = part' := by
  have hchars : before.toList ++ '.' :: part.toList = before'.toList ++ '.' :: part'.toList := by
    simpa [append] using congrArg String.toList h
  rcases List.append_eq_append_iff.mp hchars with ⟨rest, hbefore, hrest⟩ | ⟨rest, hbefore, hrest⟩
  · cases rest with
    | nil =>
      rw [List.append_nil] at hbefore
      exact ⟨String.toList_inj.mp hbefore.symm, String.toList_inj.mp (List.cons.inj hrest).2⟩
    | cons c rest => exact absurd (by simp [(List.cons.inj hrest).2]) hpart
  · cases rest with
    | nil =>
      rw [List.append_nil] at hbefore
      exact ⟨String.toList_inj.mp hbefore, String.toList_inj.mp (List.cons.inj hrest).2.symm⟩
    | cons c rest => exact absurd (by simp [(List.cons.inj hrest).2]) hpart'

theorem dot_notMem_last (name : String) : '.' ∉ (last name).toList := by
  rw [last, List.getLastD_eq_getLast?]
  cases h : (components name).getLast? with
  | none => exact List.not_mem_nil
  | some part => exact Imports.dot_notMem_of_mem_components (List.mem_of_getLast? h)

end ParamLens.Dotted

namespace ParamLens.Library

open Syntax Analysis
/-! ### What an import takes -/

/-- A sign, a keyword or a comment in an import. -/
def IsMark (part : Node) : Prop :=
  part.role ≠ some .moduleName ∧
    part.kind ∉ [.importKeyword, .identifier, .dottedName, .aliasedImport, .wildcardImport]

instance (part : Node) : Decidable (IsMark part) := inferInstanceAs (Decidable (_ ∧ _))

/-- The text is one name. -/
def IsName (text : String) : Prop := text ≠ "" ∧ '.' ∉ text.toList

instance (text : String) : Decidable (IsName text) := inferInstanceAs (Decidable (_ ∧ _))

/-- The nodes after the keyword `import` take these names, each together with the name that is
bound. -/
inductive Takes : List Node → List (String × String) → Prop
  | nil : Takes [] []
  | mark {part : Node} {rest : List Node} {names : List (String × String)} :
      IsMark part → Takes rest names → Takes (part :: rest) names
  | plain {part : Node} {rest : List Node} {names : List (String × String)} :
      part.kind = .dottedName → IsName part.text → Takes rest names →
        Takes (part :: rest) ((part.text, part.text) :: names)
  | renamed {part name other : Node} {rest : List Node} {names : List (String × String)} :
      part.kind = .aliasedImport → part.child? .name = some name →
        part.child? .alias = some other → IsName name.text → IsName other.text →
        Takes rest names → Takes (part :: rest) ((name.text, other.text) :: names)

/-- An import of names: its module as it is written, and the names that it takes from there, each
together with the name that it binds. -/
structure MemberImport where
  module : String
  names : List (String × String)

/-- The full name of the module of an import in a package. -/
def MemberImport.source? (i : MemberImport) (package : String) : Option String :=
  (resolveRelative? i.module package true).filter (· != "")

/-- The import as the grammar writes it. -/
inductive MemberImport.WrittenAs : MemberImport → Node → Prop
  | intro {n module keyword : Node} {before between after : List Node}
      {names : List (String × String)} :
      n.children = before ++ module :: (between ++ keyword :: after) →
      (∀ part ∈ before, IsMark part) → module.role = some .moduleName →
      module.kind = .dottedName ∨ module.kind = .relativeImport →
      (∀ part ∈ between, IsMark part) → keyword.kind = .importKeyword → Takes after names →
      WrittenAs ⟨module.text, names⟩ n

theorem IsMark.takenName?_eq_none {part : Node} (h : IsMark part) : takenName? part = none := by
  obtain ⟨-, hkind⟩ := h
  rw [takenName?]
  split <;> simp_all

namespace Takes

variable {parts : List Node} {names : List (String × String)}

theorem kind_ne (h : Takes parts names) :
    ∀ part ∈ parts, part.kind ≠ .importKeyword ∧ part.kind ≠ .wildcardImport := by
  induction h with
  | nil => simp
  | mark hmark _ ih =>
    have hkind := hmark.2
    simp only [List.mem_cons, not_or] at hkind
    exact List.forall_mem_cons.mpr ⟨⟨hkind.1, hkind.2.2.2.2.1⟩, ih⟩
  | plain hkind _ _ ih => exact List.forall_mem_cons.mpr ⟨by simp [hkind], ih⟩
  | renamed hkind _ _ _ _ _ ih => exact List.forall_mem_cons.mpr ⟨by simp [hkind], ih⟩

theorem isName (h : Takes parts names) : ∀ item ∈ names, IsName item.1 ∧ IsName item.2 := by
  induction h with
  | nil => simp
  | mark _ _ ih => exact ih
  | plain _ hname _ ih => exact List.forall_mem_cons.mpr ⟨⟨hname, hname⟩, ih⟩
  | renamed _ _ _ hname hother _ ih => exact List.forall_mem_cons.mpr ⟨⟨hname, hother⟩, ih⟩

theorem filterMap_takenName? (h : Takes parts names) :
    parts.filterMap takenName? = names.map Prod.fst := by
  induction h with
  | nil => rfl
  | mark hmark _ ih => rw [List.filterMap_cons_none hmark.takenName?_eq_none, ih]
  | @plain part _ _ hkind hname _ ih =>
    have htaken : takenName? part = some part.text := by simp [takenName?, hkind, hname.1]
    rw [List.filterMap_cons_some htaken, ih]
    rfl
  | @renamed part name _ _ _ hkind hchild _ hname _ _ ih =>
    have htaken : takenName? part = some name.text := by
      simp [takenName?, hkind, hchild, Option.filter, hname.1]
    rw [List.filterMap_cons_some htaken, ih]
    rfl

end Takes

namespace MemberImport.WrittenAs

variable {i : MemberImport} {n : Node} {package : String}

theorem takes (h : i.WrittenAs n) : Takes (afterImport n) i.names := by
  obtain @⟨_, module, keyword, before, between, after, names, hchildren, hbefore, -, hmodule,
    hbetween, hkeyword, htakes⟩ := h
  have hmark {part : Node} (hpart : IsMark part) : part.kind != .importKeyword := by
    have hkind := hpart.2
    simp only [List.mem_cons, not_or] at hkind
    simpa using hkind.1
  have hskipped : ∀ part ∈ before ++ module :: between, part.kind != .importKeyword := by
    intro part hpart
    rcases List.mem_append.mp hpart with hpart | hpart
    · exact hmark (hbefore part hpart)
    · rcases List.mem_cons.mp hpart with rfl | hpart
      · rcases hmodule with hkind | hkind <;> simp [hkind]
      · exact hmark (hbetween part hpart)
  have hafter : afterImport n = after := by
    rw [afterImport, hchildren, ← List.cons_append, ← List.append_assoc,
      List.dropWhile_append_of_pos hskipped, List.dropWhile_cons_of_neg (by simp [hkeyword]),
      List.filter_cons_of_neg (by simp [hkeyword]), List.filter_eq_self]
    exact fun part hpart => by simpa using (htakes.kind_ne part hpart).1
  rw [hafter]
  exact htakes

theorem takesAll_eq_false (h : i.WrittenAs n) : takesAll n = false := by
  rw [takesAll, List.any_eq_false]
  exact fun part hpart => by simpa using (h.takes.kind_ne part hpart).2

theorem takenNames_eq (h : i.WrittenAs n) : takenNames n = i.names.map Prod.fst :=
  h.takes.filterMap_takenName?

theorem sourceModule?_eq (h : i.WrittenAs n) : sourceModule? package n = i.source? package := by
  obtain @⟨_, module, _, before, _, _, names, hchildren, hbefore, hrole, -⟩ := h
  have hnone : before.find? (·.role == some .moduleName) = none := by
    rw [List.find?_eq_none]
    exact fun part hpart => by simpa using (hbefore part hpart).1
  have hmodule : moduleNode? n = some module := by
    rw [moduleNode?, Node.child?, hchildren, List.find?_append, hnone, Option.none_or,
      List.find?_cons_of_pos (by simp [hrole]), Option.some_or]
  rw [sourceModule?, writtenModule?, hmodule, Option.map_some, source?]
  by_cases hempty : module.text = ""
  · rw [hempty]
    rfl
  · simp [Option.filter, hempty]

end MemberImport.WrittenAs

/-! ### A package of a library -/

variable {w : World} {library package : String} {root file : Path} {tree : Node}

/-- The file makes the package and has these imports. No other file makes a package of that name, no
name is bound twice, and the packages of the library take single names or all names of a module. -/
structure PackageAt (w : World) (library : String) (root file : Path) (package : String)
    (imports : List MemberImport) : Prop where
  mem : file ∈ sources w library
  name : packageName? library root file = some package
  alone : ∀ other ∈ sources w library, packageName? library root other = some package →
    other = file
  written : ∃ tree, (w.read? file).bind w.parse? = some tree ∧
    List.Forall₂ (fun n i => MemberImport.WrittenAs i n) (memberImports w.finder tree) imports
  shaped : ∀ other ∈ sources w library, (packageName? library root other).isSome = true →
    ∀ tree ∈ (w.read? other).bind w.parse?, ∀ n ∈ memberImports w.finder tree,
      takesAll n = true ∨ ∃ i : MemberImport, i.WrittenAs n
  once : (imports.flatMap fun i => i.names.map Prod.snd).Nodup

/-- An import of the package takes the name, which has this target in its own module. -/
def TakenAs (package : String) (imports : List MemberImport) (name target : String) : Prop :=
  ∃ i ∈ imports, ∃ source ∈ i.source? package, name ∈ i.names.map Prod.fst ∧
    target = Dotted.append source name

/-- An import of the package binds the name, for this target. -/
def Binds (package : String) (imports : List MemberImport) (name target : String) : Prop :=
  ∃ i ∈ imports, ∃ source ∈ i.source? package, ∃ original, (original, name) ∈ i.names ∧
    target = Dotted.append source original

namespace PackageAt

variable {imports : List MemberImport} {name target : String}

theorem exists_import (h : PackageAt w library root file package imports) {other : Path}
    {n : Node} (hother : other ∈ sources w library)
    (hpackage : packageName? library root other = some package)
    (htree : (w.read? other).bind w.parse? = some tree) (hn : n ∈ memberImports w.finder tree) :
    ∃ i ∈ imports, i.WrittenAs n := by
  obtain rfl := h.alone other hother hpackage
  obtain ⟨tree', htree', hwritten⟩ := h.written
  obtain rfl := Option.some.inj (htree.symm.trans htree')
  exact Steps.exists_of_mem_forall₂ hwritten hn

theorem isName (h : PackageAt w library root file package imports) {i : MemberImport}
    (hi : i ∈ imports) : ∀ item ∈ i.names, IsName item.1 ∧ IsName item.2 := by
  obtain ⟨tree, -, hwritten⟩ := h.written
  obtain ⟨n, -, hn⟩ := Steps.exists_of_mem_forall₂ hwritten.flip hi
  exact hn.takes.isName

theorem takenAs_of_names (h : PackageAt w library root file package imports)
    (hname : '.' ∉ name.toList) (hget : (surveyOf w library root).offers.names.get?
      (Dotted.append package name) = some target) : TakenAs package imports name target := by
  rw [surveyOf, offers_ofFiles] at hget
  obtain ⟨other, hother, hmem⟩ := List.mem_flatMap.mp (Table.mem_of_get?_ofList hget)
  replace hother := mem_of_mem_orderBy hother
  obtain ⟨tree, package', htree, hpackage, n, hn, hentry⟩ := mem_entriesOf_iff.mp hmem
  obtain ⟨hall, source, hsource, taken, htaken, heq⟩ := mem_namesOf_iff.mp hentry
  obtain ⟨hkey, htarget⟩ := Prod.mk.inj heq
  -- Names of other packages have another path before their last dot.
  obtain ⟨i', hi'⟩ : ∃ i : MemberImport, i.WrittenAs n := by
    refine (h.shaped other hother (by rw [hpackage]; rfl) tree htree n hn).resolve_left ?_
    simp [hall]
  have hplain : '.' ∉ taken.toList := by
    rw [hi'.takenNames_eq] at htaken
    obtain ⟨item, hitem, rfl⟩ := List.mem_map.mp htaken
    exact (hi'.takes.isName item hitem).1.2
  obtain ⟨rfl, rfl⟩ := Dotted.append_inj hname hplain hkey
  obtain ⟨i, hi, hwritten⟩ := h.exists_import hother hpackage htree hn
  rw [hwritten.sourceModule?_eq] at hsource
  rw [hwritten.takenNames_eq] at htaken
  exact ⟨i, hi, source, hsource, htaken, htarget⟩

theorem aliases_eq_none (h : PackageAt w library root file package imports)
    (hname : '.' ∉ name.toList) :
    ((surveyOf w library root).aliases library).get? (Dotted.append package name) = none := by
  cases hget : ((surveyOf w library root).aliases library).get? (Dotted.append package name) with
  | none => rfl
  | some target =>
    obtain ⟨offer, hoffer, full, hkey⟩ := Survey.exists_offer_of_alias hget
    obtain ⟨hpackage, -⟩ := Dotted.append_inj hname (Dotted.dot_notMem_last full) hkey
    rw [surveyOf, offers_ofFiles] at hoffer
    obtain ⟨other, hother, hentry⟩ := List.mem_flatMap.mp hoffer
    obtain ⟨tree, package', htree, hpackage', n, hn, hwhole⟩ := mem_entriesOf_iff.mp hentry
    obtain ⟨hall, source, -, rfl⟩ := mem_wholesOf_iff.mp hwhole
    obtain rfl : package = package' := hpackage
    obtain ⟨i, -, hwritten⟩ := h.exists_import (mem_of_mem_orderBy hother) hpackage' htree hn
    rw [hwritten.takesAll_eq_false] at hall
    cases hall

theorem contains_names (h : PackageAt w library root file package imports)
    (htaken : TakenAs package imports name target) :
    (surveyOf w library root).offers.names.contains (Dotted.append package name) = true := by
  obtain ⟨i, hi, source, hsource, hname, -⟩ := htaken
  obtain ⟨tree, htree, hforall⟩ := h.written
  obtain ⟨n, hn, hwritten⟩ := Steps.exists_of_mem_forall₂ hforall.flip hi
  have hentry : (Dotted.append package name, Dotted.append source name) ∈
      entriesOf w library root namesOf file := by
    refine mem_entriesOf_iff.mpr ⟨tree, package, htree, h.name, n, hn, mem_namesOf_iff.mpr
      ⟨hwritten.takesAll_eq_false, source, ?_, name, ?_, rfl⟩⟩
    · rw [hwritten.sourceModule?_eq]
      exact hsource
    · rw [hwritten.takenNames_eq]
      exact hname
  rw [surveyOf, offers_ofFiles]
  exact (Table.contains_ofList _ _).mpr
    (List.mem_map_of_mem (List.mem_flatMap.mpr ⟨file, mem_orderBy.mpr h.mem, hentry⟩))

/-- The record has a name of the package for a target that the package takes under that name, and
it has all names that the package takes. -/
theorem aliases_record (h : PackageAt w library root file package imports) (version : String)
    (types : List String) (hname : '.' ∉ name.toList) :
    let r := (surveyOf w library root).record library version types
    (∀ target, r.aliases.get? (Dotted.append package name) = some target →
        TakenAs package imports name target) ∧
      ∀ target, TakenAs package imports name target →
        (r.aliases.get? (Dotted.append package name)).isSome = true := by
  dsimp only
  rw [Survey.get?_aliases_record, h.aliases_eq_none hname, Option.or_none]
  refine ⟨fun target => h.takenAs_of_names hname, fun target htaken => ?_⟩
  rw [← Table.contains_eq_isSome]
  exact h.contains_names htaken

theorem eq_of_bound (h : PackageAt w library root file package imports) {i j : MemberImport}
    (hi : i ∈ imports) (hj : j ∈ imports) {a b : String} (ha : (a, name) ∈ i.names)
    (hb : (b, name) ∈ j.names) : i = j ∧ a = b := by
  -- All bound names in one list, each with its import and with what it is bound for.
  let bound := imports.flatMap fun i => i.names.map fun item => (i, item)
  have hnodup : (bound.map fun x => x.2.2).Nodup := by
    simpa [bound, List.map_flatMap, Function.comp_def] using h.once
  have hmem {i : MemberImport} {item : String × String} (hi : i ∈ imports)
      (hitem : item ∈ i.names) : (i, item) ∈ bound :=
    List.mem_flatMap.mpr ⟨i, hi, List.mem_map_of_mem hitem⟩
  have heq := List.inj_on_of_nodup_map hnodup (hmem hi ha) (hmem hj hb) rfl
  simpa using heq

theorem binds_unique (h : PackageAt w library root file package imports) {target' : String}
    (hbinds : Binds package imports name target) (hbinds' : Binds package imports name target') :
    target = target' := by
  obtain ⟨i, hi, source, hsource, original, hitem, rfl⟩ := hbinds
  obtain ⟨j, hj, source', hsource', original', hitem', rfl⟩ := hbinds'
  obtain ⟨rfl, rfl⟩ := h.eq_of_bound hi hj hitem hitem'
  rw [Option.mem_def] at hsource hsource'
  rw [Option.some.inj (hsource.symm.trans hsource')]

end PackageAt

/-- The imports from known modules bind the names that they take. -/
def KeepNames (package : String) (imports : List MemberImport) : Prop :=
  ∀ i ∈ imports, (i.source? package).isSome = true → ∀ item ∈ i.names, item.2 = item.1

theorem KeepNames.binds_iff {imports : List MemberImport} {name target : String}
    (h : KeepNames package imports) :
    Binds package imports name target ↔ TakenAs package imports name target := by
  refine exists_congr fun i => and_congr_right fun hi => exists_congr fun source =>
    and_congr_right fun hsource => ?_
  have hsame := h i hi (Option.isSome_iff_exists.mpr ⟨source, hsource⟩)
  constructor
  · rintro ⟨original, hitem, rfl⟩
    obtain rfl : name = original := hsame _ hitem
    exact ⟨List.mem_map_of_mem hitem, rfl⟩
  · rintro ⟨hname, rfl⟩
    obtain ⟨⟨original, bound⟩, hitem, rfl⟩ := List.mem_map.mp hname
    obtain rfl : bound = original := hsame _ hitem
    exact ⟨bound, hitem, rfl⟩

variable {info : Info} {s : State} {imports : List MemberImport}

/-- What is stored of a package that takes names from other modules: under each name that an import
takes, the name in the module that it is taken from. So it offers exactly the names that its imports
bind, each for what it stands for, if and only if no import from a known module gives another
name. -/
theorem populate_offers_bound_names_iff (ready : Ready library info s)
    (plain : '.' ∉ library.toList) (hroot : rootOf? w library (sources w library) = some root)
    (h : PackageAt w library root file package imports) :
    ∃ r, (populate w library s).2.store.stored? library info.version = some r ∧
      (∀ name, '.' ∉ name.toList →
        (∀ target, r.aliases.get? (Dotted.append package name) = some target →
          TakenAs package imports name target) ∧
        ∀ target, TakenAs package imports name target →
          (r.aliases.get? (Dotted.append package name)).isSome = true) ∧
      ((∀ name target, '.' ∉ name.toList →
          (r.aliases.get? (Dotted.append package name) = some target ↔
            Binds package imports name target)) ↔ KeepNames package imports) := by
  obtain ⟨-, hstored⟩ := populate_stores_record ready plain hroot
  refine ⟨_, hstored, fun name hname => h.aliases_record _ _ hname, ?_⟩
  generalize (populate w library s).2.session.types = types
  constructor
  · intro hexact i hi hsource item hitem
    obtain ⟨source, hsource⟩ := Option.isSome_iff_exists.mp hsource
    obtain ⟨htaken, hbound⟩ := h.isName hi item hitem
    have hget := (hexact item.2 _ hbound.2).mpr ⟨i, hi, source, hsource, item.1, hitem, rfl⟩
    -- The target ends in the name that is taken, and in the one under which it is offered.
    obtain ⟨-, -, source', -, -, htarget⟩ := (h.aliases_record _ types hbound.2).1 _ hget
    exact (Dotted.append_inj htaken.2 hbound.2 htarget).2.symm
  · intro hkeep name target hname
    obtain ⟨hsound, hcomplete⟩ := h.aliases_record info.version types hname
    rw [hkeep.binds_iff]
    refine ⟨hsound target, fun htaken => ?_⟩
    obtain ⟨target', hget⟩ := Option.isSome_iff_exists.mp (hcomplete target htaken)
    rw [h.binds_unique (hkeep.binds_iff.mpr htaken) (hkeep.binds_iff.mpr (hsound target' hget))]
    exact hget

section Written

open Sketch

variable {own other : String} {rest items : List Sketch} {names : List (String × String)}

theorem takes_nil (p : Place) : Takes (nodesFrom p []) [] := .nil

theorem takes_taken (gap : Gap) (hname : IsName own) (hrest : ∀ p, Takes (nodesFrom p rest) names)
    (p : Place) : Takes (nodesFrom p ((taken own).behind gap :: rest)) ((own, own) :: names) := by
  let part := ((taken own).behind gap).nodeFrom p
  have htext : part.text = own := String.append_empty
  have htakes : Takes (part :: _) ((part.text, part.text) :: names) :=
    .plain rfl (by rwa [htext]) (hrest (((taken own).behind gap).after p))
  rwa [htext] at htakes

theorem takes_renamed (gap : Gap) (hname : IsName own) (hother : IsName other)
    (hrest : ∀ p, Takes (nodesFrom p rest) names) (p : Place) :
    Takes (nodesFrom p ((renamed own other).behind gap :: rest)) ((own, other) :: names) := by
  let part := ((renamed own other).behind gap).nodeFrom p
  obtain ⟨first, second, hfirst, hsecond, hown, rfl⟩ : ∃ first second,
      part.child? .name = some first ∧ part.child? .alias = some second ∧ first.text = own ∧
      second.text = other := ⟨_, _, rfl, rfl, String.append_empty, rfl⟩
  have htakes : Takes (part :: _) ((first.text, second.text) :: names) :=
    .renamed rfl hfirst hsecond (by rwa [hown]) hother
      (hrest (((renamed own second.text).behind gap).after p))
  rwa [hown] at htakes

theorem isMark_nodeFrom {text : String} (gap : Gap) (p : Place)
    (hkind : Kind.ofName text ∉
      [.importKeyword, .identifier, .dottedName, .aliasedImport, .wildcardImport]) :
    IsMark (((Sketch.mark text).behind gap).nodeFrom p) := ⟨nofun, hkind⟩

/-- An import is read as it is written. -/
theorem writtenAs_takes (gap : Gap) (dots : String) (module : List String) (items : List Sketch)
    (h : ∀ p, Takes (nodesFrom p (separated (Sketch.mark ",") (.blank 1)
      (items.map (behind (.blank 1))))) names) (p : Place) :
    MemberImport.WrittenAs ⟨(relative dots module).text, names⟩
      (((takes (relative dots module) items 0).behind gap).nodeFrom p) := by
  let first := (Sketch.mark "from").behind gap
  let source := ((relative dots module).inRole .moduleName).behind (.blank 1)
  let keyword := (Sketch.mark "import").behind (.blank 1)
  refine @MemberImport.WrittenAs.intro _ (source.nodeFrom (first.after p))
    (keyword.nodeFrom (source.after (first.after p))) [first.nodeFrom p] [] _ names rfl ?_ rfl
    (.inr rfl) (by simp) rfl (h _)
  rw [List.forall_mem_singleton]
  exact isMark_nodeFrom gap p (by decide)

end Written

section

open Sketch

/-- A package has these imports, and the library around it offers all names of the package. -/
def lounge (offers : List Statement) : World :=
  panelOf
    [(["__init__.py"], Sketch.file [takesEvery "." ["layout"]]),
     (["layout", "__init__.py"], Sketch.file offers),
     (["layout", "feed.py"], Sketch.file [importsModule ["param"],
        classed "Feed" [rootBase] [declares "x" "Integer" []], classed "Item" [rootBase] []])]

def loungeFile : Path := ⟨true, ["site", "panel", "layout", "__init__.py"]⟩

theorem sources_lounge (offers : List Statement) : sources (lounge offers) "panel" =
    [⟨true, ["site", "panel", "__init__.py"]⟩, loungeFile,
     ⟨true, ["site", "panel", "layout", "feed.py"]⟩] := by
  have hnames : (lounge offers).files.files.map Prod.fst = [["site", "panel", "__init__.py"],
      loungeFile.parts, ["site", "panel", "layout", "feed.py"]] := rfl
  refine sources_eq_of_listed (rfl : _ = [panelRoot]) ⟨rfl, rfl⟩ (rfl : _ = some ["site", "panel"])
    ?_ (by decide) (by decide)
  rw [hnames]
  decide +kernel

theorem rootOf?_lounge (offers : List Statement) :
    rootOf? (lounge offers) "panel" (sources (lounge offers) "panel") = some panelRoot := by
  rw [sources_lounge]
  rfl

theorem packageAt_lounge {offers : List Statement} {imports : List MemberImport}
    (htree : ((lounge offers).read? loungeFile).bind (lounge offers).parse? =
      some (Sketch.file offers).node)
    (hwhole : ∀ tree ∈ ((lounge offers).read? ⟨true, ["site", "panel", "__init__.py"]⟩).bind
      (lounge offers).parse?, ∀ n ∈ memberImports .inText tree, takesAll n = true)
    (hwritten : List.Forall₂ (fun n i => MemberImport.WrittenAs i n)
      (memberImports .inText (Sketch.file offers).node) imports)
    (honce : (imports.flatMap fun i => i.names.map Prod.snd).Nodup) :
    PackageAt (lounge offers) "panel" panelRoot loungeFile "panel.layout" imports where
  mem := by simp [sources_lounge]
  name := by decide +kernel
  alone := by
    rw [sources_lounge]
    decide +kernel
  written := ⟨_, htree, hwritten⟩
  shaped := by
    rw [sources_lounge]
    intro other hother hpackage tree htree' n hn
    rcases List.mem_cons.mp hother with rfl | hother
    · exact .inl (hwhole tree htree' n hn)
    rcases List.mem_cons.mp hother with rfl | hother
    · obtain rfl := Option.some.inj (htree.symm.trans htree')
      obtain ⟨i, -, hi⟩ := Steps.exists_of_mem_forall₂ hwritten hn
      exact .inr ⟨i, hi⟩
    · obtain rfl := List.mem_singleton.mp hother
      have hnone : packageName? "panel" panelRoot
        ⟨true, ["site", "panel", "layout", "feed.py"]⟩ = none := by decide +kernel
      simp [hnone] at hpackage
  once := honce

/-- The package takes two names from a module of its own, and one, under another name, from a module
above the library. -/
def mixedOffers : List Statement :=
  [takes (relative "." ["feed"]) [taken "Feed", taken "Item"],
    takes (relative "..." ["up"]) [renamed "Up" "Down"]]

/-- The package gives the class that it takes another name. -/
def renamingOffers : List Statement := [takes (relative "." ["feed"]) [renamed "Feed" "Stream"]]

end

def mixedImports : List MemberImport :=
  [⟨".feed", [("Feed", "Feed"), ("Item", "Item")]⟩, ⟨"...up", [("Up", "Down")]⟩]

theorem packageAt_mixed :
    PackageAt (lounge mixedOffers) "panel" panelRoot loungeFile "panel.layout" mixedImports := by
  refine packageAt_lounge rfl (by decide +kernel) (.cons ?_ (.cons ?_ .nil)) (by decide)
  · exact writtenAs_takes (.blank 0) "." ["feed"] [.taken "Feed", .taken "Item"]
      (takes_taken (.blank 1) (by decide) fun p => .mark (isMark_nodeFrom (.blank 0) p (by decide))
        (takes_taken (.blank 1) (by decide) takes_nil _)) _
  · exact writtenAs_takes (.line 0) "..." ["up"] [.renamed "Up" "Down"]
      (takes_renamed (.blank 1) (by decide) (by decide) takes_nil) _

/-- The package offers the two names of its own module, and not the third one, whose module is
unknown. -/
theorem populate_offers_bound_names_of_lounge :
    PackageAt (lounge mixedOffers) "panel" panelRoot loungeFile "panel.layout" mixedImports ∧
      KeepNames "panel.layout" mixedImports ∧
      ∃ r, (populate (lounge mixedOffers) "panel"
          (firstState (lounge mixedOffers))).2.store.stored? "panel" "1.0" = some r ∧
        ∀ name target, '.' ∉ name.toList →
          (r.aliases.get? (Dotted.append "panel.layout" name) = some target ↔
            Binds "panel.layout" mixedImports name target) := by
  have hkeep : KeepNames "panel.layout" mixedImports := by
    unfold KeepNames
    decide +kernel
  obtain ⟨r, hr, -, hiff⟩ := populate_offers_bound_names_iff (ready_panelOf _) (by decide)
    (rootOf?_lounge mixedOffers) packageAt_mixed
  exact ⟨packageAt_mixed, hkeep, r, hr, hiff.mpr hkeep⟩

/-- The package gives the class that it takes another name. The new name is not offered, and the
class is not found under it; it is found under the name that the package does not bind. -/
theorem populate_offers_name_before_renaming :
    let w := lounge renamingOffers
    let imports : List MemberImport := [⟨".feed", [("Feed", "Stream")]⟩]
    let next := (populate w "panel" (firstState w)).2
    let alias? (name : String) := (next.store.stored? "panel" "1.0").bind fun r =>
      r.aliases.get? name
    let found (name : String) := ((Store.find? "panel" name "1.0" next.store).1).isSome
    Ready "panel" panelInfo (firstState w) ∧
      rootOf? w "panel" (sources w "panel") = some panelRoot ∧
      PackageAt w "panel" panelRoot loungeFile "panel.layout" imports ∧
      Binds "panel.layout" imports "Stream" "panel.layout.feed.Feed" ∧
      alias? "panel.layout.Stream" = none ∧ found "panel.layout.Stream" = false ∧
      alias? "panel.layout.Feed" = some "panel.layout.feed.Feed" ∧
      found "panel.layout.Feed" = true := by
  intro w imports next alias? found
  refine ⟨ready_panelOf _, rootOf?_lounge _, ?_, ?_, ?_⟩
  · refine packageAt_lounge rfl (by decide +kernel) (.cons ?_ .nil)
      (by decide)
    exact writtenAs_takes (.blank 0) "." ["feed"] [.renamed "Feed" "Stream"]
      (takes_renamed (.blank 1) (by decide) (by decide) takes_nil) _
  · exact ⟨_, List.mem_singleton_self _, "panel.layout.feed", by decide +kernel, "Feed",
      List.mem_singleton_self _, rfl⟩
  · have hstart : populate w "panel" (firstState w) = populateWith w 4 "panel" panelState := by
      simp only [w, lounge, firstState_panelOf]
      rfl
    simp only [next, alias?, found, hstart, populateWith, populateSources, w, sources_lounge]
    decide +kernel

end ParamLens.Library
