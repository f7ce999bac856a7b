import ParamLens.Proofs.Inheriting
import ParamLens.Proofs.SingleFile

/-! A file whose classes inherit from the root and from each other only, as a module of a library.
The record of the library gives each class what it declares and, under other names, what the first
of its bases has. -/

namespace ParamLens.Library

open Syntax Analysis Relation

variable {w : World} {library : String} {root : Path}

/-! ### Every class of a source file is in the survey -/

/-- What no step undoes holds after all of them, if it holds before or one step brings it about. -/
theorem foldl_of_step {α β : Type} {P : β → Prop} {step : β → α → β}
    (keeps : ∀ b a, P b → P (step b a)) {l : List α} {b : β}
    (h : P b ∨ ∃ a ∈ l, ∀ b, P (step b a)) : P (l.foldl step b) := by
  rcases h with h | ⟨a, ha, hsets⟩
  · exact List.foldlRecOn _ _ h fun b hb a _ => keeps b a hb
  · obtain ⟨before, after, rfl⟩ := List.append_of_mem ha
    rw [List.foldl_append, List.foldl_cons]
    exact List.foldlRecOn _ _ (hsets _) fun b hb a _ => keeps b a hb

/-- The survey has a class under the full name. -/
def Survey.Defines (s : Survey) (path : String) : Prop := ∃ d, s.definitions.get? path = some d

theorem Survey.defines_addClasses {s : Survey} {file : Path} {content : String} {tree : Node}
    {path : String} (h : s.Defines path ∨ ∃ entry ∈ namedClasses w.finder tree,
      classPathIn? library root file entry.2 = some path) :
    (s.addClasses w library root file content tree).Defines path := by
  rw [Survey.addClasses]
  refine foldl_of_step (P := (Survey.Defines · path)) (fun s entry hs => ?_) (h.imp_right ?_)
  · obtain ⟨d, hd⟩ := hs
    obtain ⟨n, name⟩ := entry
    dsimp only
    split
    · exact ⟨d, hd⟩
    · next other _ =>
      by_cases heq : path = other
      · exact ⟨_, by rw [heq, Table.get?_insert_self]⟩
      · exact ⟨d, by rw [Table.get?_insert_ne _ heq, hd]⟩
  · rintro ⟨⟨n, name⟩, hmem, hpath⟩
    refine ⟨(n, name), hmem, fun s => ?_⟩
    dsimp only at hpath ⊢
    rw [hpath]
    exact ⟨_, Table.get?_insert_self _ _ _⟩

theorem Survey.defines_addFile {s : Survey} {file : Path} {path : String}
    (h : s.Defines path ∨ ∃ content tree, w.read? file = some content ∧
      w.parse? content = some tree ∧
      ∃ entry ∈ namedClasses w.finder tree, classPathIn? library root file entry.2 = some path) :
    (s.addFile w library root file).Defines path := by
  rw [Survey.addFile]
  split
  · next hread =>
    refine h.resolve_right ?_
    rintro ⟨content, tree, hread', -⟩
    cases hread.symm.trans hread'
  · next content hread =>
    split
    · next htree =>
      refine h.resolve_right ?_
      rintro ⟨content', tree, hread', htree', -⟩
      obtain rfl := Option.some.inj (hread.symm.trans hread')
      cases htree.symm.trans htree'
    · next tree htree =>
      refine Survey.defines_addClasses (h.imp id ?_)
      rintro ⟨content', tree', hread', htree', hclass⟩
      obtain rfl := Option.some.inj (hread.symm.trans hread')
      obtain rfl := Option.some.inj (htree.symm.trans htree')
      exact hclass

theorem defines_surveyOf {file : Path} {content path : String} {tree : Node}
    (hfile : file ∈ sources w library) (hread : w.read? file = some content)
    (htree : w.parse? content = some tree) {entry : Node × String}
    (hentry : entry ∈ namedClasses w.finder tree)
    (hpath : classPathIn? library root file entry.2 = some path) :
    (surveyOf w library root).Defines path := by
  rw [surveyOf]
  refine foldl_of_step (P := (Survey.Defines · path))
    (fun s file hs => Survey.defines_addFile (.inl hs)) (.inr ⟨file, mem_orderBy.mpr hfile, ?_⟩)
  exact fun s => Survey.defines_addFile (.inr ⟨content, tree, hread, htree, entry, hentry, hpath⟩)

/-! ### A module of its own -/

/-- The full name of a class of a module. -/
def classPathOf (module : String) (n : Node) : String :=
  Dotted.append module (n.className?.getD "")

/-- The full name of a base of a class of a module. -/
def basePathIn (imports : Imports) (module : String) (base : Node) : String :=
  if Dotted.isDotted base.text then base.text
  else (imports.get? base.text).getD (Dotted.append module base.text)

/-- The root as the files of a library are read: as a member it is written with the name of its
module. -/
def isRootWritten (imports : Imports) (base : Node) : Bool :=
  isRootBase imports base && (base.kind == .identifier || isParameterizedRoot base.text none)

/-- What a class declares under a name, as the files of a library are read. -/
def declaredThere (imports : Imports) (types : List String) (content : String) (n : Node)
    (name : String) : Option Parameter :=
  (byName (ownParameters ⟨imports, types⟩ imports content n)).get? name

theorem classPathOf_ne_empty (module : String) (n : Node) : classPathOf module n ≠ "" := by
  intro h
  have hlist := congrArg String.toList h
  simp [classPathOf, Dotted.append] at hlist

theorem classPathOf_inj {module : String} {nodes : List Node}
    (distinct : (nodes.filterMap Node.className?).Nodup) {m n : Node} (hm : m ∈ nodes)
    (hmnamed : m.className?.isSome = true) (hn : n ∈ nodes) (hnamed : n.className?.isSome = true)
    (h : classPathOf module m = classPathOf module n) : m = n := by
  obtain ⟨name, hname⟩ := Option.isSome_iff_exists.mp hnamed
  obtain ⟨other, hother⟩ := Option.isSome_iff_exists.mp hmnamed
  have hlist := congrArg String.toList h
  simp only [classPathOf, Dotted.append, hname, hother, Option.getD_some, String.toList_append,
    List.append_cancel_left_eq, String.toList_inj] at hlist
  exact eq_of_className distinct hm hn hother (hlist ▸ hname)

theorem isParameterizedRoot_eq {path : String} (foreign : library ≠ "param") :
    isParameterizedRoot path (some library) = isParameterizedRoot path none := by
  simp [isParameterizedRoot, foreign]

theorem isParameterizedRoot_of_first {path : String} (foreign : library ≠ "param")
    (h : Dotted.first path = library) : isParameterizedRoot path (some library) = false := by
  rw [Bool.eq_false_iff]
  intro hroot
  have hfirst : Dotted.first "param.Parameterized" = "param" ∧
      Dotted.first "param.parameterized.Parameterized" = "param" := by decide +kernel
  simp only [isParameterizedRoot, Bool.or_eq_true, Bool.and_eq_true, beq_iff_eq,
    Option.some.injEq] at hroot
  rcases hroot with (rfl | rfl) | ⟨-, heq⟩
  · exact foreign (h.symm.trans hfirst.1)
  · exact foreign (h.symm.trans hfirst.2)
  · exact foreign heq

section

variable {imports : Imports} {nodes : List Node} {n base : Node}

/-- A base is the root by a plain name, the root as a member, or a class of the module. -/
theorem basePathIn_cases (contained : SelfContained imports nodes) (module : String)
    (hn : n ∈ nodes) (hnamed : n.className?.isSome = true) (hbase : base ∈ n.bases) :
    isRootBase imports base = true ∧ namedIn? nodes base = none ∧ base.kind = .identifier ∧
        basePathIn imports module base = "param.Parameterized" ∨
      isRootBase imports base = true ∧ namedIn? nodes base = none ∧ base.kind = .attribute ∧
        Dotted.isDotted base.text = true ∧ basePathIn imports module base = base.text ∨
      isRootBase imports base = false ∧ base.kind = .identifier ∧
        ∃ m, namedIn? nodes base = some m ∧
          basePathIn imports module base = classPathOf module m := by
  have hwritten := contained.written n hn hnamed base hbase
  rcases contained.base_cases hn hnamed hbase with ⟨hroot, hnone⟩ |
    ⟨hroot, hkind, hunbound, m, hm⟩
  · rcases (contained.plain hn hnamed hbase).kind_eq with hkind | hkind
    · have hbound : imports.get? base.text = some "param.Parameterized" := by
        simpa [isRootBase, hkind] using hroot
      refine .inl ⟨hroot, hnone, hkind, ?_⟩
      rw [basePathIn, if_neg (by simp [(hwritten.1 hkind).2]), hbound, Option.getD_some]
    · obtain ⟨member, hchain, -⟩ := exists_chain_of_isRootBase hkind hroot
      have hdotted : Dotted.isDotted base.text = true := by
        rw [hwritten.2 hkind, hchain]
        simp [Dotted.isDotted, Dotted.ofComponents, Text.join]
      exact .inr (.inl ⟨hroot, hnone, hkind, hdotted, by rw [basePathIn, if_pos hdotted]⟩)
  · obtain ⟨-, -, hname⟩ := namedIn?_eq_some hm
    refine .inr (.inr ⟨hroot, hkind, m, hm, ?_⟩)
    rw [basePathIn, if_neg (by simp [(hwritten.1 hkind).2]), hunbound, Option.getD_none,
      classPathOf, hname, Option.getD_some]

end

/-! ### What is gathered along the bases -/

/-- The survey has the classes of a module as they stand in its file. Their names and the forms of
the root that they list stand for nothing else, and these forms are no names of the library. -/
structure Survey.Covers (s : Survey) (library : String) (imports : Imports) (file : Path)
    (content module : String) (nodes : List Node) : Prop where
  definitions : ∀ n ∈ nodes, n.className?.isSome = true →
    s.definitions.get? (classPathOf module n) = some ⟨n, imports, file, content⟩
  bases : ∀ n ∈ nodes, n.className?.isSome = true →
    s.bases.get? (classPathOf module n) = some (n.bases.map (basePathIn imports module))
  first : ∀ n ∈ nodes, n.className?.isSome = true → Dotted.first (classPathOf module n) = library
  absolute : ∀ n ∈ nodes, n.className?.isSome = true →
    Text.startsWith (classPathOf module n) "." = false
  unaliased : ∀ n ∈ nodes, n.className?.isSome = true →
    (s.aliases library).get? (classPathOf module n) = none
  roots : ∀ n ∈ nodes, n.className?.isSome = true → ∀ base ∈ n.bases, base.kind = .attribute →
    Foreign library base.text ∧ s.definitions.get? base.text = none ∧
      (s.aliases library).get? base.text = none

/-- What is found under the names of the classes are classes with these parameters, and nothing is
found under the forms of the root. -/
structure Tells (module : String) (nodes : List Node) (f : Node → String → Option Parameter)
    (find? : String → Option ParamClass) : Prop where
  classes : ∀ n ∈ nodes, n.className?.isSome = true → ∀ c,
    find? (classPathOf module n) = some c → ∀ asked, c.parameters.get? asked = f n asked
  roots : ∀ n ∈ nodes, n.className?.isSome = true → ∀ base ∈ n.bases, base.kind = .attribute →
    find? base.text = none

namespace Survey.Covers

variable {s : Survey} {imports : Imports} {file : Path} {content module : String}
  {nodes : List Node} {types : List String} {f : Node → String → Option Parameter}
  {find? : String → Option ParamClass} {n : Node}
  (covers : s.Covers library imports file content module nodes)
  (contained : SelfContained imports nodes) (foreign : library ≠ "param")
  (wins : FirstWins nodes (declaredThere imports types content) f)

theorem sought?_eq {name base : String} (habsolute : Text.startsWith base "." = false)
    (hne : base ≠ "") : s.sought? name base = some base := by
  rw [sought?, Ancestry.storedName?, if_neg (by simp [habsolute])]
  simp [hne]

include covers contained foreign wins

theorem get?_handed (tells : Tells module nodes f find?) (hn : n ∈ nodes)
    (hnamed : n.className?.isSome = true) {base : Node} (hbase : base ∈ n.bases) {fuel : Nat}
    {path : List String} (asked : String)
    (hgather : ∀ m, namedIn? nodes base = some m → ∀ c,
      (s.gather find? ⟨imports, types⟩ fuel (classPathOf module n :: path) (classPathOf module m)
        c).parameters.get? asked =
          (c.parameters.get? asked).or ((kin nodes m).findSome? (f · asked))) :
    (s.handed find? ⟨imports, types⟩ fuel path (classPathOf module n)
      (basePathIn imports module base)).get? asked = (namedIn? nodes base).bind (f · asked) := by
  rw [handed, covers.first n hn hnamed]
  rcases basePathIn_cases contained module hn hnamed hbase with ⟨-, hnone, -, hpath⟩ |
    ⟨-, hnone, hkind, hdotted, hpath⟩ | ⟨-, -, m, hm, hpath⟩
  · rw [hpath, hnone, if_pos (by simp [isParameterizedRoot])]
    rfl
  · rw [hpath, hnone]
    split
    · rfl
    · obtain ⟨⟨habsolute, -⟩, hundefined, -⟩ := covers.roots n hn hnamed base hbase hkind
      have hne : base.text ≠ "" := by
        intro h
        simp [h, Dotted.isDotted] at hdotted
      rw [sought?_eq habsolute hne, Option.bind_some, tells.roots n hn hnamed base hbase hkind,
        hundefined]
      rfl
  · have hkin := mem_kin.mpr ⟨base, hbase, hm⟩
    obtain ⟨hmem, hmnamed⟩ := named_of_mem_kin hkin
    rw [hpath, hm, Option.bind_some,
      isParameterizedRoot_of_first foreign (covers.first m hmem hmnamed), if_neg (by simp),
      sought?_eq (covers.absolute m hmem hmnamed) (classPathOf_ne_empty module m),
      Option.bind_some]
    cases hfind : find? (classPathOf module m) with
    | some parent => exact tells.classes m hmem hmnamed parent hfind asked
    | none =>
      dsimp only
      rw [covers.definitions m hmem hmnamed]
      dsimp only
      rw [hgather m hm, ParamClass.get?_merge, wins m hmem hmnamed asked]
      rfl

theorem findSome?_handed (tells : Tells module nodes f find?) (hn : n ∈ nodes)
    (hnamed : n.className?.isSome = true) {fuel : Nat} {path : List String} (asked : String)
    (hgather : ∀ m ∈ kin nodes n, ∀ c,
      (s.gather find? ⟨imports, types⟩ fuel (classPathOf module n :: path) (classPathOf module m)
        c).parameters.get? asked =
          (c.parameters.get? asked).or ((kin nodes m).findSome? (f · asked))) :
    ((n.bases.map (basePathIn imports module)).findSome? fun base =>
      (s.handed find? ⟨imports, types⟩ fuel path (classPathOf module n) base).get? asked) =
        (kin nodes n).findSome? (f · asked) := by
  rw [List.findSome?_map, kin, findSome?_filterMap]
  refine findSome?_congr fun base hbase => ?_
  exact covers.get?_handed contained foreign wins tells hn hnamed hbase asked fun m hm =>
    hgather m (mem_kin.mpr ⟨base, hbase, hm⟩)

/-- The names on the path are those of classes that come after the class in the hierarchy, each
once. So there are fewer than classes, and the fuel lasts. -/
theorem get?_gather (tells : Tells module nodes f find?) (hn : n ∈ nodes)
    (hnamed : n.className?.isSome = true) {fuel : Nat} {path : List String} (hnodup : path.Nodup)
    (hpath : ∀ q ∈ path, ∃ k ∈ nodes, k.className?.isSome = true ∧ q = classPathOf module k ∧
      TransGen (LocalBase nodes) n k)
    (hfuel : s.definitions.size < path.length + fuel) (c : ParamClass) (asked : String) :
    (s.gather find? ⟨imports, types⟩ fuel path (classPathOf module n) c).parameters.get? asked =
      (c.parameters.get? asked).or ((kin nodes n).findSome? (f · asked)) := by
  induction n using contained.wellFounded.induction generalizing fuel path c with
  | _ n ih =>
    have hnew : classPathOf module n ∉ path := by
      intro hmem
      obtain ⟨k, hk, hknamed, heq, hbelow⟩ := hpath _ hmem
      obtain rfl := classPathOf_inj contained.distinct hn hnamed hk hknamed heq
      exact contained.acyclic n hbelow
    have hnodup' : (classPathOf module n :: path).Nodup := List.nodup_cons.mpr ⟨hnew, hnodup⟩
    have hlength : path.length + 1 ≤ s.definitions.size := by
      refine s.definitions.length_le_size hnodup' fun q hq => ?_
      rcases List.mem_cons.mp hq with rfl | hq
      · exact Table.mem_names_of_get? (covers.definitions n hn hnamed)
      · obtain ⟨k, hk, hknamed, rfl, -⟩ := hpath q hq
        exact Table.mem_names_of_get? (covers.definitions k hk hknamed)
    obtain ⟨rest, rfl⟩ : ∃ rest, fuel = rest + 1 := ⟨fuel - 1, by omega⟩
    rw [get?_gather_succ _ _ (gathersApart _ _ _) (by simpa using hnew), covers.bases n hn hnamed,
      Option.getD_some]
    congr 1
    refine covers.findSome?_handed contained foreign wins tells hn hnamed asked fun m hm c => ?_
    obtain ⟨hmem, hmnamed⟩ := named_of_mem_kin hm
    have hlocal := localBase_of_mem_kin hm
    have hrest : s.definitions.size < (classPathOf module n :: path).length + rest := by
      rw [List.length_cons]
      omega
    refine ih m hlocal hmem hmnamed hnodup' (fun q hq => ?_) hrest c
    rcases List.mem_cons.mp hq with rfl | hq
    · exact ⟨n, hn, hnamed, rfl, .single hlocal⟩
    · obtain ⟨k, hk, hknamed, rfl, hbelow⟩ := hpath q hq
      exact ⟨k, hk, hknamed, rfl, .head hlocal hbelow⟩

theorem get?_completed (tells : Tells module nodes f find?) (hn : n ∈ nodes)
    (hnamed : n.className?.isSome = true) (asked : String) :
    (s.completed types find? (classPathOf module n) ⟨n, imports, file, content⟩).parameters.get?
      asked = f n asked := by
  rw [Survey.get?_completed find? (covers.bases n hn hnamed), wins n hn hnamed asked]
  congr 1
  refine covers.findSome?_handed contained foreign wins tells hn hnamed asked fun m hm c => ?_
  obtain ⟨hmem, hmnamed⟩ := named_of_mem_kin hm
  refine covers.get?_gather contained foreign wins tells hmem hmnamed (List.nodup_singleton _)
    (fun q hq => ?_) (by simp) c asked
  obtain rfl := List.mem_singleton.mp hq
  exact ⟨n, hn, hnamed, rfl, .single (localBase_of_mem_kin hm)⟩

omit contained foreign wins in
theorem tells_foldl_enter {paths : List String} {version : String}
    (hread : ∀ n ∈ nodes, n.className?.isSome = true → ∀ c,
      (paths.foldl (s.enter types) (s.opened library version types)).classes.get?
        (classPathOf module n) = some c → ∀ asked, c.parameters.get? asked = f n asked) :
    Tells module nodes f
      (paths.foldl (s.enter types) (s.opened library version types)).find? := by
  refine ⟨fun n hn hnamed c hc => ?_, fun n hn hnamed base hbase hkind => ?_⟩
  · refine hread n hn hnamed c ?_
    rwa [Record.find?_of_unaliased] at hc
    rw [get?_aliases_foldl_enter, covers.unaliased n hn hnamed]
  · obtain ⟨-, hundefined, hroot⟩ := covers.roots n hn hnamed base hbase hkind
    rw [Record.find?_of_unaliased (by rw [get?_aliases_foldl_enter, hroot]),
      get?_foldl_enter_of_undefined hundefined, classes_opened]
    rfl

theorem get?_foldl_enter (paths : List String) (version : String) :
    ∀ n ∈ nodes, n.className?.isSome = true → ∀ c,
      (paths.foldl (s.enter types) (s.opened library version types)).classes.get?
        (classPathOf module n) = some c → ∀ asked, c.parameters.get? asked = f n asked := by
  induction paths using List.reverseRecOn with
  | nil =>
    intro n _ _ c hc
    rw [List.foldl_nil, classes_opened] at hc
    cases hc
  | append_singleton rest path ih =>
    intro n hn hnamed c hc asked
    rw [List.foldl_append, List.foldl_cons, List.foldl_nil] at hc
    cases hd : s.definitions.get? path with
    | none =>
      simp only [enter, hd] at hc
      exact ih n hn hnamed c hc asked
    | some d =>
      rw [get?_enter hd] at hc
      split at hc
      · next heq =>
        rw [← heq, covers.definitions n hn hnamed] at hd
        obtain rfl := Option.some.inj hd
        obtain rfl := Option.some.inj hc
        rw [← heq]
        exact covers.get?_completed contained foreign wins (covers.tells_foldl_enter ih) hn hnamed
          asked
      · exact ih n hn hnamed c hc asked

theorem get?_record (version : String) (hn : n ∈ nodes) (hnamed : n.className?.isSome = true)
    {c : ParamClass}
    (hc : (s.record library version types).classes.get? (classPathOf module n) = some c)
    (asked : String) : c.parameters.get? asked = f n asked := by
  rw [record, Record.classes_setAliases] at hc
  exact covers.get?_foldl_enter contained foreign wins _ version n hn hnamed c hc asked

omit wins

theorem isSome_record_iff (version : String) (types : List String)
    (known : ∀ full ∈ parameterizedClasses library s.bases, Dotted.first full = library)
    (unmatched : ∀ n ∈ nodes, n.className?.isSome = true → ∀ base ∈ n.bases,
      ∀ full ∈ parameterizedClasses library s.bases,
        writtenMatches (basePathIn imports module base) full = true →
          full = basePathIn imports module base)
    (hn : n ∈ nodes) (hnamed : n.className?.isSome = true) :
    ((s.record library version types).classes.get? (classPathOf module n)).isSome = true ↔
      Descends (isRootWritten imports) nodes n := by
  have hrecord : ((s.record library version types).classes.get? (classPathOf module n)).isSome =
      true ↔ classPathOf module n ∈ parameterizedClasses library s.bases := by
    constructor
    · intro h
      obtain ⟨c, hc⟩ := Option.isSome_iff_exists.mp h
      exact mem_of_get?_record hc
    · intro h
      obtain ⟨c, hc, -⟩ := Survey.get?_record version types h (covers.definitions n hn hnamed)
        (covers.bases n hn hnamed)
      rw [hc]
      rfl
  rw [hrecord]
  clear hrecord
  induction n using contained.wellFounded.induction with
  | _ n ih =>
    rw [mem_parameterizedClasses_iff (covers.bases n hn hnamed), descends_iff,
      isParameterizedRoot_of_first foreign (covers.first n hn hnamed)]
    simp only [Bool.false_eq_true, false_or, List.mem_map, exists_exists_and_eq_and]
    refine exists_congr fun base => and_congr_right fun hbase => ?_
    have hmatches : matchesParameterized (parameterizedClasses library s.bases)
        (basePathIn imports module base) = true ↔
          basePathIn imports module base ∈ parameterizedClasses library s.bases := by
      rw [matchesParameterized, Bool.or_eq_true, List.contains_iff_mem, List.any_eq_true,
        or_iff_left_iff_imp]
      rintro ⟨full, hfull, hmatch⟩
      exact unmatched n hn hnamed base hbase full hfull hmatch ▸ hfull
    rw [hmatches, isParameterizedRoot_eq foreign]
    rcases basePathIn_cases contained module hn hnamed hbase with ⟨hroot, hnone, hkind, hpath⟩ |
      ⟨hroot, hnone, hkind, -, hpath⟩ | ⟨hroot, -, m, hm, hpath⟩
    · simp [hpath, isRootWritten, hroot, hkind, isParameterizedRoot]
    · have hnot : base.text ∉ parameterizedClasses library s.bases := fun h =>
        (covers.roots n hn hnamed base hbase hkind).1.2 (known _ h)
      have hkinds : (Kind.attribute == Kind.identifier) = false := rfl
      simp [hpath, isRootWritten, hroot, hkind, hkinds, hnone, hnot]
    · have hkin := mem_kin.mpr ⟨base, hbase, hm⟩
      obtain ⟨hmem, hmnamed⟩ := named_of_mem_kin hkin
      have hpathRoot := isParameterizedRoot_of_first foreign (covers.first m hmem hmnamed)
      rw [isParameterizedRoot_eq foreign] at hpathRoot
      have hiff : classPathOf module m ∈ parameterizedClasses library s.bases ↔
          Descends (isRootWritten imports) nodes m :=
        ih m (localBase_of_mem_kin hkin) hmem hmnamed
      simp [hpath, hpathRoot, hiff, isRootWritten, hroot, hm]

end Survey.Covers

/-! ### The module in its library -/

/-- The file is a source file of the library and holds the module with this name. Its classes have
their full names for themselves, no package passes them on with all names of a module, and a base of
one of them matches no other class. The root as a member is not written with the name of the
library. -/
structure ModuleOf (w : World) (library : String) (root file : Path) (content : String)
    (tree : Node) (module : String) : Prop where
  source : file ∈ sources w library
  read : w.read? file = some content
  parsed : w.parse? content = some tree
  installed : installedRootOf? w library file = some root
  named : moduleName? library root file = some module
  alone : ∀ path d listed d' listed', Declared w library root (sources w library) path d listed →
    d.file = file → Declared w library root (sources w library) path d' listed' → d'.file = file
  unaliased : ∀ path d listed, Declared w library root (sources w library) path d listed →
    d.file = file → ((surveyOf w library root).aliases library).get? path = none
  unmatched : ∀ path d listed, Declared w library root (sources w library) path d listed →
    d.file = file → ∀ base ∈ listed, ∀ full ∈ detected w library root,
      writtenMatches base full = true → full = base
  roots : ∀ n ∈ w.finder.classes tree, n.className?.isSome = true → ∀ base ∈ n.bases,
    base.kind = .attribute → Foreign library base.text

namespace ModuleOf

variable {file : Path} {content module : String} {tree n : Node}
  (part : ModuleOf w library root file content tree module)
  (contained : SelfContained (Imports.ofTree w.finder tree) (w.finder.classes tree))

include part

theorem classPathIn?_eq (name : String) :
    classPathIn? library root file name = some (Dotted.append module name) := by
  rw [classPathIn?, part.named, Option.map_some]

include contained

theorem basePaths_eq (hn : n ∈ w.finder.classes tree) (hnamed : n.className?.isSome = true) :
    basePaths w (Imports.ofTree w.finder tree) (some library) (some file)
        ((namedClasses w.finder tree).map Prod.snd) n =
      n.bases.map (basePathIn (Imports.ofTree w.finder tree) module) := by
  have hkinds : ∀ base ∈ n.bases, base.kind == .identifier || base.kind == .attribute := by
    intro base hbase
    rcases (contained.plain hn hnamed hbase).kind_eq with hkind | hkind <;> simp [hkind]
  have htexts : ∀ base ∈ n.bases, (if base.text = "" then none else some base.text) =
      some base.text := by
    intro base hbase
    refine if_neg fun hempty => ?_
    rcases basePathIn_cases contained module hn hnamed hbase with ⟨-, -, hkind, -⟩ |
      ⟨-, -, -, hdotted, -⟩ | ⟨-, hkind, -⟩
    · exact ((contained.written n hn hnamed base hbase).1 hkind).1 hempty
    · simp [hempty, Dotted.isDotted] at hdotted
    · exact ((contained.written n hn hnamed base hbase).1 hkind).1 hempty
  have hnames : baseNames n = n.bases.map Node.text := by
    rw [baseNames, List.filter_eq_self.mpr hkinds, List.filterMap_congr htexts,
      ← List.filterMap_eq_map]
    rfl
  rw [basePaths, hnames, List.map_map]
  refine List.map_congr_left fun base hbase => ?_
  rw [Function.comp_apply, basePath, basePathIn]
  have hlocal : localPath w (some library) (some file) base.text =
      Dotted.append module base.text := by
    simp [localPath, classPath?, part.installed, part.classPathIn?_eq]
  split
  · rfl
  · next hplain =>
    rw [hlocal]
    split
    · next hsibling =>
      -- The name of a class of the file is not imported.
      obtain ⟨entry, hentry, hname⟩ := List.mem_map.mp (List.contains_iff_mem.mp hsibling)
      obtain ⟨m, hm, hmentry⟩ := List.mem_filterMap.mp hentry
      obtain ⟨name, hmname, rfl⟩ := Option.map_eq_some_iff.mp hmentry
      rcases contained.base_cases hn hnamed hbase with ⟨hroot, hnone⟩ | ⟨-, -, hunbound, -⟩
      · rcases basePathIn_cases contained module hn hnamed hbase with ⟨-, -, hkind, -⟩ |
          ⟨-, -, -, hdotted, -⟩ | ⟨hnot, -⟩
        · exact absurd (hname ▸ hmname) (className?_ne_of_namedIn? hkind hnone m hm)
        · exact absurd hdotted hplain
        · cases hroot.symm.trans hnot
      · rw [hunbound, Option.getD_none]
    · cases (Imports.ofTree w.finder tree).get? base.text <;> rfl

/-- Each named class of the file is a class of the library, under the name of its module. -/
theorem declared (hn : n ∈ w.finder.classes tree) (hnamed : n.className?.isSome = true) :
    Declared w library root (sources w library) (classPathOf module n)
      ⟨n, Imports.ofTree w.finder tree, file, content⟩
      (n.bases.map (basePathIn (Imports.ofTree w.finder tree) module)) := by
  obtain ⟨name, hname⟩ := Option.isSome_iff_exists.mp hnamed
  refine ⟨part.source, part.read, tree, name, part.parsed, rfl, ?_, ?_,
    (part.basePaths_eq contained hn hnamed).symm⟩
  · exact List.mem_filterMap.mpr ⟨n, hn, by rw [hname]; rfl⟩
  · rw [part.classPathIn?_eq, classPathOf, hname, Option.getD_some]

theorem get?_surveyOf (hn : n ∈ w.finder.classes tree) (hnamed : n.className?.isSome = true) :
    (surveyOf w library root).definitions.get? (classPathOf module n) =
        some ⟨n, Imports.ofTree w.finder tree, file, content⟩ ∧
      (surveyOf w library root).bases.get? (classPathOf module n) =
        some (n.bases.map (basePathIn (Imports.ofTree w.finder tree) module)) := by
  have hdeclared := part.declared contained hn hnamed
  obtain ⟨name, hname⟩ := Option.isSome_iff_exists.mp hnamed
  have hentry : (n, name) ∈ namedClasses w.finder tree :=
    List.mem_filterMap.mpr ⟨n, hn, by rw [hname]; rfl⟩
  have hpath : classPathIn? library root file name = some (classPathOf module n) := by
    rw [part.classPathIn?_eq, classPathOf, hname, Option.getD_some]
  obtain ⟨d, hd⟩ := defines_surveyOf part.source part.read part.parsed hentry hpath
  obtain ⟨listed, hlisted, hfound⟩ := (holds_surveyOf w library root).definitions hd
  have hfile := part.alone _ _ _ d listed hdeclared rfl hfound
  obtain ⟨m, imports, file', content'⟩ := d
  obtain rfl : file' = file := hfile
  obtain ⟨-, hread, tree', name', htree, himports, hm, hpath', hbases⟩ := hfound
  obtain rfl := Option.some.inj (part.read.symm.trans hread)
  obtain rfl := Option.some.inj (part.parsed.symm.trans htree)
  obtain ⟨m', hmem, hmentry⟩ := List.mem_filterMap.mp hm
  obtain ⟨other, hother, heq⟩ := Option.map_eq_some_iff.mp hmentry
  obtain ⟨rfl, rfl⟩ := Prod.mk.inj heq
  have hmnamed : m'.className?.isSome = true := by rw [hother]; rfl
  -- The full names agree, and so the classes do.
  have hsame : classPathOf module m' = classPathOf module n := by
    rw [part.classPathIn?_eq] at hpath'
    rw [← Option.some.inj hpath', classPathOf, hother, Option.getD_some]
  obtain rfl := classPathOf_inj contained.distinct hmem hmnamed hn hnamed hsame
  obtain rfl : imports = Imports.ofTree w.finder tree := himports
  refine ⟨hd, ?_⟩
  rw [hlisted, hbases]
  exact congrArg some (part.basePaths_eq contained hn hnamed)

theorem covers (plain : '.' ∉ library.toList) (filled : library ≠ "") :
    (surveyOf w library root).Covers library (Imports.ofTree w.finder tree) file content module
      (w.finder.classes tree) where
  definitions _ hn hnamed := (part.get?_surveyOf contained hn hnamed).1
  bases _ hn hnamed := (part.get?_surveyOf contained hn hnamed).2
  first _ hn hnamed := (part.declared contained hn hnamed).first_eq plain
  absolute _ hn hnamed := (part.declared contained hn hnamed).not_relative filled plain
  unaliased _ hn hnamed := part.unaliased _ _ _ (part.declared contained hn hnamed) rfl
  roots n hn hnamed base hbase hkind := by
    have hforeign := part.roots n hn hnamed base hbase hkind
    exact ⟨hforeign, undefined_of_foreign plain hforeign, unaliased_of_foreign plain hforeign⟩

/-- What is recorded of the classes of the module: those that descend from the root are, and each of
them inherits what the first of its kin has. -/
theorem exists_record {info : Info} {s : State} (ready : Ready library info s)
    (plain : '.' ∉ library.toList) (filled : library ≠ "") (foreign : library ≠ "param")
    (hroot : rootOf? w library (sources w library) = some root) :
    let imports := Imports.ofTree w.finder tree
    let nodes := w.finder.classes tree
    let next := (populate w library s).2
    ∃ r, next.store.stored? library info.version = some r ∧
      (∀ n ∈ nodes, n.className?.isSome = true →
        ((r.classes.get? (classPathOf module n)).isSome = true ↔
          Descends (isRootWritten imports) nodes n)) ∧
      ∃ f, FirstWins nodes (declaredThere imports next.session.types content) f ∧
        ∀ n ∈ nodes, n.className?.isSome = true → ∀ c,
          r.classes.get? (classPathOf module n) = some c →
            ∀ name, c.parameters.get? name = f n name := by
  intro imports nodes next
  have covers := part.covers contained plain filled
  have known : ∀ full ∈ detected w library root, Dotted.first full = library := by
    intro full hfull
    obtain ⟨d, listed, -, -, hdeclared⟩ := exists_declared hfull
    exact hdeclared.first_eq plain
  obtain ⟨-, hstored⟩ := populate_stores_record ready plain hroot
  obtain ⟨f, first⟩ := exists_firstWins contained.acyclic
    (declaredThere imports next.session.types content)
  refine ⟨_, hstored, fun n hn hnamed => ?_, f, first, fun n hn hnamed c hc name => ?_⟩
  · refine covers.isSome_record_iff contained foreign _ _ known (fun n hn hnamed base hbase => ?_)
      hn hnamed
    exact part.unmatched _ _ _ (part.declared contained hn hnamed) rfl _ (List.mem_map_of_mem hbase)
  · exact covers.get?_record contained foreign first _ hn hnamed hc name

end ModuleOf

end ParamLens.Library
