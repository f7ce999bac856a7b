import ParamLens.Proofs.Hierarchy

/-! The loop over the classes of a file. It takes every class that has a name, once. Where names are
distinct and no class inherits from itself, the bases of a class are taken before it; and where
moreover the classes ask for nothing outside of the file but the root, what is entered does not
depend on the order in which the classes are found: it is the one solution of the equations that
give each class in terms of its bases. -/

namespace ParamLens.Analysis

open Syntax Steps
open Editor.Server (bareWorld)

/-! ### Passes without a bound -/

/-- The classes among the nodes with their names. -/
def withNames (nodes : List Node) : List (Node × String) :=
  nodes.filterMap fun n => n.className?.map fun name => (n, name)

/-- Passes over the classes left, until one takes nothing, and the order in which classes are
taken. -/
inductive Passes (defined : List (Option String)) :
    List String → List (Node × String) → List Node → Prop
  | stop {done names : List String} {left rest : List (Node × String)} :
      takeReady defined done left = ([], rest, names) → Passes defined done left (rest.map Prod.fst)
  | pass {done names : List String} {left rest : List (Node × String)} {taken order : List Node} :
      takeReady defined done left = (taken, rest, names) → taken ≠ [] →
      Passes defined names rest order → Passes defined done left (taken ++ order)

section

variable {defined : List (Option String)} {done : List String} {left : List (Node × String)}

theorem passes_takeAll {fuel : Nat} (h : left.length ≤ fuel) :
    Passes defined done left (takeAll defined fuel done left) := by
  induction fuel generalizing done left with
  | zero =>
    obtain rfl := List.length_eq_zero_iff.mp (Nat.le_zero.mp h)
    exact .stop rfl
  | succ fuel ih =>
    have hperm := takeReady_perm defined done left
    rw [takeAll]
    split
    · next rest names heq => exact .stop heq
    · next taken rest names htaken heq =>
      refine .pass heq htaken (ih ?_)
      have hlength := hperm.length_eq
      have hpos : 0 < taken.length := List.length_pos_iff.mpr htaken
      rw [heq] at hlength
      simp only [List.length_append, List.length_map] at hlength
      omega

theorem Passes.unique {order order' : List Node} (h : Passes defined done left order)
    (h' : Passes defined done left order') : order = order' := by
  induction h generalizing order' with
  | stop heq =>
    cases h' with
    | stop heq' =>
      rw [heq] at heq'
      cases heq'
      rfl
    | pass heq' hne _ =>
      rw [heq] at heq'
      cases heq'
      exact absurd rfl hne
  | pass heq hne _ ih =>
    cases h' with
    | stop heq' =>
      rw [heq] at heq'
      cases heq'
      exact absurd rfl hne
    | pass heq' _ hrest =>
      rw [heq] at heq'
      cases heq'
      rw [ih hrest]

/-- The passes over the classes come to an end, in one way. -/
theorem passes_iff (nodes : List Node) (order : List Node) :
    Passes (nodes.map Node.nameText?) [] (withNames nodes) order ↔ order = classOrder nodes := by
  have hpasses : Passes (nodes.map Node.nameText?) [] (withNames nodes) (classOrder nodes) :=
    passes_takeAll (Nat.le_refl _)
  exact ⟨fun h => h.unique hpasses, fun h => h ▸ hpasses⟩

end

/-- The bases of a class in the file come before it. -/
def BasesFirst (nodes order : List Node) : Prop :=
  ∀ before n after, order = before ++ n :: after → ∀ m, LocalBase nodes m n → m ∈ before

theorem basesFirst_classOrder {nodes : List Node} (acyclic : Acyclic (LocalBase nodes))
    (awaits : AwaitsNamed nodes) (distinct : (nodes.filterMap Node.className?).Nodup) :
    BasesFirst nodes (classOrder nodes) := by
  intro before n after horder m hm
  have hpairwise := classOrder_pairwise acyclic awaits distinct
  have hmem : m ∈ classOrder nodes := by
    obtain ⟨hmem, base, -, -, hname⟩ := hm
    exact mem_classOrder.mpr ⟨hmem, by rw [hname]; rfl⟩
  rw [horder] at hmem hpairwise
  rcases List.mem_append.mp hmem with hbefore | hrest
  · exact hbefore
  · rcases List.mem_cons.mp hrest with rfl | hafter
    · exact absurd (.single hm) (acyclic m)
    · have hrest := (List.pairwise_append.mp hpairwise).2.1
      exact absurd hm ((List.pairwise_cons.mp hrest).1 m hafter)

/-! ### What is entered for a class -/

/-- The base is the root or a plain name that is not imported. -/
def PlainBase (imports : Imports) (base : Node) : Prop :=
  isRootBase imports base = true ∨ base.kind = .identifier ∧ imports.get? base.text = none

instance (imports : Imports) (base : Node) : Decidable (PlainBase imports base) :=
  inferInstanceAs (Decidable (_ ∨ _))

theorem PlainBase.kind_eq {imports : Imports} {base : Node} (h : PlainBase imports base) :
    base.kind = .identifier ∨ base.kind = .attribute := by
  rcases h with hroot | ⟨hkind, -⟩
  · unfold isRootBase at hroot
    split at hroot
    · next hkind => exact .inl hkind
    · next hkind => exact .inr hkind
    · cases hroot
  · exact .inl hkind

/-- The classes that plain names find: those that are entered, and for a name of the root the class
`outer` that its module has under that name. -/
def look (imports : Imports) (outer : Option ParamClass) (classes : Classes) (name : String) :
    Option ParamClass :=
  (classes.named? name).or
    (if imports.get? name = some "param.Parameterized" then outer else none)

/-- A base makes a class one with parameters, where plain names find classes. -/
def passes (imports : Imports) (find : String → Option ParamClass) (base : Node) : Bool :=
  match base.kind with
  | .identifier =>
    base.text != "" && (isBoundRoot imports base.text || (find base.text).isSome)
  | .attribute => isMemberRoot imports base.chain
  | _ => false

/-- The class that a base brings, where plain names find classes. -/
def bringsBy (find : String → Option ParamClass) (base : Node) : Option ParamClass :=
  if base.kind = .identifier ∧ base.text ≠ "" then find base.text else none

/-- The class that is entered for a node, where plain names find classes. -/
def entered? (imports : Imports) (types : List String) (content : String)
    (find : String → Option ParamClass) (n : Node) : Option ParamClass :=
  n.className?.bind fun name =>
    if n.bases.any (passes imports find) then
      some (built name ((n.bases.map (bringsBy find)).foldl lay ∅)
        (Declaration.parameters ⟨imports, types⟩ content n))
    else none

theorem className?_of_entered? {imports : Imports} {types : List String} {content : String}
    {find : String → Option ParamClass} {n : Node} {c : ParamClass}
    (h : entered? imports types content find n = some c) : n.className? = some c.name := by
  obtain ⟨name, hname, hentered⟩ := Option.bind_eq_some_iff.mp h
  split at hentered
  · obtain rfl := Option.some.inj hentered
    rw [name_built, hname]
  · cases hentered

theorem entered?_congr {imports : Imports} {types : List String} {content : String} {n : Node}
    {find find' : String → Option ParamClass}
    (h : ∀ base ∈ n.bases, base.kind = .identifier → find base.text = find' base.text) :
    entered? imports types content find n = entered? imports types content find' n := by
  have hpasses : ∀ base ∈ n.bases, passes imports find base = passes imports find' base := by
    intro base hbase
    unfold passes
    split
    · next hkind => rw [h base hbase hkind]
    · rfl
    · rfl
  have hbrings : n.bases.map (bringsBy find) = n.bases.map (bringsBy find') := by
    refine List.map_congr_left fun base hbase => ?_
    unfold bringsBy
    split
    · next hplain => exact h base hbase hplain.1
    · rfl
  have hany : n.bases.any (passes imports find) = n.bases.any (passes imports find') := by
    rw [Bool.eq_iff_iff, List.any_eq_true, List.any_eq_true]
    constructor
    · rintro ⟨base, hbase, htest⟩
      exact ⟨base, hbase, hpasses base hbase ▸ htest⟩
    · rintro ⟨base, hbase, htest⟩
      exact ⟨base, hbase, (hpasses base hbase).symm ▸ htest⟩
  rw [entered?, entered?, hbrings, hany]

section

variable (imports : Imports) (types : List String) (content : String) (outer : Option ParamClass)

/-- The classes after one more node. -/
def enter (classes : Classes) (n : Node) : Classes :=
  match entered? imports types content (look imports outer classes) n with
  | some c => classes.insert (Classes.key c.name n.row) c
  | none => classes

/-- The classes entered for the nodes satisfy the equations that give each class in terms of the
others. -/
structure Solves (nodes : List Node) (classes : Classes) : Prop where
  keyed : KeyedBy nodes classes
  get?_key : ∀ n ∈ nodes, ∀ name, n.className? = some name →
    classes.get? (Classes.key name n.row) =
      entered? imports types content (look imports outer classes) n

end

section

variable {imports : Imports} {types : List String} {content : String} {outer : Option ParamClass}
  {nodes : List Node} {classes : Classes}

theorem look_eq_of_named? {other : Classes} {name : String}
    (h : classes.named? name = other.named? name) :
    look imports outer classes name = look imports outer other name := by
  rw [look, look, h]

theorem KeyedBy.enter {done : List Node} (keyed : KeyedBy done classes) (n : Node) :
    KeyedBy (done ++ [n]) (enter imports types content outer classes n) := by
  intro key c hget
  have hold : classes.get? key = some c → ∃ m ∈ done ++ [n], ∃ name,
      m.className? = some name ∧ key = Classes.key name m.row := fun h => by
    obtain ⟨m, hm, hrest⟩ := keyed key c h
    exact ⟨m, List.mem_append_left _ hm, hrest⟩
  unfold Analysis.enter at hget
  split at hget
  · next new hnew =>
    rw [Table.get?_insert] at hget
    split at hget
    · next hkey => exact ⟨n, by simp, _, className?_of_entered? hnew, hkey⟩
    · exact hold hget
  · exact hold hget

theorem named?_enter {n : Node} (hcolon : ∀ name ∈ n.className?, ':' ∉ name.toList)
    {name : String} (h : n.className? ≠ some name) :
    (enter imports types content outer classes n).named? name = classes.named? name := by
  unfold enter
  split
  · next c hc =>
    have hname := className?_of_entered? hc
    refine named?_insert_ne (hcolon c.name hname) (fun heq => h ?_) n.row c
    rw [hname, heq]
  · rfl

/-- One more class, whose bases among the nodes are done, keeps the equations. -/
theorem Solves.enter {done : List Node} {n : Node} (colonFree : ColonFree (done ++ [n]))
    (distinct : ((done ++ [n]).filterMap Node.className?).Nodup)
    (hdone : ∀ m ∈ done, ∀ base ∈ m.bases, base.kind = .identifier →
      n.className? ≠ some base.text)
    (hself : ∀ base ∈ n.bases, base.kind = .identifier → n.className? ≠ some base.text)
    (solves : Solves imports types content outer done classes) :
    Solves imports types content outer (done ++ [n])
      (enter imports types content outer classes n) := by
  have hn : n ∈ done ++ [n] := by simp
  have hlook {name : String} (h : n.className? ≠ some name) :
      look imports outer (Analysis.enter imports types content outer classes n) name =
        look imports outer classes name :=
    look_eq_of_named? (named?_enter (colonFree n hn) h)
  refine ⟨solves.keyed.enter n, fun m hm name hname => ?_⟩
  rcases List.mem_append.mp hm with hmdone | hmn
  · -- The key of a class that is done is not that of the new one, nor is a base of it.
    have hne : n.className? ≠ some name := by
      intro hnname
      rw [List.filterMap_append, List.nodup_append] at distinct
      refine distinct.2.2 name (List.mem_filterMap.mpr ⟨m, hmdone, hname⟩) name ?_ rfl
      simp [hnname]
    rw [entered?_congr fun base hbase hkind => hlook (hdone m hmdone base hbase hkind),
      ← solves.get?_key m hmdone name hname]
    unfold Analysis.enter
    split
    · next c hc =>
      rw [Table.get?_insert, if_neg]
      intro hkey
      have hcname := className?_of_entered? hc
      exact hne (hcname.trans (congrArg some (colonFree.key_eq hm hn hname hcname hkey).symm))
    · rfl
  · obtain rfl := List.mem_singleton.mp hmn
    rw [entered?_congr fun base hbase hkind => hlook (hself base hbase hkind)]
    unfold Analysis.enter
    split
    · next c hc =>
      obtain rfl := Option.some.inj ((className?_of_entered? hc).symm.trans hname)
      rw [hc, Table.get?_insert, if_pos rfl]
    · next hnone =>
      -- Nothing was entered for the class, and nothing stood under its key.
      rw [hnone]
      cases hget : classes.get? (Classes.key name m.row) with
      | none => rfl
      | some c =>
        obtain ⟨other, hother, otherName, hotherName, hkey⟩ := solves.keyed _ c hget
        obtain rfl := colonFree.key_eq hm (List.mem_append_left _ hother) hname hotherName hkey
        rw [List.filterMap_append, List.nodup_append] at distinct
        refine absurd rfl (distinct.2.2 name (List.mem_filterMap.mpr ⟨other, hother, hotherName⟩)
          name ?_)
        simp [hname]

theorem solves_foldl_enter {order : List Node} (colonFree : ColonFree order)
    (distinct : (order.filterMap Node.className?).Nodup) (acyclic : Acyclic (LocalBase nodes))
    (hsub : ∀ n ∈ order, n ∈ nodes) (first : BasesFirst nodes order) :
    Solves imports types content outer order
      (order.foldl (enter imports types content outer) ∅) := by
  have hrun : ∀ rest done, order = done ++ rest → ∀ classes,
      Solves imports types content outer done classes →
      Solves imports types content outer order
        (rest.foldl (enter imports types content outer) classes) := by
    intro rest
    induction rest with
    | nil =>
      intro done hdone classes solves
      rw [List.append_nil] at hdone
      exact hdone ▸ solves
    | cons n rest ih =>
      intro done horder classes solves
      have hsnoc : order = (done ++ [n]) ++ rest := by
        rw [horder, List.append_assoc, List.singleton_append]
      have hn : n ∈ order := by rw [horder]; simp
      have hnodup : ((done ++ [n]).filterMap Node.className?).Nodup := by
        rw [hsnoc, List.filterMap_append] at distinct
        exact (List.nodup_append.mp distinct).1
      refine ih (done ++ [n]) hsnoc _ (solves.enter ?_ hnodup ?_ ?_)
      · exact fun m hm => colonFree m (hsnoc ▸ List.mem_append_left rest hm)
      · intro m hm base hbase hkind hname
        -- The class would come before one that is done.
        obtain ⟨before, after, rfl⟩ := List.append_of_mem hm
        have hbefore := first before m (after ++ n :: rest) (by rw [horder]; simp) n
          ⟨hsub n hn, base, hbase, hkind, hname⟩
        rw [List.filterMap_append, List.nodup_append] at hnodup
        refine hnodup.2.2 base.text
          (List.mem_filterMap.mpr ⟨n, List.mem_append_left _ hbefore, hname⟩) base.text ?_ rfl
        simp [hname]
      · intro base hbase hkind hname
        exact acyclic n (.single ⟨hsub n hn, base, hbase, hkind, hname⟩)
  refine hrun order [] rfl ∅ ⟨?_, ?_⟩
  · intro key c h
    cases h
  · intro n hn
    cases hn

theorem Solves.unique {other : Classes} (colonFree : ColonFree nodes)
    (distinct : (nodes.filterMap Node.className?).Nodup) (acyclic : Acyclic (LocalBase nodes))
    (solves : Solves imports types content outer nodes classes)
    (solves' : Solves imports types content outer nodes other) (key : String) :
    classes.get? key = other.get? key := by
  have hwf := acyclic.wellFounded fun m n (h : LocalBase nodes m n) => h.1
  have hclass : ∀ n ∈ nodes, ∀ name, n.className? = some name →
      classes.get? (Classes.key name n.row) = other.get? (Classes.key name n.row) := by
    intro n
    induction n using hwf.induction with
    | _ n ih =>
      intro hn name hname
      rw [solves.get?_key n hn name hname, solves'.get?_key n hn name hname]
      refine entered?_congr fun base hbase hkind => look_eq_of_named? ?_
      by_cases hlocal : ∃ m ∈ nodes, m.className? = some base.text
      · obtain ⟨m, hm, hmname⟩ := hlocal
        rw [solves.keyed.named?_eq colonFree distinct hm hmname,
          solves'.keyed.named?_eq colonFree distinct hm hmname]
        exact ih m ⟨hm, base, hbase, hkind, hmname⟩ hm base.text hmname
      · have hnone : ∀ m ∈ nodes, m.className? ≠ some base.text :=
          fun m hm hmname => hlocal ⟨m, hm, hmname⟩
        rw [solves.keyed.named?_eq_none colonFree hnone,
          solves'.keyed.named?_eq_none colonFree hnone]
  by_cases hkey : ∃ n ∈ nodes, ∃ name, n.className? = some name ∧ key = Classes.key name n.row
  · obtain ⟨n, hn, name, hname, rfl⟩ := hkey
    exact hclass n hn name hname
  · have hnone {t : Classes} (keyed : KeyedBy nodes t) : t.get? key = none := by
      cases hget : t.get? key with
      | none => rfl
      | some c => exact absurd (keyed key c hget) hkey
    rw [hnone solves.keyed, hnone solves'.keyed]

/-- The equations do not depend on the order of the nodes, nor on those without a name. -/
theorem Solves.of_mem_iff {others : List Node}
    (h : ∀ n, n.className?.isSome = true → (n ∈ nodes ↔ n ∈ others))
    (solves : Solves imports types content outer nodes classes) :
    Solves imports types content outer others classes := by
  refine ⟨fun key c hget => ?_, fun n hn name hname => ?_⟩
  · obtain ⟨n, hn, name, hname, hkey⟩ := solves.keyed key c hget
    exact ⟨n, (h n (by rw [hname]; rfl)).mp hn, name, hname, hkey⟩
  · exact solves.get?_key n ((h n (by rw [hname]; rfl)).mpr hn) name hname

end

/-! ### The run of the loop -/

/-- Takes the classes among the nodes, one after another. -/
def takeClasses (importer : Importer) (w : World) (content : String) (current : Option Path)
    (nodes : List Node) : AnalysisM Unit := do
  for n in classOrder nodes do
    takeClass importer w content current n

theorem prepare_eq_takeClasses (importer : Importer) (w : World) (content : String)
    (current : Option Path) (root : Node) :
    prepare importer w content current root =
      (do
        takeClasses importer w content current (w.finder.classes root)
        discover w root) := by
  simp only [prepare, takeClasses, bind_assoc, pure_bind]

/-- A class among the nodes asks for the root by a name under which it is imported. -/
def AsksForRoot (imports : Imports) (nodes : List Node) : Prop :=
  ∃ n ∈ nodes, n.className?.isSome = true ∧ ∃ base ∈ n.bases, base.kind = .identifier ∧
    imports.get? base.text = some "param.Parameterized"

/-- The property of states stays when classes are entered and when the module of the root is asked
for, which comes to the same class each time. -/
structure ServesRoot (P : AnalysisState → Prop) (importer : Importer) (w : World)
    (current : Option Path) (types : List String) (outer : Option ParamClass) (asked : Prop) :
    Prop where
  types {s : AnalysisState} : P s → s.analyzer.types = types
  change {s : AnalysisState} (latest : Analysis) : P s →
    P { s with analyzer := { s.analyzer with latest := latest } }
  module (latest : Analysis) : asked →
    Triple (Stands P latest) (importedModule importer w "param" current)
      (fun a s => a.classes.named? "Parameterized" = outer ∧ Stands P latest s) fun _ _ => False

section

variable {P : AnalysisState → Prop} {importer : Importer} {w : World} {current : Option Path}
  {types : List String} {outer : Option ParamClass} {asked : Prop} {latest : Analysis}
  (serves : ServesRoot P importer w current types outer asked)

include serves

/-- A plain name that is not imported brings nothing from outside, and a name of the root brings
what its module has. -/
theorem triple_importedClass_plain {base : Node} (hkind : base.kind = .identifier)
    (plain : PlainBase latest.imports base)
    (hasked : latest.imports.get? base.text = some "param.Parameterized" → asked) :
    Triple (Stands P latest) (importedClass importer w base.text base.text current)
      (fun c s => c = (if latest.imports.get? base.text = some "param.Parameterized" then outer
        else none) ∧ Stands P latest s) fun _ _ => False := by
  refine Triple.get_bind fun s hs => ?_
  rw [hs.2]
  rcases plain with hroot | ⟨-, hnone⟩
  · have hbound : latest.imports.get? base.text = some "param.Parameterized" := by
      simpa [isRootBase, hkind] using hroot
    have hfilter : (some "param.Parameterized").filter (· != "") = some "param.Parameterized" := by
      decide
    have hdotted : Dotted.isDotted "param.Parameterized" = true := by decide +kernel
    have hparent : Dotted.parent "param.Parameterized" = "param" := by decide +kernel
    have hlast : Dotted.last "param.Parameterized" = "Parameterized" := by decide +kernel
    simp only [hbound, hfilter, hdotted, if_true, hparent, hlast]
    exact (serves.module latest (hasked hbound)).bind fun a => Triple.pure fun s hs => hs
  · simp only [hnone, Option.filter_none]
    exact Triple.pure fun s hs => ⟨by simp, hs⟩

theorem triple_isParameterizedBase_plain {base : Node} (plain : PlainBase latest.imports base)
    (hasked : base.kind = .identifier →
      latest.imports.get? base.text = some "param.Parameterized" → asked) :
    Triple (Stands P latest)
      (isParameterizedBase (outside importer w current) latest.imports latest.classes base)
      (fun b s => passes latest.imports (look latest.imports outer latest.classes) base = b ∧
        Stands P latest s) fun _ _ => False := by
  rw [isParameterizedBase]
  split
  · next hkind =>
    simp only [passes, hkind]
    by_cases htext : base.text = ""
    · rw [if_pos htext]
      exact Triple.pure fun s hs => ⟨by simp [htext], hs⟩
    · rw [if_neg htext]
      have hfound : (latest.classes.keyOf? base.text).isSome =
          (latest.classes.named? base.text).isSome := by
        simp [Classes.keyOf?, Classes.named?]
      split
      · next hknown =>
        refine Triple.pure fun s hs => ⟨?_, hs⟩
        rw [hfound] at hknown
        cases hbound : isBoundRoot latest.imports base.text with
        | true => simp [htext]
        | false =>
          rw [hbound, Bool.false_or] at hknown
          obtain ⟨c, hc⟩ := Option.isSome_iff_exists.mp hknown
          simp [htext, look, hc]
      · next hnew =>
        rw [hfound] at hnew
        obtain ⟨hroot, hnone⟩ := Bool.or_eq_false_iff.mp (Bool.eq_false_iff.mpr hnew)
        have hnamed : latest.classes.named? base.text = none := by simpa using hnone
        refine (triple_importedClass_plain serves hkind plain (hasked hkind)).bind fun c => ?_
        refine Triple.pure fun s hs => ⟨?_, hs.2⟩
        simp [htext, hroot, look, hnamed, hs.1]
  · next hkind =>
    simp only [passes, hkind]
    -- An attribute that is plain is the root.
    have hroot : isRootBase latest.imports base = true :=
      plain.resolve_right fun h => by simp [hkind] at h
    obtain ⟨hlength, hmember⟩ := isMemberRoot_of_isRootBase hkind hroot
    rw [if_neg (by omega), if_pos hmember]
    exact Triple.pure fun s hs => ⟨hmember, hs⟩
  · next hname hmember =>
    refine Triple.pure fun s hs => ⟨?_, hs⟩
    unfold passes
    split
    · contradiction
    · contradiction
    · rfl

theorem triple_baseClass?_plain {base : Node} (plain : PlainBase latest.imports base)
    (hasked : base.kind = .identifier →
      latest.imports.get? base.text = some "param.Parameterized" → asked) :
    Triple (Stands P latest)
      (baseClass? (outside importer w current) latest.imports latest.classes base)
      (fun c s => bringsBy (look latest.imports outer latest.classes) base = c ∧
        Stands P latest s) fun _ _ => False := by
  rcases plain.kind_eq with hkind | hkind
  · simp only [baseClass?, bringsBy, hkind, true_and]
    by_cases htext : base.text = ""
    · rw [if_pos htext, if_neg (by simp [htext])]
      exact Triple.pure fun s hs => ⟨rfl, hs⟩
    · rw [if_neg htext, if_pos htext]
      cases hnamed : latest.classes.named? base.text with
      | some c => exact Triple.pure fun s hs => ⟨by simp [look, hnamed], hs⟩
      | none =>
        refine (triple_importedClass_plain serves hkind plain (hasked hkind)).weaken
          (fun s hs => hs) fun c s hs => ⟨?_, hs.2⟩
        rw [look, hnamed, hs.1, Option.none_or]
  · have hroot : isRootBase latest.imports base = true :=
      plain.resolve_right fun h => by simp [hkind] at h
    simp only [baseClass?, hkind, if_pos (classPath?_of_isRootBase hkind hroot)]
    exact Triple.pure fun s hs => ⟨by simp [bringsBy, hkind], hs⟩

/-- A named class with plain bases is entered as its bases say. -/
theorem triple_takeClass_plain (content : String) {n : Node} (hnamed : n.className?.isSome = true)
    (plain : ∀ base ∈ n.bases, PlainBase latest.imports base)
    (hasked : ∀ base ∈ n.bases, base.kind = .identifier →
      latest.imports.get? base.text = some "param.Parameterized" → asked) :
    Triple (Stands P latest) (takeClass importer w content current n)
      (fun _ s => Stands P { latest with
        classes := enter latest.imports types content outer latest.classes n } s)
      fun _ _ => False := by
  have hany := Triple.anyM (P := Stands P latest) (E := fun _ _ => False)
    (T := fun base b => passes latest.imports (look latest.imports outer latest.classes) base = b)
    (l := n.bases) (f := fun base => do
      let latest := (← get).analyzer.latest
      isParameterizedBase (outside importer w current) latest.imports latest.classes base)
    fun base hbase => Triple.get_bind fun s hs => by
      rw [hs.2]
      exact triple_isParameterizedBase_plain serves (plain base hbase) (hasked base hbase)
  refine hany.bind fun found => ?_
  obtain ⟨name, hname⟩ := Option.isSome_iff_exists.mp hnamed
  rw [hname]
  cases found with
  | false =>
    refine Triple.of_and fun hnone => Triple.pure fun s hs => ?_
    have hentered : entered? latest.imports types content
        (look latest.imports outer latest.classes) n = none := by
      rw [entered?, hname, Option.bind_some, if_neg]
      rw [List.any_eq_true]
      rintro ⟨base, hbase, hpasses⟩
      exact Bool.false_ne_true ((hnone base hbase).symm.trans hpasses)
    simp only [enter, hentered]
    exact hs
  | true =>
    refine Triple.of_and fun hsome => Triple.get_bind fun s hs => ?_
    rw [hs.2]
    have hinherited : Triple (Stands P latest)
        (inheritedParameters (outside importer w current) latest.imports latest.classes n)
        (fun found s => found = (n.bases.map
          (bringsBy (look latest.imports outer latest.classes))).foldl lay ∅ ∧
          Stands P latest s) fun _ _ => False := by
      refine (Triple.foldlM (T := fun base c =>
        bringsBy (look latest.imports outer latest.classes) base = c) (g := lay)
        (fun found base hbase => ?_) ∅).weaken (fun s hs => hs) ?_
      · refine (triple_baseClass?_plain serves (plain base hbase) (hasked base hbase)).bind
          fun c => ?_
        cases c with
        | none => exact Triple.pure fun s hs => ⟨⟨none, hs.1, rfl⟩, hs.2⟩
        | some c => exact Triple.pure fun s hs => ⟨⟨some c, hs.1, rfl⟩, hs.2⟩
      · rintro found s ⟨⟨cs, hcs, rfl⟩, hs⟩
        have hbrought := List.forall₂_map_left_iff.mpr hcs
        rw [List.forall₂_eq_eq_eq] at hbrought
        exact ⟨by rw [hbrought], hs⟩
    refine hinherited.bind fun inherited => Triple.of_and ?_
    rintro rfl
    refine Triple.get_bind fun s hs => Triple.modify fun s' hs' => ⟨serves.change _ hs'.1, ?_⟩
    have hentered : entered? latest.imports types content
        (look latest.imports outer latest.classes) n = some (built name
          ((n.bases.map (bringsBy (look latest.imports outer latest.classes))).foldl lay ∅)
          (Declaration.parameters (recognition s.analyzer) content n)) := by
      rw [entered?, hname, Option.bind_some, if_pos, recognition, hs.2, serves.types hs.1]
      exact List.any_eq_true.mpr hsome
    simp only [enter, hentered, name_built]
    show Analysis.mk _ _ _ = Analysis.mk _ _ _
    rw [hs'.2]
    rfl

theorem triple_takeClasses_plain (content : String) {nodes : List Node} {imports : Imports}
    (plain : ∀ n ∈ nodes, n.className?.isSome = true → ∀ base ∈ n.bases, PlainBase imports base)
    (hasked : AsksForRoot imports nodes → asked) :
    Triple (Stands P ⟨∅, imports, []⟩) (takeClasses importer w content current nodes)
      (fun _ => Stands P ⟨(classOrder nodes).foldl (enter imports types content outer) ∅,
        imports, []⟩) fun _ _ => False := by
  have hloop : ∀ order : List Node, (∀ n ∈ order, n ∈ nodes ∧ n.className?.isSome = true) →
      ∀ classes : Classes,
      Triple (Stands P ⟨classes, imports, []⟩)
        (forIn order PUnit.unit fun n _ => do
          takeClass importer w content current n
          pure (ForInStep.yield PUnit.unit))
        (fun _ => Stands P ⟨order.foldl (enter imports types content outer) classes, imports, []⟩)
        fun _ _ => False := by
    intro order
    induction order with
    | nil => exact fun _ classes => Triple.pure fun s hs => hs
    | cons n rest ih =>
      intro hmem classes
      obtain ⟨hn, hnamed⟩ := hmem n List.mem_cons_self
      rw [List.forIn_cons]
      have hplain : ∀ base ∈ n.bases, PlainBase (Analysis.mk classes imports []).imports base :=
        plain n hn hnamed
      have hstep := triple_takeClass_plain serves content hnamed hplain
        fun base hbase hkind hbound => hasked ⟨n, hn, hnamed, base, hbase, hkind, hbound⟩
      refine Triple.bind (Q := fun step s => step = ForInStep.yield PUnit.unit ∧
        Stands P ⟨enter imports types content outer classes n, imports, []⟩ s)
        (hstep.bind fun _ => Triple.pure fun s hs => ⟨rfl, hs⟩) fun step => Triple.of_and ?_
      rintro rfl
      exact ih (fun m hm => hmem m (List.mem_cons_of_mem _ hm)) _
  exact (hloop (classOrder nodes) (fun n hn => mem_classOrder.mp hn) ∅).bind fun _ =>
    Triple.pure fun s hs => hs

end

/-! ### One question -/

/-- The state with other findings in the present file. -/
def withLatest (latest : Analysis) (s : AnalysisState) : AnalysisState :=
  { s with analyzer := { s.analyzer with latest := latest } }

section

variable {importer : Importer} {w : World} {name : String} {current : Option Path}
  {s t : AnalysisState}

theorem run_importedModule_withLatest (latest : Analysis) :
    (importedModule importer w name current).run (withLatest latest s) =
      (((importedModule importer w name current).run s).1,
        withLatest latest ((importedModule importer w name current).run s).2) := by
  rw [importedModule, run_bind, run_bind, run_get, run_get]
  dsimp only [withLatest]
  cases hknown : s.analyzer.modules.get? name with
  | some a => rfl
  | none =>
    rcases hfile : Imports.moduleFile w s.analyzer.workspace current name with fault | _ | file
    · rfl
    · rfl
    · dsimp only
      cases hagain : s.analyzer.files.get? file.text with
      | some a => rfl
      | none =>
        cases hread : w.read? file with
        | none => rfl
        | some content =>
          dsimp only
          rw [run_bind, run_bind, run_runImporter, run_runImporter]
          dsimp only
          rcases (importer file content).run s.store with ⟨_ | a, store⟩ <;> rfl

theorem run_importedModule_again {a : Analysis}
    (h : (importedModule importer w name current).run s = (.ok a, t)) :
    (importedModule importer w name current).run t = (.ok a, t) ∧
      t.analyzer.types = s.analyzer.types := by
  have hstep := importStep importer w name current s
  rw [h] at hstep
  cases hstep with
  | known hknown => exact ⟨run_importedModule_of_known hknown, rfl⟩
  | empty => exact ⟨h, rfl⟩
  | again => exact ⟨run_importedModule_of_known (Table.get?_insert_self _ _ _), rfl⟩
  | made => exact ⟨run_importedModule_of_known (Table.get?_insert_self _ _ _), rfl⟩

/-- The class that the module `param` has for the root, if the module has an analysis. -/
def outerRoot (importer : Importer) (w : World) (current : Option Path) (s : AnalysisState) :
    Option ParamClass :=
  match ((importedModule importer w "param" current).run s).1 with
  | .ok a => a.classes.named? "Parameterized"
  | .error _ => none

/-- The states before and after the module `param` is asked for. -/
def BeforeOrAfter (importer : Importer) (w : World) (current : Option Path) (s t : AnalysisState) :
    Prop :=
  ∃ latest, t = withLatest latest s ∨
    t = withLatest latest ((importedModule importer w "param" current).run s).2

/-- Where the module `param` has an analysis if it is asked for, no other question arises. -/
theorem serves_beforeOrAfter {asked : Prop}
    (h : asked → ∃ a t, (importedModule importer w "param" current).run s = (.ok a, t)) :
    ServesRoot (BeforeOrAfter importer w current s) importer w current s.analyzer.types
      (outerRoot importer w current s) asked := by
  have htypes : ((importedModule importer w "param" current).run s).2.analyzer.types =
      s.analyzer.types := by
    have hstep := importStep importer w "param" current s
    rcases hrun : (importedModule importer w "param" current).run s with ⟨result, next⟩
    rw [hrun] at hstep
    cases hstep <;> rfl
  refine ⟨?_, ?_, fun latest hasked => ?_⟩
  · rintro t ⟨latest, rfl | rfl⟩
    · rfl
    · exact htypes
  · rintro t latest ⟨old, rfl | rfl⟩
    · exact ⟨latest, .inl rfl⟩
    · exact ⟨latest, .inr rfl⟩
  · obtain ⟨a, next, hrun⟩ := h hasked
    have hagain := (run_importedModule_again hrun).1
    rintro t ⟨⟨old, ht⟩, hlatest⟩
    rw [hrun] at ht
    have hanswer : outerRoot importer w current s = a.classes.named? "Parameterized" := by
      rw [outerRoot, hrun]
    rcases ht with rfl | rfl
    · rw [run_importedModule_withLatest, hrun]
      exact ⟨hanswer.symm, ⟨old, .inr (by rw [hrun])⟩, hlatest⟩
    · rw [run_importedModule_withLatest, hagain]
      exact ⟨hanswer.symm, ⟨old, .inr (by rw [hrun])⟩, hlatest⟩

end

/-! ### The order in which classes are found -/

section

variable {importer : Importer} {w : World} {content : String} {current : Option Path}
  {nodes : List Node} {imports : Imports} {s : AnalysisState}

theorem exists_run_takeClasses (hlatest : s.analyzer.latest = { imports }) (content : String)
    (distinct : (nodes.filterMap Node.className?).Nodup) (acyclic : Acyclic (LocalBase nodes))
    (awaits : AwaitsNamed nodes) (colonFree : ColonFree nodes)
    (plain : ∀ n ∈ nodes, n.className?.isSome = true → ∀ base ∈ n.bases, PlainBase imports base)
    (hparam : AsksForRoot imports nodes →
      ∃ a t, (importedModule importer w "param" current).run s = (.ok a, t)) :
    ∃ t classes, (takeClasses importer w content current nodes).run s = (.ok (), t) ∧
      t.analyzer.latest = { imports, classes } ∧
      Solves imports s.analyzer.types content (outerRoot importer w current s) nodes classes := by
  have hstart : Stands (BeforeOrAfter importer w current s) ⟨∅, imports, []⟩ s :=
    ⟨⟨s.analyzer.latest, .inl rfl⟩, hlatest⟩
  obtain ⟨_, t, hrun, -, ht⟩ := (triple_takeClasses_plain (serves_beforeOrAfter hparam) content
    plain id).exists_ok hstart
  refine ⟨t, _, hrun, ht, ?_⟩
  have hperm := classOrder_perm nodes
  have hsub : ∀ n ∈ classOrder nodes, n ∈ nodes := fun n hn => (mem_classOrder.mp hn).1
  have hnames : ((classOrder nodes).filterMap Node.className?).Nodup := by
    refine (hperm.filterMap _).nodup_iff.mpr ?_
    exact distinct.sublist (List.filter_sublist.filterMap _)
  refine (solves_foldl_enter (fun n hn => colonFree n (hsub n hn)) hnames acyclic hsub
    (basesFirst_classOrder acyclic awaits distinct)).of_mem_iff fun n hnamed => ?_
  rw [mem_classOrder, and_iff_left hnamed]

theorem localBase_congr {others : List Node} (h : ∀ n, n ∈ nodes ↔ n ∈ others) :
    LocalBase nodes = LocalBase others := by
  funext m n
  rw [LocalBase, LocalBase, h m]

theorem namesFilled_of_shape (h : ∀ n ∈ nodes, Query.classes.shape n = true) :
    NamesFilled nodes := by
  intro n hn hempty
  obtain ⟨hname, -⟩ := Bool.and_eq_true_iff.mp (Bool.and_eq_true_iff.mp (h n hn)).2
  obtain ⟨own, hown, hisName⟩ := (Option.any_eq_true _ _).mp hname
  simp only [Node.nameText?, hown, Option.some.injEq] at hempty
  simp [Query.isName, hempty] at hisName

/-- The loop over the classes of a file, for any list of nodes, comes to an end and takes each named
class once. Where names are distinct and no class inherits from itself, the bases of a class are
taken before it. Where moreover names have no colon and the bases are the root or plain names that
are not imported, the same classes are entered for every order of the nodes: the solution of the
equations that give a class by its bases. A node without a name can be among them; the text of a
name is not empty, as in every class that matches the pattern of the search. -/
theorem takeClasses_order_independent (importer : Importer) (w : World) (content : String)
    (current : Option Path) (nodes : List Node) :
    (∀ order, Passes (nodes.map Node.nameText?) [] (withNames nodes) order ↔
      order = classOrder nodes) ∧
    (classOrder nodes).Perm (nodes.filter (·.className?.isSome)) ∧
    (NamesFilled nodes → (nodes.filterMap Node.className?).Nodup → Acyclic (LocalBase nodes) →
      BasesFirst nodes (classOrder nodes) ∧
      ∀ imports s, s.analyzer.latest = { imports } → ColonFree nodes →
        (∀ n ∈ nodes, n.className?.isSome = true → ∀ base ∈ n.bases, PlainBase imports base) →
        (AsksForRoot imports nodes →
          ∃ a t, (importedModule importer w "param" current).run s = (.ok a, t)) →
        ∃ registered,
          Solves imports s.analyzer.types content (outerRoot importer w current s) nodes
            registered ∧
          ∀ others, others.Perm nodes →
            ∃ t, (takeClasses importer w content current others).run s = (.ok (), t) ∧
              ∀ key, t.analyzer.latest.classes.get? key = registered.get? key) := by
  refine ⟨passes_iff nodes, classOrder_perm nodes, fun filled distinct acyclic =>
    ⟨basesFirst_classOrder acyclic filled.awaitsNamed distinct, ?_⟩⟩
  intro imports s hlatest colonFree plain hparam
  obtain ⟨-, registered, -, -, solves⟩ := exists_run_takeClasses hlatest content
    distinct acyclic filled.awaitsNamed colonFree plain hparam
  refine ⟨registered, solves, fun others hperm => ?_⟩
  have hmem : ∀ n, n ∈ others ↔ n ∈ nodes := fun n => hperm.mem_iff
  have hparamOthers : AsksForRoot imports others →
      ∃ a t, (importedModule importer w "param" current).run s = (.ok a, t) := by
    rintro ⟨n, hn, hrest⟩
    exact hparam ⟨n, (hmem n).mp hn, hrest⟩
  obtain ⟨t, classes, hrun, ht, solves'⟩ := exists_run_takeClasses hlatest
    content ((hperm.filterMap _).nodup_iff.mpr distinct)
    (localBase_congr hmem ▸ acyclic)
    (NamesFilled.awaitsNamed fun n hn => filled n ((hmem n).mp hn))
    (fun n hn => colonFree n ((hmem n).mp hn)) (fun n hn => plain n ((hmem n).mp hn)) hparamOthers
  refine ⟨t, hrun, fun key => ?_⟩
  rw [ht]
  exact (solves'.of_mem_iff fun n _ => hmem n).unique colonFree distinct acyclic solves key

end

/-- The run of the loop over the nodes of a file with the imports, by a new analyzer in a world
without files. -/
def takeBare (imports : Imports) (nodes : List Node) : Except Failure Unit × AnalysisState :=
  (takeClasses (importer bareWorld (fresh bareWorld none [] {}).analyzer) bareWorld "" none
    nodes).run (withLatest { imports } (fresh bareWorld none [] {}))

def parameterizedImport : Imports :=
  Table.ofList [("param", "param"), ("Parameterized", "param.Parameterized")]

section

open Sketch

/-- Classes that stand before their bases. -/
def crossedFile : Sketch :=
  file [importsModule ["param"], takesName ["param"] "Parameterized", classed "C" [name "B"] [],
    classed "B" [name "A", name "Parameterized"] [declares "y" "Integer" []],
    classed "A" [rootBase] [declares "x" "Integer" []]]

/-- The classes of the file, from first to last. -/
def crossed : List Node := Finder.inText.classes crossedFile.node

end

/-- Found from last to first, the classes are entered as they are from first to last. -/
theorem takeClasses_crossed_reverse :
    BasesFirst crossed (classOrder crossed) ∧
    ∃ t t' : AnalysisState, takeBare parameterizedImport crossed = (.ok (), t) ∧
      takeBare parameterizedImport crossed.reverse = (.ok (), t') ∧
      ∀ key, t.analyzer.latest.classes.get? key = t'.analyzer.latest.classes.get? key := by
  have hacyclic : Acyclic (LocalBase crossed) :=
    acyclic_localBase (fun n => if n.className? = some "C" then 2 else
      if n.className? = some "B" then 1 else 0) (by decide +kernel)
  obtain ⟨hfirst, hsame⟩ := (takeClasses_order_independent
    (importer bareWorld (fresh bareWorld none [] {}).analyzer) bareWorld "" none crossed).2.2
    (namesFilled_of_shape fun _ hn => Finder.finds_of_mem_nodes hn) (by decide +kernel) hacyclic
  refine ⟨hfirst, ?_⟩
  obtain ⟨registered, -, hregistered⟩ := hsame parameterizedImport
    (withLatest { imports := parameterizedImport } (fresh bareWorld none [] {})) rfl
    (by decide +kernel) (by decide +kernel) fun _ => ⟨{}, _, rfl⟩
  obtain ⟨t, hrun, ht⟩ := hregistered crossed (.refl _)
  obtain ⟨t', hrun', ht'⟩ := hregistered crossed.reverse (List.reverse_perm _)
  exact ⟨t, t', hrun, hrun', fun key => (ht key).trans (ht' key).symm⟩

end ParamLens.Analysis
