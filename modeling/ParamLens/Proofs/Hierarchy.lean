import ParamLens.Proofs.ClassKeys
import ParamLens.Proofs.Nesting

/-! Classes of several files as a hierarchy. A base refers to the class of its name in the same
file, or else to the class that an import names in its module's file. A class has parameters when it
reaches the root of all classes with parameters along its bases. Its parameters are its own, laid
over those of its bases, of which the later ones are laid over the earlier ones. -/

namespace ParamLens.Analysis

open Syntax Steps

/-! ### References -/

/-- The base is the root of all classes with parameters: a name that is imported as such, or a
member of its module. -/
def isRootBase (imports : Imports) (base : Node) : Bool :=
  match base.kind with
  | .identifier => imports.get? base.text == some "param.Parameterized"
  | .attribute =>
    match base.chain with
    | [module, name] => name == "Parameterized" && (imports.get? module).getD module == "param"
    | _ => false
  | _ => false

theorem exists_chain_of_isRootBase {imports : Imports} {base : Node}
    (hkind : base.kind = .attribute) (h : isRootBase imports base = true) :
    ∃ module, base.chain = [module, "Parameterized"] ∧
      (imports.get? module).getD module = "param" := by
  simp only [isRootBase, hkind] at h
  split at h
  · next module name hchain =>
    obtain ⟨hname, hmodule⟩ := Bool.and_eq_true_iff.mp h
    exact ⟨module, by rw [hchain, eq_of_beq hname], eq_of_beq hmodule⟩
  · cases h

theorem isMemberRoot_of_isRootBase {imports : Imports} {base : Node}
    (hkind : base.kind = .attribute) (h : isRootBase imports base = true) :
    base.chain.length = 2 ∧ isMemberRoot imports base.chain = true := by
  obtain ⟨module, hchain, hmodule⟩ := exists_chain_of_isRootBase hkind h
  rw [hchain]
  refine ⟨rfl, ?_⟩
  cases hbound : imports.get? module with
  | none =>
    rw [hbound] at hmodule
    obtain rfl : module = "param" := hmodule
    simp [isMemberRoot]
  | some full =>
    rw [hbound] at hmodule
    obtain rfl : full = "param" := hmodule
    have hends : Text.endsWith "param" "param" = true := by decide
    simp [isMemberRoot, hbound, hends]

theorem classPath?_of_isRootBase {imports : Imports} {base : Node} (hkind : base.kind = .attribute)
    (h : isRootBase imports base = true) :
    imports.classPath? base = some "param.Parameterized" := by
  obtain ⟨module, hchain, hmodule⟩ := exists_chain_of_isRootBase hkind h
  rw [Imports.classPath?, hkind]
  simp only [hchain, Imports.expand, hmodule]
  rfl

/-- A text of the world with its tree, in the place of a file. -/
structure Source (w : World) where
  file : Option Path
  content : String
  root : Node

namespace Source

variable {w : World}

def classes (src : Source w) : List Node := w.finder.classes src.root

def imports (src : Source w) : Imports := Imports.ofTree w.finder src.root

def classNamed? (src : Source w) (name : String) : Option Node :=
  src.classes.find? (·.className? == some name)

def ofFile? (w : World) (file : Path) : Option (Source w) :=
  (w.read? file).bind fun content => (w.parse? content).map fun root => ⟨some file, content, root⟩

/-- The class that an import names, in the file of its module. -/
def imported? (workspace : Option Path) (src : Source w) (name : String) :
    Option (Source w × Node) :=
  match (src.imports.get? name).filter (· != "") with
  | none => none
  | some full =>
    let file := (Imports.moduleFile w workspace src.file (moduleOf full)).toOption.join
    (file.bind (ofFile? w)).bind fun source =>
      (source.classNamed? (nameIn name full)).map (source, ·)

/-- The class to which a base refers by a plain name. -/
def target? (workspace : Option Path) (src : Source w) (base : Node) :
    Option (Source w × Node) :=
  if base.kind = .identifier ∧ base.text ≠ "" then
    match src.classNamed? base.text with
    | some n => some (src, n)
    | none => src.imported? workspace base.text
  else none

/-- The base is the root of all classes with parameters. -/
def isRoot (src : Source w) (base : Node) : Bool := isRootBase src.imports base

/-- The base is taken for the root of all classes with parameters. -/
def isTakenForRoot (src : Source w) (base : Node) : Bool :=
  match base.kind with
  | .identifier => isBoundRoot src.imports base.text
  | .attribute => isMemberRoot src.imports base.chain
  | _ => false

end Source

/-! ### Classes with parameters -/

section

variable {w : World} (isRoot : Source w → Node → Bool) (types : List String → Prop)
  (workspace : Option Path)

/-- The class reaches a root along its bases. -/
inductive Reaches : Source w → Node → Prop
  | root {src : Source w} {n base : Node} : base ∈ n.bases → isRoot src base = true → Reaches src n
  | base {src src' : Source w} {n m base : Node} : base ∈ n.bases →
      src.target? workspace base = some (src', m) → Reaches src' m → Reaches src n

/-- The class reaches a root within a number of bases. -/
def reachesWithin : Nat → Source w → Node → Bool
  | 0, _, _ => false
  | depth + 1, src, n => n.bases.any fun base => isRoot src base ||
      (src.target? workspace base).any fun target => reachesWithin depth target.1 target.2

/-- The parameters that a class declares itself, where the parameter types are known. -/
def ownParametersOf (known : List String) (src : Source w) (n : Node) : List (String × Parameter) :=
  (Declaration.parameters ⟨src.imports, known⟩ src.content n).map fun p => (p.name, p)

/-- The tables laid over each other, each over those before it. -/
def layAll (maps : List (Table Parameter)) : Table Parameter :=
  maps.foldl (fun found t => found.update t.entries) ∅

/-- The parameters of a class with those that it inherits: its own are laid over those of its bases,
one base after another. A base that refers to no class that reaches a root has none. -/
inductive Flat : Source w → Node → Table Parameter → Prop
  | intro {src : Source w} {n : Node} {known : List String} {maps : List (Table Parameter)} :
      types known → maps.length = n.bases.length →
      (∀ base t, (base, t) ∈ n.bases.zip maps → ∀ src' m,
        src.target? workspace base = some (src', m) → Reaches isRoot workspace src' m →
        Flat src' m t) →
      (∀ base t, (base, t) ∈ n.bases.zip maps → (∀ src' m,
        src.target? workspace base = some (src', m) → ¬ Reaches isRoot workspace src' m) →
        t = ∅) →
      Flat src n ((layAll maps).update (ownParametersOf known src n))

end

variable {w : World} {isRoot : Source w → Node → Bool} {types : List String → Prop}
  {workspace : Option Path}

theorem reaches_iff {src : Source w} {n : Node} : Reaches isRoot workspace src n ↔
    ∃ base ∈ n.bases, isRoot src base = true ∨ ∃ src' m,
      src.target? workspace base = some (src', m) ∧ Reaches isRoot workspace src' m := by
  constructor
  · intro h
    cases h with
    | root hbase hroot => exact ⟨_, hbase, .inl hroot⟩
    | base hbase htarget hreach => exact ⟨_, hbase, .inr ⟨_, _, htarget, hreach⟩⟩
  · rintro ⟨base, hbase, hroot | ⟨src', m, htarget, hreach⟩⟩
    · exact .root hbase hroot
    · exact .base hbase htarget hreach

theorem reaches_of_reachesWithin {depth : Nat} {src : Source w} {n : Node}
    (h : reachesWithin isRoot workspace depth src n = true) :
    Reaches isRoot workspace src n := by
  induction depth generalizing src n with
  | zero => cases h
  | succ depth ih =>
    obtain ⟨base, hbase, hpasses⟩ := List.any_eq_true.mp h
    rcases Bool.or_eq_true_iff.mp hpasses with hroot | hany
    · exact .root hbase hroot
    · obtain ⟨⟨src', m⟩, htarget, hreach⟩ := (Option.any_eq_true _ _).mp hany
      exact .base hbase htarget (ih hreach)

/-- Where one list of parameter types is in use, a class has one flattening. -/
theorem Flat.unique {known : List String} (only : ∀ used, types used → used = known)
    {src : Source w} {n : Node} {t t' : Table Parameter}
    (h : Flat isRoot types workspace src n t)
    (h' : Flat isRoot types workspace src n t') : t = t' := by
  induction h generalizing t' with
  | @intro src n used maps hused hlength hmaps hnone ih =>
    cases h' with
    | @intro _ _ used' maps' hused' hlength' hmaps' hnone' =>
      have heq : maps = maps' := by
        refine eq_of_zip hlength hlength' fun base t t' ht ht' => ?_
        by_cases hreach : ∃ src' m, src.target? workspace base = some (src', m) ∧
            Reaches isRoot workspace src' m
        · obtain ⟨src', m, htarget, hreach⟩ := hreach
          exact ih base t ht src' m htarget hreach (hmaps' base t' ht' src' m htarget hreach)
        · have hnot : ∀ src' m, src.target? workspace base = some (src', m) →
              ¬ Reaches isRoot workspace src' m :=
            fun src' m htarget hreaches => hreach ⟨src', m, htarget, hreaches⟩
          rw [hnone base t ht hnot, hnone' base t' ht' hnot]
      rw [heq, only used hused, only used' hused']

/-! ### Well-formed files -/

/-- The class names of the file are distinct, without colons and different from its imported names;
no class inherits from itself within the file; and the bases of its classes are plain names or the
root as a member of its module. -/
structure Source.WellFormed {w : World} (src : Source w) : Prop where
  distinct : (src.classes.filterMap Node.className?).Nodup
  colonFree : ∀ n ∈ src.classes, ∀ name ∈ n.className?, ':' ∉ name.toList
  notImported : ∀ n ∈ src.classes, ∀ name ∈ n.className?, src.imports.get? name = none
  acyclic : Acyclic (LocalBase src.classes)
  bases : ∀ n ∈ src.classes, n.className?.isSome = true → ∀ base ∈ n.bases,
    base.kind = .identifier ∧ base.text ≠ "" ∨ base.kind = .attribute ∧ src.isRoot base = true

theorem acyclic_localBase {nodes : List Node} (rank : Node → Nat)
    (h : ∀ n ∈ nodes, ∀ base ∈ n.bases, ∀ m ∈ nodes, m.className? = some base.text →
      rank m < rank n) : Acyclic (LocalBase nodes) := by
  refine acyclic_of_rank (p := (· ∈ nodes)) rank (fun m n hbase => hbase.1) ?_
  rintro m n ⟨hm, base, hbase, -, hname⟩ hn
  exact h n hn base hbase m hm hname

/-- The file is well-formed, with classes that rank above their bases in it. -/
def Source.Ranked {w : World} (rank : Node → Nat) (src : Source w) : Prop :=
  (src.classes.filterMap Node.className?).Nodup ∧
  (∀ n ∈ src.classes, ∀ name ∈ n.className?, ':' ∉ name.toList ∧ src.imports.get? name = none) ∧
  (∀ n ∈ src.classes, ∀ base ∈ n.bases, ∀ m ∈ src.classes, m.className? = some base.text →
    rank m < rank n) ∧
  ∀ n ∈ src.classes, n.className?.isSome = true → ∀ base ∈ n.bases,
    base.kind = .identifier ∧ base.text ≠ "" ∨ base.kind = .attribute ∧ src.isRoot base = true

instance {w : World} (rank : Node → Nat) (src : Source w) : Decidable (src.Ranked rank) :=
  inferInstanceAs (Decidable (_ ∧ _ ∧ _ ∧ _))

theorem Source.Ranked.wellFormed {w : World} {src : Source w} {rank : Node → Nat}
    (h : src.Ranked rank) : src.WellFormed :=
  ⟨h.1, fun n hn name hname => (h.2.1 n hn name hname).1,
    fun n hn name hname => (h.2.1 n hn name hname).2, acyclic_localBase rank h.2.2.1, h.2.2.2⟩

/-- In the file the root alone is taken for the root. -/
def Source.TellsRoot {w : World} (src : Source w) : Prop :=
  ∀ n ∈ src.classes, ∀ base ∈ n.bases, src.isTakenForRoot base = src.isRoot base

instance {w : World} (src : Source w) : Decidable src.TellsRoot :=
  inferInstanceAs (Decidable (∀ n ∈ src.classes, _))

namespace Source.WellFormed

variable {src : Source w} (wf : src.WellFormed)

include wf

theorem classNamed?_eq_some {n : Node} {name : String} :
    src.classNamed? name = some n ↔ n ∈ src.classes ∧ n.className? = some name := by
  constructor
  · intro h
    exact ⟨List.mem_of_find?_eq_some h, by simpa using List.find?_some h⟩
  · rintro ⟨hn, hname⟩
    cases hfind : src.classNamed? name with
    | none => simpa [hname] using List.find?_eq_none.mp hfind n hn
    | some m =>
      have hm := List.mem_of_find?_eq_some hfind
      have hmname : m.className? = some name := by simpa using List.find?_some hfind
      rw [eq_of_className wf.distinct hm hn hmname hname]

theorem key_ne {m n : Node} (hm : m ∈ src.classes) (hn : n ∈ src.classes) (hne : m ≠ n)
    {other name : String} (hmname : m.className? = some other) (hname : n.className? = some name) :
    Classes.key other m.row ≠ Classes.key name n.row := by
  intro hkey
  obtain rfl := ColonFree.key_eq wf.colonFree hm hn hmname hname hkey
  exact hne (eq_of_className wf.distinct hm hn hmname hname)

theorem named?_eq {classes : Classes} (keyed : Keyed w src.root classes) (name : String) :
    classes.named? name =
      (src.classNamed? name).bind fun n => classes.get? (Classes.key name n.row) := by
  have hby : KeyedBy src.classes classes := keyed
  cases hclass : src.classNamed? name with
  | none =>
    refine hby.named?_eq_none wf.colonFree fun n hn hname => ?_
    rw [wf.classNamed?_eq_some.mpr ⟨hn, hname⟩] at hclass
    cases hclass
  | some n =>
    obtain ⟨hn, hname⟩ := wf.classNamed?_eq_some.mp hclass
    exact hby.named?_eq wf.colonFree wf.distinct hn hname

end Source.WellFormed

end ParamLens.Analysis
