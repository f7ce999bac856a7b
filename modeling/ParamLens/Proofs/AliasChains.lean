import ParamLens.Library.Store
import ParamLens.Proofs.Records

/-! Look-ups along chains of aliases. A name is looked up as itself, then as the name that it is an
alias of, and so on, and the first class counts. The look-up stops at a name that it has passed
before. It loses nothing by that, since the way to a class passes no name twice, and it ends on
every table of aliases, since each step uses up one of them. -/

namespace ParamLens.Library

namespace Record

variable {r : Record} {name : String} {c : ParamClass}

/-! ### The names of a chain -/

/-- The name after `k` aliases, if the chain is as long. -/
def nthName? (r : Record) : Nat → String → Option String
  | 0, name => some name
  | k + 1, name => (r.aliases.get? name).bind (r.nthName? k)

/-- The class of the name after `k` aliases. -/
def nthClass? (r : Record) (k : Nat) (name : String) : Option ParamClass :=
  (r.nthName? k name).bind r.classes.get?

/-- The first class of the chain stands after `k` aliases. -/
def FirstClass (r : Record) (name : String) (k : Nat) (c : ParamClass) : Prop :=
  r.nthClass? k name = some c ∧ ∀ j < k, r.nthClass? j name = none

@[simp] theorem nthClass?_zero (r : Record) (name : String) :
    r.nthClass? 0 name = r.classes.get? name := rfl

theorem nthClass?_succ (r : Record) (k : Nat) (name : String) :
    r.nthClass? (k + 1) name = (r.aliases.get? name).bind (r.nthClass? k) := by
  rw [nthClass?, nthName?, Option.bind_assoc]
  rfl

theorem firstClass_zero : r.FirstClass name 0 c ↔ r.classes.get? name = some c := by
  simp [FirstClass]

theorem firstClass_succ {k : Nat} :
    r.FirstClass name (k + 1) c ↔ r.classes.get? name = none ∧
      ∃ next, r.aliases.get? name = some next ∧ r.FirstClass next k c := by
  constructor
  · rintro ⟨hclass, hbare⟩
    rw [nthClass?_succ] at hclass
    obtain ⟨next, hnext, hclass⟩ := Option.bind_eq_some_iff.mp hclass
    refine ⟨hbare 0 (Nat.succ_pos k), next, hnext, hclass, fun j hj => ?_⟩
    have h := hbare (j + 1) (Nat.succ_lt_succ hj)
    rwa [nthClass?_succ, hnext, Option.bind_some] at h
  · rintro ⟨hbare, next, hnext, hclass, hrest⟩
    refine ⟨by rw [nthClass?_succ, hnext, Option.bind_some, hclass], fun j hj => ?_⟩
    cases j with
    | zero => exact hbare
    | succ j => rw [nthClass?_succ, hnext, Option.bind_some, hrest j (Nat.lt_of_succ_lt_succ hj)]

theorem finds_iff_firstClass : r.facts.Finds name c ↔ ∃ k, r.FirstClass name k c := by
  constructor
  · rintro ⟨names, trail⟩
    induction trail with
    | here own => exact ⟨0, firstClass_zero.mpr own⟩
    | along bare link rest ih =>
      obtain ⟨k, hk⟩ := ih
      exact ⟨k + 1, firstClass_succ.mpr ⟨bare, _, link, hk⟩⟩
  · rintro ⟨k, hk⟩
    induction k generalizing name with
    | zero => exact ⟨[], .here (firstClass_zero.mp hk)⟩
    | succ k ih =>
      obtain ⟨bare, next, link, hrest⟩ := firstClass_succ.mp hk
      obtain ⟨names, trail⟩ := ih hrest
      exact ⟨name :: names, .along bare link trail⟩

theorem exists_firstClass_of_nthClass? {k : Nat} (h : r.nthClass? k name = some c) :
    ∃ j first, r.FirstClass name j first := by
  induction k generalizing name with
  | zero => exact ⟨0, c, firstClass_zero.mpr h⟩
  | succ k ih =>
    cases hown : r.classes.get? name with
    | some own => exact ⟨0, own, firstClass_zero.mpr hown⟩
    | none =>
      rw [nthClass?_succ] at h
      obtain ⟨next, hnext, h⟩ := Option.bind_eq_some_iff.mp h
      obtain ⟨j, first, hfirst⟩ := ih h
      exact ⟨j + 1, first, firstClass_succ.mpr ⟨hown, next, hnext, hfirst⟩⟩

theorem find?_eq_some_iff_firstClass : r.find? name = some c ↔ ∃ k, r.FirstClass name k c :=
  (find?_eq_some_iff r name c).trans finds_iff_firstClass

theorem find?_eq_none_iff_nthClass? : r.find? name = none ↔ ∀ k, r.nthClass? k name = none := by
  constructor
  · intro h k
    cases hclass : r.nthClass? k name with
    | none => rfl
    | some c =>
      obtain ⟨j, first, hfirst⟩ := exists_firstClass_of_nthClass? hclass
      rw [find?_eq_some_iff_firstClass.mpr ⟨j, hfirst⟩] at h
      cases h
  · intro h
    cases hfind : r.find? name with
    | none => rfl
    | some c =>
      obtain ⟨k, hclass, -⟩ := find?_eq_some_iff_firstClass.mp hfind
      rw [h k] at hclass
      cases hclass

/-! ### The walk along a chain -/

/-- The walk along the chain of a name, with the names that were passed. It ends at a name without
an alias, at a name that was passed, and at a class; otherwise it goes on from the next name. -/
inductive Walk (r : Record) : List String → String → Option ParamClass → Prop
  | ends {passed : List String} {name : String} (last : r.aliases.get? name = none) :
      Walk r passed name none
  | returns {passed : List String} {name : String} (again : name ∈ passed) : Walk r passed name none
  | finds {passed : List String} {name next : String} {c : ParamClass} (new : name ∉ passed)
      (link : r.aliases.get? name = some next) (own : r.classes.get? next = some c) :
      Walk r passed name (some c)
  | goesOn {passed : List String} {name next : String} {found : Option ParamClass}
      (new : name ∉ passed) (link : r.aliases.get? name = some next)
      (bare : r.classes.get? next = none) (rest : Walk r (name :: passed) next found) :
      Walk r passed name found

theorem Walk.unique {passed : List String} {found found' : Option ParamClass}
    (h : r.Walk passed name found) (h' : r.Walk passed name found') : found = found' := by
  induction h with
  | ends last => cases h' <;> simp_all
  | returns again => cases h' <;> simp_all
  | finds new link own => cases h' <;> simp_all
  | goesOn new link bare rest ih =>
    cases h' with
    | ends last => simp [link] at last
    | returns again => exact absurd again new
    | finds _ link' own' =>
      obtain rfl := Option.some.inj (link.symm.trans link')
      simp [bare] at own'
    | goesOn _ link' _ rest' =>
      obtain rfl := Option.some.inj (link.symm.trans link')
      exact ih rest'

/-- The table holds the aliases of the names that were not passed. -/
def Unpassed (r : Record) (passed : List String) (remaining : Table String) : Prop :=
  ∀ asked, remaining.get? asked = if asked ∈ passed then none else r.aliases.get? asked

namespace Unpassed

variable {passed : List String} {remaining : Table String}

theorem walk_of_none (h : r.Unpassed passed remaining) (hnone : remaining.get? name = none) :
    r.Walk passed name none := by
  rw [h name] at hnone
  split at hnone
  · next again => exact .returns again
  · exact .ends hnone

theorem new_of_some (h : r.Unpassed passed remaining) {next : String}
    (hnext : remaining.get? name = some next) :
    name ∉ passed ∧ r.aliases.get? name = some next := by
  rw [h name] at hnext
  split at hnext
  · cases hnext
  · next hnew => exact ⟨hnew, hnext⟩

theorem erase (h : r.Unpassed passed remaining) (name : String) :
    r.Unpassed (name :: passed) (remaining.erase name) := by
  intro asked
  by_cases heq : asked = name
  · rw [heq, Table.get?_erase_self, if_pos List.mem_cons_self]
  · rw [Table.get?_erase_ne _ heq, h asked]
    simp [heq]

end Unpassed

theorem walk_followAliases? {passed : List String} {remaining : Table String} {steps : Nat}
    (unpassed : r.Unpassed passed remaining) (enough : remaining.size ≤ steps) :
    r.Walk passed name (followAliases? r.classes remaining steps name) := by
  -- On the steps: each takes away one of the aliases that remain, so that the last finds none left.
  induction steps generalizing passed remaining name with
  | zero =>
    refine unpassed.walk_of_none ?_
    rw [Table.get?_eq_none_iff, Table.names, List.length_eq_zero_iff.mp (Nat.le_zero.mp enough)]
    exact List.not_mem_nil
  | succ steps ih =>
    rw [followAliases?]
    cases hnext : remaining.get? name with
    | none => exact unpassed.walk_of_none hnext
    | some next =>
      obtain ⟨hnew, hlink⟩ := unpassed.new_of_some hnext
      dsimp only
      cases hown : r.classes.get? next with
      | some c => exact .finds hnew hlink hown
      | none =>
        have hless := Table.size_erase_lt hnext
        exact .goesOn hnew hlink hown (ih (unpassed.erase name) (by omega))

theorem walk_iff_eq_find? (bare : r.classes.get? name = none) {found : Option ParamClass} :
    r.Walk [] name found ↔ found = r.find? name := by
  have hwalk : r.Walk [] name (r.find? name) := by
    rw [find?, bare]
    exact walk_followAliases? (fun asked => by simp) le_rfl
  exact ⟨fun h => h.unique hwalk, fun h => h ▸ hwalk⟩

end Record

/-! ### Records in memory and in files -/

namespace Store

variable {library version : String} {r : Record} {s : Store}

/-- The record of a library is in memory and has no file, or it is in its file only. -/
inductive HoldsOnce (library version : String) (r : Record) (s : Store) : Prop
  | memory (pending : s.pending.get? (key library version) = some r)
      (absent : s.files.get? (fileName library version) = none)
  | file (absent : s.pending.get? (key library version) = none)
      (filed : s.files.get? (fileName library version) = some (.record r))
      (valid : r.isFor library version = true)

theorem HoldsOnce.find?_eq (h : s.HoldsOnce library version r) (keeps : s.keeps version = true)
    (name : String) : (find? library name version s).1 = r.find? name := by
  rw [find?, if_pos keeps]
  cases h with
  | memory pending absent =>
    rw [pending, Option.bind_some]
    cases hfound : r.find? name with
    | some c => rfl
    | none =>
      dsimp only
      rw [stored?, absent]
  | file absent filed valid =>
    rw [absent, Option.bind_none]
    dsimp only
    rw [stored?, filed]
    dsimp only
    rw [if_pos valid]

/-- A name is looked up along its chain of aliases: the answer is the first class of the chain,
there is none exactly if no name of the chain has a class, and the walk that stops at a name that it
has passed ends with this answer, whatever the aliases are. -/
theorem find?_first_class_of_chain (keeps : s.keeps version = true)
    (held : s.HoldsOnce library version r) (name : String) :
    let answer := (find? library name version s).1
    (∀ c, answer = some c ↔
        ∃ k, r.nthClass? k name = some c ∧ ∀ j < k, r.nthClass? j name = none) ∧
      (answer = none ↔ ∀ k, r.nthClass? k name = none) ∧
      (r.classes.get? name = none → ∀ found, r.Walk [] name found ↔ found = answer) := by
  intro answer
  have hanswer : answer = r.find? name := held.find?_eq keeps name
  rw [hanswer]
  exact ⟨fun c => Record.find?_eq_some_iff_firstClass, Record.find?_eq_none_iff_nthClass?,
    fun bare found => Record.walk_iff_eq_find? bare⟩

/-- A chain of two aliases to a class, one that runs into a circle, and an alias of itself. -/
def looped : Record :=
  { label := Label.current "panel" "1.0"
    classes := Table.ofList [("panel.pane.base.Pane", .ofName "Pane")]
    aliases := Table.ofList
      [("panel.Pane", "panel.pane.Pane"), ("panel.pane.Pane", "panel.pane.base.Pane"),
       ("panel.A", "panel.B"), ("panel.B", "panel.C"), ("panel.C", "panel.B"),
       ("panel.S", "panel.S")] }

def loopedStore : Store :=
  { enabled := true, files := Table.ofList [(fileName "panel" "1.0", .record looped)] }

/-- In the store that has the record in its file, the chain finds the class, and neither the circle
nor the alias of itself finds one. -/
theorem find?_first_class_of_looped :
    loopedStore.keeps "1.0" = true ∧ loopedStore.HoldsOnce "panel" "1.0" looped ∧
      (find? "panel" "panel.Pane" "1.0" loopedStore).1 = some (.ofName "Pane") ∧
      (find? "panel" "panel.A" "1.0" loopedStore).1 = none ∧
      (find? "panel" "panel.S" "1.0" loopedStore).1 = none := by
  have keeps : loopedStore.keeps "1.0" = true := rfl
  have held : loopedStore.HoldsOnce "panel" "1.0" looped := .file rfl rfl (by decide +kernel)
  have hcircle (k : Nat) : looped.nthClass? k "panel.B" = none ∧
      looped.nthClass? k "panel.C" = none := by
    induction k with
    | zero => decide
    | succ k ih => exact ⟨ih.2, ih.1⟩
  have hself (k : Nat) : looped.nthClass? k "panel.S" = none := by
    induction k with
    | zero => decide
    | succ k ih => exact ih
  refine ⟨keeps, held, ?_, ?_, ?_⟩
  · refine ((find?_first_class_of_chain keeps held "panel.Pane").1 _).mpr ⟨2, rfl, ?_⟩
    decide
  · refine (find?_first_class_of_chain keeps held "panel.A").2.1.mpr fun k => ?_
    cases k with
    | zero => rfl
    | succ k => exact (hcircle k).1
  · exact (find?_first_class_of_chain keeps held "panel.S").2.1.mpr hself

end Store

end ParamLens.Library
