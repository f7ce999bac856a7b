import Mathlib.Data.List.Nodup
import ParamLens.Proofs.Tables
import ParamLens.Syntax.Statement

/-! The keys of classes. A class stands under its name and its row. Where names have no colon, the
class that a name finds is the class of that name. -/

namespace ParamLens.Analysis

open Syntax

theorem colon_notMem_toString (n : Nat) : ':' ∉ (toString n).toList := by
  rw [Nat.toString_eq_repr, Nat.toList_repr]
  intro h
  exact absurd (Nat.isDigit_of_mem_toDigits (by decide) (by decide) h) (by decide)

theorem keyHasName_key {name className : String} (h : ':' ∉ className.toList) (row : Nat) :
    Classes.keyHasName name (Classes.key className row) = true ↔ name = className := by
  have hkey : (Classes.key className row).toList =
      className.toList ++ ':' :: (toString row).toList := by
    simp [Classes.key]
  rw [Classes.keyHasName, Text.startsWith, List.isPrefixOf_iff_prefix, hkey]
  constructor
  · rintro ⟨rest, hrest⟩
    have hsplit : name.toList ++ ':' :: rest =
        className.toList ++ ':' :: (toString row).toList := by
      simpa using hrest
    rcases List.append_eq_append_iff.mp hsplit with ⟨mid, hname, hrest⟩ | ⟨mid, hname, hrest⟩
    · cases mid with
      | nil => exact String.toList_inj.mp (by simpa using hname.symm)
      | cons c mid =>
        -- The colon of the name would stand within the name of the class.
        obtain ⟨rfl, -⟩ := List.cons.inj hrest
        exact absurd (hname ▸ by simp) h
    · cases mid with
      | nil => exact String.toList_inj.mp (by simpa using hname)
      | cons c mid =>
        -- The colon of the name would stand among the digits.
        obtain ⟨-, hdigits⟩ := List.cons.inj hrest
        exact absurd (hdigits ▸ by simp) (colon_notMem_toString row)
  · rintro rfl
    exact ⟨(toString row).toList, by simp⟩

theorem eq_of_className {nodes : List Node} (distinct : (nodes.filterMap Node.className?).Nodup)
    {m n : Node} (hm : m ∈ nodes) (hn : n ∈ nodes) {name : String}
    (hmname : m.className? = some name) (hnname : n.className? = some name) : m = n := by
  induction nodes with
  | nil => cases hm
  | cons first rest ih =>
    have hrest : (rest.filterMap Node.className?).Nodup := by
      refine distinct.sublist ?_
      exact (List.sublist_cons_self first rest).filterMap _
    have hlater {a : Node} (ha : a ∈ rest) (hname : a.className? = some name)
        (hfirst : first.className? = some name) : False := by
      rw [List.filterMap_cons, hfirst, List.nodup_cons] at distinct
      exact distinct.1 (List.mem_filterMap.mpr ⟨a, ha, hname⟩)
    rcases List.mem_cons.mp hm with rfl | hm'
    · rcases List.mem_cons.mp hn with rfl | hn'
      · rfl
      · exact (hlater hn' hnname hmname).elim
    · rcases List.mem_cons.mp hn with rfl | hn'
      · exact (hlater hm' hmname hnname).elim
      · exact ih hrest hm' hn'

/-- The names of the classes among the nodes have no colon. -/
def ColonFree (nodes : List Node) : Prop :=
  ∀ n ∈ nodes, ∀ name ∈ n.className?, ':' ∉ name.toList

instance (nodes : List Node) : Decidable (ColonFree nodes) :=
  inferInstanceAs (Decidable (∀ n ∈ nodes, _))

/-- Every class stands under the key of a class among the nodes. -/
def KeyedBy (nodes : List Node) (classes : Classes) : Prop :=
  ∀ key c, classes.get? key = some c →
    ∃ n ∈ nodes, ∃ name, n.className? = some name ∧ key = Classes.key name n.row

section

variable {nodes : List Node} {classes : Classes}

theorem ColonFree.key_eq (colonFree : ColonFree nodes) {m n : Node} (hm : m ∈ nodes)
    (hn : n ∈ nodes) {other name : String} (hmname : m.className? = some other)
    (hname : n.className? = some name) (h : Classes.key other m.row = Classes.key name n.row) :
    other = name := by
  have hsame := (keyHasName_key (colonFree m hm other hmname) m.row).mpr rfl
  rwa [h, keyHasName_key (colonFree n hn name hname)] at hsame

theorem KeyedBy.exists_of_findName? (keyed : KeyedBy nodes classes) (colonFree : ColonFree nodes)
    {name : String} {entry : String × ParamClass}
    (h : classes.findName? (Classes.keyHasName name) = some entry) :
    ∃ n ∈ nodes, n.className? = some name ∧ entry.1 = Classes.key name n.row ∧
      classes.get? entry.1 = some entry.2 := by
  have hget := Table.get?_of_mem_entries (List.mem_of_find?_eq_some h)
  obtain ⟨n, hn, className, hclass, hkey⟩ := keyed entry.1 entry.2 hget
  have hhas : Classes.keyHasName name entry.1 = true :=
    List.find?_some (p := fun e : String × ParamClass => Classes.keyHasName name e.1) h
  obtain rfl : name = className :=
    (keyHasName_key (colonFree n hn className hclass) n.row).mp (hkey ▸ hhas)
  exact ⟨n, hn, hclass, hkey, hget⟩

theorem KeyedBy.named?_eq_none (keyed : KeyedBy nodes classes) (colonFree : ColonFree nodes)
    {name : String} (h : ∀ n ∈ nodes, n.className? ≠ some name) : classes.named? name = none := by
  cases hfind : classes.findName? (Classes.keyHasName name) with
  | none => rw [Classes.named?, hfind, Option.map_none]
  | some entry =>
    obtain ⟨n, hn, hname, -⟩ := keyed.exists_of_findName? colonFree hfind
    exact absurd hname (h n hn)

theorem KeyedBy.named?_eq (keyed : KeyedBy nodes classes) (colonFree : ColonFree nodes)
    (distinct : (nodes.filterMap Node.className?).Nodup) {n : Node} (hn : n ∈ nodes)
    {name : String} (hname : n.className? = some name) :
    classes.named? name = classes.get? (Classes.key name n.row) := by
  cases hfind : classes.findName? (Classes.keyHasName name) with
  | none =>
    rw [Classes.named?, hfind, Option.map_none]
    cases hget : classes.get? (Classes.key name n.row) with
    | none => rfl
    | some c =>
      have hnot := List.find?_eq_none.mp hfind _ (Table.mem_entries_of_get? hget)
      exact absurd ((keyHasName_key (colonFree n hn name hname) n.row).mpr rfl) hnot
  | some entry =>
    obtain ⟨m, hm, hmname, hkey, hget⟩ := keyed.exists_of_findName? colonFree hfind
    obtain rfl := eq_of_className distinct hm hn hmname hname
    rw [Classes.named?, hfind, ← hkey, hget, Option.map_some]

theorem named?_insert_ne {className name : String} (h : ':' ∉ className.toList)
    (hne : name ≠ className) (row : Nat) (c : ParamClass) :
    Classes.named? (classes.insert (Classes.key className row) c) name = classes.named? name := by
  have hkey : Classes.keyHasName name (Classes.key className row) = false :=
    Bool.eq_false_iff.mpr fun hhas => hne ((keyHasName_key h row).mp hhas)
  rw [Classes.named?, Table.findName?_insert_of_not hkey, Classes.named?]

end

end ParamLens.Analysis
