import Mathlib.Data.List.Nodup
import Mathlib.Order.WellFounded
import ParamLens.Analysis.Order
import ParamLens.Proofs.Acyclic

/-! The order in which the classes of a file are taken. Every named class is taken once, and where
the names are distinct and no class inherits from itself, a class is taken after its bases. -/

namespace ParamLens.Analysis

open Syntax

variable {defined : List (Option String)} {done : List String} {left : List (Node × String)}

/-! ### Passes -/

/-- The second component of each pair is the name of the class. -/
def Named (left : List (Node × String)) : Prop := ∀ p ∈ left, p.1.className? = some p.2

/-- Each class is ready when those before it are done. -/
def InTurn (defined : List (Option String)) : List String → List Node → Prop
  | _, [] => True
  | done, n :: rest =>
    isReady defined done n = true ∧ InTurn defined (done ++ n.className?.toList) rest

theorem inTurn_append {first second : List Node} :
    InTurn defined done (first ++ second) ↔
      InTurn defined done first ∧
        InTurn defined (done ++ first.filterMap Node.className?) second := by
  induction first generalizing done with
  | nil => simp [InTurn]
  | cons n rest ih =>
    rw [List.cons_append, InTurn, InTurn, ih, and_assoc]
    cases hname : n.className? with
    | none => simp [hname]
    | some name => simp [hname, List.append_assoc]

theorem takeReady_perm (defined : List (Option String)) (done : List String)
    (left : List (Node × String)) :
    ((takeReady defined done left).1 ++ (takeReady defined done left).2.1.map Prod.fst).Perm
      (left.map Prod.fst) := by
  fun_induction takeReady defined done left with
  | case1 => exact .nil
  | case2 done n name rest _ taken left names heq ih =>
    rw [heq] at ih
    exact ih.cons n
  | case3 done n name rest _ taken left names heq ih =>
    rw [heq] at ih
    exact List.perm_middle.trans (ih.cons n)

theorem takeReady_sublist (defined : List (Option String)) (done : List String)
    (left : List (Node × String)) : (takeReady defined done left).2.1.Sublist left := by
  fun_induction takeReady defined done left with
  | case1 => exact .slnil
  | case2 done n name rest _ taken left names heq ih =>
    rw [heq] at ih
    exact ih.cons _
  | case3 done n name rest _ taken left names heq ih =>
    rw [heq] at ih
    exact ih.cons_cons _

theorem takeReady_inTurn (named : Named left) :
    InTurn defined done (takeReady defined done left).1 ∧
      (takeReady defined done left).2.2 =
        done ++ (takeReady defined done left).1.filterMap Node.className? := by
  fun_induction takeReady defined done left with
  | case1 => simp [InTurn]
  | case2 done n name rest hready taken left names heq ih =>
    have hname : n.className? = some name := named (n, name) List.mem_cons_self
    have hrest := ih fun p hp => named p (List.mem_cons_of_mem _ hp)
    rw [heq] at hrest
    refine ⟨⟨hready, ?_⟩, ?_⟩
    · rw [hname]
      exact hrest.1
    · rw [hrest.2, List.filterMap_cons, hname, List.append_assoc]
      rfl
  | case3 done n name rest _ taken left names heq ih =>
    have hrest := ih fun p hp => named p (List.mem_cons_of_mem _ hp)
    rw [heq] at hrest
    exact hrest

theorem takeReady_ne_nil {p : Node × String} (hp : p ∈ left)
    (hready : isReady defined done p.1 = true) : (takeReady defined done left).1 ≠ [] := by
  fun_induction takeReady defined done left with
  | case1 => cases hp
  | case2 => simp
  | case3 done n name rest hn taken left names heq ih =>
    rw [heq] at ih
    rcases List.mem_cons.mp hp with rfl | hp
    · exact absurd hready hn
    · exact ih hp hready

theorem takeAll_perm (defined : List (Option String)) (fuel : Nat) (done : List String)
    (left : List (Node × String)) :
    (takeAll defined fuel done left).Perm (left.map Prod.fst) := by
  fun_induction takeAll defined fuel done left with
  | case1 => exact .refl _
  | case2 fuel done left rest names heq =>
    have hperm := takeReady_perm defined done left
    rw [heq] at hperm
    exact hperm
  | case3 fuel done left taken rest names _ heq ih =>
    have hperm := takeReady_perm defined done left
    rw [heq] at hperm
    exact (ih.append_left taken).trans hperm

theorem classOrder_perm (nodes : List Node) :
    (classOrder nodes).Perm (nodes.filter (·.className?.isSome)) := by
  refine (takeAll_perm _ _ _ _).trans (.of_eq ?_)
  induction nodes with
  | nil => rfl
  | cons n rest ih => cases hname : n.className? <;> simp [hname, ih]

theorem mem_classOrder {nodes : List Node} {n : Node} :
    n ∈ classOrder nodes ↔ n ∈ nodes ∧ n.className?.isSome = true := by
  rw [(classOrder_perm nodes).mem_iff, List.mem_filter]

/-! ### Bases first -/

/-- The class `m` of the file is a base of `n`, by a plain name. -/
def LocalBase (nodes : List Node) (m n : Node) : Prop :=
  m ∈ nodes ∧ ∃ base ∈ n.bases, base.kind = .identifier ∧ m.className? = some base.text

/-- No class waits for one without a name: a plain base that a class among the nodes bears as its
text is not empty. -/
def AwaitsNamed (nodes : List Node) : Prop :=
  ∀ n ∈ nodes, n.className?.isSome = true → ∀ base ∈ n.bases, base.kind = .identifier →
    some base.text ∈ nodes.map Node.nameText? → base.text ≠ ""

instance (nodes : List Node) : Decidable (AwaitsNamed nodes) :=
  inferInstanceAs (Decidable (∀ n ∈ nodes, _))

/-- No class has an empty text for its name. -/
def NamesFilled (nodes : List Node) : Prop := ∀ n ∈ nodes, n.nameText? ≠ some ""

instance (nodes : List Node) : Decidable (NamesFilled nodes) :=
  inferInstanceAs (Decidable (∀ n ∈ nodes, _))

theorem NamesFilled.awaitsNamed {nodes : List Node} (h : NamesFilled nodes) :
    AwaitsNamed nodes := by
  rintro n - - base - - hborn htext
  obtain ⟨m, hm, hname⟩ := List.mem_map.mp hborn
  exact h m hm (by rw [hname, htext])

/-- Of the classes left one is ready, where each class is left or done and no class inherits from
itself. -/
theorem exists_ready {nodes : List Node} (acyclic : Acyclic (LocalBase nodes))
    (awaits : AwaitsNamed nodes)
    (named : Named left) (hleft : ∀ p ∈ left, p.1 ∈ nodes)
    (covers : ∀ m ∈ nodes, ∀ name, m.className? = some name → (m, name) ∈ left ∨ name ∈ done)
    (hne : left ≠ []) : ∃ p ∈ left, isReady (nodes.map Node.nameText?) done p.1 = true := by
  have hwf := acyclic.wellFounded fun m n (h : LocalBase nodes m n) => h.1
  obtain ⟨p, hp⟩ := List.exists_mem_of_ne_nil left hne
  -- A class that is least among those left waits for nothing.
  obtain ⟨n, ⟨q, hq, rfl⟩, hmin⟩ := hwf.has_min {n | ∃ q ∈ left, q.1 = n} ⟨p.1, p, hp, rfl⟩
  refine ⟨q, hq, List.all_eq_true.mpr fun base hbase => ?_⟩
  rw [Bool.not_eq_true']
  refine Bool.eq_false_iff.mpr fun hwaits => ?_
  simp only [Bool.and_eq_true, beq_iff_eq, List.contains_iff_mem, Bool.not_eq_true',
    List.mem_map] at hwaits
  obtain ⟨⟨hkind, m, hm, htext⟩, hdone⟩ := hwaits
  have hname : m.className? = some base.text := by
    rw [Node.className?, htext, Option.filter_some, if_pos]
    have hnamed : q.1.className?.isSome = true := by
      rw [named q hq]
      rfl
    simpa using awaits q.1 (hleft q hq) hnamed base hbase hkind (List.mem_map.mpr ⟨m, hm, htext⟩)
  rcases covers m hm base.text hname with hmem | hmem
  · exact hmin m ⟨_, hmem, rfl⟩ ⟨hm, base, hbase, hkind, hname⟩
  · simp [hmem] at hdone

theorem takeAll_inTurn {nodes : List Node} (acyclic : Acyclic (LocalBase nodes))
    (awaits : AwaitsNamed nodes)
    {fuel : Nat} (hfuel : left.length ≤ fuel) (named : Named left)
    (hleft : ∀ p ∈ left, p.1 ∈ nodes)
    (covers : ∀ m ∈ nodes, ∀ name, m.className? = some name → (m, name) ∈ left ∨ name ∈ done) :
    InTurn (nodes.map Node.nameText?) done
      (takeAll (nodes.map Node.nameText?) fuel done left) := by
  induction fuel generalizing done left with
  | zero =>
    obtain rfl := List.length_eq_zero_iff.mp (Nat.le_zero.mp hfuel)
    trivial
  | succ fuel ih =>
    have hsub := takeReady_sublist (nodes.map Node.nameText?) done left
    have hperm := takeReady_perm (nodes.map Node.nameText?) done left
    have hturn := @takeReady_inTurn (nodes.map Node.nameText?) done left named
    rw [takeAll]
    split
    · next rest names heq =>
      rw [heq] at hsub
      by_cases hne : left = []
      · subst hne
        obtain rfl : rest = [] := List.sublist_nil.mp hsub
        trivial
      · obtain ⟨p, hp, hready⟩ := exists_ready acyclic awaits named hleft covers hne
        exact absurd (congrArg Prod.fst heq) (takeReady_ne_nil hp hready)
    · next taken rest names htaken heq =>
      rw [heq] at hsub hperm hturn
      refine inTurn_append.mpr ⟨hturn.1, ?_⟩
      rw [← hturn.2]
      refine ih ?_ (fun p hp => named p (hsub.subset hp)) (fun p hp => hleft p (hsub.subset hp)) ?_
      · have hlength := hperm.length_eq
        have hpos : 0 < taken.length := List.length_pos_iff.mpr htaken
        simp only [List.length_append, List.length_map] at hlength
        omega
      · -- After the pass each class is still left, or its name is done.
        intro m hm name hname
        rcases covers m hm name hname with hmem | hmem
        · have hm' : m ∈ taken ++ rest.map Prod.fst :=
            hperm.mem_iff.mpr (List.mem_map_of_mem hmem)
          rcases List.mem_append.mp hm' with htake | hrest
          · right
            rw [hturn.2]
            exact List.mem_append_right _ (List.mem_filterMap.mpr ⟨m, htake, hname⟩)
          · obtain ⟨q, hq, rfl⟩ := List.mem_map.mp hrest
            have hq2 := named q (hsub.subset hq)
            rw [hname] at hq2
            left
            rw [Option.some.inj hq2]
            exact hq
        · right
          rw [hturn.2]
          exact List.mem_append_left _ hmem

theorem InTurn.pairwise {nodes order : List Node} (hsub : ∀ n ∈ order, n ∈ nodes)
    (hturn : InTurn (nodes.map Node.nameText?) done order)
    (distinct : (done ++ order.filterMap Node.className?).Nodup) :
    order.Pairwise fun a b => ¬ LocalBase nodes b a := by
  induction order generalizing done with
  | nil => exact .nil
  | cons n rest ih =>
    refine List.pairwise_cons.mpr
      ⟨?_, ih (fun m hm => hsub m (List.mem_cons_of_mem _ hm)) hturn.2 ?_⟩
    · rintro m hm ⟨hmem, base, hbase, hkind, hname⟩
      have hready := List.all_eq_true.mp hturn.1 base hbase
      have hdefined : some base.text ∈ nodes.map Node.nameText? := by
        refine List.mem_map.mpr ⟨m, hmem, ?_⟩
        exact (Option.filter_eq_some_iff.mp hname).1
      have hdone : base.text ∈ done := by simpa [hkind, hdefined] using hready
      -- The name is done and belongs to a class that follows.
      have hlater : base.text ∈ (n :: rest).filterMap Node.className? :=
        List.mem_filterMap.mpr ⟨m, List.mem_cons_of_mem _ hm, hname⟩
      exact (List.nodup_append.mp distinct).2.2 _ hdone _ hlater rfl
    · cases hname : n.className? with
      | none => simpa [hname] using distinct
      | some name => simpa [hname] using distinct

/-- Where the names are distinct and no class inherits from itself, no class is taken before one of
its bases. -/
theorem classOrder_pairwise {nodes : List Node} (acyclic : Acyclic (LocalBase nodes))
    (awaits : AwaitsNamed nodes)
    (distinct : (nodes.filterMap Node.className?).Nodup) :
    (classOrder nodes).Pairwise fun a b => ¬ LocalBase nodes b a := by
  have hmem {p : Node × String} :
      p ∈ nodes.filterMap (fun n => n.className?.map fun name => (n, name)) ↔
        p.1 ∈ nodes ∧ p.1.className? = some p.2 := by
    obtain ⟨n, name⟩ := p
    constructor
    · intro hp
      obtain ⟨m, hm, heq⟩ := List.mem_filterMap.mp hp
      obtain ⟨name', hname, hpair⟩ := Option.map_eq_some_iff.mp heq
      obtain ⟨rfl, rfl⟩ := Prod.mk.inj hpair
      exact ⟨hm, hname⟩
    · rintro ⟨hn, hname⟩
      exact List.mem_filterMap.mpr ⟨n, hn, Option.map_eq_some_iff.mpr ⟨name, hname, rfl⟩⟩
  have hturn : InTurn (nodes.map Node.nameText?) [] (classOrder nodes) :=
    takeAll_inTurn acyclic awaits (Nat.le_refl _) (fun p hp => (hmem.mp hp).2)
      (fun p hp => (hmem.mp hp).1) fun m hm name hname => .inl (hmem.mpr ⟨hm, hname⟩)
  refine hturn.pairwise (fun n hn => (mem_classOrder.mp hn).1) ?_
  have hperm := (classOrder_perm nodes).filterMap Node.className?
  have hnames : (nodes.filter (·.className?.isSome)).filterMap Node.className? =
      nodes.filterMap Node.className? := by
    rw [List.filterMap_filter]
    congr 1
    funext n
    cases n.className? <;> rfl
  rw [hnames] at hperm
  exact hperm.nodup_iff.mpr distinct

end ParamLens.Analysis
