import Mathlib.Data.List.Perm.Subperm
import ParamLens.Library.Order
import ParamLens.Proofs.Acyclic

/-! Orders by dependencies. An item is put in its place when as much is done as it waits for. If it
waits for all of its dependencies among the items, it comes after them, and without circles every
item gets its place. -/

namespace ParamLens.Library

open Relation

variable {α : Type} {items : List α} {dependencies : α → List α} {degree : α → Nat}

/-- In the list every item comes after those of its dependencies that are among the items. -/
def Supported (items : List α) (dependencies : α → List α) (order : List α) : Prop :=
  ∀ before item after, order = before ++ item :: after →
    ∀ dependency ∈ dependencies item, dependency ∈ items → dependency ∈ before

theorem Supported.nil : Supported items dependencies [] := by
  intro before item after h
  cases before <;> cases h

theorem Supported.append {done : List α} (h : Supported items dependencies done) {current : α}
    (hdone : ∀ dependency ∈ dependencies current, dependency ∈ items → dependency ∈ done) :
    Supported items dependencies (done ++ [current]) := by
  intro before item after heq
  rcases List.eq_nil_or_concat after with rfl | ⟨rest, last, rfl⟩
  · obtain ⟨rfl, hitem⟩ := List.append_inj' heq rfl
    obtain rfl := List.head_eq_of_cons_eq hitem
    exact hdone
  · rw [List.concat_eq_append, ← List.cons_append, ← List.append_assoc] at heq
    exact h before item rest (List.append_inj' heq rfl).1

/-! ### One step -/

variable [BEq α]

/-- The number of an item's dependencies that are done. -/
def doneCount (dependencies : α → List α) (done : List α) (item : α) : Nat :=
  (done.filter (dependencies item).contains).length

/-- Every item waits until its dependencies among the items are done. -/
def Waits (items : List α) (dependencies : α → List α) (degree : α → Nat) : Prop :=
  ∀ done, done.Nodup → (∀ item ∈ done, item ∈ items) → ∀ item ∈ items,
    degree item ≤ doneCount dependencies done item ↔
      ∀ dependency ∈ dependencies item, dependency ∈ items → dependency ∈ done

/-- The items that are done or in the queue are distinct, and they are those for which enough is
done. -/
structure Released (items : List α) (dependencies : α → List α) (degree : α → Nat)
    (queue done : List α) : Prop where
  distinct : (done ++ queue).Nodup
  known : ∀ item ∈ done ++ queue, item ∈ items
  exact : ∀ item ∈ items,
    item ∈ done ++ queue ↔ degree item ≤ doneCount dependencies done item

theorem Released.start (distinct : items.Nodup) :
    Released items dependencies degree (items.filter fun item => degree item == 0) [] := by
  refine ⟨distinct.filter _, fun item hitem => (List.mem_filter.mp hitem).1, fun item hitem => ?_⟩
  simp [doneCount, List.mem_filter, hitem]

variable [LawfulBEq α]

theorem doneCount_append (done : List α) (current item : α) :
    doneCount dependencies (done ++ [current]) item =
      doneCount dependencies done item + if current ∈ dependencies item then 1 else 0 := by
  simp only [doneCount, List.filter_append, List.length_append, List.filter_cons, List.filter_nil,
    List.contains_eq_mem, decide_eq_true_eq]
  split <;> rfl

theorem mem_freedBy {done : List α} {current item : α} :
    item ∈ freedBy items dependencies degree done current ↔
      item ∈ items ∧ current ∈ dependencies item ∧
        doneCount dependencies done item = degree item := by
  rw [freedBy, List.mem_filter, Bool.and_eq_true, List.contains_iff_mem, beq_iff_eq]
  rfl

theorem Released.step (distinct : items.Nodup) {current : α} {queue done : List α}
    (h : Released items dependencies degree (current :: queue) done) :
    Released items dependencies degree
      (queue ++ freedBy items dependencies degree (done ++ [current]) current)
      (done ++ [current]) := by
  have hsame : done ++ [current] ++
      (queue ++ freedBy items dependencies degree (done ++ [current]) current) =
      (done ++ current :: queue) ++
        freedBy items dependencies degree (done ++ [current]) current := by simp
  refine ⟨?_, fun item hitem => ?_, fun item hitem => ?_⟩
  · rw [hsame, List.nodup_append]
    refine ⟨h.distinct, distinct.filter _, fun a ha b hb heq => ?_⟩
    -- What becomes free now was not free before, as one dependency was still missing.
    obtain ⟨hitem, hdependency, hcount⟩ := mem_freedBy.mp hb
    rw [heq, h.exact b hitem] at ha
    rw [doneCount_append, if_pos hdependency] at hcount
    omega
  · rw [hsame] at hitem
    rcases List.mem_append.mp hitem with hold | hnew
    · exact h.known item hold
    · exact (mem_freedBy.mp hnew).1
  · rw [hsame, List.mem_append, h.exact item hitem, mem_freedBy, doneCount_append]
    split
    · next hdependency =>
      simp only [hitem, hdependency, true_and]
      omega
    · next hdependency => simp [hdependency]

/-! ### The whole order -/

/-- The run stops when the queue is empty or every item is done. -/
theorem exists_released_freeOrder (distinct : items.Nodup) (waits : Waits items dependencies degree)
    {fuel : Nat} {queue done : List α} (h : Released items dependencies degree queue done)
    (supported : Supported items dependencies done) (hfuel : items.length ≤ fuel + done.length) :
    ∃ rest, Released items dependencies degree rest
        (freeOrder items dependencies degree fuel queue done) ∧
      Supported items dependencies (freeOrder items dependencies degree fuel queue done) ∧
      (rest = [] ∨ items ⊆ freeOrder items dependencies degree fuel queue done) := by
  induction fuel generalizing queue done with
  | zero =>
    -- The fuel is used up when as many items are done as there are.
    refine ⟨queue, h, supported, .inr fun item hitem => ?_⟩
    have hsub : done.Subperm items := List.subperm_of_subset (List.nodup_append.mp h.distinct).1
      fun item hdone => h.known item (List.mem_append_left _ hdone)
    rw [Nat.zero_add] at hfuel
    exact (hsub.perm_of_length_le hfuel).mem_iff.mpr hitem
  | succ fuel ih =>
    cases queue with
    | nil => exact ⟨[], h, supported, .inl rfl⟩
    | cons current queue =>
      have hknown : ∀ item ∈ done, item ∈ items :=
        fun item hdone => h.known item (List.mem_append_left _ hdone)
      have hcurrent : current ∈ done ++ current :: queue :=
        List.mem_append_right _ List.mem_cons_self
      have hitem := h.known current hcurrent
      have hready := (waits done (List.nodup_append.mp h.distinct).1 hknown current hitem).mp
        ((h.exact current hitem).mp hcurrent)
      refine ih (h.step distinct) (supported.append hready) ?_
      rw [List.length_append, List.length_singleton]
      omega

/-- The item `b` depends on `a`, and both are among the items. -/
def DependsWithin (items : List α) (dependencies : α → List α) (a b : α) : Prop :=
  a ∈ items ∧ b ∈ items ∧ a ∈ dependencies b

/-- Neither the item nor anything that it depends on, directly or not, lies on a circle. -/
def ClearOfCircles (items : List α) (dependencies : α → List α) (item : α) : Prop :=
  ∀ a, ReflTransGen (DependsWithin items dependencies) a item →
    ¬ TransGen (DependsWithin items dependencies) a a

omit [LawfulBEq α] in
theorem Released.mem_of_clear (waits : Waits items dependencies degree) {done : List α}
    (h : Released items dependencies degree [] done) {item : α} (hitem : item ∈ items)
    (clear : ClearOfCircles items dependencies item) : item ∈ done := by
  let above (a b : α) : Prop := DependsWithin items dependencies a b ∧
    ReflTransGen (DependsWithin items dependencies) b item
  have hacyclic : Acyclic above := by
    intro a hcircle
    obtain ⟨b, hfirst, -⟩ := TransGen.head'_iff.mp hcircle
    exact clear a (hfirst.2.head hfirst.1) (hcircle.lift id fun _ _ hstep => hstep.1)
  have hnodup := (List.nodup_append.mp h.distinct).1
  have hknown : ∀ a ∈ done, a ∈ items := fun a ha => h.known a (List.mem_append_left _ ha)
  have hall : ∀ b, b ∈ items → ReflTransGen (DependsWithin items dependencies) b item →
      b ∈ done := by
    intro b
    induction b using (hacyclic.wellFounded fun a b hstep => hstep.1.1).induction with
    | _ b ih =>
      intro hb hreach
      have hready := (waits done hnodup hknown b hb).mpr fun a hdependency ha =>
        ih a ⟨⟨ha, hb, hdependency⟩, hreach⟩ ha (hreach.head ⟨ha, hb, hdependency⟩)
      simpa using (h.exact b hb).mpr hready
  exact hall item hitem .refl

/-- The free items come after their dependencies, and all that are clear of circles are free. -/
theorem freeOrder_supported (distinct : items.Nodup) (waits : Waits items dependencies degree) :
    Supported items dependencies (freeOrder items dependencies degree items.length
        (items.filter fun item => degree item == 0) []) ∧
      ∀ item ∈ items, ClearOfCircles items dependencies item →
        item ∈ freeOrder items dependencies degree items.length
          (items.filter fun item => degree item == 0) [] := by
  obtain ⟨rest, hreleased, hsupported, hend⟩ := exists_released_freeOrder distinct waits
    (Released.start distinct) Supported.nil (Nat.le_add_right _ _)
  refine ⟨hsupported, fun item hitem clear => ?_⟩
  rcases hend with rfl | hsub
  · exact hreleased.mem_of_clear waits hitem clear
  · exact hsub hitem

/-- An item that is clear of circles comes after its dependencies among the items. -/
theorem orderBy_split_of_clear (distinct : items.Nodup) (waits : Waits items dependencies degree)
    {item : α} (hitem : item ∈ items) (clear : ClearOfCircles items dependencies item) :
    ∃ before after, orderBy items dependencies degree = before ++ item :: after ∧
      ∀ dependency ∈ dependencies item, dependency ∈ items → dependency ∈ before := by
  obtain ⟨hsupported, hfree⟩ := freeOrder_supported distinct waits
  obtain ⟨before, after, hsplit⟩ := List.append_of_mem (hfree item hitem clear)
  refine ⟨before, after ++ items.filter fun a => !(before ++ item :: after).contains a, ?_,
    hsupported before item after hsplit⟩
  rw [orderBy, hsplit, List.append_assoc, List.cons_append]

theorem mem_of_mem_freeOrder {fuel : Nat} {queue done : List α} {item : α}
    (h : item ∈ freeOrder items dependencies degree fuel queue done)
    (hqueue : ∀ a ∈ queue, a ∈ items) (hdone : ∀ a ∈ done, a ∈ items) : item ∈ items := by
  fun_induction freeOrder items dependencies degree fuel queue done with
  | case1 => exact hdone item h
  | case2 => exact hdone item h
  | case3 fuel current queue done ih =>
    refine ih h (fun a ha => ?_) fun a ha => ?_
    · rcases List.mem_append.mp ha with hold | hnew
      · exact hqueue a (List.mem_cons_of_mem _ hold)
      · exact (mem_freedBy.mp hnew).1
    · rcases List.mem_append.mp ha with hold | hcurrent
      · exact hdone a hold
      · rw [List.mem_singleton.mp hcurrent]
        exact hqueue current List.mem_cons_self

theorem mem_of_mem_orderBy {item : α} (h : item ∈ orderBy items dependencies degree) :
    item ∈ items := by
  rcases List.mem_append.mp h with hfree | hleft
  · exact mem_of_mem_freeOrder hfree (fun a ha => (List.mem_filter.mp ha).1)
      fun a ha => absurd ha List.not_mem_nil
  · exact (List.mem_filter.mp hleft).1

theorem mem_orderBy {item : α} : item ∈ orderBy items dependencies degree ↔ item ∈ items := by
  refine ⟨mem_of_mem_orderBy, fun hitem => ?_⟩
  rw [orderBy, List.mem_append, List.mem_filter]
  by_cases hfree : item ∈ freeOrder items dependencies degree items.length
    (items.filter fun item => degree item == 0) []
  · exact .inl hfree
  · exact .inr ⟨hitem, by simpa using hfree⟩

theorem exists_released (distinct : items.Nodup) {fuel : Nat} {queue done : List α}
    (h : Released items dependencies degree queue done) :
    ∃ rest, Released items dependencies degree rest
      (freeOrder items dependencies degree fuel queue done) := by
  fun_induction freeOrder items dependencies degree fuel queue done with
  | case1 => exact ⟨_, h⟩
  | case2 => exact ⟨_, h⟩
  | case3 fuel current queue done ih => exact ih (h.step distinct)

/-- Whatever the items wait for, none of them is put in two places. -/
theorem nodup_orderBy (distinct : items.Nodup) : (orderBy items dependencies degree).Nodup := by
  have hstart : Released items dependencies degree
      (items.filter fun item => degree item == 0) [] := Released.start distinct
  obtain ⟨rest, hreleased⟩ := exists_released distinct hstart
  rw [orderBy, List.nodup_append]
  refine ⟨(List.nodup_append.mp hreleased.distinct).1, distinct.filter _, fun a ha b hb heq => ?_⟩
  have hnot := (List.mem_filter.mp hb).2
  rw [← heq] at hnot
  simp [ha] at hnot

/-- Whatever the items wait for, none of them is lost. -/
theorem orderBy_perm (distinct : items.Nodup) : (orderBy items dependencies degree).Perm items :=
  (List.perm_ext_iff_of_nodup (nodup_orderBy distinct) distinct).mpr fun _ => mem_orderBy

/-- Without circles every item comes after its dependencies, and none is left over. -/
theorem orderBy_supported (distinct : items.Nodup) (waits : Waits items dependencies degree)
    (acyclic : Acyclic fun a b => a ∈ items ∧ b ∈ items ∧ a ∈ dependencies b) :
    Supported items dependencies (orderBy items dependencies degree) ∧
      (orderBy items dependencies degree).Perm items := by
  obtain ⟨hsupported, hfree⟩ := freeOrder_supported distinct waits
  refine ⟨?_, orderBy_perm distinct⟩
  have hnone : (items.filter fun item => !(freeOrder items dependencies degree items.length
      (items.filter fun item => degree item == 0) []).contains item) = [] :=
    List.filter_eq_nil_iff.mpr fun item hitem => by
      simp [hfree item hitem fun a _ => acyclic a]
  rw [orderBy, hnone, List.append_nil]
  exact hsupported

/-- A class waits for all of its bases among the classes, if it lists none of them twice. -/
theorem waits_orderClasses {bases : α → List α} (distinct : ∀ c ∈ items, (bases c).Nodup) :
    Waits items bases fun c => ((bases c).filter items.contains).length := by
  intro done hnodup hknown c hc
  have hneeded : ((bases c).filter items.contains).Nodup := (distinct c hc).filter _
  have hcounted : (done.filter (bases c).contains).Nodup := hnodup.filter _
  constructor
  · intro hle base hbase hmem
    have hsub : (done.filter (bases c).contains).Subperm ((bases c).filter items.contains) := by
      refine List.subperm_of_subset hcounted fun a ha => ?_
      obtain ⟨hdone, hlisted⟩ := List.mem_filter.mp ha
      exact List.mem_filter.mpr ⟨by simpa using hlisted, by simpa using hknown a hdone⟩
    have hperm := hsub.perm_of_length_le hle
    exact (List.mem_filter.mp (hperm.mem_iff.mpr
      (List.mem_filter.mpr ⟨hbase, by simpa using hmem⟩))).1
  · intro hall
    refine (List.subperm_of_subset hneeded fun base hbase => ?_).length_le
    obtain ⟨hlisted, hmem⟩ := List.mem_filter.mp hbase
    exact List.mem_filter.mpr ⟨hall base hlisted (by simpa using hmem), by simpa using hlisted⟩

/-- Without circles of inheritance every class comes after its bases. -/
theorem orderClasses_supported {bases : α → List α} (distinct : items.Nodup)
    (once : ∀ c ∈ items, (bases c).Nodup)
    (acyclic : Acyclic fun a b => a ∈ items ∧ b ∈ items ∧ a ∈ bases b) :
    Supported items bases (orderClasses items bases) ∧ (orderClasses items bases).Perm items :=
  orderBy_supported distinct (waits_orderClasses once) acyclic

end ParamLens.Library
