import ParamLens.Proofs.Ordering

/-! Orders by dependencies, round by round. Every item has a count of the dependencies that it still
misses. In a round the first item of the queue is put in its place, and the counts of the items that
depend on it go down; an item whose count reaches zero goes to the queue. The rounds come to an end
whatever circles there are, no item is lost or put in two places, and an item whose dependencies are
clear of circles comes after them. -/

namespace ParamLens.Library

open Relation

variable {α : Type}

/-! ### Rounds -/

/-- How far items are put in order: how many dependencies each of them misses, those whose turn has
come, those that were ever in the queue, and those in their places. -/
structure Standing (α : Type) where
  missing : α → Int
  queue : List α
  seen : List α
  done : List α

section

variable [BEq α] (once : Bool) (items : List α) (dependencies : α → List α)

/-- Before the first round each item misses as many dependencies as it waits for. -/
def Standing.start (degree : α → Nat) : Standing α where
  missing item := degree item
  queue := items.filter fun item => degree item == 0
  seen := items.filter fun item => degree item == 0
  done := []

/-- The count of an item goes down when `current` gets its place. With `once`, an item that was in
the queue before is passed over. -/
def Standing.lowers (s : Standing α) (current item : α) : Bool :=
  !(once && s.seen.contains item) && (dependencies item).contains current

/-- The items whose counts reach zero when `current` gets its place. -/
def Standing.freed (s : Standing α) (current : α) : List α :=
  items.filter fun item => s.lowers once dependencies current item && s.missing item - 1 == 0

/-- One round; there is none when the queue is empty. -/
def Standing.round (s : Standing α) : Option (Standing α) :=
  match s.queue with
  | [] => none
  | current :: queue => some
    { missing := fun item =>
        s.missing item - if s.lowers once dependencies current item then 1 else 0
      queue := queue ++ s.freed once items dependencies current
      seen := s.seen ++ s.freed once items dependencies current
      done := s.done ++ [current] }

/-- The rounds come to an end, and the items that are not in their places by then follow in their
given order. -/
def OrderedByRounds (degree : α → Nat) (order : List α) : Prop :=
  ∃ last : Standing α,
    ReflTransGen (fun s t : Standing α => s.round once items dependencies = some t)
      (.start items degree) last ∧
    last.round once items dependencies = none ∧
    order = last.done ++ items.filter fun item => !last.done.contains item

end

/-! ### Counts -/

section

variable [BEq α] {once : Bool} {items : List α} {dependencies : α → List α} {degree : α → Nat}

/-- An item that was not in the queue yet misses what it waits for less what is done of it, and one
that was there misses nothing. -/
structure Standing.Tallied (items : List α) (dependencies : α → List α) (degree : α → Nat)
    (s : Standing α) : Prop extends Released items dependencies degree s.queue s.done where
  seen : ∀ item, item ∈ s.seen ↔ item ∈ s.done ++ s.queue
  waiting : ∀ item ∈ items, item ∉ s.seen →
    s.missing item = degree item - doneCount dependencies s.done item
  through : ∀ item ∈ items, item ∈ s.seen → s.missing item ≤ 0

theorem Standing.tallied_start (distinct : items.Nodup) :
    (Standing.start items degree).Tallied items dependencies degree := by
  refine ⟨Released.start distinct, fun item => Iff.rfl, fun item _ _ => ?_, fun item _ hseen => ?_⟩
  · simp [start, doneCount]
  · have hzero : degree item = 0 := by simpa using (List.mem_filter.mp hseen).2
    simp [start, hzero]

variable [LawfulBEq α] {s : Standing α} {current : α} {queue : List α}

theorem Standing.Tallied.freed_eq (once : Bool) (h : s.Tallied items dependencies degree)
    (current : α) : s.freed once items dependencies current =
      freedBy items dependencies degree (s.done ++ [current]) current := by
  refine List.filter_congr fun item hitem => ?_
  show (s.lowers once dependencies current item && s.missing item - 1 == 0) =
    ((dependencies item).contains current &&
      doneCount dependencies (s.done ++ [current]) item == degree item)
  rw [lowers, doneCount_append]
  by_cases hdependency : current ∈ dependencies item
  · by_cases hseen : item ∈ s.seen
    · -- It was free before: its count is not one, and more is done than it waits for.
      have hmissing := h.through item hitem hseen
      have hle := (h.exact item hitem).mp ((h.seen item).mp hseen)
      have hleft : (s.missing item - 1 == 0) = false := by
        rw [beq_eq_false_iff_ne]
        omega
      have hright : (doneCount dependencies s.done item + 1 == degree item) = false := by
        rw [beq_eq_false_iff_ne]
        omega
      simp [hdependency, hleft, hright]
    · have hmissing := h.waiting item hitem hseen
      simp only [hdependency, hseen, List.contains_eq_mem, decide_true, decide_false,
        Bool.and_false, Bool.not_false, Bool.true_and, if_true, hmissing]
      rw [Bool.eq_iff_iff, beq_iff_eq, beq_iff_eq]
      omega
  · simp [hdependency]

theorem Standing.Tallied.round (once : Bool) (distinct : items.Nodup)
    (h : s.Tallied items dependencies degree) (hqueue : s.queue = current :: queue) :
    ∃ next : Standing α, s.round once items dependencies = some next ∧
      next.queue = queue ++ freedBy items dependencies degree (s.done ++ [current]) current ∧
      next.done = s.done ++ [current] ∧ next.Tallied items dependencies degree := by
  have hfreed := h.freed_eq once current
  have hreleased : Released items dependencies degree (current :: queue) s.done :=
    hqueue ▸ h.toReleased
  refine ⟨_, by rw [Standing.round, hqueue], by rw [hfreed], rfl, ?_, fun item => ?_,
    fun item hitem hnot => ?_, fun item hitem hmem => ?_⟩
  · dsimp only
    rw [hfreed]
    exact hreleased.step distinct
  · have hseen := h.seen item
    rw [hqueue] at hseen
    simp only [List.mem_append, List.mem_cons, List.not_mem_nil, or_false] at hseen ⊢
    tauto
  · have hunseen : item ∉ s.seen := fun hmem => hnot (List.mem_append_left _ hmem)
    have hmissing := h.waiting item hitem hunseen
    dsimp only
    rw [doneCount_append, hmissing, lowers]
    by_cases hdependency : current ∈ dependencies item
    · simp [hunseen, hdependency]
      omega
    · simp [hdependency]
  · dsimp only
    rcases List.mem_append.mp hmem with hseen | hfree
    · have hmissing := h.through item hitem hseen
      split <;> omega
    · obtain ⟨hlowers, hzero⟩ := Bool.and_eq_true_iff.mp (List.mem_filter.mp hfree).2
      rw [if_pos hlowers, eq_of_beq hzero]

/-! ### The whole order -/

omit [LawfulBEq α] in
theorem Standing.round_eq_none_iff : s.round once items dependencies = none ↔ s.queue = [] := by
  rw [Standing.round]
  split <;> simp [*]

/-- The rounds come to an end, with those in their places that become free. -/
theorem Standing.Tallied.exists_last (once : Bool) (distinct : items.Nodup) {fuel : Nat}
    (h : s.Tallied items dependencies degree) (hfuel : items.length ≤ fuel + s.done.length) :
    ∃ last : Standing α,
      ReflTransGen (fun s t : Standing α => s.round once items dependencies = some t) s last ∧
      last.round once items dependencies = none ∧
      last.done = freeOrder items dependencies degree fuel s.queue s.done := by
  induction fuel generalizing s with
  | zero =>
    -- Where as many items are done as there are, none is left for the queue.
    have hlength := (List.subperm_of_subset h.distinct h.known).length_le
    rw [List.length_append] at hlength
    have hempty : s.queue = [] := List.length_eq_zero_iff.mp (by omega)
    exact ⟨s, .refl, round_eq_none_iff.mpr hempty, rfl⟩
  | succ fuel ih =>
    cases hqueue : s.queue with
    | nil => exact ⟨s, .refl, round_eq_none_iff.mpr hqueue, rfl⟩
    | cons current queue =>
      obtain ⟨next, hround, hnext, hdone, htallied⟩ := h.round once distinct hqueue
      have hbound : items.length ≤ fuel + next.done.length := by
        rw [hdone, List.length_append, List.length_singleton]
        omega
      obtain ⟨last, hrun, hend, hlast⟩ := ih htallied hbound
      refine ⟨last, .head hround hrun, hend, ?_⟩
      rw [hlast, hnext, hdone]
      rfl

theorem orderedByRounds_orderBy (once : Bool) (distinct : items.Nodup) :
    OrderedByRounds once items dependencies degree (orderBy items dependencies degree) := by
  obtain ⟨last, hrun, hend, hdone⟩ := (Standing.tallied_start distinct).exists_last once
    distinct (Nat.le_add_right items.length 0)
  exact ⟨last, hrun, hend, by rw [hdone]; rfl⟩

theorem waits_orderFiles (distinct : ∀ file ∈ items, (dependencies file).Nodup)
    (known : ∀ file ∈ items, ∀ dependency ∈ dependencies file, dependency ∈ items) :
    Waits items dependencies fun file => (dependencies file).length := by
  intro done hnodup hdone file hfile
  have hall : (dependencies file).filter items.contains = dependencies file :=
    List.filter_eq_self.mpr fun dependency hdependency => by
      simpa using known file hfile dependency hdependency
  have hwaits := waits_orderClasses distinct done hnodup hdone file hfile
  dsimp only at hwaits ⊢
  rwa [hall] at hwaits

end

/-! ### Classes and files -/

theorem clearOfCircles_of_acc {items : List α} {dependencies : α → List α} {item : α}
    (h : Acc (DependsWithin items dependencies) item) : ClearOfCircles items dependencies item :=
  fun _ hreach => not_transGen_of_acc h hreach

theorem acc_of_dependencies {items : List α} {dependencies : α → List α} {item : α}
    (h : ∀ a ∈ dependencies item, a ∈ items → Acc (DependsWithin items dependencies) a) :
    Acc (DependsWithin items dependencies) item :=
  ⟨_, fun a ha => h a ha.2.2 ha.1⟩

/-- However a set of classes is enumerated and whatever their bases are, the rounds come to an end
with an order of the classes. Where no class lists a base twice, a class comes after all of its
bases in the set if its ancestors in the set are clear of circles. -/
theorem orderClasses_bases_first [BEq α] [LawfulBEq α] {classes : List α}
    (distinct : classes.Nodup) (bases : α → List α) :
    OrderedByRounds true classes bases (fun c => ((bases c).filter classes.contains).length)
        (orderClasses classes bases) ∧
      (orderClasses classes bases).Perm classes ∧
      ((∀ c ∈ classes, (bases c).Nodup) → ∀ c ∈ classes, ClearOfCircles classes bases c →
        ∃ before after, orderClasses classes bases = before ++ c :: after ∧
          ∀ base ∈ bases c, base ∈ classes → base ∈ before) :=
  ⟨orderedByRounds_orderBy true distinct, orderBy_perm distinct, fun once _ hc clear =>
    orderBy_split_of_clear distinct (waits_orderClasses once) hc clear⟩

/-- A diamond of classes, two classes that inherit from each other, and one below both. -/
def clan : List String := ["Leaf", "Hen", "Left", "Mixed", "Right", "Egg", "Base"]

def clanBases (name : String) : List String :=
  ([("Leaf", ["Left", "Right"]), ("Left", ["Base", "param.Parameterized"]), ("Right", ["Base"]),
    ("Hen", ["Egg"]), ("Egg", ["Hen"]), ("Mixed", ["Hen", "Base"])].lookup name).getD []

theorem clear_leaf_of_clan : ClearOfCircles clan clanBases "Leaf" := by
  have hbase : Acc (DependsWithin clan clanBases) "Base" :=
    acc_of_dependencies fun a ha => absurd ha List.not_mem_nil
  have hside : ∀ name ∈ ["Left", "Right"], Acc (DependsWithin clan clanBases) name := by
    intro name hname
    refine acc_of_dependencies fun a ha hmem => ?_
    have hbases : ∀ name ∈ ["Left", "Right"], ∀ a ∈ clanBases name, a ∈ clan → a = "Base" := by
      decide
    exact hbases name hname a ha hmem ▸ hbase
  exact clearOfCircles_of_acc (acc_of_dependencies fun a ha _ => hside a ha)

theorem orderClasses_bases_first_of_clan :
    clan.Nodup ∧ (∀ c ∈ clan, (clanBases c).Nodup) ∧ ClearOfCircles clan clanBases "Leaf" ∧
      orderClasses clan clanBases = ["Base", "Left", "Right", "Leaf", "Hen", "Mixed", "Egg"] ∧
      ∃ before after, orderClasses clan clanBases = before ++ "Leaf" :: after ∧
        ∀ base ∈ clanBases "Leaf", base ∈ clan → base ∈ before := by
  have distinct : clan.Nodup := by decide
  have once : ∀ c ∈ clan, (clanBases c).Nodup := by decide
  exact ⟨distinct, once, clear_leaf_of_clan, by decide,
    (orderClasses_bases_first distinct clanBases).2.2 once "Leaf" (by decide) clear_leaf_of_clan⟩

/-- Whatever the files of a list depend on, the rounds come to an end with an order of the files. In
a graph of dependencies over the files, a file comes after all of its dependencies if they and it
are clear of circles. -/
theorem orderFiles_dependencies_first [BEq α] [LawfulBEq α] {files : List α}
    (distinct : files.Nodup) (dependencies : α → List α) :
    OrderedByRounds false files dependencies (fun file => (dependencies file).length)
        (orderFiles files dependencies) ∧
      (orderFiles files dependencies).Perm files ∧
      ((∀ file ∈ files, (dependencies file).Nodup ∧
          ∀ dependency ∈ dependencies file, dependency ∈ files) →
        ∀ file ∈ files, ClearOfCircles files dependencies file →
          ∃ before after, orderFiles files dependencies = before ++ file :: after ∧
            ∀ dependency ∈ dependencies file, dependency ∈ before) := by
  refine ⟨orderedByRounds_orderBy false distinct, orderBy_perm distinct,
    fun graph file hfile clear => ?_⟩
  have hwaits := waits_orderFiles (fun f hf => (graph f hf).1) fun f hf => (graph f hf).2
  obtain ⟨before, after, hsplit, hbefore⟩ := orderBy_split_of_clear distinct hwaits hfile clear
  exact ⟨before, after, hsplit, fun dependency hdependency =>
    hbefore dependency hdependency ((graph file hfile).2 dependency hdependency)⟩

/-- Files of which one imports from itself and one from that file. -/
def bundle : List String := ["app.py", "loop.py", "util.py", "odd.py", "base.py"]

def bundleImports (file : String) : List String :=
  ([("app.py", ["util.py", "base.py"]), ("util.py", ["base.py"]), ("loop.py", ["loop.py"]),
    ("odd.py", ["loop.py", "base.py"])].lookup file).getD []

theorem clear_app_of_bundle : ClearOfCircles bundle bundleImports "app.py" := by
  have hbase : Acc (DependsWithin bundle bundleImports) "base.py" :=
    acc_of_dependencies fun a ha => absurd ha List.not_mem_nil
  have hutil : Acc (DependsWithin bundle bundleImports) "util.py" :=
    acc_of_dependencies fun a ha _ => List.mem_singleton.mp ha ▸ hbase
  refine clearOfCircles_of_acc (acc_of_dependencies fun a ha _ => ?_)
  have hcases : a = "util.py" ∨ a = "base.py" := by simpa [bundleImports] using ha
  rcases hcases with rfl | rfl
  · exact hutil
  · exact hbase

theorem orderFiles_dependencies_first_of_bundle :
    bundle.Nodup ∧ ClearOfCircles bundle bundleImports "app.py" ∧
      (∀ file ∈ bundle, (bundleImports file).Nodup ∧ ∀ d ∈ bundleImports file, d ∈ bundle) ∧
      orderFiles bundle bundleImports = ["base.py", "util.py", "app.py", "loop.py", "odd.py"] ∧
      ∃ before after, orderFiles bundle bundleImports = before ++ "app.py" :: after ∧
        ∀ d ∈ bundleImports "app.py", d ∈ before := by
  have distinct : bundle.Nodup := by decide
  have graph : ∀ file ∈ bundle, (bundleImports file).Nodup ∧
      ∀ d ∈ bundleImports file, d ∈ bundle := by decide
  exact ⟨distinct, clear_app_of_bundle, graph, by decide,
    (orderFiles_dependencies_first distinct bundleImports).2.2 graph "app.py" (by decide)
      clear_app_of_bundle⟩

end ParamLens.Library
