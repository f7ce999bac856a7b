import ParamLens.Library.Detection
import ParamLens.Proofs.Tables

/-! Which classes come to be marked. Passes over the classes go on until one adds nothing. That
happens after finitely many of them, and what is marked then is the least set that holds the names
marked at the start, the roots, the classes that list a root, and every class with a base that names
a member. So the order of the classes does not matter. -/

namespace ParamLens.Library

section

variable (isRoot : String → Bool) (names : List String → String → Bool)
  (bases : Table (List String))

/-- Every class that is a root, lists a root, or has a base that names a member is a member. -/
def ClosedUnder (members : List String) : Prop :=
  ∀ name listed, (name, listed) ∈ bases.entries →
    isRoot name = true ∨ listed.any isRoot = true ∨ listed.any (names members) = true →
    name ∈ members

/-- The least set that holds the names at the start and is closed under the rules of marking. -/
structure LeastClosed (start result : List String) : Prop where
  above : start ⊆ result
  closed : ClosedUnder isRoot names bases result
  least : ∀ members, start ⊆ members → ClosedUnder isRoot names bases members → result ⊆ members

/-- Passes that go on until one adds nothing, however many it takes. -/
inductive Settles : List String → List String → Prop
  | done {marked : List String} : sweep names bases marked = marked → Settles marked marked
  | more {marked result : List String} : sweep names bases marked ≠ marked →
      Settles (sweep names bases marked) result → Settles marked result

/-- What is marked before the first pass. -/
def begun (start : List String) : List String :=
  markWhere (fun _ listed => listed.any isRoot) bases
    (markWhere (fun name _ => isRoot name) bases start)

end

variable {isRoot : String → Bool} {names : List String → String → Bool}
  {bases : Table (List String)} {marked next start result : List String}

/-! ### One pass -/

/-- The second list is the first one with further classes, each once. -/
def Extends (bases : Table (List String)) (marked next : List String) : Prop :=
  ∃ added, next = marked ++ added ∧ added.Nodup ∧
    ∀ name ∈ added, name ∈ bases.names ∧ name ∉ marked

theorem Extends.refl (bases : Table (List String)) (marked : List String) :
    Extends bases marked marked :=
  ⟨[], by simp⟩

theorem Extends.trans {last : List String} (h : Extends bases marked next)
    (h' : Extends bases next last) : Extends bases marked last := by
  obtain ⟨added, rfl, hnodup, hadded⟩ := h
  obtain ⟨added', rfl, hnodup', hadded'⟩ := h'
  refine ⟨added ++ added', List.append_assoc _ _ _, ?_, fun name hname => ?_⟩
  · rw [List.nodup_append]
    refine ⟨hnodup, hnodup', fun a ha b hb heq => ?_⟩
    exact (hadded' b hb).2 (List.mem_append_right _ (heq ▸ ha))
  · rcases List.mem_append.mp hname with hold | hnew
    · exact hadded name hold
    · exact ⟨(hadded' name hnew).1, fun h => (hadded' name hnew).2 (List.mem_append_left _ h)⟩

theorem Extends.append {name : String} (hname : name ∈ bases.names) (hnew : name ∉ marked) :
    Extends bases marked (marked ++ [name]) :=
  ⟨[name], by simp [hname, hnew]⟩

theorem Extends.subset (h : Extends bases marked next) : marked ⊆ next := by
  obtain ⟨added, rfl, -⟩ := h
  exact List.subset_append_left _ _

theorem Extends.nodup (h : Extends bases marked next) (hmarked : marked.Nodup) : next.Nodup := by
  obtain ⟨added, rfl, hnodup, hadded⟩ := h
  rw [List.nodup_append]
  exact ⟨hmarked, hnodup, fun a ha b hb heq => (hadded b hb).2 (heq ▸ ha)⟩

theorem Extends.eq_of_length_le (h : Extends bases marked next)
    (hle : next.length ≤ marked.length) : next = marked := by
  obtain ⟨added, rfl, -⟩ := h
  have hnil : added = [] := by
    rw [List.length_append] at hle
    exact List.eq_nil_of_length_eq_zero (by omega)
  simp [hnil]

theorem Extends.length_le (h : Extends bases marked next) :
    next.length ≤ marked.length + bases.size := by
  obtain ⟨added, rfl, hnodup, hadded⟩ := h
  have hle := bases.length_le_size hnodup fun name hname => (hadded name hname).1
  rw [List.length_append]
  omega

theorem extends_mark {name : String} (hname : name ∈ bases.names) :
    Extends bases marked (mark marked name) := by
  unfold mark
  split
  · exact Extends.refl bases marked
  · next hnew => exact Extends.append hname (by simpa using hnew)

theorem extends_markWhere (test : String → List String → Bool) (marked : List String) :
    Extends bases marked (markWhere test bases marked) := by
  refine List.foldlRecOn _ _ (Extends.refl bases marked) fun found hfound entry hentry => ?_
  dsimp only
  split
  · exact hfound.trans (extends_mark (List.mem_map_of_mem hentry))
  · exact hfound

theorem mem_mark {name asked : String} :
    asked ∈ mark marked name ↔ asked ∈ marked ∨ asked = name := by
  unfold mark
  split
  · next h =>
    have hname : name ∈ marked := by simpa using h
    constructor
    · exact .inl
    · rintro (h | rfl)
      · exact h
      · exact hname
  · simp

theorem mem_markWhere {test : String → List String → Bool} {asked : String} :
    asked ∈ markWhere test bases marked ↔
      asked ∈ marked ∨ ∃ listed, (asked, listed) ∈ bases.entries ∧ test asked listed = true := by
  unfold markWhere
  induction bases.entries generalizing marked with
  | nil => simp
  | cons entry rest ih =>
    obtain ⟨name, listed⟩ := entry
    rw [List.foldl_cons, ih]
    by_cases htest : test name listed = true
    · simp only [if_pos htest, mem_mark]
      constructor
      · rintro ((h | rfl) | ⟨listed', hmem, h⟩)
        · exact .inl h
        · exact .inr ⟨listed, List.mem_cons_self, htest⟩
        · exact .inr ⟨listed', List.mem_cons_of_mem _ hmem, h⟩
      · rintro (h | ⟨listed', hmem, h⟩)
        · exact .inl (.inl h)
        · rcases List.mem_cons.mp hmem with heq | hmem
          · exact .inl (.inr (congrArg Prod.fst heq))
          · exact .inr ⟨listed', hmem, h⟩
    · simp only [if_neg htest]
      refine or_congr_right (exists_congr fun listed' => and_congr_left fun h => ?_)
      rw [List.mem_cons]
      refine ⟨.inr, fun hmem => hmem.resolve_left fun heq => htest ?_⟩
      rw [← (Prod.mk.inj heq).1, ← (Prod.mk.inj heq).2]
      exact h

theorem mem_begun {asked : String} :
    asked ∈ begun isRoot bases start ↔ asked ∈ start ∨ ∃ listed, (asked, listed) ∈ bases.entries ∧
      (isRoot asked = true ∨ listed.any isRoot = true) := by
  unfold begun
  rw [mem_markWhere, mem_markWhere]
  simp only [and_or_left, exists_or, or_assoc]

/-- What a pass does with one class. -/
def visit (names : List String → String → Bool) (marked : List String)
    (entry : String × List String) : List String :=
  if !marked.contains entry.1 && entry.2.any (names marked) then marked ++ [entry.1] else marked

theorem sweep_eq_foldl (names : List String → String → Bool) (bases : Table (List String))
    (marked : List String) : sweep names bases marked = bases.entries.foldl (visit names) marked :=
  rfl

theorem extends_sweep (names : List String → String → Bool) (marked : List String) :
    Extends bases marked (sweep names bases marked) := by
  rw [sweep_eq_foldl]
  refine List.foldlRecOn _ _ (Extends.refl bases marked) fun found hfound entry hentry => ?_
  unfold visit
  split
  · next hnew =>
    refine hfound.trans (Extends.append (List.mem_map_of_mem hentry) ?_)
    simpa using (Bool.and_eq_true_iff.mp hnew).1
  · exact hfound

theorem length_le_foldl_visit (names : List String → String → Bool)
    (entries : List (String × List String)) (marked : List String) :
    marked.length ≤ (entries.foldl (visit names) marked).length := by
  induction entries generalizing marked with
  | nil => exact Nat.le_refl _
  | cons entry rest ih =>
    refine Nat.le_trans ?_ (ih (visit names marked entry))
    unfold visit
    split <;> simp

theorem mem_of_foldl_visit_eq {entries : List (String × List String)}
    (h : entries.foldl (visit names) marked = marked) {name : String} {listed : List String}
    (hentry : (name, listed) ∈ entries) (hnames : listed.any (names marked) = true) :
    name ∈ marked := by
  induction entries with
  | nil => cases hentry
  | cons entry rest ih =>
    rw [List.foldl_cons] at h
    have hvisit : visit names marked entry = marked := by
      -- A class that is added stays, and the list would be longer.
      have hle := length_le_foldl_visit names rest (visit names marked entry)
      rw [h] at hle
      unfold visit at hle ⊢
      split
      · next hnew =>
        rw [if_pos hnew, List.length_append, List.length_singleton] at hle
        omega
      · rfl
    rw [hvisit] at h
    rcases List.mem_cons.mp hentry with rfl | hrest
    · by_contra hnew
      have hadded : visit names marked (name, listed) = marked ++ [name] := by
        simp [visit, hnew, hnames]
      rw [hadded] at hvisit
      simp at hvisit
    · exact ih h hrest

/-! ### All passes -/

/-- The passes come to an end: each one but the last adds a class, and there are finitely many. -/
theorem settles_sweepAll (names : List String → String → Bool) {fuel : Nat}
    (h : Extends bases start marked) (hfuel : start.length + bases.size < fuel + marked.length) :
    Settles names bases marked (sweepAll names bases fuel marked) := by
  induction fuel generalizing marked with
  | zero =>
    have hle := h.length_le
    omega
  | succ fuel ih =>
    have hsweep : Extends bases marked (sweep names bases marked) := extends_sweep names marked
    simp only [sweepAll]
    split
    · next heq => exact .done (hsweep.eq_of_length_le (Nat.le_of_eq heq))
    · next hne =>
      have hmore : marked.length < (sweep names bases marked).length := by
        refine Nat.lt_of_not_le fun hle => hne ?_
        rw [hsweep.eq_of_length_le hle]
      exact .more (fun heq => hne (by rw [heq])) (ih (h.trans hsweep) (by omega))

theorem settles_detect (isRoot : String → Bool) (names : List String → String → Bool)
    (bases : Table (List String)) (start : List String) :
    Settles names bases (begun isRoot bases start) (detect isRoot names bases start) :=
  settles_sweepAll names (Extends.refl bases _) (by omega)

theorem Settles.sweep_eq (h : Settles names bases marked result) :
    sweep names bases result = result := by
  induction h with
  | done heq => exact heq
  | more _ _ ih => exact ih

theorem Settles.extends (h : Settles names bases marked result) : Extends bases marked result := by
  induction h with
  | done _ => exact Extends.refl bases _
  | more _ _ ih => exact (extends_sweep names _).trans ih

/-- Naming a member of a set is naming a member of every larger set. -/
def MonotoneNaming (names : List String → String → Bool) : Prop :=
  ∀ known more base, known ⊆ more → names known base = true → names more base = true

theorem sweep_subset (mono : MonotoneNaming names) {members : List String}
    (hmarked : marked ⊆ members) (hclosed : ClosedUnder isRoot names bases members) :
    sweep names bases marked ⊆ members := by
  rw [sweep_eq_foldl]
  refine List.foldlRecOn (motive := fun found => found ⊆ members) _ _ hmarked
    fun found hfound entry hentry => ?_
  unfold visit
  split
  · next hnew =>
    obtain ⟨base, hbase, hnames⟩ := List.any_eq_true.mp (Bool.and_eq_true_iff.mp hnew).2
    have hmatch := mono found members base hfound hnames
    have hmember := hclosed entry.1 entry.2 hentry
      (.inr (.inr (List.any_eq_true.mpr ⟨base, hbase, hmatch⟩)))
    exact List.append_subset.mpr ⟨hfound, by simpa using hmember⟩
  · exact hfound

theorem Settles.subset (h : Settles names bases marked result) (mono : MonotoneNaming names)
    {members : List String} (hmarked : marked ⊆ members)
    (hclosed : ClosedUnder isRoot names bases members) : result ⊆ members := by
  induction h with
  | done _ => exact hmarked
  | more _ _ ih => exact ih (sweep_subset mono hmarked hclosed)

/-- What is marked in the end is the least closed set above the start. -/
theorem leastClosed_detect (isRoot : String → Bool) (mono : MonotoneNaming names)
    (bases : Table (List String)) (start : List String) :
    LeastClosed isRoot names bases start (detect isRoot names bases start) := by
  have hsettles := settles_detect isRoot names bases start
  have hbegun := hsettles.extends.subset
  refine ⟨fun name hname => ?_, fun name listed hentry hrule => ?_,
    fun members hstart hclosed => ?_⟩
  · exact hbegun (mem_begun.mpr (.inl hname))
  · rcases hrule with hroot | hlists | hnames
    · exact hbegun (mem_begun.mpr (.inr ⟨listed, hentry, .inl hroot⟩))
    · exact hbegun (mem_begun.mpr (.inr ⟨listed, hentry, .inr hlists⟩))
    · exact mem_of_foldl_visit_eq hsettles.sweep_eq hentry hnames
  · refine hsettles.subset mono (fun name hname => ?_) hclosed
    rcases mem_begun.mp hname with h | ⟨listed, hentry, hroot | hlists⟩
    · exact hstart h
    · exact hclosed name listed hentry (.inl hroot)
    · exact hclosed name listed hentry (.inr (.inl hlists))

theorem extends_detect (isRoot : String → Bool) (names : List String → String → Bool)
    (bases : Table (List String)) (start : List String) :
    Extends bases start (detect isRoot names bases start) :=
  ((extends_markWhere _ start).trans (extends_markWhere _ _)).trans
    (settles_detect isRoot names bases start).extends

/-! ### Any order -/

theorem ClosedUnder.of_perm {bases' : Table (List String)} {members : List String}
    (h : ClosedUnder isRoot names bases members) (hperm : bases'.entries.Perm bases.entries) :
    ClosedUnder isRoot names bases' members :=
  fun name listed hentry => h name listed (hperm.mem_iff.mp hentry)

theorem LeastClosed.subset_of_perm {bases' : Table (List String)} {start' result' : List String}
    (h : LeastClosed isRoot names bases start result)
    (h' : LeastClosed isRoot names bases' start' result')
    (hperm : bases'.entries.Perm bases.entries) (hstart : start ⊆ result') : result ⊆ result' :=
  h.least result' hstart (h'.closed.of_perm hperm.symm)

theorem mem_detect_of_perm (mono : MonotoneNaming names) {bases' : Table (List String)}
    (hperm : bases'.entries.Perm bases.entries) (start : List String) (name : String) :
    name ∈ detect isRoot names bases' start ↔ name ∈ detect isRoot names bases start := by
  have h := leastClosed_detect isRoot mono bases start
  have h' := leastClosed_detect isRoot mono bases' start
  constructor
  · intro hname
    exact h'.subset_of_perm h hperm.symm h.above hname
  · intro hname
    exact h.subset_of_perm h' hperm h'.above hname

/-! ### Classes with parameters and parameter types -/

theorem monotone_matchesParameterized : MonotoneNaming matchesParameterized := by
  intro known more base hsub h
  simp only [matchesParameterized, Bool.or_eq_true, List.contains_iff_mem, List.any_eq_true] at h ⊢
  rcases h with h | ⟨full, hfull, h⟩
  · exact .inl (hsub h)
  · exact .inr ⟨full, hsub hfull, h⟩

theorem monotone_matchesParameter : MonotoneNaming matchesParameter := by
  intro known more base hsub h
  simp only [matchesParameter, Bool.or_eq_true, Bool.and_eq_true, List.contains_iff_mem,
    List.any_eq_true] at h ⊢
  rcases h with (h | ⟨hshort, h⟩) | ⟨full, hfull, h⟩
  · exact .inl (.inl (hsub h))
  · exact .inl (.inr ⟨hshort, hsub h⟩)
  · exact .inr ⟨full, hsub hfull, h⟩

theorem leastClosed_parameterizedClasses (library : String) (bases : Table (List String)) :
    LeastClosed (isParameterizedRoot · (some library)) matchesParameterized bases []
      (parameterizedClasses library bases) :=
  leastClosed_detect _ monotone_matchesParameterized bases []

/-- A class is marked by its own name or by one of its bases. -/
theorem mem_parameterizedClasses_iff {library path : String} {bases : Table (List String)}
    {listed : List String} (hlisted : bases.get? path = some listed) :
    path ∈ parameterizedClasses library bases ↔
      isParameterizedRoot path (some library) = true ∨
        ∃ base ∈ listed, isParameterizedRoot base (some library) = true ∨
          matchesParameterized (parameterizedClasses library bases) base = true := by
  have hleast := leastClosed_parameterizedClasses library bases
  generalize parameterizedClasses library bases = classes at hleast ⊢
  let marks (name : String) (listed : List String) : Bool :=
    isParameterizedRoot name (some library) || listed.any (isParameterizedRoot · (some library)) ||
      listed.any (matchesParameterized classes)
  have hmarks : marks path listed = true ↔ isParameterizedRoot path (some library) = true ∨
      ∃ base ∈ listed, isParameterizedRoot base (some library) = true ∨
        matchesParameterized classes base = true := by
    simp only [marks, Bool.or_eq_true, List.any_eq_true, and_or_left, exists_or, or_assoc]
  rw [← hmarks]
  constructor
  · intro hpath
    -- The classes that are marked in this way are closed already.
    let members := classes.filter fun name => (bases.get? name).any (marks name)
    have hmem : path ∈ members := by
      refine hleast.least members (List.nil_subset _) (fun name listed' hentry h => ?_) hpath
      have hname : marks name listed' = true := by
        simp only [marks, Bool.or_eq_true, or_assoc]
        refine h.imp_right (.imp_right fun h => ?_)
        obtain ⟨base, hbase, hnames⟩ := List.any_eq_true.mp h
        exact List.any_eq_true.mpr ⟨base, hbase,
          monotone_matchesParameterized _ _ base List.filter_sublist.subset hnames⟩
      refine List.mem_filter.mpr ⟨?_, ?_⟩
      · refine hleast.closed name listed' hentry ?_
        simpa only [marks, Bool.or_eq_true, or_assoc] using hname
      · rw [Table.get?_of_mem_entries hentry, Option.any_some, hname]
    simpa [hlisted] using (List.mem_filter.mp hmem).2
  · intro h
    refine hleast.closed path listed (Table.mem_entries_of_get? hlisted) ?_
    simpa only [marks, Bool.or_eq_true, or_assoc] using h

theorem leastClosed_parameterTypes (library : String) (bases : Table (List String))
    (known : List String) :
    LeastClosed (isParameterRoot · (some library)) matchesParameter bases known
      (parameterTypes library bases known) :=
  leastClosed_detect _ monotone_matchesParameter bases known

/-- For every table of bases both loops come to an end, with the least closed sets, and these are
the same for every order of the table. -/
theorem detection_is_least_closed (library : String) (bases : Table (List String))
    (known : List String) :
    (Settles matchesParameterized bases (begun (isParameterizedRoot · (some library)) bases [])
        (parameterizedClasses library bases) ∧
      LeastClosed (isParameterizedRoot · (some library)) matchesParameterized bases []
        (parameterizedClasses library bases)) ∧
    (Settles matchesParameter bases (begun (isParameterRoot · (some library)) bases known)
        (parameterTypes library bases known) ∧
      LeastClosed (isParameterRoot · (some library)) matchesParameter bases known
        (parameterTypes library bases known)) ∧
    ∀ bases' : Table (List String), bases'.entries.Perm bases.entries → ∀ name,
      (name ∈ parameterizedClasses library bases' ↔ name ∈ parameterizedClasses library bases) ∧
      (name ∈ parameterTypes library bases' known ↔ name ∈ parameterTypes library bases known) := by
  refine ⟨⟨settles_detect _ _ _ _, leastClosed_parameterizedClasses library bases⟩,
    ⟨settles_detect _ _ _ _, leastClosed_parameterTypes library bases known⟩,
    fun bases' hperm name => ⟨?_, ?_⟩⟩
  · exact mem_detect_of_perm monotone_matchesParameterized hperm [] name
  · exact mem_detect_of_perm monotone_matchesParameter hperm known name

/-- Classes that inherit by two ways, and two that go round in a circle. -/
def family : Table (List String) :=
  ⟨[("lib.join.Join", ["Left", "lib.sides.Right"]), ("lib.sides.Left", [".top.Top"]),
    ("lib.sides.Right", ["top.Top"]), ("lib.top.Top", ["param.Parameterized"]),
    ("lib.ring.Ring", [".wheel.Wheel"]), ("lib.wheel.Wheel", [".ring.Ring"])], by decide⟩

def familyReversed : Table (List String) := ⟨family.entries.reverse, by decide⟩

theorem detection_of_family_in_two_orders :
    familyReversed.entries.Perm family.entries ∧
      parameterizedClasses "lib" family =
        ["lib.top.Top", "lib.sides.Left", "lib.sides.Right", "lib.join.Join"] ∧
      ∀ name,
        (name ∈ parameterizedClasses "lib" familyReversed ↔
          name ∈ parameterizedClasses "lib" family) ∧
        (name ∈ parameterTypes "lib" familyReversed ["param.parameters.List"] ↔
          name ∈ parameterTypes "lib" family ["param.parameters.List"]) :=
  ⟨List.reverse_perm _, by decide +kernel,
    (detection_is_least_closed "lib" family ["param.parameters.List"]).2.2 familyReversed
      (List.reverse_perm _)⟩

end ParamLens.Library
