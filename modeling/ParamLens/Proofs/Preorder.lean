import Mathlib.Data.List.Perm.Subperm
import Mathlib.Logic.Relation
import ParamLens.Library.Ancestry
import ParamLens.Proofs.Nesting
import ParamLens.Proofs.Tables

/-! What a class inherits along its bases when nothing is stored. The search for it enters no class
twice on one path, but it forgets the classes that it has left and enters them again on other paths.
What counts is the first time that a class is met, and that is as in a depth-first search which
remembers all classes: a class that was left has no parents that are not met, so that entering it
again meets nothing new. -/

namespace ParamLens.Library

open Relation Steps

/-! ### The search -/

section

variable (parents : String → List String) (declared : String → Table Parameter)

/-- Adds to a class what it inherits along the parents of the class `name`, where `stack` holds the
classes that are entered and not left. -/
def climb : Nat → List String → String → ParamClass → ParamClass
  | 0, _, _, c => c
  | fuel + 1, stack, name, c =>
    if stack.contains name then c
    else (parents name).foldl
      (fun c parent => climb fuel (name :: stack) parent (c.merge (declared parent))) c

/-- A search at a class with the given stack asks for a parent of the class, if the class is not on
the stack. The first of the two searches is the one asked for. -/
inductive AsksFor : List String × String → List String × String → Prop
  | intro {stack : List String} {name parent : String} : name ∉ stack → parent ∈ parents name →
      AsksFor (name :: stack, parent) (stack, name)

/-- The names in `todo` and what is above them, in the order in which a depth-first search meets
them that remembers the names in `met` and all that it meets. -/
inductive DepthFirst : List String → List String → List String → Prop
  | nil {met : List String} : DepthFirst met [] []
  | again {met rest order : List String} {name : String} :
      name ∈ met → DepthFirst met rest order → DepthFirst met (name :: rest) order
  | first {met rest above order : List String} {name : String} :
      name ∉ met → DepthFirst (met ++ [name]) (parents name) above →
      DepthFirst (met ++ name :: above) rest order →
      DepthFirst met (name :: rest) (name :: above ++ order)

/-- The parents of the names other than `start`. A search from `start` that meets it again on a
circle does not go through its parents a second time. -/
def parentsApart (start name : String) : List String := if name = start then [] else parents name

/-- Of the names that are met, those not on the stack have all their parents met. -/
def Closed (stack met : List String) : Prop :=
  ∀ name ∈ met, name ∉ stack → ∀ parent ∈ parents name, parent ∈ met

/-- The class has all parameters that the names declare. -/
def Absorbs (c : ParamClass) (names : List String) : Prop :=
  ∀ name ∈ names, ∀ asked, (declared name).contains asked = true →
    c.parameters.contains asked = true

end

section

variable {parents : String → List String} {declared : String → Table Parameter}

theorem Closed.push {stack met : List String} (h : Closed parents stack met) (name : String) :
    Closed parents (name :: stack) met :=
  fun other hother hnot => h other hother fun hmem => hnot (List.mem_cons_of_mem _ hmem)

/-- A class that was left is closed, like those that were left before. -/
theorem Closed.leave {stack met : List String} {name : String}
    (closed : Closed parents (name :: stack) met)
    (hparents : ∀ parent ∈ parents name, parent ∈ met) : Closed parents stack met := by
  intro other hother hnot parent hparent
  by_cases heq : other = name
  · exact hparents parent (heq ▸ hparent)
  · exact closed other hother (by simp [heq, hnot]) parent hparent

theorem Closed.append_of_mem {stack met : List String} (closed : Closed parents stack met)
    {name : String} (hname : name ∈ stack) : Closed parents stack (met ++ [name]) := by
  intro other hother hnot parent hparent
  have hmem : other ∈ met := by
    rcases List.mem_append.mp hother with hold | hnew
    · exact hold
    · exact absurd (List.mem_singleton.mp hnew ▸ hname) hnot
  exact List.mem_append_left _ (closed other hmem hnot parent hparent)

/-! ### Merging -/

theorem fill_of_contains {t : Table Parameter} {entries : List (String × Parameter)}
    (h : ∀ entry ∈ entries, t.contains entry.1 = true) : t.fill entries = t := by
  induction entries with
  | nil => rfl
  | cons entry rest ih =>
    show (if t.contains entry.1 then t else t.insert entry.1 entry.2).fill rest = t
    rw [if_pos (h entry List.mem_cons_self)]
    exact ih fun other hother => h other (List.mem_cons_of_mem _ hother)

theorem Absorbs.merge_eq {c : ParamClass} {names : List String} (h : Absorbs declared c names)
    {name : String} (hname : name ∈ names) : c.merge (declared name) = c := by
  have hfill : c.parameters.fill (declared name).entries = c.parameters := by
    refine fill_of_contains fun entry hentry => h name hname entry.1 ?_
    exact List.any_eq_true.mpr ⟨entry, hentry, beq_self_eq_true _⟩
  rw [ParamClass.merge, hfill]

theorem contains_merge (c : ParamClass) (t : Table Parameter) (asked : String) :
    (c.merge t).parameters.contains asked =
      (c.parameters.contains asked || t.contains asked) := by
  rw [Table.contains_eq_isSome, ParamClass.get?_merge, Table.contains_eq_isSome,
    Table.contains_eq_isSome, Option.isSome_or]

theorem Absorbs.merge {c : ParamClass} {names : List String} (h : Absorbs declared c names)
    (name : String) : Absorbs declared (c.merge (declared name)) (names ++ [name]) := by
  intro other hother asked hasked
  rw [contains_merge, Bool.or_eq_true]
  rcases List.mem_append.mp hother with hold | hnew
  · exact .inl (h other hold asked hasked)
  · obtain rfl := List.mem_singleton.mp hnew
    exact .inr hasked

theorem Absorbs.foldl_merge {c : ParamClass} {names : List String} (h : Absorbs declared c names)
    (order : List String) :
    Absorbs declared (order.foldl (fun c name => c.merge (declared name)) c) (names ++ order) := by
  induction order generalizing c names with
  | nil => rwa [List.append_nil]
  | cons name rest ih =>
    rw [← List.singleton_append, ← List.append_assoc]
    exact ih (h.merge name)

theorem get?_foldl_merge (c : ParamClass) (order : List String) (asked : String) :
    (order.foldl (fun c name => c.merge (declared name)) c).get? asked =
      (c.get? asked).or (order.findSome? fun name => (declared name).get? asked) := by
  induction order generalizing c with
  | nil => exact Option.or_none.symm
  | cons name rest ih =>
    rw [List.foldl_cons, ih, List.findSome?_cons]
    show ((c.merge (declared name)).parameters.get? asked).or _ = (c.parameters.get? asked).or _
    rw [ParamClass.get?_merge, Option.or_assoc]
    cases (declared name).get? asked <;> rfl

/-! ### Classes that are met again -/

theorem climb_of_mem_stack {stack : List String} {name : String} (h : name ∈ stack) (fuel : Nat)
    (c : ParamClass) : climb parents declared fuel stack name c = c := by
  cases fuel with
  | zero => rfl
  | succ fuel => rw [climb, if_pos (by simpa using h)]

/-- Entering a class again from which the search came back meets nothing new. -/
theorem climb_of_met {met : List String} (fuel : Nat) {stack : List String} {name : String}
    {c : ParamClass} (closed : Closed parents stack met) (absorbs : Absorbs declared c met)
    (hname : name ∈ met) : climb parents declared fuel stack name c = c := by
  induction fuel generalizing stack name with
  | zero => rfl
  | succ fuel ih =>
    rw [climb]
    split
    · rfl
    · next hnot =>
      have hparents := closed name hname (by simpa using hnot)
      refine List.foldlRecOn (motive := (· = c)) _ _ rfl fun found hfound parent hparent => ?_
      rw [hfound, absorbs.merge_eq (hparents parent hparent)]
      exact ih (closed.push name) (hparents parent hparent)

/-! ### Classes on the stack -/

section

variable {start : String} {known : List String}

/-- The stack begins with the start of the search and goes on through known names, none twice. -/
structure Ascent (start : String) (known stack : List String) : Prop where
  distinct : stack.Nodup
  known : ∀ name ∈ stack, name = start ∨ name ∈ known

theorem Ascent.push {stack : List String} (h : Ascent start known stack) {name : String}
    (hnot : name ∉ stack) (hname : name = start ∨ name ∈ known) :
    Ascent start known (name :: stack) := by
  refine ⟨List.nodup_cons.mpr ⟨hnot, h.distinct⟩, fun other hother => ?_⟩
  rcases List.mem_cons.mp hother with rfl | hold
  · exact hname
  · exact h.known other hold

theorem Ascent.length_le {stack : List String} (h : Ascent start known stack) :
    stack.length ≤ known.length + 1 := by
  have hsub : stack ⊆ start :: known := fun name hname => List.mem_cons.mpr (h.known name hname)
  exact (List.subperm_of_subset h.distinct hsub).length_le

theorem acc_asksFor (hparents : ∀ name, ∀ parent ∈ parents name, parent ∈ known) (left : Nat)
    {stack : List String} (h : Ascent start known stack) {name : String}
    (hname : name = start ∨ name ∈ known) (hleft : known.length + 1 ≤ left + stack.length) :
    Acc (AsksFor parents) (stack, name) := by
  induction left generalizing stack name with
  | zero =>
    refine ⟨_, fun asked hasked => ?_⟩
    obtain ⟨hnot, -⟩ := hasked
    have hlength := (h.push hnot hname).length_le
    rw [List.length_cons] at hlength
    omega
  | succ left ih =>
    refine ⟨_, fun asked hasked => ?_⟩
    obtain ⟨hnot, hparent⟩ := hasked
    refine ih (h.push hnot hname) (.inr (hparents _ _ hparent)) ?_
    rw [List.length_cons]
    omega

/-- Where a search stands that has met the names in `met` and added to `c` what they declare. -/
structure Underway (parents : String → List String) (declared : String → Table Parameter)
    (start : String) (known stack met : List String) (c : ParamClass) : Prop where
  ascent : Ascent start known stack
  begun : start ∈ stack
  entered : ∀ name ∈ stack, name = start ∨ name ∈ met
  closed : Closed parents stack met
  absorbs : Absorbs declared c met

section

variable {stack met : List String} {c : ParamClass} {name : String}
  (h : Underway parents declared start known stack met c)

include h

theorem Underway.advance {order : List String} (closed : Closed parents stack (met ++ order)) :
    Underway parents declared start known stack (met ++ order)
      (order.foldl (fun c name => c.merge (declared name)) c) where
  ascent := h.ascent
  begun := h.begun
  entered := fun name hname => (h.entered name hname).imp_right (List.mem_append_left _)
  closed := closed
  absorbs := h.absorbs.foldl_merge order

theorem Underway.notMem_stack (hnew : name ∉ met) (hne : name ≠ start) : name ∉ stack :=
  fun hmem => (h.entered name hmem).elim hne hnew

theorem Underway.enter (hnew : name ∉ met) (hne : name ≠ start) (hknown : name ∈ known) :
    Underway parents declared start known (name :: stack) (met ++ [name])
      (c.merge (declared name)) where
  ascent := h.ascent.push (h.notMem_stack hnew hne) (.inr hknown)
  begun := List.mem_cons_of_mem _ h.begun
  entered := by
    intro other hother
    rcases List.mem_cons.mp hother with rfl | hold
    · exact .inr (by simp)
    · exact (h.entered other hold).imp_right (List.mem_append_left _)
  closed := by
    intro other hother hnot parent hparent
    rw [List.mem_cons, not_or] at hnot
    have hmem : other ∈ met := by simpa [hnot.1] using hother
    exact List.mem_append_left _ (h.closed other hmem hnot.2 parent hparent)
  absorbs := h.absorbs.merge name

end

/-- From wherever a search stands that has enough fuel, it adds for the names in `todo` what a
depth-first search meets first, and leaves no class with parents that are not met. -/
def Explores (parents : String → List String) (declared : String → Table Parameter)
    (start : String) (known : List String) (fuel : Nat) : Prop :=
  ∀ {stack met todo : List String} {c : ParamClass},
    Underway parents declared start known stack met c → known.length < fuel + stack.length →
    (∀ name ∈ todo, name ∈ known) →
    ∃ order, DepthFirst (parentsApart parents start) met todo order ∧
      todo.foldl (fun c name =>
          climb parents declared fuel stack name (c.merge (declared name))) c =
        order.foldl (fun c name => c.merge (declared name)) c ∧
      Closed parents stack (met ++ order) ∧ ∀ name ∈ todo, name ∈ met ++ order

variable (hparents : ∀ name, ∀ parent ∈ parents name, parent ∈ known) {fuel : Nat}
  (below : ∀ less, fuel = less + 1 → Explores parents declared start known less)

include hparents below

/-- What is met above a name when it is met for the first time. -/
theorem Underway.exists_above {stack met : List String} {c : ParamClass} {name : String}
    (h : Underway parents declared start known stack met c)
    (hfuel : known.length < fuel + stack.length) (hnew : name ∉ met) (hknown : name ∈ known) :
    ∃ above,
      DepthFirst (parentsApart parents start) (met ++ [name]) (parentsApart parents start name)
        above ∧
      climb parents declared fuel stack name (c.merge (declared name)) =
        (name :: above).foldl (fun c name => c.merge (declared name)) c ∧
      Closed parents stack (met ++ name :: above) := by
  by_cases hstart : name = start
  · have hstack : name ∈ stack := hstart ▸ h.begun
    refine ⟨[], ?_, climb_of_mem_stack hstack fuel _, h.closed.append_of_mem hstack⟩
    rw [parentsApart, if_pos hstart]
    exact .nil
  · have hentered := h.enter hnew hstart hknown
    -- A name that is not on the stack is not the last that the fuel is for.
    have hlength := hentered.ascent.length_le
    rw [List.length_cons] at hlength
    obtain ⟨less, rfl⟩ : ∃ less, fuel = less + 1 := ⟨fuel - 1, by omega⟩
    have hleft : known.length < less + (name :: stack).length := by
      rw [List.length_cons]
      omega
    obtain ⟨above, hdepth, hfold, hclosed, hall⟩ := below less rfl hentered hleft (hparents name)
    rw [List.append_assoc, List.singleton_append] at hclosed hall
    refine ⟨above, ?_, ?_, hclosed.leave hall⟩
    · rw [parentsApart, if_neg hstart]
      exact hdepth
    · rw [climb, if_neg (by simpa using h.notMem_stack hnew hstart), hfold]
      rfl

theorem explores_of_below : Explores parents declared start known fuel := by
  intro stack met todo c h hfuel htodo
  induction todo generalizing met c with
  | nil => exact ⟨[], .nil, rfl, by rw [List.append_nil]; exact h.closed, by simp⟩
  | cons name rest ih =>
    have hknown := htodo name List.mem_cons_self
    have hrest := fun other hother => htodo other (List.mem_cons_of_mem _ hother)
    by_cases hmet : name ∈ met
    · have hsame : climb parents declared fuel stack name (c.merge (declared name)) = c := by
        rw [h.absorbs.merge_eq hmet]
        exact climb_of_met fuel h.closed h.absorbs hmet
      obtain ⟨order, hdepth, hfold, hclosed, hall⟩ := ih h hrest
      refine ⟨order, .again hmet hdepth, by rw [List.foldl_cons, hsame, hfold], hclosed, ?_⟩
      exact List.forall_mem_cons.mpr ⟨List.mem_append_left _ hmet, hall⟩
    · obtain ⟨above, habove, hclimb, hclosed⟩ :=
        h.exists_above hparents below hfuel hmet hknown
      obtain ⟨order, hdepth, hfold, hclosed, hall⟩ := ih (h.advance hclosed) hrest
      refine ⟨name :: above ++ order, .first hmet habove hdepth, ?_, ?_, ?_⟩
      · rw [List.foldl_cons, hclimb, hfold, ← List.foldl_append]
      · rwa [← List.append_assoc]
      · rw [← List.append_assoc]
        exact List.forall_mem_cons.mpr ⟨by simp, hall⟩

omit below in
theorem explores (fuel : Nat) : Explores parents declared start known fuel := by
  induction fuel with
  | zero => exact explores_of_below hparents fun less hless => by omega
  | succ fuel ih => exact explores_of_below hparents fun less hless => Nat.succ.inj hless ▸ ih

end

/-! ### The whole search -/

theorem DepthFirst.exists_reaches {met todo order : List String}
    (h : DepthFirst parents met todo order) {name : String} (hname : name ∈ order) :
    ∃ first ∈ todo, ReflTransGen (fun a b => b ∈ parents a) first name := by
  induction h with
  | nil => cases hname
  | again _ _ ih =>
    obtain ⟨first, hfirst, hreach⟩ := ih hname
    exact ⟨first, List.mem_cons_of_mem _ hfirst, hreach⟩
  | @first met rest above order new _ _ _ ihabove ihrest =>
    rcases List.mem_append.mp hname with habove | hrest
    · refine ⟨new, List.mem_cons_self, ?_⟩
      rcases List.mem_cons.mp habove with rfl | habove
      · exact .refl
      · obtain ⟨parent, hparent, hreach⟩ := ihabove habove
        exact hreach.head hparent
    · obtain ⟨first, hfirst, hreach⟩ := ihrest hrest
      exact ⟨first, List.mem_cons_of_mem _ hfirst, hreach⟩

theorem DepthFirst.unique {met todo order order' : List String}
    (h : DepthFirst parents met todo order) (h' : DepthFirst parents met todo order') :
    order = order' := by
  induction h generalizing order' with
  | nil =>
    cases h'
    rfl
  | again hmet _ ih =>
    cases h' with
    | again _ hrest => exact ih hrest
    | first hnew _ _ => exact absurd hmet hnew
  | first hnew _ _ ihabove ihrest =>
    cases h' with
    | again hmet _ => exact absurd hmet hnew
    | first _ habove hrest =>
      obtain rfl := ihabove habove
      obtain rfl := ihrest hrest
      rfl

/-- A search that does not go through the parents of `start` meets the same names otherwise as one
that remembers `start` from the beginning. -/
theorem DepthFirst.filter_start {start : String} {met met' todo order : List String}
    (h : DepthFirst (parentsApart parents start) met todo order)
    (hmet : ∀ name, name ∈ met' ↔ name = start ∨ name ∈ met) :
    DepthFirst parents met' todo (order.filter (· != start)) := by
  induction h generalizing met' with
  | nil => exact .nil
  | again hold _ ih => exact .again ((hmet _).mpr (.inr hold)) (ih hmet)
  | @first met rest above order name hnew habove hrest ihabove ihrest =>
    by_cases hstart : name = start
    · obtain rfl : above = [] := by
        rw [parentsApart, if_pos hstart] at habove
        exact habove.unique .nil
      rw [List.cons_append, List.filter_cons_of_neg (by simpa using hstart)]
      refine .again ((hmet name).mpr (.inl hstart)) (ihrest fun other => ?_)
      rw [hmet, List.mem_append, List.mem_singleton]
      grind
    · rw [List.cons_append, List.filter_cons_of_pos (by simpa using hstart), List.filter_append]
      have hparents : parentsApart parents start name = parents name := if_neg hstart
      rw [hparents] at ihabove
      refine .first ?_ (ihabove fun other => ?_) (ihrest fun other => ?_)
      · rw [hmet, not_or]
        exact ⟨hstart, hnew⟩
      · rw [List.mem_append, hmet, List.mem_append, or_assoc]
      · rw [List.mem_append, hmet, List.mem_append, List.mem_cons, List.mem_cons, List.mem_filter]
        grind

/-- A search adds what the classes above its start declare, in the order of a depth-first search. -/
theorem climb_depthFirst {known : List String}
    (hparents : ∀ name, ∀ parent ∈ parents name, parent ∈ known) {fuel : Nat}
    (hfuel : known.length < fuel) (start : String) (c : ParamClass) :
    ∃ order, DepthFirst (parentsApart parents start) [] (parents start) order ∧
      climb parents declared fuel [] start c =
        order.foldl (fun c name => c.merge (declared name)) c ∧
      ∀ name, name ∈ order ↔ TransGen (fun a b => b ∈ parents a) start name := by
  obtain ⟨fuel, rfl⟩ : ∃ k, fuel = k + 1 := ⟨fuel - 1, by omega⟩
  have hunderway : Underway parents declared start known [start] [] c :=
    ⟨⟨by simp, by simp⟩, by simp, by simp, fun _ h => absurd h List.not_mem_nil,
      fun _ h => absurd h List.not_mem_nil⟩
  have hbound : known.length < fuel + [start].length := hfuel
  obtain ⟨order, hdepth, hfold, hclosed, hall⟩ := explores hparents fuel hunderway hbound
    (hparents start)
  rw [List.nil_append] at hclosed hall
  refine ⟨order, hdepth, hfold, fun name => ⟨fun hname => ?_, fun hreach => ?_⟩⟩
  · obtain ⟨parent, hparent, hreach⟩ := hdepth.exists_reaches hname
    refine TransGen.head' hparent (hreach.lift id fun a b hb => ?_)
    rw [parentsApart] at hb
    split at hb
    · cases hb
    · exact hb
  · induction hreach with
    | single hparent => exact hall _ hparent
    | @tail below name _ hparent ih =>
      by_cases hstart : below = start
      · exact hall name (hstart ▸ hparent)
      · exact hclosed below ih (by simpa using hstart) name hparent

end

/-! ### A store without classes -/

/-- No class is found in the store, whatever is asked for. -/
def Store.Bare (s : Store) : Prop :=
  ∀ library name version, (Store.find? library name version s).1 = none

theorem Store.bare_iff {s : Store} : s.Bare ↔ ∀ library name version, s.keeps version = true →
    (s.pending.get? (key library version)).bind (·.find? name) = none ∧
      (s.stored? library version).bind (·.find? name) = none := by
  refine forall₃_congr fun library name version => ?_
  rw [Store.find?]
  split
  · next hkeeps =>
    simp only [hkeeps, true_imp_iff]
    cases hmemory : (s.pending.get? (key library version)).bind (·.find? name) with
    | some found => simp
    | none => cases hfile : s.stored? library version <;> simp
  · next hkeeps => simp [hkeeps]

/-- A store without classes finds none, and has none after it has loaded a file. -/
theorem Store.Bare.yields_find? (library name version : String) :
    Yields Store.Bare (Store.find? library name version) none := by
  intro s bare
  refine ⟨bare library name version, ?_⟩
  rw [Store.find?]
  split
  · next hkeeps =>
    obtain ⟨hmemory, -⟩ := Store.bare_iff.mp bare library name version hkeeps
    rw [hmemory]
    cases hfile : s.stored? library version with
    | none => exact bare
    | some r =>
      refine Store.bare_iff.mpr fun library' name' version' hkeeps' => ?_
      obtain ⟨hold, hstored⟩ := Store.bare_iff.mp bare library' name' version' hkeeps'
      refine ⟨?_, hstored⟩
      show ((s.pending.insert (Store.key library version) r).get? _).bind _ = none
      rw [Table.get?_insert]
      split
      · have hloaded := (Store.bare_iff.mp bare library name' version hkeeps).2
        rwa [hfile] at hloaded
      · exact hold
  · exact bare

/-! ### Ancestors of a class -/

namespace Ancestry

variable (a : Ancestry) (r : Recognition)

/-- The bases of a class along which it inherits: those with a definition that are not the root. -/
def parents (name : String) : List String :=
  ((a.bases.get? name).getD []).filter fun base =>
    !isParameterizedRoot base (some (Dotted.first name)) && a.definitions.contains base

/-- The parameters that a class declares, as they are recognised by `r`. -/
def declared (name : String) : Table Parameter :=
  ((a.definitions.get? name).map fun d =>
    byName (ownParameters r d.imports d.content d.node)).getD ∅

variable {a r}

theorem mem_names_of_mem_parents {name parent : String} (h : parent ∈ a.parents name) :
    parent ∈ a.definitions.names :=
  Table.mem_names_of_contains (Bool.and_eq_true_iff.mp (List.mem_filter.mp h).2).2

theorem yields_stored? (name base : String) : Yields Store.Bare (a.stored? name base) none := by
  rw [stored?]
  split
  · exact Store.Bare.yields_find? _ _ _
  · exact Yields.pure none

theorem yields_inherit (fuel : Nat) (path : List String) (name : String) (c : ParamClass) :
    Yields Store.Bare (a.inherit r fuel path name c)
      (climb a.parents (a.declared r) fuel path name c) := by
  induction fuel generalizing path name c with
  | zero => exact Yields.pure c
  | succ fuel ih =>
    rw [inherit, climb]
    split
    · exact Yields.pure c
    · rw [parents, List.foldl_filter]
      refine Yields.foldlM (fun c base _ => ?_) c
      split
      · next hroot => simpa [hroot] using Yields.pure c
      · next hroot =>
        refine (yields_stored? name base).bind ?_
        cases hd : a.definitions.get? base with
        | none => simpa [Table.contains_eq_isSome, hd] using Yields.pure c
        | some d => simpa [Table.contains_eq_isSome, hroot, declared, hd] using ih _ _ _

/-- What a class declares that has all of it already does not matter. -/
theorem or_findSome?_filter {c : ParamClass} {name : String} (h : Absorbs (a.declared r) c [name])
    (order : List String) (asked : String) :
    (c.get? asked).or (order.findSome? fun base => (a.declared r base).get? asked) =
      (c.get? asked).or ((order.filter (· != name)).findSome? fun base =>
        (a.declared r base).get? asked) := by
  cases hc : c.get? asked with
  | some p => rfl
  | none =>
    have hown : (a.declared r name).get? asked = none := by
      by_contra hdeclared
      have hcontains := h name (List.mem_singleton_self name) asked
        (by rwa [Table.contains_eq_isSome, Option.isSome_iff_ne_none])
      rw [Table.contains_eq_isSome] at hcontains
      rw [show c.parameters.get? asked = none from hc] at hcontains
      cases hcontains
    rw [Option.none_or, Option.none_or]
    induction order with
    | nil => rfl
    | cons base rest ih =>
      by_cases hbase : base = name
      · rw [List.filter_cons_of_neg (by simpa using hbase), List.findSome?_cons, hbase, hown, ih]
      · rw [List.filter_cons_of_pos (by simpa using hbase), List.findSome?_cons,
          List.findSome?_cons, ih]

/-- Where nothing is stored, the search for what a class inherits comes to an end on every graph of
bases. What the class has stays as it is, and it gets all that the classes above it declare: of a
name the one of the class that a depth-first search meets first. The class itself, if it is above
itself on a circle, counts where it is met as a base; it does not count if the class has all that it
declares, as it has when the search begins after its own parameters are read. -/
theorem inherit_collects_in_preorder (a : Ancestry) (r : Recognition) {fuel : Nat}
    (hfuel : a.definitions.size < fuel) (name : String) (c : ParamClass) {store : Store}
    (bare : store.Bare) :
    Acc (AsksFor a.parents) ([], name) ∧ (a.inherit r fuel [] name c store).2.Bare ∧
      (∃! order, DepthFirst (parentsApart a.parents name) [] (a.parents name) order ∧
        (∀ base, base ∈ order ↔
          TransGen (fun child parent => parent ∈ a.parents child) name base) ∧
        ∀ asked, (a.inherit r fuel [] name c store).1.get? asked =
          (c.get? asked).or (order.findSome? fun base => (a.declared r base).get? asked)) ∧
      (Absorbs (a.declared r) c [name] →
        ∃! order, DepthFirst a.parents [name] (a.parents name) order ∧
          (∀ base, base ∈ order ↔
            TransGen (fun child parent => parent ∈ a.parents child) name base ∧ base ≠ name) ∧
          ∀ asked, (a.inherit r fuel [] name c store).1.get? asked =
            (c.get? asked).or (order.findSome? fun base => (a.declared r base).get? asked)) := by
  have hparents : ∀ name, ∀ parent ∈ a.parents name, parent ∈ a.definitions.names :=
    fun name parent => mem_names_of_mem_parents
  have hsize : a.definitions.names.length = a.definitions.size := List.length_map _
  obtain ⟨hanswer, hbare⟩ := yields_inherit fuel [] name c store bare
  obtain ⟨order, hdepth, hclimb, hreach⟩ := climb_depthFirst hparents (hsize ▸ hfuel) name c
  have hget (asked : String) : (a.inherit r fuel [] name c store).1.get? asked =
      (c.get? asked).or (order.findSome? fun base => (a.declared r base).get? asked) := by
    rw [hanswer, hclimb, get?_foldl_merge]
  refine ⟨acc_asksFor hparents _ ⟨List.nodup_nil, by simp⟩ (.inl rfl) (Nat.le_refl _), hbare,
    ⟨order, ⟨hdepth, hreach, hget⟩, fun other hother => hother.1.unique hdepth⟩, fun hown => ?_⟩
  have hplain : DepthFirst a.parents [name] (a.parents name) (order.filter (· != name)) :=
    hdepth.filter_start fun other => by simp
  refine ⟨order.filter (· != name), ⟨hplain, fun base => ?_, fun asked => ?_⟩,
    fun other hother => hother.1.unique hplain⟩
  · rw [List.mem_filter, hreach, bne_iff_ne]
  · rw [hget, or_findSome?_filter hown]

open Syntax Sketch in
/-- A class that declares parameters, given by their names and types. -/
def ringSketch (own : String) (declared : List (String × String)) : Sketch :=
  classed own [] (declared.map fun entry => declares entry.1 entry.2 []) 0

/-- The class alone in a file. -/
def ringClass (own : String) (declared : List (String × String)) : Definition :=
  ⟨(ringSketch own declared).node, Table.ofList [("param", "param")],
    ⟨true, ["site", "panel", own ++ ".py"]⟩, (ringSketch own declared).written⟩

/-- The classes `C` and `A` inherit from each other, and `C` from `T` over `A` and over `B`. -/
def ring : Ancestry where
  infos := Table.ofList [("panel", ⟨"1.0", []⟩)]
  bases := Table.ofList [("panel.C", ["panel.A", "panel.B"]), ("panel.A", ["panel.T", "panel.C"]),
    ("panel.B", ["panel.T", "panel.missing.M"]), ("panel.T", ["param.Parameterized"])]
  definitions := Table.ofList [("panel.C", ringClass "C" [("w", "Integer")]),
    ("panel.A", ringClass "A" [("y", "Integer")]),
    ("panel.B", ringClass "B" [("x", "Number"), ("z", "Integer")]),
    ("panel.T", ringClass "T" [("x", "Integer")])]

def ringRecognition : Recognition := ⟨Table.ofList [("param", "param")], []⟩

/-- The class `C` of the ring after its own parameters are read. -/
def ringStart : ParamClass :=
  (ParamClass.ofName "C").merge (ring.declared ringRecognition "panel.C")

theorem inherit_collects_in_preorder_of_ring :
    let inherited := fun c => (ring.inherit ringRecognition 5 [] "panel.C" c { enabled := true }).1
    (ring.definitions.size < 5 ∧ Store.Bare { enabled := true } ∧
      Absorbs (ring.declared ringRecognition) ringStart ["panel.C"]) ∧
    ((inherited (.ofName "C")).parameters.names = ["y", "x", "w", "z"] ∧
      (inherited ringStart).parameters.names = ["w", "y", "x", "z"] ∧
      ((inherited ringStart).get? "x").map (·.typeName) = some "Integer") ∧
    (∃ order, DepthFirst (parentsApart ring.parents "panel.C") [] (ring.parents "panel.C") order ∧
      ∀ asked, (inherited (.ofName "C")).get? asked = ((ParamClass.ofName "C").get? asked).or
        (order.findSome? fun base => (ring.declared ringRecognition base).get? asked)) ∧
    ∃ order, DepthFirst ring.parents ["panel.C"] (ring.parents "panel.C") order ∧
      ∀ asked, (inherited ringStart).get? asked = (ringStart.get? asked).or
        (order.findSome? fun base => (ring.declared ringRecognition base).get? asked) := by
  intro inherited
  have hsize : ring.definitions.size < 5 := by decide +kernel
  have bare : Store.Bare { enabled := true } := Store.bare_iff.mpr fun _ _ _ _ => ⟨rfl, rfl⟩
  have hnone : Absorbs (ring.declared ringRecognition) (ParamClass.ofName "C") [] :=
    fun _ h => absurd h List.not_mem_nil
  have hown : Absorbs (ring.declared ringRecognition) ringStart ["panel.C"] := hnone.merge "panel.C"
  obtain ⟨-, -, ⟨order, ⟨hdepth, -, hget⟩, -⟩, -⟩ :=
    inherit_collects_in_preorder ring ringRecognition hsize "panel.C" (.ofName "C") bare
  obtain ⟨-, -, -, hstart⟩ :=
    inherit_collects_in_preorder ring ringRecognition hsize "panel.C" ringStart bare
  obtain ⟨order', ⟨hdepth', -, hget'⟩, -⟩ := hstart hown
  exact ⟨⟨hsize, bare, hown⟩, ⟨by decide +kernel, by decide +kernel, by decide +kernel⟩,
    ⟨order, hdepth, hget⟩, order', hdepth', hget'⟩

end Ancestry

end ParamLens.Library
