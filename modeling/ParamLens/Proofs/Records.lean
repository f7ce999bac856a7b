import Mathlib.Data.Finset.Basic
import ParamLens.Library.Record
import ParamLens.Proofs.Tables

/-! The facts in a library's record: a map of classes, a map of aliases and a set of parameter
types. A name finds the class at the end of its chain of aliases, and the look-up of a record finds
exactly that. Facts are alike if no sequence of changes makes a question tell them apart. -/

namespace ParamLens.Library

/-- What a record says about its library. -/
structure Facts where
  classes : String → Option ParamClass := fun _ => none
  aliases : String → Option String := fun _ => none
  types : Finset String := ∅

/-- The facts in a record. -/
def Record.facts (r : Record) : Facts :=
  ⟨r.classes.get?, r.aliases.get?, r.types.toFinset⟩

/-- A change of what is kept about a library. -/
inductive Change where
  | setClass (name : String) (c : ParamClass)
  | setAlias (name target : String)
  | setTypes (types : List String)

/-- The record after a change. -/
def Change.record : Change → Record → Record
  | .setClass name c, r => r.setClass name c
  | .setAlias name target, r => r.setAlias name target
  | .setTypes types, r => r.setTypes types

/-- The facts after a change. -/
def Change.facts : Change → Facts → Facts
  | .setClass name c, p => { p with classes := Function.update p.classes name (some c) }
  | .setAlias name target, p => { p with aliases := Function.update p.aliases name (some target) }
  | .setTypes types, p => { p with types := types.toFinset }

theorem facts_change (change : Change) (r : Record) :
    (change.record r).facts = change.facts r.facts := by
  cases change with
  | setClass name c =>
    have h : (r.classes.insert name c).get? = Function.update r.classes.get? name (some c) := by
      funext asked
      rw [Table.get?_insert, Function.update_apply]
    simp only [Change.record, Record.setClass, Record.facts, h, Change.facts]
  | setAlias name target =>
    have h : (r.aliases.insert name target).get? =
        Function.update r.aliases.get? name (some target) := by
      funext asked
      rw [Table.get?_insert, Function.update_apply]
    simp only [Change.record, Record.setAlias, Record.facts, h, Change.facts]
  | setTypes types =>
    have h : (types.mergeSort fun a b => a ≤ b).toFinset = types.toFinset :=
      List.toFinset_eq_of_perm _ _ (List.mergeSort_perm _ _)
    simp only [Change.record, Record.setTypes, Record.facts, h, Change.facts]

theorem isFor_change (change : Change) (r : Record) (library version : String) :
    (change.record r).isFor library version = r.isFor library version := by
  cases change <;> rfl

/-! ### Chains of aliases -/

namespace Facts

variable {p q : Facts} {name : String} {c : ParamClass}

/-- From a name, by way of aliases of the listed names, to a class. -/
inductive Trail (p : Facts) : String → List String → ParamClass → Prop
  | here {name : String} {c : ParamClass} (own : p.classes name = some c) : Trail p name [] c
  | along {name next : String} {names : List String} {c : ParamClass}
      (bare : p.classes name = none) (link : p.aliases name = some next)
      (rest : Trail p next names c) : Trail p name (name :: names) c

/-- The class at the end of the chain of aliases of a name. -/
def Finds (p : Facts) (name : String) (c : ParamClass) : Prop := ∃ names, p.Trail name names c

theorem Trail.unique {names names' : List String} {c' : ParamClass} (h : p.Trail name names c)
    (h' : p.Trail name names' c') : names = names' ∧ c = c' := by
  induction h generalizing names' with
  | here own =>
    cases h' with
    | here own' => exact ⟨rfl, Option.some.inj (own.symm.trans own')⟩
    | along bare' _ _ => exact absurd (own.symm.trans bare') (by simp)
  | along bare link rest ih =>
    cases h' with
    | here own' => exact absurd (bare.symm.trans own') (by simp)
    | along bare' link' rest' =>
      obtain rfl := Option.some.inj (link.symm.trans link')
      obtain ⟨rfl, rfl⟩ := ih rest'
      exact ⟨rfl, rfl⟩

theorem Trail.of_mem {names : List String} (h : p.Trail name names c) {passed : String}
    (mem : passed ∈ names) :
    ∃ later, p.Trail passed later c ∧ later.length ≤ names.length := by
  induction h with
  | here own => cases mem
  | along bare link rest ih =>
    rcases List.mem_cons.mp mem with rfl | mem
    · exact ⟨_, .along bare link rest, le_rfl⟩
    · obtain ⟨later, hlater, hle⟩ := ih mem
      exact ⟨later, hlater, hle.trans (by simp)⟩

/-- The way from a name passes no name twice: from a name passed twice there would be two ways. -/
theorem Trail.nodup {names : List String} (h : p.Trail name names c) : names.Nodup := by
  induction h with
  | here own => exact List.nodup_nil
  | @along name next names c bare link rest ih =>
    refine List.nodup_cons.mpr ⟨fun mem => ?_, ih⟩
    obtain ⟨later, hlater, hle⟩ := rest.of_mem mem
    obtain ⟨rfl, -⟩ := hlater.unique (.along bare link rest)
    simp only [List.length_cons] at hle
    omega

theorem Trail.aliases_ne_none {names : List String} (h : p.Trail name names c) :
    ∀ passed ∈ names, p.aliases passed ≠ none := by
  induction h with
  | here own => simp
  | along bare link rest ih =>
    intro passed mem
    rcases List.mem_cons.mp mem with rfl | mem
    · simp [link]
    · exact ih passed mem

end Facts

namespace Record

open Facts

variable {classes : Table ParamClass} {aliases : Table String} {types : Finset String}

theorem finds_of_followAliases? {steps : Nat} {remaining : Table String} {name : String}
    {c : ParamClass}
    (remains : ∀ asked target, remaining.get? asked = some target →
      aliases.get? asked = some target)
    (bare : classes.get? name = none)
    (h : followAliases? classes remaining steps name = some c) :
    Facts.Finds ⟨classes.get?, aliases.get?, types⟩ name c := by
  induction steps generalizing remaining name with
  | zero => cases h
  | succ steps ih =>
    rw [followAliases?] at h
    split at h
    · cases h
    · next next hnext =>
      split at h
      · next found hfound =>
        obtain rfl := Option.some.inj h
        exact ⟨_, .along bare (remains _ _ hnext) (.here hfound)⟩
      · next hnone =>
        have hfinds : Facts.Finds ⟨classes.get?, aliases.get?, types⟩ next c := by
          refine ih (fun asked target hget => remains asked target ?_) hnone h
          by_cases he : asked = name
          · rw [he, Table.get?_erase_self] at hget
            cases hget
          · rwa [Table.get?_erase_ne _ he] at hget
        obtain ⟨names, htrail⟩ := hfinds
        exact ⟨_, .along bare (remains _ _ hnext) htrail⟩

theorem followAliases?_of_trail {steps : Nat} {remaining : Table String} {name : String}
    {names : List String} {c : ParamClass}
    (trail : Facts.Trail ⟨classes.get?, aliases.get?, types⟩ name names c)
    (bare : classes.get? name = none)
    (remains : ∀ passed ∈ names, remaining.get? passed = aliases.get? passed)
    (enough : names.length ≤ steps) :
    followAliases? classes remaining steps name = some c := by
  induction trail generalizing remaining steps with
  | here own => exact absurd (own.symm.trans bare) (by simp)
  | @along name next names c _ link rest ih =>
    obtain ⟨steps, rfl⟩ : ∃ k, steps = k + 1 := ⟨steps - 1, by simp at enough; omega⟩
    have hnext : remaining.get? name = some next := (remains name (by simp)).trans link
    rw [followAliases?, hnext]
    dsimp only
    cases hclass : classes.get? next with
    | some found =>
      obtain ⟨-, rfl⟩ := rest.unique (.here hclass)
      rfl
    | none =>
      refine ih hclass (fun passed mem => ?_) (by simpa using enough)
      -- The erased name is not passed again.
      have hnodup := (Trail.along bare link rest).nodup
      have hne : passed ≠ name := fun e => (List.nodup_cons.mp hnodup).1 (e ▸ mem)
      rw [Table.get?_erase_ne _ hne]
      exact remains passed (List.mem_cons_of_mem _ mem)

theorem find?_eq_some_iff (r : Record) (name : String) (c : ParamClass) :
    r.find? name = some c ↔ r.facts.Finds name c := by
  rw [find?]
  cases hclass : r.classes.get? name with
  | some found =>
    refine ⟨fun h => ⟨[], .here (hclass.trans h)⟩, fun ⟨names, trail⟩ => ?_⟩
    obtain ⟨-, rfl⟩ := trail.unique (.here hclass)
    rfl
  | none =>
    refine ⟨finds_of_followAliases? (fun _ _ h => h) hclass, fun ⟨names, trail⟩ => ?_⟩
    refine followAliases?_of_trail trail hclass (fun _ _ => rfl) ?_
    refine Table.length_le_size _ trail.nodup fun passed mem => ?_
    have hsome : r.aliases.get? passed ≠ none := trail.aliases_ne_none passed mem
    rw [Ne, Table.get?_eq_none_iff, not_not] at hsome
    exact hsome

theorem hasClasses_iff (r : Record) :
    r.hasClasses = true ↔ ∃ name c, r.facts.classes name = some c := by
  rw [hasClasses, Bool.not_eq_true', Table.isEmpty_eq_false_iff]
  rfl

end Record

/-! ### Alike facts -/

namespace Facts

variable {p q : Facts} {name : String} {c : ParamClass}

/-- The facts differ at most in aliases that no look-up follows: those of a name that has a class,
and those of a name for itself. -/
structure Alike (p q : Facts) : Prop where
  classes : p.classes = q.classes
  types : p.types = q.types
  aliases (name target : String) (bare : p.classes name = none) (other : target ≠ name) :
    p.aliases name = some target ↔ q.aliases name = some target

theorem Alike.refl (p : Facts) : p.Alike p := ⟨rfl, rfl, fun _ _ _ _ => Iff.rfl⟩

theorem Alike.symm (h : p.Alike q) : q.Alike p :=
  ⟨h.classes.symm, h.types.symm, fun name target bare other =>
    (h.aliases name target (by rw [h.classes]; exact bare) other).symm⟩

theorem Alike.trans {r : Facts} (h : p.Alike q) (h' : q.Alike r) : p.Alike r :=
  ⟨h.classes.trans h'.classes, h.types.trans h'.types, fun name target bare other =>
    (h.aliases name target bare other).trans
      (h'.aliases name target (by rw [← h.classes]; exact bare) other)⟩

theorem Alike.change (h : p.Alike q) (change : Change) :
    (change.facts p).Alike (change.facts q) := by
  cases change with
  | setClass name c =>
    refine ⟨by simp only [Change.facts, h.classes], h.types, fun asked target bare other => ?_⟩
    refine h.aliases asked target ?_ other
    by_cases he : asked = name
    · simp [Change.facts, he] at bare
    · simpa [Change.facts, Function.update_apply, he] using bare
  | setAlias name target =>
    refine ⟨h.classes, h.types, fun asked target' bare other => ?_⟩
    simp only [Change.facts, Function.update_apply]
    split
    · exact Iff.rfl
    · exact h.aliases asked target' bare other
  | setTypes types => exact ⟨h.classes, rfl, h.aliases⟩

theorem Alike.finds_of_finds (h : p.Alike q) (hp : p.Finds name c) : q.Finds name c := by
  obtain ⟨names, trail⟩ := hp
  induction trail with
  | here own => exact ⟨[], .here (by rw [← h.classes]; exact own)⟩
  | @along name next names c bare link rest ih =>
    by_cases hself : next = name
    · exact hself ▸ ih
    · obtain ⟨names', trail'⟩ := ih
      exact ⟨_, .along (by rw [← h.classes]; exact bare)
        ((h.aliases name next bare hself).mp link) trail'⟩

theorem Alike.finds_iff (h : p.Alike q) : p.Finds name c ↔ q.Finds name c :=
  ⟨h.finds_of_finds, h.symm.finds_of_finds⟩

theorem Finds.unique {c' : ParamClass} (h : p.Finds name c) (h' : p.Finds name c') : c = c' := by
  obtain ⟨_, trail⟩ := h
  obtain ⟨_, trail'⟩ := h'
  exact (trail.unique trail').2

theorem finds_iff_of_self_alias (link : p.aliases name = some name) :
    p.Finds name c ↔ p.classes name = some c := by
  refine ⟨fun ⟨names, trail⟩ => ?_, fun own => ⟨[], .here own⟩⟩
  cases trail with
  | here own => exact own
  | along bare link' rest =>
    obtain rfl := Option.some.inj (link.symm.trans link')
    have hnames := (rest.unique (.along bare link rest)).1
    simp at hnames

theorem finds_iff_of_alias {target : String} {own : ParamClass} (bare : p.classes name = none)
    (link : p.aliases name = some target) (has : p.classes target = some own) :
    p.Finds name c ↔ c = own := by
  have hown : p.Finds name own := ⟨_, .along bare link (.here has)⟩
  exact ⟨fun h => h.unique hown, fun h => h ▸ hown⟩

end Facts

/-! ### Questions -/

/-- A question about a library. -/
inductive Query where
  | find (name : String)
  | hasClasses
  | types

/-- The answer to a question about a library. -/
inductive Answer where
  | found (c : Option ParamClass)
  | flag (value : Bool)
  | types (names : Finset String)

/-- The answer that a record gives. -/
def Record.answer (r : Record) : Query → Answer
  | .find name => .found (r.find? name)
  | .hasClasses => .flag r.hasClasses
  | .types => .types r.types.toFinset

namespace Facts

variable {p q : Facts} {name : String} {c : ParamClass}

/-- The answer is the one that the facts give: the class at the end of the chain of aliases, whether
there is a class, and the set of parameter types. -/
def Answers (p : Facts) : Query → Answer → Prop
  | .find name, .found found => ∀ c, found = some c ↔ p.Finds name c
  | .hasClasses, .flag value => value = true ↔ ∃ name c, p.classes name = some c
  | .types, .types names => names = p.types
  | _, _ => False

theorem answers_answer (r : Record) (query : Query) : r.facts.Answers query (r.answer query) := by
  cases query with
  | find name => exact fun c => r.find?_eq_some_iff name c
  | hasClasses => exact r.hasClasses_iff
  | types => exact rfl

theorem Alike.answers {query : Query} {answer : Answer} (h : p.Alike q)
    (hp : p.Answers query answer) : q.Answers query answer := by
  cases query <;> cases answer <;> try exact hp.elim
  case find.found name found => exact fun c => (hp c).trans h.finds_iff
  case hasClasses.flag value => exact hp.trans (by rw [h.classes])
  case types.types names => exact Eq.trans hp h.types

/-- The facts after changes. -/
def after (changes : List Change) (p : Facts) : Facts :=
  changes.foldl (fun p change => change.facts p) p

/-- After the changes no answer to the question is right by both facts. -/
def Differ (p q : Facts) (changes : List Change) (query : Query) : Prop :=
  ∀ answer, (p.after changes).Answers query answer → ¬ (q.after changes).Answers query answer

theorem differ_of_finds {changes : List Change} (hp : (p.after changes).Finds name c)
    (hq : ¬ (q.after changes).Finds name c) : Differ p q changes (.find name) := by
  intro answer
  cases answer with
  | found found => exact fun h h' => hq ((h' c).mp ((h c).mpr hp))
  | flag value => exact False.elim
  | types names => exact False.elim

theorem Differ.symm {changes : List Change} {query : Query} (h : Differ p q changes query) :
    Differ q p changes query :=
  fun answer hq hp => h answer hp hq

/-- A class under a name is told apart by making the name an alias for itself. -/
theorem exists_differ_of_class (hp : p.classes name = some c) (hq : q.classes name ≠ some c) :
    ∃ changes query, Differ p q changes query := by
  have link (r : Facts) : (r.after [.setAlias name name]).aliases name = some name := by
    simp [after, Change.facts]
  refine ⟨[.setAlias name name], .find name, differ_of_finds (c := c) ?_ ?_⟩
  · exact (finds_iff_of_self_alias (link p)).mpr hp
  · exact fun h => hq ((finds_iff_of_self_alias (link q)).mp h)

theorem classes_after_setClass (p : Facts) (name target : String) (c : ParamClass) :
    (p.after [.setClass target c]).classes name =
      if name = target then some c else p.classes name := by
  simp [after, Change.facts, Function.update_apply]

/-- An alias that leads on from a name without a class is told apart by a class under its target,
after a different class was put under the target that the name has in the other facts. -/
theorem exists_differ_of_alias {target : String} (bare : p.classes name = none)
    (bare' : q.classes name = none) (other : target ≠ name) (hp : p.aliases name = some target)
    (hq : q.aliases name ≠ some target) : ∃ changes query, Differ p q changes query := by
  let marked := ParamClass.ofName "marked"
  let unmarked := ParamClass.ofName "unmarked"
  have hne : marked ≠ unmarked := fun e => absurd (congrArg ParamClass.name e) (by decide)
  by_cases hq' : ∃ target', target' ≠ name ∧ q.aliases name = some target'
  · obtain ⟨target', other', hlink⟩ := hq'
    have htarget : target' ≠ target := fun e => hq (e ▸ hlink)
    let p' := p.after [.setClass target' unmarked]
    let q' := q.after [.setClass target' unmarked]
    have hp' : (p'.after [.setClass target marked]).Finds name marked := by
      have link : (p'.after [.setClass target marked]).aliases name = some target := hp
      refine (finds_iff_of_alias ?_ link ?_).mpr rfl
      · simp [p', classes_after_setClass, other.symm, other'.symm, bare]
      · simp [classes_after_setClass]
    have hq' : ¬ (q'.after [.setClass target marked]).Finds name marked := by
      have link : (q'.after [.setClass target marked]).aliases name = some target' := hlink
      refine fun h => hne ((finds_iff_of_alias ?_ link ?_).mp h)
      · simp [q', classes_after_setClass, other.symm, other'.symm, bare']
      · simp [q', classes_after_setClass, htarget]
    exact ⟨[.setClass target' unmarked, .setClass target marked], .find name,
      differ_of_finds hp' hq'⟩
  · have hp' : (p.after [.setClass target marked]).Finds name marked := by
      have link : (p.after [.setClass target marked]).aliases name = some target := hp
      refine (finds_iff_of_alias ?_ link ?_).mpr rfl
      · simp [classes_after_setClass, other.symm, bare]
      · simp [classes_after_setClass]
    have hbare : (q.after [.setClass target marked]).classes name = none := by
      simp [classes_after_setClass, other.symm, bare']
    refine ⟨[.setClass target marked], .find name, differ_of_finds hp' ?_⟩
    -- The name has at most itself for an alias.
    rintro ⟨names, trail⟩
    cases trail with
    | here own => exact absurd (own.symm.trans hbare) (by simp)
    | @along _ next _ _ _ link rest =>
      have hself : next = name := by
        by_contra hn
        exact hq' ⟨next, hn, link⟩
      subst hself
      exact absurd (rest.unique (.along hbare link rest)).1 (by simp)

/-- Facts that are not alike are told apart by a question after some changes. -/
theorem exists_differ (h : ¬ p.Alike q) : ∃ changes query, Differ p q changes query := by
  by_cases hclasses : p.classes = q.classes
  · by_cases htypes : p.types = q.types
    · have haliases : ∃ name target, p.classes name = none ∧ target ≠ name ∧
          ¬ (p.aliases name = some target ↔ q.aliases name = some target) := by
        by_contra hn
        refine h ⟨hclasses, htypes, fun name target bare other => ?_⟩
        by_contra hiff
        exact hn ⟨name, target, bare, other, hiff⟩
      obtain ⟨name, target, bare, other, hiff⟩ := haliases
      have bare' : q.classes name = none := hclasses ▸ bare
      by_cases hp : p.aliases name = some target
      · exact exists_differ_of_alias bare bare' other hp fun hq => hiff ⟨fun _ => hq, fun _ => hp⟩
      · have hq : q.aliases name = some target := by
          by_contra hq
          exact hiff ⟨fun h => absurd h hp, fun h => absurd h hq⟩
        obtain ⟨changes, query, hdiffer⟩ := exists_differ_of_alias bare' bare other hq hp
        exact ⟨changes, query, hdiffer.symm⟩
    · refine ⟨[], .types, fun answer hp hq => ?_⟩
      cases answer with
      | types names => exact htypes (hp.symm.trans hq)
      | _ => exact hp.elim
  · obtain ⟨name, hname⟩ := Function.ne_iff.mp hclasses
    cases hp : p.classes name with
    | some c => exact exists_differ_of_class hp fun hq => hname (hp.trans hq.symm)
    | none =>
      obtain ⟨c, hq⟩ := Option.ne_none_iff_exists'.mp (hp ▸ hname).symm
      have hp' : p.classes name ≠ some c := by simp [hp]
      obtain ⟨changes, query, hdiffer⟩ := exists_differ_of_class hq hp'
      exact ⟨changes, query, hdiffer.symm⟩

end Facts

end ParamLens.Library
