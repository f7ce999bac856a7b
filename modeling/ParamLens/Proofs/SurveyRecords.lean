import ParamLens.Proofs.Marking
import ParamLens.Proofs.Populating

/-! The record of a library as a function of its survey. When nothing is stored about a library,
what its source files leave in the store depends on the survey and on the parameter types that are
known by then, and on nothing else that the store or the session holds. -/

namespace ParamLens.Library

open Syntax Steps

/-! ### The record of a survey -/

namespace Survey

/-- The full name under which a base of a class is looked for in the record. -/
def sought? (s : Survey) (name base : String) : Option String :=
  (Ancestry.storedName? ⟨∅, s.bases, s.definitions⟩ name base).filter (· != "")

/-- A class with what it inherits along the bases of the class `name`, where `find?` tells of the
classes that are recorded. -/
def gather (s : Survey) (find? : String → Option ParamClass) (r : Recognition) :
    Nat → List String → String → ParamClass → ParamClass
  | 0, _, _, c => c
  | fuel + 1, path, name, c =>
    if path.contains name then c
    else ((s.bases.get? name).getD []).foldl (fun c base =>
      if isParameterizedRoot base (some (Dotted.first name)) then c
      else match (s.sought? name base).bind find? with
        | some parent => c.merge parent.parameters
        | none =>
          match s.definitions.get? base with
          | none => c
          | some d => s.gather find? r fuel (name :: path) base
              (c.merge (byName (ownParameters r d.imports d.content d.node)))) c

/-- The class with a full name, completed by what is recorded. -/
def completed (s : Survey) (types : List String) (find? : String → Option ParamClass)
    (path : String) (d : Definition) : ParamClass :=
  s.gather find? ⟨d.imports, types⟩ (s.definitions.size + 1) [] path
    (ownClass types d ((d.node.className?).getD ""))

/-- The record after one more class of the survey. -/
def enter (s : Survey) (types : List String) (r : Record) (path : String) : Record :=
  match s.definitions.get? path with
  | none => r
  | some d => r.setClass path (s.completed types r.find? path d)

/-- The names under which packages offer all names of a module. -/
def aliases (s : Survey) (library : String) : Table String :=
  wholeAliases (s.classSet library) s.offers

/-- The classes with parameters in the order in which they are completed. -/
def order (s : Survey) (library : String) : List String :=
  s.ordered (s.classSet library) (s.aliases library)

end Survey

def Record.setAliases (r : Record) (entries : List (String × String)) : Record :=
  entries.foldl (fun r entry => r.setAlias entry.1 entry.2) r

/-- The record before the first class: the parameter types, and the names from wildcards. -/
def Survey.opened (s : Survey) (library version : String) (types : List String) : Record :=
  ((Record.fresh library version).setTypes types).setAliases (s.aliases library).entries

/-- The record of a survey with the parameter types that were found. The names that packages offer
one by one come last. -/
def Survey.record (s : Survey) (library version : String) (types : List String) : Record :=
  ((s.order library).foldl (s.enter types) (s.opened library version types)).setAliases
    s.offers.names.entries

theorem Record.setAliases_append (r : Record) (entries : List (String × String))
    (entry : String × String) :
    r.setAliases (entries ++ [entry]) = (r.setAliases entries).setAlias entry.1 entry.2 := by
  simp [setAliases]

@[simp] theorem Record.classes_setAliases (r : Record) (entries : List (String × String)) :
    (r.setAliases entries).classes = r.classes := by
  induction entries generalizing r with
  | nil => rfl
  | cons entry rest ih => exact ih (r.setAlias entry.1 entry.2)

@[simp] theorem Record.types_setAliases (r : Record) (entries : List (String × String)) :
    (r.setAliases entries).types = r.types := by
  induction entries generalizing r with
  | nil => rfl
  | cons entry rest ih => exact ih (r.setAlias entry.1 entry.2)

@[simp] theorem Record.aliases_setAliases (r : Record) (entries : List (String × String)) :
    (r.setAliases entries).aliases = r.aliases.update entries := by
  induction entries generalizing r with
  | nil => rfl
  | cons entry rest ih => exact ih (r.setAlias entry.1 entry.2)

namespace Survey

variable {s : Survey} {types : List String} {library version : String}

@[simp] theorem aliases_enter (r : Record) (path : String) :
    (s.enter types r path).aliases = r.aliases := by
  unfold enter
  split <;> rfl

@[simp] theorem types_enter (r : Record) (path : String) :
    (s.enter types r path).types = r.types := by
  unfold enter
  split <;> rfl

@[simp] theorem aliases_foldl_enter (paths : List String) (r : Record) :
    (paths.foldl (s.enter types) r).aliases = r.aliases := by
  induction paths generalizing r with
  | nil => rfl
  | cons path rest ih => rw [List.foldl_cons, ih, aliases_enter]

@[simp] theorem types_foldl_enter (paths : List String) (r : Record) :
    (paths.foldl (s.enter types) r).types = r.types := by
  induction paths generalizing r with
  | nil => rfl
  | cons path rest ih => rw [List.foldl_cons, ih, types_enter]

theorem get?_enter {path : String} {d : Definition} (hd : s.definitions.get? path = some d)
    (r : Record) (asked : String) :
    (s.enter types r path).classes.get? asked =
      if asked = path then some (s.completed types r.find? path d) else r.classes.get? asked := by
  simp only [enter, hd, Record.setClass, Table.get?_insert]

theorem get?_foldl_enter_of_notMem {paths : List String} {asked : String} (h : asked ∉ paths)
    (r : Record) : (paths.foldl (s.enter types) r).classes.get? asked = r.classes.get? asked := by
  induction paths generalizing r with
  | nil => rfl
  | cons path rest ih =>
    rw [List.mem_cons, not_or] at h
    rw [List.foldl_cons, ih h.2]
    cases hd : s.definitions.get? path with
    | none => simp only [enter, hd]
    | some d => rw [get?_enter hd, if_neg h.1]

theorem get?_foldl_enter {before after : List String} {path : String} {d : Definition}
    (hd : s.definitions.get? path = some d) (hafter : path ∉ after) (r : Record) :
    ((before ++ path :: after).foldl (s.enter types) r).classes.get? path =
      some (s.completed types (before.foldl (s.enter types) r).find? path d) := by
  rw [List.foldl_append, List.foldl_cons, get?_foldl_enter_of_notMem hafter, get?_enter hd,
    if_pos rfl]

@[simp] theorem classes_opened : (s.opened library version types).classes = ∅ := by
  simp [opened, Record.setTypes, Record.fresh]

theorem types_record : (s.record library version types).types =
    ((Record.fresh library version).setTypes types).types := by
  simp [record, opened]

theorem mem_order {path : String} :
    path ∈ s.order library ↔ path ∈ parameterizedClasses library s.bases :=
  mem_orderBy.trans mem_classSet

theorem nodup_order : (s.order library).Nodup := nodup_orderBy nodup_classSet

theorem mem_of_get?_record {path : String} {c : ParamClass}
    (h : (s.record library version types).classes.get? path = some c) :
    path ∈ parameterizedClasses library s.bases := by
  rw [record, Record.classes_setAliases] at h
  by_contra hnot
  rw [get?_foldl_enter_of_notMem (fun h => hnot (mem_order.mp h)), classes_opened] at h
  cases h

end Survey

/-! ### A store in which the record grows -/

/-- The record of the library is in memory, and its file has none. -/
def Store.Filling (library version : String) (r : Record) (s : Store) : Prop :=
  s.Held library version (· = r) ∧ s.stored? library version = none

section

variable {library version : String} {r : Record} {s : Store}

theorem Store.Filling.find? (h : s.Filling library version r) (name : String) :
    Store.find? library name version s = (r.find? name, s) := by
  obtain ⟨⟨hkeeps, r', hr, -, rfl⟩, hfile⟩ := h
  rw [Store.find?, if_pos hkeeps, hr, Option.bind_some]
  cases r'.find? name with
  | some c => rfl
  | none =>
    dsimp only
    rw [hfile]

theorem Store.Filling.change (h : s.Filling library version r) {f : Record → Record}
    (hfor : ∀ r, (f r).isFor library version = r.isFor library version) :
    (Store.change library version f s).Filling library version (f r) := by
  refine ⟨h.1.change hfor fun r' hr' => ?_, (stored?_change _ _ _).trans h.2⟩
  rw [hr']

theorem Store.Blank.filling_change (h : s.Blank library version) {f : Record → Record}
    (hfor : ∀ r, (f r).isFor library version = r.isFor library version) :
    (Store.change library version f s).Filling library version (f (.fresh library version)) :=
  ⟨h.held_change hfor rfl, (stored?_change _ _ _).trans h.file⟩

theorem Store.Filling.stored?_flush (h : s.Filling library version r) :
    (s.flush library version).stored? library version = some r := by
  obtain ⟨⟨hkeeps, r', hr, hfor, rfl⟩, -⟩ := h
  rw [Store.flush, if_pos hkeeps, hr, Store.stored?]
  simp only [Table.get?_insert, if_true, hfor]

end

theorem ends_setAliases {library version : String} {types : List String} (r : Record)
    (entries : List (String × String)) :
    Ends (fun st : State => st.session.types = types ∧ st.store.Filling library version r)
      (forIn entries PUnit.unit fun x _ => do
        changeStore (Store.setAlias library x.1 x.2 version)
        pure (ForInStep.yield PUnit.unit))
      fun _ st => st.session.types = types ∧
        st.store.Filling library version (r.setAliases entries) := by
  refine Ends.forIn (I := fun done (st : State) => st.session.types = types ∧
    st.store.Filling library version (r.setAliases done))
    (fun done x _ _ _ st hst => ⟨⟨_, rfl⟩, hst.1, ?_⟩) _
  rw [Record.setAliases_append]
  exact hst.2.change fun _ => rfl

/-- Every class of the survey is one of the library. -/
def Survey.Of (library : String) (s : Survey) : Prop :=
  ∀ name d, s.definitions.get? name = some d → Dotted.first name = library

section

variable {library : String} {info : Info} {infos : Table Info} {allowed : List String}
  {s : Survey} (hof : s.Of library) (hinfo : infos.get? library = some info)

include hof hinfo

theorem run_inherit {store : Store} {r : Record} (hfill : store.Filling library info.version r)
    (recognition : Recognition) (fuel : Nat) (path : List String) {name : String}
    (hname : Dotted.first name = library) (c : ParamClass) :
    Ancestry.inherit ⟨infos, s.bases, s.definitions⟩ recognition fuel path name c store =
      (s.gather r.find? recognition fuel path name c, store) := by
  induction fuel generalizing path name c with
  | zero => rfl
  | succ fuel ih =>
    rw [Ancestry.inherit, Survey.gather]
    split
    · rfl
    · refine Ends.run_foldlM (fun c base _ => ?_) c
      split
      · rfl
      · have hstored : Ancestry.stored? ⟨infos, s.bases, s.definitions⟩ name base store =
            ((s.sought? name base).bind r.find?, store) := by
          have hsought : (Ancestry.storedName? ⟨infos, s.bases, s.definitions⟩ name base).filter
              (· != "") = s.sought? name base := rfl
          rw [Ancestry.stored?, hname, hinfo, hsought]
          cases s.sought? name base with
          | none => rfl
          | some full => exact hfill.find? full
        have hbind (f : Option ParamClass → StateM Store ParamClass) :
            (Ancestry.stored? ⟨infos, s.bases, s.definitions⟩ name base >>= f) store =
              f ((s.sought? name base).bind r.find?) store := by
          show f (Ancestry.stored? ⟨infos, s.bases, s.definitions⟩ name base store).1
            (Ancestry.stored? ⟨infos, s.bases, s.definitions⟩ name base store).2 = _
          rw [hstored]
        rw [hbind]
        cases (s.sought? name base).bind r.find? with
        | some parent => rfl
        | none =>
          dsimp only
          cases hd : s.definitions.get? base with
          | none => rfl
          | some d => exact ih (name :: path) (hof base d hd) _

theorem ends_storeSurvey_record (known : List String) :
    Ends (fun st => Awaiting library info.version allowed infos st ∧ st.session.types = known)
      (storeSurvey library info.version s) fun _ st =>
        st.session.types = parameterTypes library s.bases known ∧
          st.store.stored? library info.version = some
            (s.record library info.version (parameterTypes library s.bases known)) := by
  rw [storeSurvey]
  refine Ends.get_bind fun st hst => ?_
  dsimp only
  rw [hst.2]
  generalize htypes : parameterTypes library s.bases known = types
  let filling (r : Record) (st : State) : Prop :=
    st.session.types = types ∧ st.store.Filling library info.version r
  have hbegun : Ends (fun st => Awaiting library info.version allowed infos st ∧
        st.session.types = known)
      (changeSession fun session => { session with types, latestTypes := types, wholes := [] })
      fun _ st => st.session.types = types ∧ st.store.Blank library info.version :=
    fun st h => ⟨rfl, h.1.store⟩
  have hset : Ends (fun st => st.session.types = types ∧ st.store.Blank library info.version)
      (changeStore (Store.setTypes library types info.version))
      fun _ => filling ((Record.fresh library info.version).setTypes types) :=
    fun st h => ⟨h.1, h.2.filling_change fun _ => rfl⟩
  refine Ends.bind hbegun fun _ => Ends.bind hset fun _ =>
    Ends.bind (ends_setAliases _ (s.aliases library).entries) fun _ => ?_
  refine Ends.bind (Ends.forIn (I := fun done => filling
    (done.foldl (s.enter types) (s.opened library info.version types)))
    (fun done path _ _ count => ?_) 0) fun count =>
      Ends.bind (ends_setAliases _ s.offers.names.entries) fun _ => ?_
  · rw [List.foldl_append, List.foldl_cons, List.foldl_nil, Survey.enter]
    cases hd : s.definitions.get? path with
    | none => exact Ends.pure fun st h => ⟨⟨_, rfl⟩, h⟩
    | some d =>
      intro st' h
      have hrun := run_inherit hof hinfo h.2 ⟨d.imports, types⟩ (s.definitions.size + 1) []
        (hof path d hd) (ownClass types d ((d.node.className?).getD ""))
      refine ⟨⟨_, rfl⟩, h.1, ?_⟩
      show Store.Filling library info.version _ (Store.setClass library path
        (Ancestry.complete ⟨st.session.infos, s.bases, s.definitions⟩ types path d st'.store).1
          info.version
        (Ancestry.complete ⟨st.session.infos, s.bases, s.definitions⟩ types path d st'.store).2)
      rw [hst.1.infos, Ancestry.complete, hrun]
      exact h.2.change fun _ => rfl
  · rintro st' ⟨htypes', hfill⟩
    exact ⟨htypes', hfill.stored?_flush⟩

end

/-! ### Going through a library for the first time -/

variable {w : World} {library : String} {root : Path} {info : Info} {s : State}

/-- The state in which the files of a library are gone through: the library was entered, and then
the libraries on which it depends were gone through. -/
def approached (w : World) (fuel : Nat) (library : String) (info : Info) (s : State) : State :=
  ((forIn info.dependencies PUnit.unit fun dependency _ => do
      if !(← get).session.populated.contains dependency then
        let _ ← populateWith w fuel dependency
      pure (ForInStep.yield PUnit.unit) : LibraryM PUnit)
    { s with session := { s.session with populated := s.session.populated ++ [library] } }).2

theorem populateWith_of_ready (ready : Ready library info s) (fuel : Nat) :
    populateWith w (fuel + 1) library s =
      populateSources w library info.version (approached w fuel library info s) := by
  let entered : State :=
    { s with session := { s.session with populated := s.session.populated ++ [library] } }
  have hasked : onStore (Store.hasClasses library info.version) entered = (false, entered) := by
    rw [onStore, ready.blank.hasClasses_eq]
  rw [populateWith]
  show (if !s.session.allowed.contains library || s.session.populated.contains library then
    pure 0 else _ : LibraryM Nat) s = _
  rw [if_neg (by simp [ready.allowed, ready.new]), ready.known]
  show (if (onStore (Store.hasClasses library info.version) entered).1 = true then pure 0 else _ :
    LibraryM Nat) (onStore (Store.hasClasses library info.version) entered).2 = _
  rw [hasked]
  rfl

theorem awaiting_approached (ready : Ready library info s) (fuel : Nat) :
    Awaiting library info.version s.session.allowed s.session.infos
      (approached w fuel library info s) := by
  refine ends_dependencies (ends_populateWith ready.separate w fuel) info.dependencies _ ?_
  exact ⟨rfl, rfl, List.mem_append_right _ List.mem_cons_self, ready.wholes, ready.blank⟩

theorem of_surveyOf (plain : '.' ∉ library.toList) : (surveyOf w library root).Of library := by
  intro name d hd
  obtain ⟨listed, -, hdeclared⟩ := (holds_surveyOf w library root).definitions hd
  exact hdeclared.first_eq plain

theorem ends_populateSources_record {allowed : List String} {infos : Table Info}
    (plain : '.' ∉ library.toList) (hroot : rootOf? w library (sources w library) = some root)
    (hinfo : infos.get? library = some info) (known : List String) :
    Ends (fun st => Awaiting library info.version allowed infos st ∧ st.session.types = known)
      (populateSources w library info.version) fun _ st =>
        st.session.types = parameterTypes library (surveyOf w library root).bases known ∧
          st.store.stored? library info.version = some
            ((surveyOf w library root).record library info.version
              (parameterTypes library (surveyOf w library root).bases known)) := by
  rw [populateSources]
  dsimp only
  rw [hroot]
  refine Ends.get_bind fun st h => ?_
  rw [h.1.wholes]
  exact ends_storeSurvey_record (of_surveyOf plain) hinfo known

/-- What is stored about a library is the record of its survey, with the parameter types that are
known when its files are gone through. -/
theorem populate_stores_record (ready : Ready library info s) (plain : '.' ∉ library.toList)
    (hroot : rootOf? w library (sources w library) = some root) :
    let before := approached w s.session.allowed.length library info s
    let next := (populate w library s).2
    next.session.types =
        parameterTypes library (surveyOf w library root).bases before.session.types ∧
      next.store.stored? library info.version =
        some ((surveyOf w library root).record library info.version next.session.types) := by
  have hrun : populate w library s = populateSources w library info.version
      (approached w s.session.allowed.length library info s) :=
    populateWith_of_ready ready s.session.allowed.length
  have hends := ends_populateSources_record plain hroot ready.known
    (approached w s.session.allowed.length library info s).session.types
    (approached w s.session.allowed.length library info s)
    ⟨awaiting_approached ready s.session.allowed.length, rfl⟩
  rw [hrun]
  exact ⟨hends.1, hends.1 ▸ hends.2⟩

end ParamLens.Library
