import ParamLens.Library.Search
import ParamLens.Proofs.Isolation
import ParamLens.Proofs.Population

/-! Every parameter of a class stands under its own name. Parameters enter a class by their names,
and what a class takes over from others keeps its place, so the store, the search through sources
and the answers of a session hold no class in which a parameter stands under another name. -/

namespace ParamLens

open Steps

/-- Every parameter stands under its own name. -/
def OwnNames (t : Table Parameter) : Prop := ∀ name p, t.get? name = some p → p.name = name

namespace OwnNames

variable {t other : Table Parameter}

theorem empty : OwnNames ∅ := by
  intro name p h
  cases h

theorem insert (h : OwnNames t) (p : Parameter) : OwnNames (t.insert p.name p) := by
  intro name q hq
  rw [Table.get?_insert] at hq
  split at hq
  · next heq => rw [← Option.some.inj hq, heq]
  · exact h name q hq

theorem fill (h : OwnNames t) (hother : OwnNames other) : OwnNames (t.fill other.entries) := by
  intro name p hp
  rw [Table.get?_fill, Option.or_eq_some_iff] at hp
  rcases hp with hp | ⟨-, hp⟩
  · exact h name p hp
  · exact hother name p hp

theorem update (h : OwnNames t) (hother : OwnNames other) :
    OwnNames (t.update other.entries) := by
  intro name p hp
  rw [Table.get?_update, Option.or_eq_some_iff] at hp
  rcases hp with hp | ⟨-, hp⟩
  · exact hother name p hp
  · exact h name p hp

theorem foldl_add {c : ParamClass} (h : OwnNames c.parameters) (own : List Parameter) :
    OwnNames (own.foldl ParamClass.add c).parameters := by
  induction own generalizing c with
  | nil => exact h
  | cons p rest ih => exact ih (h.insert p)

theorem merge {c : ParamClass} (h : OwnNames c.parameters) (hother : OwnNames other) :
    OwnNames (c.merge other).parameters := h.fill hother

end OwnNames

namespace Library

theorem ownNames_byName (parameters : List Parameter) : OwnNames (byName parameters) := by
  intro name p hp
  obtain ⟨q, -, hq⟩ := List.mem_map.mp (Table.mem_of_get?_ofList hp)
  obtain ⟨rfl, rfl⟩ := Prod.mk.inj hq
  rfl

/-- The parameters of the class, if there is one, stand under their own names. -/
def Proper (found : Option ParamClass) : Prop := ∀ c ∈ found, OwnNames c.parameters

theorem proper_none : Proper none := by
  rintro c ⟨⟩

theorem Proper.some {c : ParamClass} (h : OwnNames c.parameters) : Proper (some c) := by
  rintro _ ⟨⟩
  exact h

/-! ### Records -/

/-- All classes that the record holds are proper. -/
def Record.Proper (r : Record) : Prop := ∀ name, Library.Proper (r.classes.get? name)

theorem proper_followAliases? {classes : Table ParamClass}
    (h : ∀ name, Proper (classes.get? name)) (aliases : Table String) (steps : Nat)
    (name : String) : Proper (Record.followAliases? classes aliases steps name) := by
  induction steps generalizing aliases name with
  | zero => exact proper_none
  | succ steps ih =>
    rw [Record.followAliases?]
    split
    · exact proper_none
    · next next _ =>
      split
      · next found hfound => exact hfound ▸ h next
      · exact ih _ _

theorem Record.Proper.find? {r : Record} (h : r.Proper) (name : String) :
    Library.Proper (r.find? name) := by
  rw [Record.find?]
  split
  · next found hfound => exact hfound ▸ h name
  · exact proper_followAliases? h r.aliases _ name

theorem Record.Proper.setClass {r : Record} (h : r.Proper) (name : String) {c : ParamClass}
    (hc : OwnNames c.parameters) : (r.setClass name c).Proper := by
  intro asked
  rw [Record.setClass, Table.get?_insert]
  split
  · exact Proper.some hc
  · exact h asked

/-! ### The store -/

/-- All records in memory and in files are proper. -/
structure Store.Proper (s : Store) : Prop where
  memory : ∀ key r, s.pending.get? key = some r → r.Proper
  files : ∀ name r, s.files.get? name = some (.record r) → r.Proper

namespace Store.Proper

variable {s : Store} {library version : String}

theorem stored? (h : s.Proper) {r : Record} (hr : s.stored? library version = some r) :
    r.Proper := by
  rw [Store.stored?] at hr
  split at hr
  · next value hfile =>
    split at hr
    · exact Option.some.inj hr ▸ h.files _ value hfile
    · cases hr
  · cases hr

theorem load (h : s.Proper) {r : Record} (hr : r.Proper) : (s.load library version r).Proper := by
  refine ⟨fun key r' hget => ?_, h.files⟩
  rw [Store.load, Table.get?_insert] at hget
  split at hget
  · exact Option.some.inj hget ▸ hr
  · exact h.memory key r' hget

theorem current (h : s.Proper) (library version : String) :
    (s.current library version).Proper := by
  rw [Store.current]
  cases hmemory : s.pending.get? (Store.key library version) with
  | some r => exact h.memory _ r hmemory
  | none =>
    cases hfile : s.stored? library version with
    | some r => exact h.stored? hfile
    | none => exact fun _ => proper_none

theorem change (h : s.Proper) {f : Record → Record} (hf : ∀ r, r.Proper → (f r).Proper) :
    (Store.change library version f s).Proper := by
  rw [Store.change]
  split
  · exact h.load (hf _ (h.current library version))
  · exact h

theorem flush (h : s.Proper) (library version : String) : (s.flush library version).Proper := by
  rw [Store.flush]
  split
  · split
    · next r hr =>
      refine ⟨fun key r' hget => h.memory key r' (Table.get?_of_get?_erase hget), ?_⟩
      intro name r' hget
      rw [Table.get?_insert] at hget
      split at hget
      · cases hget
        exact h.memory _ r hr
      · exact h.files name r' hget
    · exact h
  · exact h

theorem clear (h : s.Proper) : s.clear.Proper :=
  ⟨by rintro key r ⟨⟩, fun name r hget => h.files name r (Table.get?_of_get?_filterNames hget)⟩

theorem clearLibrary (h : s.Proper) (library : String) (version : Option String) :
    (s.clearLibrary library version).Proper := by
  rw [Store.clearLibrary]
  have hmemory (key : String) (r : Record)
      (hget : (s.pending.filterNames fun name =>
        !Text.startsWith name (library ++ ":")).get? key = some r) : r.Proper :=
    h.memory key r (Table.get?_of_get?_filterNames hget)
  split
  · exact ⟨hmemory, fun name r hget => h.files name r (Table.get?_of_get?_erase hget)⟩
  · exact ⟨hmemory, h.files⟩

theorem reopen (h : s.Proper) : s.reopen.Proper := ⟨by rintro key r ⟨⟩, h.files⟩

theorem ends_find? (library name version : String) :
    Ends Store.Proper (Store.find? library name version)
      fun found s => Library.Proper found ∧ s.Proper := by
  intro s h
  rw [Store.find?]
  split
  · split
    · next found hfound =>
      obtain ⟨r, hr, hfind⟩ := Option.bind_eq_some_iff.mp hfound
      exact ⟨hfind ▸ (h.memory _ r hr).find? name, h⟩
    · split
      · next r hr => exact ⟨(h.stored? hr).find? name, h.load (h.stored? hr)⟩
      · exact ⟨proper_none, h⟩
  · exact ⟨proper_none, h⟩

theorem ends_hasClasses (library version : String) :
    Ends Store.Proper (Store.hasClasses library version) fun _ => Store.Proper := by
  intro s h
  rw [Store.hasClasses]
  split
  · split
    · exact h
    · split
      · next r hr => exact h.load (h.stored? hr)
      · exact h
  · exact h

theorem ends_types (library version : String) :
    Ends Store.Proper (Store.types library version) fun _ => Store.Proper := by
  intro s h
  rw [Store.types]
  split
  · split
    · exact h
    · split
      · next r hr => exact h.load (h.stored? hr)
      · exact h
  · exact h

end Store.Proper

/-- The class that a call of the store puts into a record, if it does, is proper. -/
def Store.Call.Proper : Store.Call → Prop
  | .alter _ _ (.setClass _ c) => OwnNames c.parameters
  | _ => True

theorem Store.Call.proper_step {call : Store.Call} (hcall : call.Proper) {s : Store}
    (hs : s.Proper) :
    (∀ found, (call.step s).1 = some (.found found) → Library.Proper found) ∧
      (call.step s).2.Proper := by
  cases call with
  | alter library version change =>
    refine ⟨by rintro found ⟨⟩, ?_⟩
    cases change with
    | setClass name c => exact hs.change fun r hr => hr.setClass name hcall
    | setAlias name target => exact hs.change (f := (·.setAlias name target)) fun r hr => hr
    | setTypes types => exact hs.change (f := (·.setTypes types)) fun r hr => hr
  | ask library version query =>
    cases query with
    | find name =>
      have hfind := Store.Proper.ends_find? library name version s hs
      exact ⟨by rintro found ⟨⟩; exact hfind.1, hfind.2⟩
    | hasClasses => exact ⟨by rintro found ⟨⟩, Store.Proper.ends_hasClasses library version s hs⟩
    | types => exact ⟨by rintro found ⟨⟩, Store.Proper.ends_types library version s hs⟩
  | flush library version => exact ⟨by rintro found ⟨⟩, hs.flush library version⟩
  | clear library version =>
    refine ⟨by rintro found ⟨⟩, ?_⟩
    rw [Store.Call.step]
    dsimp only
    split
    · exact hs.clear
    · exact hs.clearLibrary library version
  | reopen => exact ⟨by rintro found ⟨⟩, hs.reopen⟩

/-! ### Inherited parameters -/

theorem ends_stored?_proper (a : Ancestry) (name base : String) :
    Ends Store.Proper (a.stored? name base) fun found s => Proper found ∧ s.Proper := by
  rw [Ancestry.stored?]
  split
  · exact Store.Proper.ends_find? _ _ _
  · exact Ends.pure fun s hs => ⟨proper_none, hs⟩

theorem ends_inherit_proper (a : Ancestry) (r : Recognition) (fuel : Nat) (path : List String)
    (name : String) (c : ParamClass) :
    Ends (fun s => OwnNames c.parameters ∧ s.Proper) (a.inherit r fuel path name c)
      fun c s => OwnNames c.parameters ∧ s.Proper := by
  induction fuel generalizing path name c with
  | zero => exact Ends.pure fun s hs => hs
  | succ fuel ih =>
    rw [Ancestry.inherit]
    split
    · exact Ends.pure fun s hs => hs
    · refine Ends.foldlM_of (I := fun c s => OwnNames c.parameters ∧ Store.Proper s)
        (fun c base _ => ?_) c
      split
      · exact Ends.pure fun s hs => hs
      · refine Ends.of_and fun hc => (ends_stored?_proper a name base).bind fun found =>
          Ends.of_and fun hfound => ?_
        cases found with
        | some parent => exact Ends.pure fun s hs => ⟨hc.merge (hfound parent rfl), hs⟩
        | none =>
          dsimp only
          split
          · exact Ends.pure fun s hs => ⟨hc, hs⟩
          · exact fun s hs => ih _ _ _ s ⟨hc.merge (ownNames_byName _), hs⟩

theorem ends_complete_proper (a : Ancestry) (types : List String) (path : String)
    (d : Definition) :
    Ends Store.Proper (a.complete types path d) fun c s => OwnNames c.parameters ∧ s.Proper :=
  fun s hs => ends_inherit_proper a _ _ _ _ _ s ⟨OwnNames.empty.foldl_add _, hs⟩

/-! ### The search through sources -/

/-- Every answer of the search is as stated. -/
def Search.Answers {α : Type} (x : SearchM α) (T : α → Prop) : Prop :=
  ∀ s a t, x.run s = some (.ok a, t) → T a

namespace Search.Answers

variable {α β : Type} {x : SearchM α} {f : α → SearchM β} {T : α → Prop} {U : β → Prop}

theorem pure {a : α} (h : T a) : Search.Answers (pure a) T := by
  rintro s _ t ⟨⟩
  exact h

theorem throw {fault : SearchFault} : Search.Answers (throw fault : SearchM α) T := by
  rintro s _ t ⟨⟩

theorem bind_of (hx : Search.Answers x T) (hf : ∀ a, T a → Search.Answers (f a) U) :
    Search.Answers (x >>= f) U := by
  intro s b t hrun
  obtain ⟨⟨outcome, u⟩, hfirst, hnext⟩ := Option.bind_eq_some_iff.mp hrun
  cases outcome with
  | error fault => cases hnext
  | ok a => exact hf a (hx s a u hfirst) u b t hnext

theorem bind (x : SearchM α) (h : ∀ a, Search.Answers (f a) U) : Search.Answers (x >>= f) U :=
  bind_of (T := fun _ => True) (fun _ _ _ _ => trivial) fun a _ => h a

theorem tryCatch {handle : SearchFault → SearchM α} (hx : Search.Answers x T)
    (hhandle : ∀ fault, Search.Answers (handle fault) T) :
    Search.Answers (tryCatch x handle) T := by
  intro s a t hrun
  obtain ⟨⟨outcome, u⟩, hfirst, hnext⟩ := Option.bind_eq_some_iff.mp hrun
  cases outcome with
  | error fault => exact hhandle fault u a t hnext
  | ok b =>
    cases hnext
    exact hx s a t hfirst

end Search.Answers

theorem foldlM_of_some {α β : Type} {T : β → Prop} {f : β → α → Option β} {l : List α}
    (h : ∀ b a b', T b → f b a = some b' → T b') {b b' : β} (hb : T b)
    (hrun : l.foldlM f b = some b') : T b' := by
  induction l generalizing b with
  | nil => exact Option.some.inj hrun ▸ hb
  | cons a rest ih =>
    rw [List.foldlM_cons] at hrun
    obtain ⟨next, hnext, hrest⟩ := Option.bind_eq_some_iff.mp hrun
    exact ih (h b a next hb hnext) hrest

theorem ownNames_inheritNearby? {classes : Table (Syntax.Node × Imports)} {r : Recognition}
    {content : String} {fuel : Nat} {n : Syntax.Node} {c c' : ParamClass}
    (h : OwnNames c.parameters) (hrun : inheritNearby? classes r content fuel n c = some c') :
    OwnNames c'.parameters := by
  induction fuel generalizing n c c' with
  | zero => cases hrun
  | succ fuel ih =>
    rw [inheritNearby?] at hrun
    refine foldlM_of_some (T := fun c => OwnNames c.parameters) (fun c base c' hc hstep => ?_) h
      hrun
    split at hstep
    · exact Option.some.inj hstep ▸ hc
    · exact ih (hc.merge (ownNames_byName _)) hstep

theorem answers_classOf (context : SearchContext) (file : Path) (n : Syntax.Node)
    (imports : Imports) :
    Search.Answers (classOf context file n imports) fun c => OwnNames c.parameters := by
  rw [classOf]
  split
  · exact Search.Answers.throw
  · refine Search.Answers.bind _ fun content => Search.Answers.bind _ fun s => ?_
    dsimp only
    split
    · exact Search.Answers.throw
    · next c hc =>
      exact Search.Answers.pure (ownNames_inheritNearby? (OwnNames.empty.foldl_add _) hc)

theorem answers_searchFile (context : SearchContext) (name : String) (file : Path) :
    Search.Answers (searchFile context name file) Proper := by
  refine Search.Answers.bind _ fun _ => Search.Answers.bind _ fun _ =>
    Search.Answers.bind _ fun s => ?_
  split
  · exact Search.Answers.pure proper_none
  · refine Search.Answers.bind _ fun found => ?_
    split
    · refine Search.Answers.bind_of (answers_classOf _ _ _ _) fun c hc => ?_
      refine Search.Answers.pure fun known hknown => ?_
      exact Option.some.inj hknown ▸ hc
    · exact Search.Answers.pure proper_none

theorem answers_searchFiles (context : SearchContext) (name : String) (files : List Path) :
    Search.Answers (searchFiles context name files) Proper := by
  induction files with
  | nil => exact Search.Answers.pure proper_none
  | cons file rest ih =>
    refine Search.Answers.bind_of ((answers_searchFile context name file).tryCatch fun _ =>
      Search.Answers.pure proper_none) fun found hfound => ?_
    cases found with
    | none => exact ih
    | some c => exact Search.Answers.pure hfound

theorem answers_searchSources (context : SearchContext) (path : String) :
    Search.Answers (searchSources context path) Proper := by
  rw [searchSources]
  split
  · exact Search.Answers.pure proper_none
  · split
    · exact Search.Answers.pure proper_none
    · refine Search.Answers.bind_of (answers_searchFiles context _ _) fun found hfound => ?_
      exact Search.Answers.bind _ fun _ => Search.Answers.pure hfound

/-! ### Sessions -/

/-- The store is proper, and so are all answers that the session keeps. -/
structure State.Proper (s : State) : Prop where
  store : s.store.Proper
  asked : ∀ path found, s.session.asked.get? path = some found → Library.Proper found

namespace State.Proper

variable {library version : String}

theorem ends_onStore {α : Type} {step : StateM Store α} {T : α → Prop}
    (h : Ends Store.Proper step fun a s => T a ∧ s.Proper) :
    Ends State.Proper (onStore step) fun a s => T a ∧ s.Proper :=
  fun s hs => ⟨(h s.store hs.store).1, (h s.store hs.store).2, hs.asked⟩

theorem ends_onStore_of {α : Type} {step : StateM Store α}
    (h : Ends Store.Proper step fun _ => Store.Proper) :
    Ends State.Proper (onStore step) fun _ => State.Proper :=
  fun s hs => ⟨h s.store hs.store, hs.asked⟩

theorem ends_changeStore {f : Store → Store} (h : ∀ s, s.Proper → (f s).Proper) :
    Ends State.Proper (changeStore f) fun _ => State.Proper :=
  fun s hs => ⟨h s.store hs.store, hs.asked⟩

theorem ends_changeSession {f : Session → Session} (h : ∀ s, (f s).asked = s.asked) :
    Ends State.Proper (changeSession f) fun _ => State.Proper := by
  intro s hs
  refine ⟨hs.store, fun path found hget => hs.asked path found ?_⟩
  rwa [← h s.session]

theorem ends_storeSurvey (library version : String) (survey : Survey) :
    Ends State.Proper (storeSurvey library version survey) fun _ => State.Proper := by
  have hchange (f : Record → Record) (hf : ∀ r, r.Proper → (f r).Proper) :
      Ends State.Proper (changeStore (Store.change library version f)) fun _ => State.Proper :=
    ends_changeStore fun s hs => hs.change hf
  have haliases (entries : List (String × String)) : Ends State.Proper
      (forIn entries PUnit.unit fun x _ => do
        changeStore (Store.setAlias library x.1 x.2 version)
        pure (ForInStep.yield PUnit.unit)) fun _ => State.Proper :=
    Ends.forIn (I := fun _ => State.Proper) (fun _ x _ _ _ =>
      (hchange (·.setAlias x.1 x.2) fun _ hr => hr).bind fun _ =>
        Ends.pure fun _ h => ⟨⟨_, rfl⟩, h⟩) _
  rw [storeSurvey]
  refine Ends.get_bind fun s hs => ?_
  dsimp only
  refine Ends.bind (ends_changeSession fun _ => rfl) fun _ => ?_
  refine (hchange (·.setTypes _) fun _ hr => hr).bind fun _ => (haliases _).bind fun _ => ?_
  refine (Ends.forIn (I := fun _ => State.Proper) (fun _ path _ _ count => ?_) 0).bind
    fun count => ?_
  · cases survey.definitions.get? path with
    | none => exact Ends.pure fun _ h => ⟨⟨_, rfl⟩, h⟩
    | some d =>
      refine (ends_onStore (ends_complete_proper _ _ path d)).bind fun c => Ends.of_and fun hc => ?_
      refine (hchange (·.setClass path c) fun r hr => hr.setClass path hc).bind fun _ => ?_
      exact Ends.pure fun _ h => ⟨⟨_, rfl⟩, h⟩
  · refine (haliases _).bind fun _ => ?_
    refine (ends_changeStore fun s hs => hs.flush library version).bind fun _ => ?_
    exact Ends.bind (ends_changeSession fun _ => rfl) fun _ => Ends.pure fun _ h => h

theorem ends_populateWith (w : World) (fuel : Nat) (library : String) :
    Ends State.Proper (populateWith w fuel library) fun _ => State.Proper := by
  induction fuel generalizing library with
  | zero => exact Ends.pure fun _ h => h
  | succ fuel ih =>
    rw [populateWith]
    refine Ends.get_bind fun s _ => ?_
    dsimp only
    split
    · exact Ends.pure fun _ h => h
    refine Ends.bind (ends_changeSession fun _ => rfl) fun _ => ?_
    split
    · exact Ends.pure fun _ h => h
    next info _ =>
    refine Ends.bind (ends_onStore_of (Store.Proper.ends_hasClasses _ _)) fun found => ?_
    split
    · exact Ends.pure fun _ h => h
    refine (ends_dependencies ih info.dependencies).bind fun _ => ?_
    rw [populateSources]
    dsimp only
    split
    · exact Ends.pure fun _ h => h
    · exact Ends.get_bind fun _ _ => ends_storeSurvey library info.version _

theorem ends_populate (w : World) (library : String) :
    Ends State.Proper (populate w library) fun _ => State.Proper :=
  Ends.get_bind fun _ _ => ends_populateWith w _ library

theorem ends_answer (path : String) {found : Option ParamClass} (h : Library.Proper found) :
    Ends State.Proper (answer path found) fun found s => Library.Proper found ∧ s.Proper := by
  intro s hs
  refine ⟨h, hs.store, fun asked known hget => ?_⟩
  rw [answer] at hget
  replace hget : (s.session.asked.insert path found).get? asked = some known := hget
  rw [Table.get?_insert] at hget
  split at hget
  · exact Option.some.inj hget ▸ h
  · exact hs.asked asked known hget

theorem ends_onSearch (w : World) (path : String) :
    Ends State.Proper (onSearch w fun context => searchSources context path)
      fun found s => Library.Proper found ∧ s.Proper := by
  intro s hs
  rw [onSearch]
  split
  · next outcome search hrun =>
    refine ⟨?_, hs.store, hs.asked⟩
    cases outcome with
    | error fault => exact proper_none
    | ok found => exact answers_searchSources _ path _ found search hrun
  · exact ⟨proper_none, hs⟩

theorem ends_lookUp (w : World) (library path version : String) :
    Ends State.Proper (lookUp w library path version)
      fun found s => Library.Proper found ∧ s.Proper := by
  refine (ends_onStore (Store.Proper.ends_find? library path version)).bind fun found =>
    Ends.of_and fun hfound => ?_
  cases found with
  | some c => exact ends_answer path hfound
  | none =>
    refine (ends_onStore_of (Store.Proper.ends_hasClasses library version)).bind fun stored => ?_
    split
    · exact ends_answer path proper_none
    · refine (ends_onSearch w path).bind fun found => Ends.of_and fun hfound => ?_
      cases found with
      | none => exact ends_answer path proper_none
      | some c =>
        have hkeep (s : Store) (hs : s.Proper) :
            ((Store.flush library version ∘ Store.setClass library path c version) s).Proper :=
          (hs.change fun r hr => hr.setClass path (hfound c rfl)).flush library version
        exact (ends_changeStore hkeep).bind fun _ => ends_answer path hfound

/-- Every class that a session gives is proper, and the session and the store stay so. -/
theorem ends_find? (w : World) (path : String) :
    Ends State.Proper (Library.find? w path) fun found s => Library.Proper found ∧ s.Proper := by
  rw [Library.find?]
  split
  · exact ends_answer path proper_none
  refine Ends.get_bind fun s hs => ?_
  split
  · next known hknown => exact Ends.pure fun s' hs' => ⟨hs.asked path known hknown, hs'⟩
  dsimp only
  refine Ends.get_bind fun _ _ => ?_
  split
  · exact ends_answer path proper_none
  refine Ends.get_bind fun _ _ => ?_
  split
  · refine (ends_populate w _).bind fun _ => Ends.get_bind fun _ _ => ?_
    split
    · exact ends_answer path proper_none
    · exact ends_lookUp w _ path _
  · refine Ends.get_bind fun _ _ => ?_
    split
    · exact ends_answer path proper_none
    · exact ends_lookUp w _ path _

theorem ends_allTypes : Ends State.Proper allTypes fun _ => State.Proper := by
  refine Ends.get_bind fun s _ => Ends.bind (Ends.mapM fun library _ => ?_) fun _ =>
    Ends.pure fun _ h => h
  split
  · exact Ends.pure fun _ h => h
  · exact ends_onStore_of (Store.Proper.ends_types _ _)

end State.Proper

end Library

end ParamLens
