import ParamLens.Library.Session
import ParamLens.Proofs.Stores
import ParamLens.Proofs.Triples

/-! Going through other libraries. A library about which the store has nothing yet stays so while
the libraries that it depends on are gone through, each of which changes only its own record. -/

namespace ParamLens.Library

open Steps

/-! ### Stores without a record -/

/-- The store can keep a record of the library, and has none in memory or in the file. -/
structure Store.Blank (library version : String) (s : Store) : Prop where
  keeps : s.keeps version = true
  memory : s.pending.get? (Store.key library version) = none
  file : s.stored? library version = none

/-- The two are one library with its version, or their records have different keys. -/
def Store.Separate (library version other version' : String) : Prop :=
  other = library ∧ version' = version ∨
    other ≠ library ∧ Store.key other version' ≠ Store.key library version

namespace Store.Blank

variable {library version other version' : String} {s : Store}

theorem load (h : s.Blank library version)
    (hkey : Store.key other version' ≠ Store.key library version) (r : Record) :
    (s.load other version' r).Blank library version := by
  refine ⟨h.keeps, ?_, h.file⟩
  rw [Store.load, Table.get?_insert, if_neg hkey.symm]
  exact h.memory

theorem change (h : s.Blank library version)
    (hkey : Store.key other version' ≠ Store.key library version) (f : Record → Record) :
    (Store.change other version' f s).Blank library version := by
  rw [Store.change]
  split
  · exact h.load hkey _
  · exact h

theorem flush (h : s.Blank library version) (hother : other ≠ library)
    (hkey : Store.key other version' ≠ Store.key library version) :
    (s.flush other version').Blank library version := by
  rw [Store.flush]
  split
  · split
    · refine ⟨h.keeps, ?_, ?_⟩
      · show (s.pending.erase _).get? _ = none
        rw [Table.get?_erase_ne _ hkey.symm]
        exact h.memory
      · have hfile := h.file
        rw [Store.stored?] at hfile ⊢
        rw [Table.get?_insert, if_neg fun heq => hother (Store.eq_of_fileName_eq heq).symm]
        exact hfile
    · exact h
  · exact h

/-- A question about a library whose record would be brought into memory under another key. -/
theorem ends_find? (separate : Store.Separate library version other version') (name : String) :
    Ends (Store.Blank library version) (Store.find? other name version')
      fun _ => Store.Blank library version := by
  intro s h
  rw [Store.find?]
  split
  · split
    · exact h
    · next hmissing =>
      rcases separate with ⟨rfl, rfl⟩ | ⟨-, hkey⟩
      · rw [h.file]
        exact h
      · split
        · exact h.load hkey _
        · exact h
  · exact h

theorem ends_hasClasses (separate : Store.Separate library version other version') :
    Ends (Store.Blank library version) (Store.hasClasses other version')
      fun _ => Store.Blank library version := by
  intro s h
  rw [Store.hasClasses]
  split
  · split
    · exact h
    · rcases separate with ⟨rfl, rfl⟩ | ⟨-, hkey⟩
      · rw [h.file]
        exact h
      · split
        · exact h.load hkey _
        · exact h
  · exact h

theorem hasClasses_eq (h : s.Blank library version) :
    Store.hasClasses library version s = (false, s) := by
  rw [Store.hasClasses, if_pos h.keeps, h.memory, h.file]

end Store.Blank

/-! ### Classes of other libraries -/

section

variable {library version : String} {a : Ancestry}
  (apart : ∀ other info, a.infos.get? other = some info →
    Store.Separate library version other info.version)

include apart

theorem ends_stored? (name base : String) :
    Ends (Store.Blank library version) (a.stored? name base)
      fun _ => Store.Blank library version := by
  rw [Ancestry.stored?]
  split
  · next info full hinfo _ => exact Store.Blank.ends_find? (apart _ info hinfo) full
  · exact Ends.pure fun s hs => hs

theorem ends_inherit (r : Recognition) (fuel : Nat) (path : List String) (name : String)
    (c : ParamClass) :
    Ends (Store.Blank library version) (a.inherit r fuel path name c)
      fun _ => Store.Blank library version := by
  induction fuel generalizing path name c with
  | zero =>
    rw [Ancestry.inherit]
    exact Ends.pure fun s hs => hs
  | succ fuel ih =>
    rw [Ancestry.inherit]
    split
    · exact Ends.pure fun s hs => hs
    · refine Ends.foldlM (fun c base _ => ?_) c
      split
      · exact Ends.pure fun s hs => hs
      · refine (ends_stored? apart name base).bind fun found => ?_
        cases found with
        | some parent => exact Ends.pure fun s hs => hs
        | none =>
          dsimp only
          split
          · exact Ends.pure fun s hs => hs
          · exact ih _ _ _

end

/-! ### Going through other libraries -/

/-- The library was entered and has no record yet, in a session about the given libraries in which
no package waits to offer all names of a module. -/
structure Awaiting (library version : String) (allowed : List String) (infos : Table Info)
    (s : State) : Prop where
  allowed : s.session.allowed = allowed
  infos : s.session.infos = infos
  entered : library ∈ s.session.populated
  wholes : s.session.wholes = []
  store : s.store.Blank library version

section

variable {library version : String} {allowed : List String} {infos : Table Info}

theorem ends_changeSession {f : Session → Session}
    (h : ∀ s, (f s).allowed = s.allowed ∧ (f s).infos = s.infos ∧
      (∀ name ∈ s.populated, name ∈ (f s).populated) ∧ (s.wholes = [] → (f s).wholes = [])) :
    Ends (Awaiting library version allowed infos) (changeSession f)
      fun _ => Awaiting library version allowed infos := by
  intro s hs
  obtain ⟨hallowed, hinfos, hentered, hwholes⟩ := h s.session
  exact ⟨hallowed.trans hs.allowed, hinfos.trans hs.infos, hentered _ hs.entered,
    hwholes hs.wholes, hs.store⟩

theorem ends_changeStore {f : Store → Store}
    (h : ∀ s, s.Blank library version → (f s).Blank library version) :
    Ends (Awaiting library version allowed infos) (changeStore f)
      fun _ => Awaiting library version allowed infos :=
  fun s hs => ⟨hs.allowed, hs.infos, hs.entered, hs.wholes, h s.store hs.store⟩

theorem ends_onStore {α : Type} {step : StateM Store α}
    (h : Ends (Store.Blank library version) step fun _ => Store.Blank library version) :
    Ends (Awaiting library version allowed infos) (onStore step)
      fun _ => Awaiting library version allowed infos :=
  fun s hs => ⟨hs.allowed, hs.infos, hs.entered, hs.wholes, h s.store hs.store⟩

theorem ends_dependencies {P : State → Prop} {w : World} {fuel : Nat}
    (h : ∀ other, Ends P (populateWith w fuel other) fun _ => P) (dependencies : List String) :
    Ends P
      (forIn dependencies PUnit.unit fun dependency _ => do
        if !(← get).session.populated.contains dependency then
          let _ ← populateWith w fuel dependency
        pure (ForInStep.yield PUnit.unit))
      fun _ => P := by
  refine Ends.forIn (I := fun _ => P)
    (fun _ dependency _ _ _ => Ends.get_bind fun s hs => ?_) _
  split
  · exact (h dependency).bind fun _ => Ends.pure fun s hs => ⟨⟨_, rfl⟩, hs⟩
  · exact Ends.pure fun s hs => ⟨⟨_, rfl⟩, hs⟩

variable (apart : ∀ other info, infos.get? other = some info →
  Store.Separate library version other info.version) {other : String} {info : Info}
  (hinfo : infos.get? other = some info) (hother : other ≠ library)

include apart hinfo hother

theorem ends_storeSurvey (survey : Survey) :
    Ends (Awaiting library version allowed infos) (storeSurvey other info.version survey)
      fun _ => Awaiting library version allowed infos := by
  have hkey : Store.key other info.version ≠ Store.key library version :=
    ((apart other info hinfo).resolve_left fun h => hother h.1).2
  have hchange (f : Record → Record) : Ends (Awaiting library version allowed infos)
      (changeStore (Store.change other info.version f))
      fun _ => Awaiting library version allowed infos :=
    ends_changeStore fun s hs => hs.change hkey f
  have haliases (entries : List (String × String)) : Ends (Awaiting library version allowed infos)
      (forIn entries PUnit.unit fun x _ => do
        changeStore (Store.setAlias other x.1 x.2 info.version)
        pure (ForInStep.yield PUnit.unit))
      fun _ => Awaiting library version allowed infos :=
    Ends.forIn (I := fun _ => Awaiting library version allowed infos) (fun _ _ _ _ _ =>
      (hchange _).bind fun _ => Ends.pure fun s hs => ⟨⟨_, rfl⟩, hs⟩) _
  rw [storeSurvey]
  refine Ends.get_bind fun s hs => ?_
  dsimp only
  refine Ends.bind (ends_changeSession fun _ => ⟨rfl, rfl, fun _ h => h, fun _ => rfl⟩) fun _ => ?_
  refine (hchange _).bind fun _ => (haliases _).bind fun _ => ?_
  refine (Ends.forIn (I := fun _ => Awaiting library version allowed infos)
    (fun _ path _ _ count => ?_) 0).bind fun count => ?_
  · cases survey.definitions.get? path with
    | none => exact Ends.pure fun s hs => ⟨⟨_, rfl⟩, hs⟩
    | some d =>
      refine (ends_onStore (ends_inherit (hs.infos ▸ apart) _ _ _ _ _)).bind fun c => ?_
      exact (hchange _).bind fun _ => Ends.pure fun s hs => ⟨⟨_, rfl⟩, hs⟩
  · refine (haliases _).bind fun _ => ?_
    refine (ends_changeStore fun s hs => hs.flush hother hkey).bind fun _ => ?_
    refine Ends.bind (ends_changeSession fun _ => ⟨rfl, rfl, fun _ h => h, fun h => h⟩) fun _ => ?_
    exact Ends.pure fun s hs => hs

theorem ends_populateSources (w : World) :
    Ends (Awaiting library version allowed infos) (populateSources w other info.version)
      fun _ => Awaiting library version allowed infos := by
  rw [populateSources]
  dsimp only
  split
  · exact Ends.pure fun s hs => hs
  · exact Ends.get_bind fun s hs => ends_storeSurvey apart hinfo hother _

omit hinfo hother

/-- Going through any library leaves the one that was entered without a record. -/
theorem ends_populateWith (w : World) (fuel : Nat) (other : String) :
    Ends (Awaiting library version allowed infos) (populateWith w fuel other)
      fun _ => Awaiting library version allowed infos := by
  induction fuel generalizing other with
  | zero =>
    rw [populateWith]
    exact Ends.pure fun s hs => hs
  | succ fuel ih =>
    rw [populateWith]
    refine Ends.get_bind fun s hs => ?_
    dsimp only
    split
    · exact Ends.pure fun s hs => hs
    · next hnew =>
      -- The library itself was entered, so it is another one that is gone through here.
      have hother : other ≠ library := by
        rintro rfl
        simp [hs.entered] at hnew
      refine Ends.bind (ends_changeSession fun s =>
        ⟨rfl, rfl, fun _ h => List.mem_append_left _ h, fun h => h⟩) fun _ => ?_
      cases hinfo : s.session.infos.get? other with
      | none => exact Ends.pure fun s hs => hs
      | some info =>
        rw [hs.infos] at hinfo
        refine (ends_onStore (Store.Blank.ends_hasClasses (apart other info hinfo))).bind
          fun found => ?_
        split
        · exact Ends.pure fun s hs => hs
        · refine (ends_dependencies ih info.dependencies).bind fun _ => ?_
          exact ends_populateSources apart hinfo hother w

end

end ParamLens.Library
