import ParamLens.Library.Session
import ParamLens.Proofs.Steps
import ParamLens.Proofs.Tables

/-! Stores in which every library that an analysis may ask for has a record with classes. On such a
store the answers about libraries are settled: a look-up gives the class in the record, whatever was
looked up before, and the store only brings records from their files into memory. -/

namespace ParamLens.Library

open Steps

variable {w : World} {extra : List String} {base : Store}

/-! ### Stocked stores -/

/-- A library that is installed, with its version. -/
def Installed (w : World) (library version : String) : Prop :=
  (w.distributions.get? library).map Distribution.version = some version

/-- Every analysed library that is installed has a record with classes in its file. No two installed
libraries share a key in memory, and what is in memory of them is what is in the files. -/
structure Stocked (w : World) (extra : List String) (base : Store) : Prop where
  filed {library version : String} : library ∈ allowed extra → Installed w library version →
    base.keeps version = true ∧
      ∃ r, base.stored? library version = some r ∧ r.hasClasses = true
  distinct {library library' version version' : String} : Installed w library version →
    Installed w library' version' →
    Store.key library version = Store.key library' version' → library = library'
  settled {library version : String} {r : Record} : Installed w library version →
    base.pending.get? (Store.key library version) = some r →
    base.stored? library version = some r

/-- A store with the files of `base` that has in memory of the installed libraries what is in the
files. -/
structure Steady (w : World) (base s : Store) : Prop where
  enabled : s.enabled = base.enabled
  files : s.files = base.files
  memory {library version : String} {r : Record} : Installed w library version →
    s.pending.get? (Store.key library version) = some r → base.stored? library version = some r

theorem Stocked.steady (h : Stocked w extra base) : Steady w base base :=
  ⟨rfl, rfl, h.settled⟩

theorem stocked_of_none_installed (h : w.distributions = ∅) : Stocked w extra base := by
  have hnone {library version : String} (installed : Installed w library version) : False := by
    rw [Installed, h] at installed
    cases installed
  exact ⟨fun _ installed => (hnone installed).elim, fun installed => (hnone installed).elim,
    fun installed => (hnone installed).elim⟩

theorem Stocked.mono {fewer : List String} (h : Stocked w extra base)
    (sub : ∀ library ∈ allowed fewer, library ∈ allowed extra) : Stocked w fewer base :=
  ⟨fun analysed => h.filed (sub _ analysed), h.distinct, h.settled⟩

theorem Installed.version_eq {library version version' : String}
    (h : Installed w library version) (h' : Installed w library version') :
    version = version' :=
  Option.some.inj (h.symm.trans h')

theorem installed_of_infos {library : String} {info : Info}
    (h : (infos w (allowed extra)).get? library = some info) :
    library ∈ allowed extra ∧ Installed w library info.version := by
  have hmem := Table.mem_of_get?_ofList h
  obtain ⟨⟨name, d⟩, hd, heq⟩ := List.mem_map.mp hmem
  obtain ⟨rfl, rfl⟩ := Prod.mk.inj heq
  rw [World.distributionsOf, List.mem_mergeSort, List.mem_filter] at hd
  refine ⟨by simpa using hd.2, ?_⟩
  rw [Installed, Table.get?_of_mem_entries hd.1]
  rfl

namespace Steady

variable {s : Store} {library version : String} {r : Record}

theorem keeps (h : Steady w base s) : s.keeps version = base.keeps version := by
  rw [Store.keeps, Store.keeps, h.enabled]

theorem stored? (h : Steady w base s) :
    s.stored? library version = base.stored? library version := by
  rw [Store.stored?, Store.stored?, h.files]

theorem load (stocked : Stocked w extra base) (h : Steady w base s)
    (installed : Installed w library version)
    (stored : base.stored? library version = some r) :
    Steady w base (s.load library version r) := by
  refine ⟨h.enabled, h.files, fun {library' version' r'} installed' hget => ?_⟩
  rw [Store.load, Table.get?_insert] at hget
  split at hget
  · next hkey =>
    obtain rfl := stocked.distinct installed' installed hkey
    rw [installed'.version_eq installed, stored, hget]
  · exact h.memory installed' hget

end Steady

/-! ### The store -/

section Store

variable (stocked : Stocked w extra base) {library version : String} {r : Record}
  (analysed : library ∈ allowed extra) (installed : Installed w library version)
  (stored : base.stored? library version = some r)

include stocked analysed installed stored

theorem yields_hasClasses : Yields (Steady w base) (Store.hasClasses library version) true := by
  intro s h
  obtain ⟨hkeeps, r', hr', hclasses⟩ := stocked.filed analysed installed
  obtain rfl := Option.some.inj (stored.symm.trans hr')
  rw [Store.hasClasses, if_pos (h.keeps.trans hkeeps)]
  cases hpending : s.pending.get? (Store.key library version) with
  | some r' =>
    obtain rfl := Option.some.inj (stored.symm.trans (h.memory installed hpending))
    exact ⟨hclasses, h⟩
  | none =>
    simp only [h.stored?, stored]
    exact ⟨hclasses, h.load stocked installed stored⟩

theorem yields_types : Yields (Steady w base) (Store.types library version) r.types := by
  intro s h
  rw [Store.types, if_pos (h.keeps.trans (stocked.filed analysed installed).1)]
  cases hpending : s.pending.get? (Store.key library version) with
  | some r' =>
    obtain rfl := Option.some.inj (stored.symm.trans (h.memory installed hpending))
    exact ⟨rfl, h⟩
  | none =>
    simp only [h.stored?, stored]
    exact ⟨trivial, h.load stocked installed stored⟩

theorem yields_find? (name : String) :
    Yields (Steady w base) (Store.find? library name version) (r.find? name) := by
  intro s h
  have hloaded := h.load stocked installed stored
  rw [Store.find?, if_pos (h.keeps.trans (stocked.filed analysed installed).1)]
  cases hpending : s.pending.get? (Store.key library version) with
  | some r' =>
    obtain rfl := Option.some.inj (stored.symm.trans (h.memory installed hpending))
    cases hfound : r.find? name with
    | some c =>
      simp only [Option.bind_some, hfound]
      exact ⟨trivial, h⟩
    | none =>
      simp only [Option.bind_some, hfound, h.stored?, stored]
      exact ⟨trivial, hloaded⟩
  | none =>
    simp only [Option.bind_none, h.stored?, stored]
    exact ⟨trivial, hloaded⟩

end Store

/-! ### Sessions -/

/-- The answer about a class of a library by its full name. -/
def settled (w : World) (extra : List String) (base : Store) (path : String) : Option ParamClass :=
  if Text.startsWith path "param." then none
  else if (allowed extra).contains (Dotted.first path) then do
    let info ← (infos w (allowed extra)).get? (Dotted.first path)
    let r ← base.stored? (Dotted.first path) info.version
    r.find? path
  else none

/-- The session is about the analysed libraries, and what it was asked it has answered as
settled. -/
structure Session.Settled (w : World) (extra : List String) (base : Store) (s : Session) :
    Prop where
  allowed : s.allowed = Library.allowed extra
  infos : s.infos = Library.infos w (Library.allowed extra)
  asked {path : String} {found : Option ParamClass} :
    s.asked.get? path = some found → found = settled w extra base path

/-- A settled session on a steady store. -/
structure State.Settled (w : World) (extra : List String) (base : Store) (s : State) : Prop where
  session : s.session.Settled w extra base
  store : Steady w base s.store

theorem Session.settled_start (w : World) (extra : List String) (base : Store) :
    (Session.start w extra).Settled w extra base :=
  ⟨rfl, rfl, fun h => absurd h (by simp [Session.start])⟩

theorem yields_onStore {α : Type} {step : StateM Store α} {a : α}
    (h : Yields (Steady w base) step a) :
    Yields (State.Settled w extra base) (onStore step) a := by
  intro s hs
  obtain ⟨hanswer, hnext⟩ := h s.store hs.store
  exact ⟨hanswer, hs.session, hnext⟩

theorem yields_changeSession {f : Session → Session}
    (h : ∀ s, s.Settled w extra base → (f s).Settled w extra base) :
    Yields (State.Settled w extra base) (changeSession f) () :=
  fun s hs => ⟨rfl, h s.session hs.session, hs.store⟩

theorem yields_answer {path : String} {found : Option ParamClass}
    (h : found = settled w extra base path) :
    Yields (State.Settled w extra base) (answer path found) found := by
  refine Yields.bind (yields_changeSession fun s hs => ?_) (Yields.pure found)
  refine ⟨hs.allowed, hs.infos, fun {asked known} hget => ?_⟩
  rw [Table.get?_insert] at hget
  split at hget
  · next heq => rw [heq, ← h, Option.some.inj hget]
  · exact hs.asked hget

section

variable (stocked : Stocked w extra base)

include stocked

theorem yields_populateWith (fuel : Nat) (library : String) :
    Yields (State.Settled w extra base) (populateWith w (fuel + 1) library) 0 := by
  rw [populateWith]
  refine Yields.get_bind fun s hs => ?_
  dsimp only
  split
  · exact Yields.pure 0
  · refine Yields.bind (yields_changeSession fun s hs => ⟨hs.allowed, hs.infos, hs.asked⟩) ?_
    cases hinfo : s.session.infos.get? library with
    | none => exact Yields.pure 0
    | some info =>
      obtain ⟨analysed, installed⟩ := installed_of_infos (hs.session.infos ▸ hinfo)
      obtain ⟨-, r, stored, -⟩ := stocked.filed analysed installed
      refine Yields.bind (yields_onStore (yields_hasClasses stocked analysed installed stored)) ?_
      exact Yields.pure 0

theorem yields_populate (library : String) :
    Yields (State.Settled w extra base) (populate w library) 0 :=
  Yields.get_bind fun s _ => yields_populateWith stocked s.session.allowed.length library

theorem yields_lookUp {library path version : String} {r : Record}
    (analysed : library ∈ allowed extra) (installed : Installed w library version)
    (stored : base.stored? library version = some r)
    (h : r.find? path = settled w extra base path) :
    Yields (State.Settled w extra base) (lookUp w library path version) (r.find? path) := by
  refine Yields.bind (yields_onStore (yields_find? stocked analysed installed stored path)) ?_
  cases hfound : r.find? path with
  | some c => exact yields_answer (hfound ▸ h)
  | none =>
    refine Yields.bind (yields_onStore (yields_hasClasses stocked analysed installed stored)) ?_
    exact yields_answer (hfound ▸ h)

theorem yields_lookUpInfo {path : String} (hparam : ¬ Text.startsWith path "param." = true)
    (hallowed : (allowed extra).contains (Dotted.first path) = true) :
    Yields (State.Settled w extra base) (do
      match (← get).session.infos.get? (Dotted.first path) with
      | none => answer path none
      | some info => lookUp w (Dotted.first path) path info.version)
      (settled w extra base path) := by
  refine Yields.get_bind fun s hs => ?_
  have hsettled : settled w extra base path =
      (s.session.infos.get? (Dotted.first path)).bind fun info =>
        (base.stored? (Dotted.first path) info.version).bind (·.find? path) := by
    rw [settled, if_neg hparam, if_pos hallowed, hs.session.infos]
    rfl
  cases hinfo : s.session.infos.get? (Dotted.first path) with
  | none =>
    rw [hinfo, Option.bind_none] at hsettled
    rw [hsettled]
    exact yields_answer hsettled.symm
  | some info =>
    obtain ⟨analysed, installed⟩ := installed_of_infos (hs.session.infos ▸ hinfo)
    obtain ⟨-, r, stored, -⟩ := stocked.filed analysed installed
    rw [hinfo, Option.bind_some, stored, Option.bind_some] at hsettled
    rw [hsettled]
    exact yields_lookUp stocked analysed installed stored hsettled.symm

/-- On a stocked store a look-up gives the settled answer, whatever was looked up before. -/
theorem yields_settled (path : String) :
    Yields (State.Settled w extra base) (find? w path) (settled w extra base path) := by
  rw [find?]
  split
  · next hparam =>
    have h : none = settled w extra base path := by rw [settled, if_pos hparam]
    exact h ▸ yields_answer h
  · next hparam =>
    refine Yields.get_bind fun s hs => ?_
    cases hasked : s.session.asked.get? path with
    | some known => exact hs.session.asked hasked ▸ Yields.pure known
    | none =>
      refine Yields.get_bind fun s hs => ?_
      rw [hs.session.allowed]
      split
      · next hallowed =>
        have h : none = settled w extra base path := by
          rw [settled, if_neg hparam, if_neg (by simpa using hallowed)]
        exact h ▸ yields_answer h
      · next hallowed =>
        have hrest := yields_lookUpInfo stocked hparam (by simpa using hallowed)
        refine Yields.get_bind fun s _ => ?_
        split
        · exact Yields.bind (yields_populate stocked _) hrest
        · exact hrest

/-- The parameter types of the analysed libraries. -/
def settledTypes (w : World) (extra : List String) (base : Store) : List String :=
  ((allowed extra).map fun library =>
    (((infos w (allowed extra)).get? library).bind fun info =>
      (base.stored? library info.version).map Record.types).getD []).flatten.eraseDups

theorem yields_allTypes :
    Yields (State.Settled w extra base) allTypes (settledTypes w extra base) := by
  refine Yields.get_bind fun s hs => ?_
  dsimp only
  rw [hs.session.allowed, hs.session.infos]
  refine Yields.bind (Yields.mapM fun library _ => ?_) (Yields.pure _)
  cases hinfo : (infos w (allowed extra)).get? library with
  | none => exact Yields.pure []
  | some info =>
    obtain ⟨analysed, installed⟩ := installed_of_infos hinfo
    obtain ⟨-, r, stored, -⟩ := stocked.filed analysed installed
    simp only [Option.bind_some, stored, Option.map_some, Option.getD_some]
    exact yields_onStore (yields_types stocked analysed installed stored)

end

end ParamLens.Library
