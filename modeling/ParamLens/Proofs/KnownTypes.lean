import ParamLens.Proofs.SurveyRecords

/-! What the record of a library depends on besides its own files: the parameter types that are
known when they are gone through. These come from the libraries that were gone through before in the
same session; a library that is found in the store adds none. -/

namespace ParamLens

open Syntax Analysis

/-! ### Types as a set -/

namespace Recognition

variable {imports : Imports} {types types' : List String}

theorem isParameterType_congr (h : ∀ name, name ∈ types ↔ name ∈ types') (full : String) :
    isParameterType ⟨imports, types⟩ full = isParameterType ⟨imports, types'⟩ full := by
  have hcontains : types.contains full = types'.contains full := by simp [h]
  have hany (test : String → Bool) : types.any test = types'.any test := by
    rw [Bool.eq_iff_iff, List.any_eq_true, List.any_eq_true]
    simp only [h]
  simp only [isParameterType, hcontains, hany]

theorem isParameterAssignment_of_bound (h : ∀ name full, imports.get? name = some full →
      isParameterType ⟨imports, types⟩ full = isParameterType ⟨imports, types'⟩ full) :
    isParameterAssignment ⟨imports, types⟩ = isParameterAssignment ⟨imports, types'⟩ := by
  have hbound (name : String) : (imports.get? name).any (isParameterType ⟨imports, types⟩) =
      (imports.get? name).any (isParameterType ⟨imports, types'⟩) := by
    cases hfull : imports.get? name with
    | none => rfl
    | some full => exact h name full hfull
  have hcall : isParameterCall ⟨imports, types⟩ = isParameterCall ⟨imports, types'⟩ := by
    funext call
    simp only [isParameterCall, hbound, isFromParam]
  funext n
  simp only [isParameterAssignment, hcall]

theorem isParameterAssignment_congr (h : ∀ name, name ∈ types ↔ name ∈ types') :
    isParameterAssignment ⟨imports, types⟩ = isParameterAssignment ⟨imports, types'⟩ :=
  isParameterAssignment_of_bound fun _ full _ => isParameterType_congr h full

end Recognition

namespace Library

open Steps

mutual

theorem declarationsIn_congr {r r' : Recognition}
    (h : r.isParameterAssignment = r'.isParameterAssignment) :
    (n : Node) → declarationsIn r n = declarationsIn r' n
  | ⟨_, _, _, _, children⟩ => by
    rw [declarationsIn, declarationsIn]
    exact declarationsAmong_congr h children

theorem declarationsAmong_congr {r r' : Recognition}
    (h : r.isParameterAssignment = r'.isParameterAssignment) :
    (nodes : List Node) → declarationsAmong r nodes = declarationsAmong r' nodes
  | [] => by rw [declarationsAmong, declarationsAmong]
  | child :: rest => by
    rw [declarationsAmong, declarationsAmong, h, declarationsIn_congr h child,
      declarationsAmong_congr h rest]

end

theorem ownParameters_of_test {r r' : Recognition}
    (h : r.isParameterAssignment = r'.isParameterAssignment) (imports : Imports) (content : String)
    (n : Node) : ownParameters r imports content n = ownParameters r' imports content n := by
  unfold ownParameters
  cases n.child? .body with
  | none => rfl
  | some body =>
    dsimp only
    rw [declarationsIn_congr h]

theorem ownParameters_congr {types types' : List String}
    (h : ∀ name, name ∈ types ↔ name ∈ types') (known imports : Imports) (content : String)
    (n : Node) :
    ownParameters ⟨known, types⟩ imports content n =
      ownParameters ⟨known, types'⟩ imports content n :=
  ownParameters_of_test (Recognition.isParameterAssignment_congr h) imports content n

theorem setTypes_of_perm (r : Record) {types types' : List String} (h : types.Perm types') :
    r.setTypes types = r.setTypes types' := by
  have sorted (values : List String) : (values.mergeSort fun a b => a ≤ b).Pairwise (· ≤ ·) := by
    refine (List.pairwise_mergeSort ?_ ?_ values).imp of_decide_eq_true
    · intro a b c hab hbc
      exact decide_eq_true (String.le_trans (of_decide_eq_true hab) (of_decide_eq_true hbc))
    · intro a b
      simpa using String.le_total a b
  unfold Record.setTypes
  congr 1
  exact List.Perm.eq_of_pairwise (fun _ _ _ _ => String.le_antisymm) (sorted types) (sorted types')
    (((List.mergeSort_perm types _).trans h).trans (List.mergeSort_perm types' _).symm)

namespace Survey

variable {s : Survey} {types types' : List String} {library version : String}

theorem gather_congr (h : ∀ name, name ∈ types ↔ name ∈ types')
    (find? : String → Option ParamClass) (imports : Imports) (fuel : Nat) (path : List String)
    (name : String) (c : ParamClass) :
    s.gather find? ⟨imports, types⟩ fuel path name c =
      s.gather find? ⟨imports, types'⟩ fuel path name c := by
  induction fuel generalizing path name c with
  | zero => rfl
  | succ fuel ih => simp only [gather, ih, ownParameters_congr h]

theorem enter_congr (h : ∀ name, name ∈ types ↔ name ∈ types') :
    s.enter types = s.enter types' := by
  funext r path
  have hown (d : Definition) (name : String) : ownClass types d name = ownClass types' d name := by
    rw [ownClass, ownClass, ownParameters_congr h]
  simp only [enter, completed, hown, gather_congr h]

/-- The record depends on the parameter types as a set, and it tells them. -/
theorem record_eq_iff (hnodup : types.Nodup) (hnodup' : types'.Nodup) :
    s.record library version types = s.record library version types' ↔
      ∀ name, name ∈ types ↔ name ∈ types' := by
  constructor
  · intro h name
    have htypes := congrArg Record.types h
    rw [types_record, types_record] at htypes
    simp only [Record.setTypes] at htypes
    rw [← List.mem_mergeSort (l := types), htypes, List.mem_mergeSort]
  · intro h
    have hperm := (List.perm_ext_iff_of_nodup hnodup hnodup').mpr h
    rw [record, record, opened, opened, setTypes_of_perm _ hperm, enter_congr h]

theorem aliases_record (types types' : List String) :
    (s.record library version types).aliases = (s.record library version types').aliases := by
  simp [record, opened, Record.setTypes]

theorem names_foldl_enter (paths : List String) {r r' : Record}
    (h : r.classes.names = r'.classes.names) :
    (paths.foldl (s.enter types) r).classes.names =
      (paths.foldl (s.enter types') r').classes.names := by
  induction paths generalizing r r' with
  | nil => exact h
  | cons path rest ih =>
    refine ih ?_
    unfold enter
    split
    · exact h
    · simp only [Record.setClass, Table.names_insert, h]

theorem names_record (types types' : List String) :
    (s.record library version types).classes.names =
      (s.record library version types').classes.names := by
  simp only [record, Record.classes_setAliases]
  exact names_foldl_enter _ (by simp)

end Survey

/-! ### Libraries that were not entered -/

/-- The names of the libraries hold no dot and no colon. -/
def WellNamed (infos : Table Info) : Prop :=
  ∀ library info, infos.get? library = some info →
    '.' ∉ library.toList ∧ ':' ∉ library.toList

theorem Store.Agrees.blank {library version : String} {s t : Store}
    (h : Store.Agrees library version s t) (hblank : s.Blank library version) :
    t.Blank library version := by
  refine ⟨?_, h.memory.trans hblank.memory, h.file.trans hblank.file⟩
  rw [Store.keeps, h.enabled]
  exact hblank.keeps

theorem Store.Agrees.hasClasses {library version : String} {s t : Store}
    (h : Store.Agrees library version s t) :
    (Store.hasClasses library version t).1 = (Store.hasClasses library version s).1 := by
  have hkeeps : t.keeps version = s.keeps version := by rw [Store.keeps, Store.keeps, h.enabled]
  simp only [Store.hasClasses, hkeeps, h.memory, h.file]
  split
  · split
    · rfl
    · split <;> rfl
  · rfl

/-- The store has of the libraries that were not entered what `base` has. -/
def Kept (infos : Table Info) (entered : List String) (base s : Store) : Prop :=
  ∀ other info, infos.get? other = some info → other ∉ entered →
    Store.Agrees other info.version base s

namespace Kept

variable {infos : Table Info} {entered : List String} {base s : Store} {library : String}
  {info : Info} (named : WellNamed infos) (hinfo : infos.get? library = some info)
  (hentered : library ∈ entered)

include named hinfo hentered

theorem load (h : Kept infos entered base s) (r : Record) :
    Kept infos entered base (s.load library info.version r) := by
  intro other info' hother hnot
  have hkey : Store.key other info'.version ≠ Store.key library info.version := fun heq =>
    hnot (eq_of_key_eq (named library info hinfo).2 (named other info' hother).2 heq ▸ hentered)
  obtain ⟨henabled, hmemory, hfile⟩ := h other info' hother hnot
  refine ⟨henabled, ?_, hfile⟩
  rw [Store.load, Table.get?_insert, if_neg hkey]
  exact hmemory

theorem change (h : Kept infos entered base s) (f : Record → Record) :
    Kept infos entered base (Store.change library info.version f s) := by
  unfold Store.change
  split
  · exact h.load named hinfo hentered _
  · exact h

theorem flush (h : Kept infos entered base s) :
    Kept infos entered base (s.flush library info.version) := by
  unfold Store.flush
  split
  · split
    · intro other info' hother hnot
      have hne : other ≠ library := fun heq => hnot (heq ▸ hentered)
      have hkey : Store.key other info'.version ≠ Store.key library info.version := fun heq =>
        hne (eq_of_key_eq (named library info hinfo).2 (named other info' hother).2 heq)
      obtain ⟨henabled, hmemory, hfile⟩ := h other info' hother hnot
      refine ⟨henabled, ?_, ?_⟩
      · exact (Table.get?_erase_ne _ hkey).trans hmemory
      · refine Eq.trans ?_ hfile
        rw [Store.stored?, Store.stored?, Table.get?_insert,
          if_neg fun heq => hne (Store.eq_of_fileName_eq heq)]
    · exact h
  · exact h

theorem ends_find? (name : String) :
    Ends (Kept infos entered base) (Store.find? library name info.version)
      fun _ => Kept infos entered base := by
  intro s h
  unfold Store.find?
  split
  · split
    · exact h
    · split
      · exact h.load named hinfo hentered _
      · exact h
  · exact h

theorem ends_hasClasses :
    Ends (Kept infos entered base) (Store.hasClasses library info.version)
      fun _ => Kept infos entered base := by
  intro s h
  unfold Store.hasClasses
  split
  · split
    · exact h
    · split
      · exact h.load named hinfo hentered _
      · exact h
  · exact h

theorem ends_inherit {survey : Survey} (hof : survey.Of library) (r : Recognition) (fuel : Nat)
    (path : List String) {name : String} (hname : Dotted.first name = library) (c : ParamClass) :
    Ends (Kept infos entered base)
      (Ancestry.inherit ⟨infos, survey.bases, survey.definitions⟩ r fuel path name c)
      fun _ => Kept infos entered base := by
  induction fuel generalizing path name c with
  | zero =>
    rw [Ancestry.inherit]
    exact Ends.pure fun s hs => hs
  | succ fuel ih =>
    rw [Ancestry.inherit]
    split
    · exact Ends.pure fun s hs => hs
    · refine Ends.foldlM (fun c base' _ => ?_) c
      split
      · exact Ends.pure fun s hs => hs
      · refine Ends.bind (Q := fun _ => Kept infos entered base) ?_ fun found => ?_
        · rw [Ancestry.stored?, hname, hinfo]
          split
          · next info' full hsome _ =>
            obtain rfl := Option.some.inj hsome
            exact ends_find? named hinfo hentered full
          · exact Ends.pure fun s hs => hs
        · cases found with
          | some parent => exact Ends.pure fun s hs => hs
          | none =>
            dsimp only
            cases hd : survey.definitions.get? base' with
            | none => exact Ends.pure fun s hs => hs
            | some d => exact ih _ (hof base' d hd) _

end Kept

/-! ### Libraries that were gone through -/

/-- The parameter types that are known after the files of the libraries were gone through, one
library after another. -/
def knownTypes (w : World) (gone : List String) : List String :=
  gone.foldl (fun known library =>
    match rootOf? w library (sources w library) with
    | none => known
    | some root => parameterTypes library (surveyOf w library root).bases known) []

theorem knownTypes_append (w : World) (gone : List String) (library : String) :
    knownTypes w (gone ++ [library]) =
      match rootOf? w library (sources w library) with
      | none => knownTypes w gone
      | some root =>
        parameterTypes library (surveyOf w library root).bases (knownTypes w gone) := by
  rw [knownTypes, List.foldl_append]
  rfl

theorem nodup_knownTypes (w : World) (gone : List String) : (knownTypes w gone).Nodup := by
  refine List.foldlRecOn _ _ List.nodup_nil fun known hknown library _ => ?_
  split
  · exact hknown
  · exact (extends_detect _ _ _ _).nodup hknown

/-- The session is about the given libraries and knows the given types, and the store has of the
libraries that were not entered what `base` has. -/
structure Roaming (allowed : List String) (infos : Table Info) (base : Store)
    (entered types : List String) (s : State) : Prop where
  allowed_eq : s.session.allowed = allowed
  infos_eq : s.session.infos = infos
  wholes_eq : s.session.wholes = []
  populated_eq : s.session.populated = entered
  types_eq : s.session.types = types
  kept : Kept infos entered base s.store

namespace Roaming

variable {allowed : List String} {infos : Table Info} {base : Store}
  {entered types : List String} {library : String} {info : Info} (named : WellNamed infos)
  (hinfo : infos.get? library = some info) (hentered : library ∈ entered)

theorem with_store {s : State} (h : Roaming allowed infos base entered types s) {store : Store}
    (hkept : Kept infos entered base store) :
    Roaming allowed infos base entered types { s with store } :=
  ⟨h.allowed_eq, h.infos_eq, h.wholes_eq, h.populated_eq, h.types_eq, hkept⟩

theorem ends_onStore {α : Type} {step : StateM Store α}
    (h : Ends (Kept infos entered base) step fun _ => Kept infos entered base) :
    Ends (Roaming allowed infos base entered types) (onStore step)
      fun _ => Roaming allowed infos base entered types :=
  fun s hs => hs.with_store (h s.store hs.kept)

theorem ends_changeStore {f : Store → Store}
    (h : ∀ s, Kept infos entered base s → Kept infos entered base (f s)) :
    Ends (Roaming allowed infos base entered types) (changeStore f)
      fun _ => Roaming allowed infos base entered types :=
  fun s hs => hs.with_store (h s.store hs.kept)

include named hinfo hentered

theorem ends_storeSurvey {survey : Survey} (hof : survey.Of library) :
    Ends (Roaming allowed infos base entered types) (storeSurvey library info.version survey)
      fun _ => Roaming allowed infos base entered (parameterTypes library survey.bases types) := by
  let roaming := Roaming allowed infos base entered (parameterTypes library survey.bases types)
  have hchange (f : Record → Record) :
      Ends roaming (changeStore (Store.change library info.version f)) fun _ => roaming :=
    ends_changeStore fun s hs => hs.change named hinfo hentered f
  have haliases (entries : List (String × String)) : Ends roaming
      (forIn entries PUnit.unit fun x _ => do
        changeStore (Store.setAlias library x.1 x.2 info.version)
        pure (ForInStep.yield PUnit.unit)) fun _ => roaming :=
    Ends.forIn (I := fun _ => roaming) (fun _ _ _ _ _ =>
      (hchange _).bind fun _ => Ends.pure fun s hs => ⟨⟨_, rfl⟩, hs⟩) _
  rw [storeSurvey]
  refine Ends.get_bind fun s hs => ?_
  dsimp only
  rw [hs.infos_eq, hs.types_eq]
  refine Ends.bind (Q := fun _ => roaming)
    (fun s hs => ⟨hs.allowed_eq, hs.infos_eq, rfl, hs.populated_eq, rfl, hs.kept⟩) fun _ => ?_
  refine (hchange _).bind fun _ => (haliases _).bind fun _ => ?_
  refine (Ends.forIn (I := fun _ => roaming) (fun _ path _ _ count => ?_) 0).bind fun count => ?_
  · cases hd : survey.definitions.get? path with
    | none => exact Ends.pure fun s hs => ⟨⟨_, rfl⟩, hs⟩
    | some d =>
      refine Ends.bind (ends_onStore
        (Kept.ends_inherit named hinfo hentered hof _ _ _ (hof path d hd) _)) fun c => ?_
      exact (hchange _).bind fun _ => Ends.pure fun s hs => ⟨⟨_, rfl⟩, hs⟩
  · refine (haliases _).bind fun _ => ?_
    refine (ends_changeStore fun s hs => hs.flush named hinfo hentered).bind fun _ => ?_
    rintro s ⟨hallowed, hinfos, hwholes, hpopulated, htypes, hkept⟩
    exact ⟨hallowed, hinfos, hwholes, hpopulated, htypes, hkept⟩

theorem ends_populateSources (w : World) (gone : List String) :
    Ends (Roaming allowed infos base entered (knownTypes w gone))
      (populateSources w library info.version)
      fun _ => Roaming allowed infos base entered (knownTypes w (gone ++ [library])) := by
  rw [populateSources, knownTypes_append]
  dsimp only
  cases rootOf? w library (sources w library) with
  | none => exact Ends.pure fun s hs => hs
  | some root =>
    refine Ends.get_bind fun s hs => ?_
    rw [hs.wholes_eq]
    exact ends_storeSurvey named hinfo hentered (of_surveyOf (named library info hinfo).1)

end Roaming

/-- The library is installed and the store has no classes of it. -/
def Unrecorded (infos : Table Info) (base : Store) (library : String) : Prop :=
  ∃ info, infos.get? library = some info ∧ (Store.hasClasses library info.version base).1 = false

/-- The libraries that were entered are gone through, those of which the store had classes and those
that wait for others apart. -/
structure Travelled (w : World) (allowed : List String) (infos : Table Info) (base : Store)
    (waiting gone : List String) (s : State) : Prop where
  roaming : Roaming allowed infos base s.session.populated (knownTypes w gone) s
  waiting_entered : ∀ library ∈ waiting, library ∈ s.session.populated
  nodup : gone.Nodup
  mem_gone : ∀ library, library ∈ gone ↔
    library ∈ s.session.populated ∧ library ∉ waiting ∧ Unrecorded infos base library

namespace Travelled

variable {w : World} {allowed : List String} {infos : Table Info} {base : Store}
  {waiting gone : List String} {s : State} {library : String} {info : Info}

theorem enter (h : Travelled w allowed infos base waiting gone s)
    (hnew : library ∉ s.session.populated) :
    Travelled w allowed infos base (library :: waiting) gone
      { s with session := { s.session with populated := s.session.populated ++ [library] } } := by
  obtain ⟨hallowed, hinfos, hwholes, -, htypes, hkept⟩ := h.roaming
  refine ⟨⟨hallowed, hinfos, hwholes, rfl, htypes, ?_⟩, ?_, h.nodup, ?_⟩
  · intro other info hother hnot
    exact hkept other info hother fun hmem => hnot (List.mem_append_left _ hmem)
  · intro other hother
    rcases List.mem_cons.mp hother with rfl | hother
    · exact List.mem_append_right _ List.mem_cons_self
    · exact List.mem_append_left _ (h.waiting_entered other hother)
  · intro other
    rw [h.mem_gone other]
    constructor
    · rintro ⟨hmem, hnot, hunrecorded⟩
      have hne : other ≠ library := fun heq => hnew (heq ▸ hmem)
      exact ⟨List.mem_append_left _ hmem, by simp [hne, hnot], hunrecorded⟩
    · rintro ⟨hmem, hnot, hunrecorded⟩
      rw [List.mem_cons, not_or] at hnot
      rcases List.mem_append.mp hmem with hmem | hmem
      · exact ⟨hmem, hnot.2, hunrecorded⟩
      · exact absurd (List.mem_singleton.mp hmem) hnot.1

theorem leave (h : Travelled w allowed infos base (library :: waiting) gone s)
    (hrecorded : ¬ Unrecorded infos base library) :
    Travelled w allowed infos base waiting gone s := by
  refine ⟨h.roaming, fun other hother => h.waiting_entered other (List.mem_cons_of_mem _ hother),
    h.nodup, fun other => ?_⟩
  rw [h.mem_gone other, List.mem_cons, not_or]
  constructor
  · rintro ⟨hmem, hnot, hunrecorded⟩
    exact ⟨hmem, hnot.2, hunrecorded⟩
  · rintro ⟨hmem, hnot, hunrecorded⟩
    exact ⟨hmem, ⟨fun heq => hrecorded (heq ▸ hunrecorded), hnot⟩, hunrecorded⟩

theorem ends_populateSources (named : WellNamed infos)
    (hinfo : infos.get? library = some info) (hunrecorded : Unrecorded infos base library)
    (hnot : library ∉ waiting) :
    Ends (fun s => ∃ gone, Travelled w allowed infos base (library :: waiting) gone s)
      (populateSources w library info.version)
      fun _ s => ∃ gone, Travelled w allowed infos base waiting gone s := by
  rintro s ⟨gone, h⟩
  have hentered : library ∈ s.session.populated := h.waiting_entered library List.mem_cons_self
  have hroaming := Roaming.ends_populateSources named hinfo hentered w gone s h.roaming
  have hnew : library ∉ gone := fun hmem =>
    ((h.mem_gone library).mp hmem).2.1 List.mem_cons_self
  refine ⟨gone ++ [library], ?_, fun other hother => ?_,
    List.nodup_append_comm.mp (List.nodup_cons.mpr ⟨hnew, h.nodup⟩), fun other => ?_⟩
  · rw [hroaming.populated_eq]
    exact hroaming
  · rw [hroaming.populated_eq]
    exact h.waiting_entered other (List.mem_cons_of_mem _ hother)
  · rw [hroaming.populated_eq, List.mem_append, List.mem_singleton, h.mem_gone other,
      List.mem_cons, not_or]
    constructor
    · rintro (⟨hmem, hne, hunrecorded⟩ | rfl)
      · exact ⟨hmem, hne.2, hunrecorded⟩
      · exact ⟨hentered, hnot, hunrecorded⟩
    · rintro ⟨hmem, hother, hunrecorded⟩
      by_cases heq : other = library
      · exact .inr heq
      · exact .inl ⟨hmem, ⟨heq, hother⟩, hunrecorded⟩

/-- Whether the store has classes of a library that is entered is what it was at the beginning. -/
theorem asks (named : WellNamed infos) (h : Travelled w allowed infos base waiting gone s)
    (hnew : library ∉ s.session.populated) (hinfo : infos.get? library = some info) :
    Ends (· =
        { s with session := { s.session with populated := s.session.populated ++ [library] } })
      (onStore (Store.hasClasses library info.version)) fun found s' =>
        (found = false ↔ Unrecorded infos base library) ∧
          Travelled w allowed infos base (library :: waiting) gone s' := by
  rintro s' rfl
  have hentered := h.enter hnew
  have hanswer := (h.roaming.kept library info hinfo hnew).hasClasses
  have hroaming := Roaming.ends_onStore (Kept.ends_hasClasses named hinfo
    (List.mem_append_right _ List.mem_cons_self)) _ hentered.roaming
  refine ⟨⟨fun hfound => ⟨info, hinfo, hanswer ▸ hfound⟩, ?_⟩, hroaming, hentered.waiting_entered,
    hentered.nodup, hentered.mem_gone⟩
  rintro ⟨info', hinfo', hfalse⟩
  obtain rfl := Option.some.inj (hinfo.symm.trans hinfo')
  exact hanswer.trans hfalse

theorem ends_populateWith (named : WellNamed infos) (w : World) (fuel : Nat) (waiting : List String)
    (library : String) :
    Ends (fun s => ∃ gone, Travelled w allowed infos base waiting gone s)
      (populateWith w fuel library)
      fun _ s => ∃ gone, Travelled w allowed infos base waiting gone s := by
  induction fuel generalizing waiting library with
  | zero =>
    rw [populateWith]
    exact Ends.pure fun s hs => hs
  | succ fuel ih =>
    rintro s ⟨gone, h⟩
    have hstep : Ends (· = s) (populateWith w (fuel + 1) library)
        fun _ s => ∃ gone, Travelled w allowed infos base waiting gone s := by
      rw [populateWith]
      refine Ends.get_bind fun st hst => ?_
      obtain rfl := hst
      dsimp only
      split
      · exact Ends.pure fun s hs => ⟨gone, hs ▸ h⟩
      · next hnew =>
        have hnew : library ∉ st.session.populated := by simp_all
        have hnot : library ∉ waiting := fun hmem => hnew (h.waiting_entered library hmem)
        refine Ends.bind (Q := fun _ => (· = { st with session :=
          { st.session with populated := st.session.populated ++ [library] } }))
          (fun s hs => hs ▸ rfl) fun _ => ?_
        rw [h.roaming.infos_eq]
        cases hinfo : infos.get? library with
        | none =>
          refine Ends.pure fun s hs => ⟨gone, hs ▸ (h.enter hnew).leave ?_⟩
          rintro ⟨info, hinfo', -⟩
          cases hinfo.symm.trans hinfo'
        | some info =>
          refine Ends.bind (h.asks named hnew hinfo) fun found => ?_
          cases found with
          | true =>
            exact Ends.pure fun s hs => ⟨gone, hs.2.leave fun hunrecorded =>
              Bool.noConfusion (hs.1.mpr hunrecorded)⟩
          | false =>
            rintro s ⟨hasked, hs⟩
            have hdependencies := ends_dependencies (ih (library :: waiting)) info.dependencies
            exact hdependencies.bind
              (fun _ => ends_populateSources named hinfo (hasked.mp rfl) hnot) s ⟨gone, hs⟩
    exact hstep s rfl

theorem ready (named : WellNamed infos) (h : Travelled w allowed infos base waiting gone s)
    (hallowed : library ∈ allowed) (hinfo : infos.get? library = some info)
    (hnew : library ∉ s.session.populated) (blank : base.Blank library info.version) :
    Ready library info s where
  allowed := h.roaming.allowed_eq ▸ hallowed
  new := hnew
  known := h.roaming.infos_eq ▸ hinfo
  wholes := h.roaming.wholes_eq
  blank := (h.roaming.kept library info hinfo hnew).blank blank
  apart other info' hother hkey := by
    rw [h.roaming.infos_eq] at hother
    exact eq_of_key_eq (named library info hinfo).2 (named other info' hother).2 hkey

/-- The record of a library has the types that are known after the libraries gone through before. -/
theorem exists_record (named : WellNamed infos) (h : Travelled w allowed infos base [] gone s)
    (hallowed : library ∈ allowed) (hinfo : infos.get? library = some info) {root : Path}
    (hroot : rootOf? w library (sources w library) = some root)
    (hnew : library ∉ s.session.populated) (blank : base.Blank library info.version) :
    let next := (populate w library s).2
    ∃ gone, gone.Nodup ∧
      (∀ other, other ∈ gone ↔
        other ∈ next.session.populated ∧ other ≠ library ∧ Unrecorded infos base other) ∧
      next.session.types = knownTypes w (gone ++ [library]) ∧
      next.store.stored? library info.version =
        some ((surveyOf w library root).record library info.version
          (knownTypes w (gone ++ [library]))) := by
  intro next
  have hready := h.ready named hallowed hinfo hnew blank
  let before := approached w s.session.allowed.length library info s
  obtain ⟨gone, hbefore⟩ : ∃ gone, Travelled w allowed infos base [library] gone before :=
    ends_dependencies (ends_populateWith named w s.session.allowed.length [library])
      info.dependencies _ ⟨_, h.enter hnew⟩
  have hrun : populate w library s = populateSources w library info.version before :=
    populateWith_of_ready hready s.session.allowed.length
  have hroaming : Roaming allowed infos base before.session.populated
      (knownTypes w (gone ++ [library])) next := by
    show Roaming _ _ _ _ _ (populate w library s).2
    rw [hrun]
    exact Roaming.ends_populateSources named hinfo
      (hbefore.waiting_entered library List.mem_cons_self) w gone before hbefore.roaming
  obtain ⟨-, hstored⟩ := populate_stores_record hready (named library info hinfo).1 hroot
  refine ⟨gone, hbefore.nodup, fun other => ?_, hroaming.types_eq, hroaming.types_eq ▸ hstored⟩
  rw [hbefore.mem_gone other, hroaming.populated_eq, List.mem_singleton]

end Travelled

/-- The state after going through libraries one after another. -/
def goThrough (w : World) (libraries : List String) (s : State) : State :=
  libraries.foldl (fun s library => (populate w library s).2) s

theorem travelled_goThrough {w : World} {extra : List String}
    (named : WellNamed (infos w (allowed extra))) (base : Store) (libraries : List String) :
    ∃ gone, Travelled w (allowed extra) (infos w (allowed extra)) base [] gone
      (goThrough w libraries ⟨Session.start w extra, base⟩) := by
  refine List.foldlRecOn _ _ ⟨[], ⟨rfl, rfl, rfl, rfl, rfl, fun _ _ _ _ => ⟨rfl, rfl, rfl⟩⟩, ?_,
    List.nodup_nil, ?_⟩ fun s hs library _ =>
      Travelled.ends_populateWith named w (s.session.allowed.length + 1) [] library s hs
  · simp
  · simp [Session.start]

/-- The records of a library after two histories that start from stores which have none of it. They
name the same classes and aliases, and they are equal exactly if neither history knew a parameter
type that is missing after the other. A history knows those of the libraries that it went through; a
library of which the store had classes adds none. -/
theorem populate_records_equal_iff {w : World} {extra : List String}
    (named : WellNamed (infos w (allowed extra))) {library : String} {info : Info} {root : Path}
    (hinfo : (infos w (allowed extra)).get? library = some info)
    (hroot : rootOf? w library (sources w library) = some root) {base base' : Store}
    (blank : base.Blank library info.version) (blank' : base'.Blank library info.version)
    {before before' : List String}
    (new : library ∉ (goThrough w before ⟨Session.start w extra, base⟩).session.populated)
    (new' : library ∉ (goThrough w before' ⟨Session.start w extra, base'⟩).session.populated) :
    let next := goThrough w (before ++ [library]) ⟨Session.start w extra, base⟩
    let next' := goThrough w (before' ++ [library]) ⟨Session.start w extra, base'⟩
    ∃ gone gone' r r', gone.Nodup ∧ gone'.Nodup ∧
      (∀ other, other ∈ gone ↔ other ∈ next.session.populated ∧ other ≠ library ∧
        Unrecorded (infos w (allowed extra)) base other) ∧
      (∀ other, other ∈ gone' ↔ other ∈ next'.session.populated ∧ other ≠ library ∧
        Unrecorded (infos w (allowed extra)) base' other) ∧
      next.session.types = knownTypes w (gone ++ [library]) ∧
      next'.session.types = knownTypes w (gone' ++ [library]) ∧
      next.store.stored? library info.version = some r ∧
      next'.store.stored? library info.version = some r' ∧
      r.classes.names = r'.classes.names ∧ r.aliases = r'.aliases ∧
      (r = r' ↔ knownTypes w gone ⊆ knownTypes w (gone' ++ [library]) ∧
        knownTypes w gone' ⊆ knownTypes w (gone ++ [library])) := by
  intro next next'
  have hallowed := (installed_of_infos hinfo).1
  obtain ⟨_, htravelled⟩ := travelled_goThrough named base before
  obtain ⟨_, htravelled'⟩ := travelled_goThrough named base' before'
  obtain ⟨gone, hnodup, hgone, htypes, hstored⟩ :=
    htravelled.exists_record named hallowed hinfo hroot new blank
  obtain ⟨gone', hnodup', hgone', htypes', hstored'⟩ :=
    htravelled'.exists_record named hallowed hinfo hroot new' blank'
  have hnext : next = (populate w library (goThrough w before ⟨Session.start w extra, base⟩)).2 :=
    List.foldl_append
  have hnext' :
      next' = (populate w library (goThrough w before' ⟨Session.start w extra, base'⟩)).2 :=
    List.foldl_append
  refine ⟨gone, gone', _, _, hnodup, hnodup', hnext ▸ hgone, hnext' ▸ hgone', hnext ▸ htypes,
    hnext' ▸ htypes', hnext ▸ hstored, hnext' ▸ hstored', Survey.names_record _ _,
    Survey.aliases_record _ _, ?_⟩
  rw [Survey.record_eq_iff (nodup_knownTypes w _) (nodup_knownTypes w _)]
  -- What is found is the least closed set above what was known.
  have hleast (gone : List String) : LeastClosed (isParameterRoot · (some library)) matchesParameter
      (surveyOf w library root).bases (knownTypes w gone) (knownTypes w (gone ++ [library])) := by
    rw [knownTypes_append, hroot]
    exact leastClosed_parameterTypes library _ _
  constructor
  · intro h
    exact ⟨fun name hname => (h name).mp ((hleast gone).above hname),
      fun name hname => (h name).mpr ((hleast gone').above hname)⟩
  · rintro ⟨hknown, hknown'⟩ name
    exact ⟨fun hname => (hleast gone).least _ hknown (hleast gone').closed hname,
      fun hname => (hleast gone').least _ hknown' (hleast gone).closed hname⟩

theorem infos_of_sorted {w : World} {allowed : List String} {found : List (String × Distribution)}
    (hfound : w.distributions.entries.filter (fun entry => allowed.contains entry.1) = found)
    (hsorted : found.Pairwise fun a b => decide (a.1 ≤ b.1) = true) :
    infos w allowed = Table.ofList (found.map fun entry =>
      (entry.1, ⟨entry.2.version, dependencies allowed entry.1 entry.2.requires⟩)) := by
  rw [infos, World.distributionsOf, hfound, List.mergeSort_of_pairwise hsorted]

theorem wellNamed_ofList {entries : List (String × Info)}
    (h : ∀ entry ∈ entries, '.' ∉ entry.1.toList ∧ ':' ∉ entry.1.toList) :
    WellNamed (Table.ofList entries) :=
  fun _ _ hget => h _ (Table.mem_of_get?_ofList hget)

theorem ready_start {w : World} {extra : List String} (named : WellNamed (infos w (allowed extra)))
    {library : String} {info : Info} (hinfo : (infos w (allowed extra)).get? library = some info)
    {store : Store} (blank : store.Blank library info.version) :
    Ready library info ⟨Session.start w extra, store⟩ := by
  obtain ⟨gone, h⟩ := travelled_goThrough named store []
  exact h.ready named (installed_of_infos hinfo).1 hinfo List.not_mem_nil blank

theorem populate_of_one {w : World} {library dependency : String} {info : Info} {s : State}
    (ready : Ready library info s) (hone : info.dependencies = [dependency])
    (hnew : dependency ∉ s.session.populated ++ [library]) :
    let entered : State :=
      { s with session := { s.session with populated := s.session.populated ++ [library] } }
    populate w library s = populateSources w library info.version
      (populateWith w s.session.allowed.length dependency entered).2 := by
  intro entered
  generalize hfuel : s.session.allowed.length = fuel
  have hloop : Ends (· = entered)
      (forIn info.dependencies PUnit.unit fun dependency _ => do
        if !(← get).session.populated.contains dependency then
          let _ ← populateWith w fuel dependency
        pure (ForInStep.yield PUnit.unit) : LibraryM PUnit)
      fun _ st => st = (populateWith w fuel dependency entered).2 := by
    rw [hone, List.forIn_cons]
    refine Ends.bind (Q := fun step st => step = .yield PUnit.unit ∧
      st = (populateWith w fuel dependency entered).2) ?_ fun step => ?_
    · refine Ends.get_bind fun st hst => ?_
      obtain rfl := hst
      rw [if_pos (by simpa [entered] using hnew)]
      exact fun st hst => ⟨rfl, hst ▸ rfl⟩
    · rintro st ⟨rfl, hst⟩
      exact hst
  have hrun : populate w library s =
      populateSources w library info.version (approached w fuel library info s) :=
    hfuel ▸ populateWith_of_ready ready s.session.allowed.length
  rw [hrun]
  exact congrArg _ (hloop entered rfl)

section

open Sketch

/-- A library derives a parameter type from one of the library that it depends on, and a class of it
has a parameter of this type. -/
def stacked : World :=
  siteOf
    [("panel", ⟨"1.0", ["param"]⟩,
      [(["layout.py"], file [importsModule ["param"], takesNear "." ["viewable"] "Children",
          classed "Row" [rootBase] [assign (name "objects") (call (name "Children") [])]]),
       (["viewable.py"],
        file [importsModule ["param"], classed "Children" [member "param" "List"] []])]),
     ("param", ⟨"2.0", []⟩,
      [(["parameterized.py"], file [classed "Parameter" [name "object"] [],
          classed "Parameterized" [name "object"] []]),
       (["parameters.py"], file [takesNear "." ["parameterized"] "Parameter",
          classed "List" [name "Parameter"] []])])]

end

theorem infos_stacked : infos stacked (allowed []) =
    Table.ofList [("panel", ⟨"1.0", ["param"]⟩), ("param", ⟨"2.0", []⟩)] := by
  rw [infos_of_sorted (w := stacked) rfl (by decide)]
  rfl

theorem sources_stacked :
    sources stacked "param" = [⟨true, ["site", "param", "parameterized.py"]⟩,
      ⟨true, ["site", "param", "parameters.py"]⟩] ∧
    sources stacked "panel" = [⟨true, ["site", "panel", "layout.py"]⟩,
      ⟨true, ["site", "panel", "viewable.py"]⟩] := by
  constructor
  · exact sources_eq_of_listed (by decide +kernel : _ = [⟨true, ["site", "param"]⟩])
      (by decide +kernel) (by decide +kernel : _ = some ["site", "param"]) (by decide +kernel)
      (by decide) (by decide)
  · exact sources_eq_of_listed (by decide +kernel : _ = [panelRoot]) (by decide +kernel)
      (by decide +kernel : _ = some ["site", "panel"]) (by decide +kernel) (by decide) (by decide)

def stackedState (store : Store) : State :=
  ⟨{ allowed := ["param", "panel", "holoviews"],
     infos := Table.ofList [("panel", ⟨"1.0", ["param"]⟩), ("param", ⟨"2.0", []⟩)] }, store⟩

theorem start_stacked (store : Store) :
    (⟨Session.start stacked [], store⟩ : State) = stackedState store := by
  rw [Session.start, infos_stacked]
  rfl

theorem wellNamed_stacked : WellNamed (infos stacked (allowed [])) := by
  rw [infos_stacked]
  exact wellNamed_ofList (by decide)

theorem populate_stacked_panel {store : Store} (blank : store.Blank "panel" "1.0") :
    populate stacked "panel" (stackedState store) =
      populateSources stacked "panel" "1.0" (populateWith stacked 3 "param"
        { stackedState store with
          session := { (stackedState store).session with populated := ["panel"] } }).2 := by
  have hinfo : (infos stacked (allowed [])).get? "panel" = some ⟨"1.0", ["param"]⟩ := by
    rw [infos_stacked]
    decide
  have hready := ready_start wellNamed_stacked hinfo blank
  rw [start_stacked] at hready
  have hnew : "param" ∉ (stackedState store).session.populated ++ ["panel"] := by
    simp [stackedState]
  refine (populate_of_one (w := stacked) hready rfl hnew).trans ?_
  rfl

theorem populate_apply (w : World) (library : String) (s : State) :
    populate w library s = populateWith w (s.session.allowed.length + 1) library s := rfl

/-- Whether the first library was gone through before or in between, the record is the same. -/
theorem populate_stacked_in_two_orders :
    let first : State := ⟨Session.start stacked [], { enabled := true }⟩
    ∃ r, (goThrough stacked ["param", "panel"] first).store.stored? "panel" "1.0" = some r ∧
      (goThrough stacked ["panel"] first).store.stored? "panel" "1.0" = some r := by
  intro first
  have hfirst : first = stackedState { enabled := true } := start_stacked _
  have blank : Store.Blank "panel" "1.0" { enabled := true } := ⟨by decide, by decide, by decide⟩
  have hinfo : (infos stacked (allowed [])).get? "panel" = some ⟨"1.0", ["param"]⟩ := by
    rw [infos_stacked]
    decide
  have hroot : rootOf? stacked "panel" (sources stacked "panel") = some panelRoot := by
    rw [sources_stacked.2]
    decide +kernel
  have hnew : "panel" ∉ (goThrough stacked ["param"] first).session.populated := by
    show "panel" ∉ (populate stacked "param" first).2.session.populated
    rw [hfirst, populate_apply]
    simp only [populateWith, populateSources, sources_stacked]
    decide +kernel
  obtain ⟨gone, gone', r, r', hnodup, hnodup', hgone, hgone', -, -, hr, hr', -, -, heq⟩ :=
    populate_records_equal_iff wellNamed_stacked hinfo hroot blank blank hnew
      (by decide : "panel" ∉ (goThrough stacked [] first).session.populated)
  have hentered : "param" ∈ (goThrough stacked ["param", "panel"] first).session.populated := by
    show "param" ∈ (populate stacked "panel" (populate stacked "param" first).2).2.session.populated
    rw [hfirst, populate_apply, populate_apply]
    simp only [populateWith, populateSources, sources_stacked]
    decide +kernel
  have hentered' : "param" ∈ (goThrough stacked ["panel"] first).session.populated := by
    show "param" ∈ (populate stacked "panel" first).2.session.populated
    rw [hfirst, populate_stacked_panel blank]
    simp only [populateWith, populateSources, sources_stacked]
    decide +kernel
  have hunrecorded : Unrecorded (infos stacked (allowed [])) { enabled := true } "param" := by
    refine ⟨⟨"2.0", []⟩, ?_, by decide⟩
    rw [infos_stacked]
    decide
  have hone {gone : List String} (hnodup : gone.Nodup)
      (h : ∀ other, other ∈ gone ↔ other = "param") : gone = ["param"] := by
    refine List.perm_singleton.mp ((List.perm_ext_iff_of_nodup hnodup (by simp)).mpr ?_)
    simpa using h
  have honly (other : String) (hne : other ≠ "panel")
      (h : Unrecorded (infos stacked (allowed [])) { enabled := true } other) :
      other = "param" := by
    obtain ⟨info, hinfo, -⟩ := h
    rw [infos_stacked] at hinfo
    have hmem := List.mem_map_of_mem (f := Prod.fst) (Table.mem_of_get?_ofList hinfo)
    simpa [hne] using hmem
  obtain rfl := hone hnodup fun other => (hgone other).trans
    ⟨fun h => honly other h.2.1 h.2.2, by rintro rfl; exact ⟨hentered, by decide, hunrecorded⟩⟩
  obtain rfl := hone hnodup' fun other => (hgone' other).trans
    ⟨fun h => honly other h.2.1 h.2.2, by rintro rfl; exact ⟨hentered', by decide, hunrecorded⟩⟩
  have hknown : knownTypes stacked ["param"] ⊆ knownTypes stacked (["param"] ++ ["panel"]) := by
    rw [knownTypes_append, hroot]
    exact (leastClosed_parameterTypes "panel" _ _).above
  obtain rfl := heq.mpr ⟨hknown, hknown⟩
  exact ⟨r, hr, hr'⟩

/-- When an earlier session has stored the first library, its parameter types are not known in the
next one: the parameter of the second library's own type is missing in the record. -/
theorem populate_misses_types_of_stored :
    let first : State := ⟨Session.start stacked [], { enabled := true }⟩
    let later : State :=
      ⟨Session.start stacked [], (goThrough stacked ["param"] first).store.reopen⟩
    let names (s : State) := (s.store.stored? "panel" "1.0").map fun r =>
      (r.find? "panel.layout.Row").map (·.parameters.names)
    first.store.Blank "panel" "1.0" ∧ later.store.Blank "panel" "1.0" ∧
      names (goThrough stacked ["panel"] first) = some (some ["objects"]) ∧
      names (goThrough stacked ["panel"] later) = some (some []) := by
  intro first later names
  have hfirst : first = stackedState { enabled := true } := start_stacked _
  have blank : Store.Blank "panel" "1.0" { enabled := true } := ⟨by decide, by decide, by decide⟩
  let stored : Store :=
    (populateWith stacked 4 "param" (stackedState { enabled := true })).2.store.reopen
  have hlater : later = stackedState stored := by
    show (⟨_, (populate stacked "param" first).2.store.reopen⟩ : State) = _
    rw [start_stacked, hfirst]
    rfl
  have blank' : stored.Blank "panel" "1.0" := by
    refine ⟨?_, ?_, ?_⟩
    all_goals
      simp only [stored, populateWith, populateSources, sources_stacked]
      decide +kernel
  refine ⟨blank, hlater ▸ blank', ?_, ?_⟩
  · show names (populate stacked "panel" first).2 = _
    rw [hfirst, populate_stacked_panel blank]
    simp only [names, populateWith, populateSources, sources_stacked]
    decide +kernel
  · show names (populate stacked "panel" later).2 = _
    rw [hlater, populate_stacked_panel blank']
    simp only [names, stored, populateWith, populateSources, sources_stacked]
    decide +kernel

end Library

end ParamLens
