import ParamLens.Proofs.Population

/-! The course of the calls that go through libraries. A course is described without a bound on the
depth of the calls, so that a call which has a course comes to an end. Every call has exactly one,
whatever the libraries require of each other: a library is marked before its dependencies are asked
for, and fewer libraries are left for them. -/

namespace ParamLens.Library

open Steps

/-! ### Courses -/

/-- What happens while libraries are gone through and classes are looked up. -/
inductive Event where
  /-- A call for the library begins. -/
  | enters (library : String)
  /-- The library is analysed and new to the session, which marks it. -/
  | marks (library : String)
  /-- The store has classes of the library, and the call leaves it as it is. -/
  | finds (library : String)
  /-- The source files of the library are gone through. -/
  | surveys (library : String)
  /-- The source files of the library are searched for one of its classes. -/
  | searches (library : String)
  /-- A call for the library returns. -/
  | leaves (library : String)
deriving DecidableEq

/-- What is to be done: a call for one library, or one for each library that is not marked. -/
inductive Task where
  | call (library : String)
  | each (libraries : List String)

/-- The session analyses the library and has not marked it. -/
def State.Admits (s : State) (library : String) : Prop :=
  library ∈ s.session.allowed ∧ library ∉ s.session.populated

/-- The state in which the library is marked. -/
def State.mark (s : State) (library : String) : State :=
  { s with session := { s.session with populated := s.session.populated ++ [library] } }

/-- The course of a task from one state to another. -/
inductive Runs (w : World) : Task → State → List Event → State → Prop
  | refused {library : String} {s : State} (h : ¬ s.Admits library) :
      Runs w (.call library) s [.enters library, .leaves library] s
  | unknown {library : String} {s : State} (h : s.Admits library)
      (hinfo : s.session.infos.get? library = none) :
      Runs w (.call library) s [.enters library, .marks library, .leaves library] (s.mark library)
  | stored {library : String} {info : Info} {s asked : State} (h : s.Admits library)
      (hinfo : s.session.infos.get? library = some info)
      (hasked : onStore (Store.hasClasses library info.version) (s.mark library) = (true, asked)) :
      Runs w (.call library) s
        [.enters library, .marks library, .finds library, .leaves library] asked
  | surveyed {library : String} {info : Info} {s asked ready : State} {events : List Event}
      (h : s.Admits library) (hinfo : s.session.infos.get? library = some info)
      (hasked : onStore (Store.hasClasses library info.version) (s.mark library) = (false, asked))
      (hdependencies : Runs w (.each info.dependencies) asked events ready) :
      Runs w (.call library) s
        ([.enters library, .marks library] ++ events ++ [.surveys library, .leaves library])
        (populateSources w library info.version ready).2
  | done {s : State} : Runs w (.each []) s [] s
  | skip {library : String} {rest : List String} {s next : State} {events : List Event}
      (h : library ∈ s.session.populated) (hrest : Runs w (.each rest) s events next) :
      Runs w (.each (library :: rest)) s events next
  | visit {library : String} {rest : List String} {s next last : State}
      {events events' : List Event} (h : library ∉ s.session.populated)
      (hcall : Runs w (.call library) s events next)
      (hrest : Runs w (.each rest) next events' last) :
      Runs w (.each (library :: rest)) s (events ++ events') last

theorem Runs.unique {w : World} {task : Task} {s next next' : State} {events events' : List Event}
    (h : Runs w task s events next) (h' : Runs w task s events' next') :
    events = events' ∧ next = next' := by
  induction h generalizing events' next' with
  | refused hrefused =>
    cases h' with
    | refused => exact ⟨rfl, rfl⟩
    | unknown hadmits | stored hadmits | surveyed hadmits => exact absurd hadmits hrefused
  | unknown hadmits hinfo =>
    cases h' with
    | refused hrefused => exact absurd hadmits hrefused
    | unknown => exact ⟨rfl, rfl⟩
    | stored _ hinfo' | surveyed _ hinfo' => cases hinfo.symm.trans hinfo'
  | stored hadmits hinfo hasked =>
    cases h' with
    | refused hrefused => exact absurd hadmits hrefused
    | unknown _ hinfo' => cases hinfo.symm.trans hinfo'
    | stored _ hinfo' hasked' =>
      cases hinfo.symm.trans hinfo'
      cases hasked.symm.trans hasked'
      exact ⟨rfl, rfl⟩
    | surveyed _ hinfo' hasked' =>
      cases hinfo.symm.trans hinfo'
      cases hasked.symm.trans hasked'
  | surveyed hadmits hinfo hasked _ ih =>
    cases h' with
    | refused hrefused => exact absurd hadmits hrefused
    | unknown _ hinfo' => cases hinfo.symm.trans hinfo'
    | stored _ hinfo' hasked' =>
      cases hinfo.symm.trans hinfo'
      cases hasked.symm.trans hasked'
    | surveyed _ hinfo' hasked' hdependencies' =>
      cases hinfo.symm.trans hinfo'
      cases hasked.symm.trans hasked'
      obtain ⟨rfl, rfl⟩ := ih hdependencies'
      exact ⟨rfl, rfl⟩
  | done =>
    cases h'
    exact ⟨rfl, rfl⟩
  | skip hmarked _ ih =>
    cases h' with
    | skip _ hrest' => exact ih hrest'
    | visit hnew => exact absurd hmarked hnew
  | visit hnew _ _ ihcall ihrest =>
    cases h' with
    | skip hmarked => exact absurd hmarked hnew
    | visit _ hcall' hrest' =>
      obtain ⟨rfl, rfl⟩ := ihcall hcall'
      obtain ⟨rfl, rfl⟩ := ihrest hrest'
      exact ⟨rfl, rfl⟩

/-! ### What work on one library leaves as it is -/

/-- The property of stores stays true while the record of the library is asked about and changed,
and while installed libraries are asked for classes. -/
structure Withstands (infos : Table Info) (library version : String) (P : Store → Prop) : Prop where
  hasClasses : Ends P (Store.hasClasses library version) fun _ => P
  find? : ∀ other info name, infos.get? other = some info →
    Ends P (Store.find? other name info.version) fun _ => P
  change : ∀ f s, P s → P (Store.change library version f s)
  flush : ∀ s, P s → P (s.flush library version)

theorem withstands_true (infos : Table Info) (library version : String) :
    Withstands infos library version fun _ => True :=
  ⟨fun _ _ => trivial, fun _ _ _ _ _ _ => trivial, fun _ _ _ => trivial, fun _ _ => trivial⟩

/-- The session is about the given libraries and has marked the given ones, and the store has the
property. -/
structure Framed (allowed : List String) (infos : Table Info) (marked : List String)
    (P : Store → Prop) (s : State) : Prop where
  allowed_eq : s.session.allowed = allowed
  infos_eq : s.session.infos = infos
  populated_eq : s.session.populated = marked
  store : P s.store

namespace Framed

variable {allowed marked : List String} {infos : Table Info} {P : Store → Prop}
  {library version : String}

theorem ends_changeSession {f : Session → Session}
    (h : ∀ s, (f s).allowed = s.allowed ∧ (f s).infos = s.infos ∧ (f s).populated = s.populated) :
    Ends (Framed allowed infos marked P) (changeSession f)
      fun _ => Framed allowed infos marked P := by
  intro s hs
  obtain ⟨hallowed, hinfos, hpopulated⟩ := h s.session
  exact ⟨hallowed.trans hs.allowed_eq, hinfos.trans hs.infos_eq, hpopulated.trans hs.populated_eq,
    hs.store⟩

theorem ends_changeStore {f : Store → Store} (h : ∀ s, P s → P (f s)) :
    Ends (Framed allowed infos marked P) (changeStore f)
      fun _ => Framed allowed infos marked P :=
  fun s hs => ⟨hs.allowed_eq, hs.infos_eq, hs.populated_eq, h s.store hs.store⟩

theorem ends_onStore {α : Type} {step : StateM Store α} (h : Ends P step fun _ => P) :
    Ends (Framed allowed infos marked P) (onStore step)
      fun _ => Framed allowed infos marked P :=
  fun s hs => ⟨hs.allowed_eq, hs.infos_eq, hs.populated_eq, h s.store hs.store⟩

theorem ends_answer (path : String) (found : Option ParamClass) :
    Ends (Framed allowed infos marked P) (answer path found)
      fun _ => Framed allowed infos marked P :=
  Ends.bind (ends_changeSession fun _ => ⟨rfl, rfl, rfl⟩) fun _ => Ends.pure fun _ hs => hs

theorem ends_inherit (withstands : Withstands infos library version P)
    (bases : Table (List String)) (definitions : Table Definition) (r : Recognition) (fuel : Nat)
    (path : List String) (name : String) (c : ParamClass) :
    Ends P (Ancestry.inherit ⟨infos, bases, definitions⟩ r fuel path name c) fun _ => P := by
  induction fuel generalizing path name c with
  | zero =>
    rw [Ancestry.inherit]
    exact Ends.pure fun _ hs => hs
  | succ fuel ih =>
    rw [Ancestry.inherit]
    split
    · exact Ends.pure fun _ hs => hs
    · refine Ends.foldlM (fun c base _ => ?_) c
      split
      · exact Ends.pure fun _ hs => hs
      · refine Ends.bind (Q := fun _ => P) ?_ fun found => ?_
        · rw [Ancestry.stored?]
          split
          · next info full hinfo _ => exact withstands.find? _ info full hinfo
          · exact Ends.pure fun _ hs => hs
        · cases found with
          | some parent => exact Ends.pure fun _ hs => hs
          | none =>
            dsimp only
            split
            · exact Ends.pure fun _ hs => hs
            · exact ih _ _ _

theorem ends_storeSurvey (withstands : Withstands infos library version P) (survey : Survey) :
    Ends (Framed allowed infos marked P) (storeSurvey library version survey)
      fun _ => Framed allowed infos marked P := by
  let framed := Framed allowed infos marked P
  have hchange (f : Record → Record) :
      Ends framed (changeStore (Store.change library version f)) fun _ => framed :=
    ends_changeStore (withstands.change f)
  have haliases (entries : List (String × String)) : Ends framed
      (forIn entries PUnit.unit fun x _ => do
        changeStore (Store.setAlias library x.1 x.2 version)
        pure (ForInStep.yield PUnit.unit)) fun _ => framed :=
    Ends.forIn (I := fun _ => framed) (fun _ _ _ _ _ =>
      (hchange _).bind fun _ => Ends.pure fun _ hs => ⟨⟨_, rfl⟩, hs⟩) _
  rw [storeSurvey]
  refine Ends.get_bind fun s hs => ?_
  dsimp only
  rw [hs.infos_eq]
  refine Ends.bind (ends_changeSession fun _ => ⟨rfl, rfl, rfl⟩) fun _ => ?_
  refine (hchange _).bind fun _ => (haliases _).bind fun _ => ?_
  refine (Ends.forIn (I := fun _ => framed) (fun _ path _ _ count => ?_) 0).bind fun count => ?_
  · cases survey.definitions.get? path with
    | none => exact Ends.pure fun _ hs => ⟨⟨_, rfl⟩, hs⟩
    | some d =>
      refine (ends_onStore (ends_inherit withstands _ _ _ _ _ _ _)).bind fun c => ?_
      exact (hchange _).bind fun _ => Ends.pure fun _ hs => ⟨⟨_, rfl⟩, hs⟩
  · refine (haliases _).bind fun _ => (ends_changeStore withstands.flush).bind fun _ => ?_
    refine Ends.bind (ends_changeSession fun _ => ⟨rfl, rfl, rfl⟩) fun _ => ?_
    exact Ends.pure fun _ hs => hs

theorem ends_populateSources (withstands : Withstands infos library version P) (w : World) :
    Ends (Framed allowed infos marked P) (populateSources w library version)
      fun _ => Framed allowed infos marked P := by
  rw [populateSources]
  dsimp only
  split
  · exact Ends.pure fun _ hs => hs
  · exact Ends.get_bind fun _ _ => ends_storeSurvey withstands _

theorem ends_lookUp (withstands : Withstands infos library version P) {info : Info}
    (hinfo : infos.get? library = some info) (hversion : info.version = version) (w : World)
    (path : String) :
    Ends (Framed allowed infos marked P) (lookUp w library path version)
      fun _ => Framed allowed infos marked P := by
  have hsearch : Ends (Framed allowed infos marked P)
      (onSearch w fun context => searchSources context path)
      fun _ => Framed allowed infos marked P := by
    intro s hs
    rw [onSearch]
    split
    · exact ⟨hs.allowed_eq, hs.infos_eq, hs.populated_eq, hs.store⟩
    · exact hs
  refine (ends_onStore (hversion ▸ withstands.find? library info path hinfo)).bind fun found => ?_
  split
  · exact ends_answer path _
  · refine (ends_onStore withstands.hasClasses).bind fun stored => ?_
    split
    · exact ends_answer path none
    · refine hsearch.bind fun found => ?_
      split
      · exact ends_answer path none
      · next c =>
        refine Ends.bind (ends_changeStore fun s hs => ?_) fun _ => ends_answer path (some c)
        exact withstands.flush _ (withstands.change _ s hs)

end Framed

/-- The libraries that are marked in a course, in their order. -/
def marked (events : List Event) : List String :=
  events.filterMap fun
    | .marks library => some library
    | _ => none

theorem marked_append (events events' : List Event) :
    marked (events ++ events') = marked events ++ marked events' :=
  List.filterMap_append

theorem count_marked (events : List Event) (library : String) :
    (marked events).count library = events.count (.marks library) := by
  induction events with
  | nil => rfl
  | cons e rest ih => cases e <;> simp_all [marked, List.count_cons]

/-- A course leaves the libraries of the session as they are, and the marked ones are those from
before and those that it marks. -/
structure Continues (s : State) (events : List Event) (next : State) : Prop where
  allowed : next.session.allowed = s.session.allowed
  infos : next.session.infos = s.session.infos
  populated : next.session.populated = s.session.populated ++ marked events

namespace Continues

variable {s next last : State} {events events' : List Event}

theorem of_unmarked (s : State) (h : marked events = []) : Continues s events s :=
  ⟨rfl, rfl, by rw [h, List.append_nil]⟩

theorem trans (h : Continues s events next) (h' : Continues next events' last) :
    Continues s (events ++ events') last :=
  ⟨h'.allowed.trans h.allowed, h'.infos.trans h.infos,
    by rw [h'.populated, h.populated, marked_append, List.append_assoc]⟩

theorem of_ends {α : Type} {step : LibraryM α} (hunmarked : marked events = [])
    (h : ∀ allowed infos marked, Ends (Framed allowed infos marked fun _ => True) step
      fun _ => Framed allowed infos marked fun _ => True) (s : State) :
    Continues s events (step s).2 := by
  obtain ⟨hallowed, hinfos, hpopulated, -⟩ := h _ _ _ s ⟨rfl, rfl, rfl, trivial⟩
  exact ⟨hallowed, hinfos, by rw [hpopulated, hunmarked, List.append_nil]⟩

theorem mem (h : Continues s events next) {library : String}
    (hmem : library ∈ s.session.populated) : library ∈ next.session.populated := by
  rw [h.populated]
  exact List.mem_append_left _ hmem

theorem mem_of_marks (h : Continues s events next) {library : String}
    (hmarks : .marks library ∈ events) : library ∈ next.session.populated := by
  rw [h.populated]
  exact List.mem_append_right _ (List.mem_filterMap.mpr ⟨_, hmarks, rfl⟩)

theorem contains_eq (h : Continues s events next) {library : String}
    (hnew : (!next.session.populated.contains library) = true) :
    (!s.session.populated.contains library) = true := by
  simp only [Bool.not_eq_true', List.contains_eq_mem, decide_eq_false_iff_not] at hnew ⊢
  exact fun hmem => hnew (h.mem hmem)

end Continues

theorem continues_asked {library version : String} {s asked : State} {found : Bool}
    (hasked : onStore (Store.hasClasses library version) (s.mark library) = (found, asked)) :
    Continues s [.enters library, .marks library] asked := by
  have hmark : Continues s [.enters library, .marks library] (s.mark library) := ⟨rfl, rfl, rfl⟩
  have hstep : Continues (s.mark library) []
      (onStore (Store.hasClasses library version) (s.mark library)).2 :=
    .of_ends rfl (fun _ _ _ => Framed.ends_onStore fun _ _ => trivial) _
  rw [hasked] at hstep
  exact hmark.trans hstep

theorem continues_populateSources (w : World) (library version : String) (s : State) :
    Continues s [] (populateSources w library version s).2 :=
  .of_ends rfl (fun _ infos _ =>
    Framed.ends_populateSources (withstands_true infos library version) w) s

namespace Runs

variable {w : World} {task : Task} {s next : State} {events : List Event}

theorem continues (h : Runs w task s events next) : Continues s events next := by
  induction h with
  | refused | done => exact .of_unmarked _ rfl
  | unknown => exact ⟨rfl, rfl, rfl⟩
  | stored _ _ hasked => exact (continues_asked hasked).trans (.of_unmarked _ rfl)
  | @surveyed library info s asked ready events _ _ hasked _ ih =>
    have hsurvey : Continues ready [.surveys library, .leaves library]
        (populateSources w library info.version ready).2 :=
      (continues_populateSources w library info.version ready).trans (.of_unmarked _ rfl)
    exact ((continues_asked hasked).trans ih).trans hsurvey
  | skip _ _ ih => exact ih
  | visit _ _ _ ihcall ihrest => exact ihcall.trans ihrest

end Runs

/-- A course in which every call returns, no library is marked twice, and the files of a library are
gone through only after it was marked. -/
structure Course (s : State) (events : List Event) (next : State) : Prop
    extends Continues s events next where
  calls : ∀ library, events.count (.enters library) = events.count (.leaves library)
  nodup : s.session.populated.Nodup → next.session.populated.Nodup
  surveys : ∀ library, events.count (.surveys library) ≤ events.count (.marks library)

namespace Course

variable {s next last : State} {events events' : List Event}

theorem trans (h : Course s events next) (h' : Course next events' last) :
    Course s (events ++ events') last where
  toContinues := h.toContinues.trans h'.toContinues
  calls library := by rw [List.count_append, List.count_append, h.calls, h'.calls]
  nodup hs := h'.nodup (h.nodup hs)
  surveys library := by
    rw [List.count_append, List.count_append]
    exact Nat.add_le_add (h.surveys library) (h'.surveys library)

theorem of_searches (h : Continues s [] next)
    (hevents : events = [] ∨ ∃ library, events = [.searches library]) : Course s events next := by
  have hmarked : marked events = [] := by
    rcases hevents with rfl | ⟨library, rfl⟩
    · rfl
    · rfl
  refine ⟨h.trans (.of_unmarked next hmarked), fun other => ?_, fun hs => ?_, fun other => ?_⟩
  · rcases hevents with rfl | ⟨library, rfl⟩
    · rfl
    · simp
  · rw [h.populated]
    simpa [marked] using hs
  · rcases hevents with rfl | ⟨library, rfl⟩
    · simp
    · simp

end Course

theorem nodup_mark {library version : String} {s asked : State} {found : Bool}
    (hadmits : s.Admits library) (hs : s.session.populated.Nodup)
    (hasked : onStore (Store.hasClasses library version) (s.mark library) = (found, asked)) :
    asked.session.populated.Nodup := by
  rw [(continues_asked hasked).populated]
  exact List.nodup_append_comm.mp (List.nodup_cons.mpr ⟨hadmits.2, hs⟩)

theorem Runs.course {w : World} {task : Task} {s next : State} {events : List Event}
    (h : Runs w task s events next) : Course s events next := by
  induction h with
  | refused =>
    exact ⟨.of_unmarked _ rfl, by simp [List.count_cons], id, by simp⟩
  | unknown hadmits hinfo =>
    refine ⟨⟨rfl, rfl, rfl⟩, by simp [List.count_cons], fun hs => ?_, by simp⟩
    exact List.nodup_append_comm.mp (List.nodup_cons.mpr ⟨hadmits.2, hs⟩)
  | stored hadmits hinfo hasked =>
    exact ⟨(continues_asked hasked).trans (.of_unmarked _ rfl), by simp [List.count_cons],
      fun hs => nodup_mark hadmits hs hasked, by simp⟩
  | @surveyed library info s asked ready events hadmits hinfo hasked hdependencies ih =>
    refine ⟨(Runs.surveyed hadmits hinfo hasked hdependencies).continues, fun other => ?_,
      fun hs => ?_, fun other => ?_⟩
    · have hcalls := ih.calls other
      simp only [List.count_append, List.count_cons, List.count_nil, beq_iff_eq, reduceCtorEq,
        Event.enters.injEq, Event.leaves.injEq, if_false]
      omega
    · rw [(continues_populateSources w library info.version ready).populated]
      simpa [marked] using ih.nodup (nodup_mark hadmits hs hasked)
    · have hsurveys := ih.surveys other
      simp only [List.count_append, List.count_cons, List.count_nil, beq_iff_eq, reduceCtorEq,
        Event.surveys.injEq, Event.marks.injEq, if_false]
      omega
  | done => exact .of_searches (.of_unmarked _ rfl) (.inl rfl)
  | skip _ _ ih => exact ih
  | visit _ _ _ ihcall ihrest => exact ihcall.trans ihrest

/-! ### Calls end -/

section

variable {w : World} {fuel : Nat} {library : String} {info : Info} {s asked : State}

theorem populateWith_of_refused (h : ¬ s.Admits library) :
    populateWith w (fuel + 1) library s = (0, s) := by
  rw [populateWith]
  show (if !s.session.allowed.contains library || s.session.populated.contains library then
    pure 0 else _ : LibraryM Nat) s = _
  rw [if_pos]
  · rfl
  · rw [State.Admits, not_and_or, not_not] at h
    simpa using h

theorem populateWith_of_unknown (h : s.Admits library)
    (hinfo : s.session.infos.get? library = none) :
    populateWith w (fuel + 1) library s = (0, s.mark library) := by
  rw [populateWith]
  show (if !s.session.allowed.contains library || s.session.populated.contains library then
    pure 0 else _ : LibraryM Nat) s = _
  rw [if_neg (by simp [h.1, h.2]), hinfo]
  rfl

/-- The state after a call for each of the libraries that is not marked when its turn comes. -/
def approach (w : World) (fuel : Nat) (libraries : List String) (s : State) : State :=
  libraries.foldl (fun s library =>
    if library ∈ s.session.populated then s else (populateWith w fuel library s).2) s

theorem run_dependencies (w : World) (fuel : Nat) (libraries : List String) (s : State) :
    (forIn libraries PUnit.unit (fun dependency _ => do
      if !(← get).session.populated.contains dependency then
        let _ ← populateWith w fuel dependency
      pure (ForInStep.yield PUnit.unit)) : LibraryM PUnit) s =
    (PUnit.unit, approach w fuel libraries s) := by
  induction libraries generalizing s with
  | nil => rfl
  | cons library rest ih =>
    have hstep : (do
        if !(← get).session.populated.contains library then
          let _ ← populateWith w fuel library
        pure (ForInStep.yield PUnit.unit) : LibraryM (ForInStep PUnit)) s =
        (.yield PUnit.unit, if library ∈ s.session.populated then s
          else (populateWith w fuel library s).2) := by
      show (if !s.session.populated.contains library then _ else _ : LibraryM _) s = _
      by_cases hmarked : library ∈ s.session.populated
      · rw [if_neg (by simp [hmarked]), if_pos hmarked]
        rfl
      · rw [if_pos (by simp [hmarked]), if_neg hmarked]
        rfl
    have hbind (f : ForInStep PUnit → LibraryM PUnit) (x : LibraryM (ForInStep PUnit)) :
        (x >>= f) s = f (x s).1 (x s).2 := rfl
    rw [List.forIn_cons, hbind, hstep]
    exact ih _

theorem populateWith_of_known (h : s.Admits library)
    (hinfo : s.session.infos.get? library = some info) {found : Bool}
    (hasked : onStore (Store.hasClasses library info.version) (s.mark library) = (found, asked)) :
    populateWith w (fuel + 1) library s =
      if found then (0, asked)
      else populateSources w library info.version (approach w fuel info.dependencies asked) := by
  rw [populateWith]
  show (if !s.session.allowed.contains library || s.session.populated.contains library then
    pure 0 else _ : LibraryM Nat) s = _
  rw [if_neg (by simp [h.1, h.2]), hinfo]
  show (if (onStore (Store.hasClasses library info.version) (s.mark library)).1 = true then pure 0
    else _ : LibraryM Nat) (onStore (Store.hasClasses library info.version) (s.mark library)).2 = _
  rw [hasked]
  cases found with
  | true => rfl
  | false =>
    show populateSources w library info.version
      ((forIn info.dependencies PUnit.unit _ : LibraryM PUnit) asked).2 = _
    rw [run_dependencies]
    rfl

/-- The number of analysed libraries that are not marked. -/
def State.remaining (s : State) : Nat :=
  s.session.allowed.countP fun library => !s.session.populated.contains library

theorem remaining_le_of_continues {next : State} {events : List Event}
    (h : Continues s events next) : next.remaining ≤ s.remaining := by
  rw [State.remaining, State.remaining, h.allowed]
  exact List.countP_mono_left fun _ _ hnew => h.contains_eq hnew

theorem remaining_lt_of_marks {next : State} {events : List Event} (h : Continues s events next)
    (hadmits : s.Admits library) (hmarks : .marks library ∈ events) :
    next.remaining < s.remaining := by
  have hmarked : library ∈ next.session.populated := h.mem_of_marks hmarks
  have hperm := List.perm_cons_erase hadmits.1
  have hrest : (s.session.allowed.erase library).countP
        (fun library => !next.session.populated.contains library) ≤
      (s.session.allowed.erase library).countP
        fun library => !s.session.populated.contains library :=
    List.countP_mono_left fun _ _ hnew => h.contains_eq hnew
  rw [State.remaining, State.remaining, h.allowed, hperm.countP_eq, hperm.countP_eq,
    List.countP_cons_of_neg (by simp [hmarked]), List.countP_cons_of_pos (by simp [hadmits.2])]
  omega

theorem exists_runs_each (hcall : ∀ library s, s.remaining < fuel →
      ∃ events, Runs w (.call library) s events (populateWith w fuel library s).2)
    (libraries : List String) (h : s.remaining < fuel) :
    ∃ events, Runs w (.each libraries) s events (approach w fuel libraries s) := by
  induction libraries generalizing s with
  | nil => exact ⟨[], .done⟩
  | cons library rest ih =>
    rw [approach, List.foldl_cons]
    by_cases hmarked : library ∈ s.session.populated
    · rw [if_pos hmarked]
      obtain ⟨events, hrest⟩ := ih h
      exact ⟨events, .skip hmarked hrest⟩
    · rw [if_neg hmarked]
      obtain ⟨events, hfirst⟩ := hcall library s h
      have hless := remaining_le_of_continues hfirst.continues
      obtain ⟨events', hrest⟩ := ih (hless.trans_lt h)
      exact ⟨events ++ events', .visit hmarked hfirst hrest⟩

/-- A call with more fuel than libraries remain has a course: it ends, and the fuel is not what ends
it. -/
theorem exists_runs (w : World) (fuel : Nat) (library : String) (s : State)
    (h : s.remaining < fuel) :
    ∃ events, Runs w (.call library) s events (populateWith w fuel library s).2 := by
  induction fuel generalizing library s with
  | zero => exact absurd h (Nat.not_lt_zero _)
  | succ fuel ih =>
    by_cases hadmits : s.Admits library
    · cases hinfo : s.session.infos.get? library with
      | none =>
        rw [populateWith_of_unknown hadmits hinfo]
        exact ⟨_, .unknown hadmits hinfo⟩
      | some info =>
        rcases hasked : onStore (Store.hasClasses library info.version) (s.mark library) with
          ⟨found, asked⟩
        rw [populateWith_of_known hadmits hinfo hasked]
        cases found with
        | true => exact ⟨_, .stored hadmits hinfo hasked⟩
        | false =>
          have hless := remaining_lt_of_marks (continues_asked hasked) hadmits (by simp)
          obtain ⟨events, hdependencies⟩ := exists_runs_each ih info.dependencies
            (hless.trans_le (Nat.le_of_lt_succ h))
          exact ⟨_, .surveyed hadmits hinfo hasked hdependencies⟩
    · rw [populateWith_of_refused hadmits]
      exact ⟨_, .refused hadmits⟩

theorem remaining_le (s : State) : s.remaining ≤ s.session.allowed.length := List.countP_le_length

theorem exists_runs_populate (w : World) (library : String) (s : State) :
    ∃ events, Runs w (.call library) s events (populate w library s).2 :=
  exists_runs w (s.session.allowed.length + 1) library s (Nat.lt_succ_of_le (remaining_le s))

end

/-! ### Sequences of calls -/

/-- What a session is asked for: to go through a library, or the class with a full name. -/
inductive Demand where
  | populate (library : String)
  | find (path : String)

/-- The state after a demand is served. -/
def Demand.run (w : World) (s : State) : Demand → State
  | .populate library => (Library.populate w library s).2
  | .find path => (find? w path s).2

/-- The class is one of an analysed library, and it was not asked for yet. -/
def State.Asks (s : State) (path : String) : Prop :=
  Text.startsWith path "param." = false ∧ s.session.asked.get? path = none ∧
    Dotted.first path ∈ s.session.allowed

/-- Answers without looking anything up. -/
def answerAtOnce (path : String) : LibraryM (Option ParamClass) := do
  if Text.startsWith path "param." then answer path none
  else match (← get).session.asked.get? path with
    | some known => return known
    | none => answer path none

/-- Looks up a class whose library was gone through. -/
def lookUpInstalled (w : World) (path : String) : LibraryM (Option ParamClass) := do
  match (← get).session.infos.get? (Dotted.first path) with
  | none => answer path none
  | some info => lookUp w (Dotted.first path) path info.version

/-- The search for a class that the store neither has nor rules out. -/
def searching (path : String) (s : State) : List Event :=
  match s.session.infos.get? (Dotted.first path) with
  | none => []
  | some info =>
    let asked := Store.find? (Dotted.first path) path info.version s.store
    if asked.1.isSome || (Store.hasClasses (Dotted.first path) info.version asked.2).1 then []
    else [.searches (Dotted.first path)]

/-- The course in which a demand is served. -/
inductive Serves (w : World) : Demand → State → List Event → State → Prop
  | populate {library : String} {s next : State} {events : List Event}
      (h : Runs w (.call library) s events next) : Serves w (.populate library) s events next
  | answered {path : String} {s : State} (h : ¬ s.Asks path) :
      Serves w (.find path) s [] (answerAtOnce path s).2
  | find {path : String} {s ready : State} {events : List Event} (h : s.Asks path)
      (hruns : Runs w (.each [Dotted.first path]) s events ready) :
      Serves w (.find path) s (events ++ searching path ready) (lookUpInstalled w path ready).2

/-- The course in which demands are served one after another. -/
inductive History (w : World) : List Demand → State → List Event → State → Prop
  | nil {s : State} : History w [] s [] s
  | cons {demand : Demand} {rest : List Demand} {s next last : State} {events events' : List Event}
      (h : Serves w demand s events next) (hrest : History w rest next events' last) :
      History w (demand :: rest) s (events ++ events') last

theorem Serves.unique {w : World} {demand : Demand} {s next next' : State}
    {events events' : List Event} (h : Serves w demand s events next)
    (h' : Serves w demand s events' next') : events = events' ∧ next = next' := by
  cases h with
  | populate hruns =>
    cases h' with
    | populate hruns' => exact hruns.unique hruns'
  | answered hanswered =>
    cases h' with
    | answered => exact ⟨rfl, rfl⟩
    | find hasks => exact absurd hasks hanswered
  | find hasks hruns =>
    cases h' with
    | answered hanswered => exact absurd hasks hanswered
    | find _ hruns' =>
      obtain ⟨rfl, rfl⟩ := hruns.unique hruns'
      exact ⟨rfl, rfl⟩

theorem History.unique {w : World} {demands : List Demand} {s next next' : State}
    {events events' : List Event} (h : History w demands s events next)
    (h' : History w demands s events' next') : events = events' ∧ next = next' := by
  induction h generalizing events' next' with
  | nil =>
    cases h'
    exact ⟨rfl, rfl⟩
  | cons hserves _ ih =>
    cases h' with
    | cons hserves' hrest' =>
      obtain ⟨rfl, rfl⟩ := hserves.unique hserves'
      obtain ⟨rfl, rfl⟩ := ih hrest'
      exact ⟨rfl, rfl⟩

theorem find?_of_asks {w : World} {path : String} {s : State} (h : s.Asks path) :
    find? w path s = lookUpInstalled w path
      (approach w (s.session.allowed.length + 1) [Dotted.first path] s) := by
  obtain ⟨hparam, hasked, hallowed⟩ := h
  have hget {α : Type} (f : State → LibraryM α) (s : State) : (get >>= f) s = f s s := rfl
  rw [find?, if_neg (by simp [hparam]), hget, hasked]
  dsimp only
  rw [hget, if_neg (by simp [hallowed]), hget]
  by_cases hmarked : Dotted.first path ∈ s.session.populated
  · rw [if_neg (by simp [hmarked])]
    simp only [approach, List.foldl_cons, List.foldl_nil, if_pos hmarked]
    rfl
  · rw [if_pos (by simp [hmarked])]
    simp only [approach, List.foldl_cons, List.foldl_nil, if_neg hmarked]
    rfl

theorem find?_of_not_asks {w : World} {path : String} {s : State} (h : ¬ s.Asks path) :
    find? w path s = answerAtOnce path s := by
  have hget {α : Type} (f : State → LibraryM α) : (get >>= f) s = f s s := rfl
  rw [find?, answerAtOnce]
  split
  · rfl
  next hparam =>
  rw [hget, hget]
  cases hasked : s.session.asked.get? path with
  | some known => rfl
  | none =>
    dsimp only
    rw [hget, if_pos]
    simpa using fun hallowed => h ⟨by simpa using hparam, hasked, hallowed⟩

theorem exists_serves (w : World) (demand : Demand) (s : State) :
    ∃ events, Serves w demand s events (demand.run w s) := by
  cases demand with
  | populate library =>
    obtain ⟨events, hruns⟩ := exists_runs_populate w library s
    exact ⟨events, .populate hruns⟩
  | find path =>
    by_cases hasks : s.Asks path
    · have hless : s.remaining < s.session.allowed.length + 1 := Nat.lt_succ_of_le (remaining_le s)
      obtain ⟨events, hruns⟩ := exists_runs_each (exists_runs w _) [Dotted.first path] hless
      rw [Demand.run, find?_of_asks hasks]
      exact ⟨_, .find hasks hruns⟩
    · rw [Demand.run, find?_of_not_asks hasks]
      exact ⟨[], .answered hasks⟩

theorem exists_history (w : World) (demands : List Demand) (s : State) :
    ∃ events, History w demands s events (demands.foldl (Demand.run w) s) := by
  induction demands generalizing s with
  | nil => exact ⟨[], .nil⟩
  | cons demand rest ih =>
    obtain ⟨events, hserves⟩ := exists_serves w demand s
    obtain ⟨events', hrest⟩ := ih (demand.run w s)
    exact ⟨events ++ events', .cons hserves hrest⟩

theorem searching_cases (path : String) (s : State) :
    searching path s = [] ∨ searching path s = [.searches (Dotted.first path)] := by
  unfold searching
  split
  · exact .inl rfl
  · dsimp only
    split
    · exact .inl rfl
    · exact .inr rfl

theorem Framed.ends_answerAtOnce {allowed marked : List String} {infos : Table Info}
    {P : Store → Prop} (path : String) :
    Ends (Framed allowed infos marked P) (answerAtOnce path)
      fun _ => Framed allowed infos marked P := by
  rw [answerAtOnce]
  split
  · exact Framed.ends_answer path none
  · refine Ends.get_bind fun s _ => ?_
    split
    · exact Ends.pure fun _ hs => hs
    · exact Framed.ends_answer path none

theorem continues_answerAtOnce (path : String) (s : State) :
    Continues s [] (answerAtOnce path s).2 :=
  .of_ends rfl (fun _ _ _ => Framed.ends_answerAtOnce path) s

theorem continues_lookUpInstalled (w : World) (path : String) (s : State) :
    Continues s [] (lookUpInstalled w path s).2 := by
  refine .of_ends rfl (fun allowed infos marked => Ends.get_bind fun s hs => ?_) s
  split
  · exact Framed.ends_answer path none
  · next info hinfo =>
    exact Framed.ends_lookUp (withstands_true infos _ info.version) (hs.infos_eq ▸ hinfo) rfl w path

theorem Serves.course {w : World} {demand : Demand} {s next : State} {events : List Event}
    (h : Serves w demand s events next) : Course s events next := by
  cases h with
  | populate hruns => exact hruns.course
  | answered => exact .of_searches (continues_answerAtOnce _ _) (.inl rfl)
  | @find path _ ready _ hasks hruns =>
    exact hruns.course.trans (.of_searches (continues_lookUpInstalled w path ready)
      ((searching_cases path ready).imp_right fun h => ⟨_, h⟩))

theorem History.course {w : World} {demands : List Demand} {s next : State} {events : List Event}
    (h : History w demands s events next) : Course s events next := by
  induction h with
  | nil => exact .of_searches (.of_unmarked _ rfl) (.inl rfl)
  | cons hserves _ ih => exact hserves.course.trans ih

/-! ### Courses in which no files are read -/

/-- Source files of the library are read. -/
def Event.Reads (e : Event) (library : String) : Prop :=
  e = .surveys library ∨ e = .searches library

theorem lookUpInstalled_of_not_searching (w w' : World) {path : String} {s : State}
    (h : searching path s = []) : lookUpInstalled w path s = lookUpInstalled w' path s := by
  have hget {α : Type} (f : State → LibraryM α) : (get >>= f) s = f s s := rfl
  have hbind {α β : Type} (step : StateM Store α) (f : α → LibraryM β) (s : State) :
      (onStore step >>= f) s = f (step s.store).1 { s with store := (step s.store).2 } := rfl
  rw [lookUpInstalled, lookUpInstalled, hget, hget]
  unfold searching at h
  cases hinfo : s.session.infos.get? (Dotted.first path) with
  | none => rfl
  | some info =>
    simp only [hinfo] at h
    dsimp only
    rw [lookUp, lookUp, hbind, hbind]
    cases hfound : (Store.find? (Dotted.first path) path info.version s.store).1 with
    | some found => rfl
    | none =>
      dsimp only
      rw [hbind, hbind]
      cases hstored : (Store.hasClasses (Dotted.first path) info.version
          (Store.find? (Dotted.first path) path info.version s.store).2).1 with
      | true => rfl
      | false => simp [hfound, hstored] at h

variable {w : World} {s next : State} {events : List Event}

theorem Runs.elsewhere {task : Task} (h : Runs w task s events next) (w' : World)
    (hreads : ∀ e ∈ events, ∀ library, ¬ e.Reads library) : Runs w' task s events next := by
  induction h with
  | refused hrefused => exact .refused hrefused
  | unknown hadmits hinfo => exact .unknown hadmits hinfo
  | stored hadmits hinfo hasked => exact .stored hadmits hinfo hasked
  | @surveyed library =>
    exact absurd (.inl rfl) (hreads (.surveys library) (by simp) library)
  | done => exact .done
  | skip hmarked _ ih => exact .skip hmarked (ih hreads)
  | visit hnew _ _ ihcall ihrest =>
    exact .visit hnew (ihcall fun e hmem => hreads e (List.mem_append_left _ hmem))
      (ihrest fun e hmem => hreads e (List.mem_append_right _ hmem))

theorem Serves.elsewhere {demand : Demand} (h : Serves w demand s events next) (w' : World)
    (hreads : ∀ e ∈ events, ∀ library, ¬ e.Reads library) : Serves w' demand s events next := by
  cases h with
  | populate hruns => exact .populate (hruns.elsewhere w' hreads)
  | answered hanswered => exact .answered hanswered
  | @find path _ ready events hasks hruns =>
    have hsearch : searching path ready = [] := by
      refine (searching_cases path ready).resolve_right fun hsearch => ?_
      exact hreads (.searches (Dotted.first path)) (by simp [hsearch]) _ (.inr rfl)
    rw [lookUpInstalled_of_not_searching w w' hsearch]
    exact .find hasks (hruns.elsewhere w' fun e hmem => hreads e (List.mem_append_left _ hmem))

/-- Nothing but the events that say so reads source files: without such an event, a course is the
same in every world. -/
theorem History.elsewhere {demands : List Demand} (h : History w demands s events next)
    (w' : World) (hreads : ∀ e ∈ events, ∀ library, ¬ e.Reads library) :
    History w' demands s events next := by
  induction h with
  | nil => exact .nil
  | cons hserves _ ih =>
    exact .cons (hserves.elsewhere w' fun e hmem => hreads e (List.mem_append_left _ hmem))
      (ih fun e hmem => hreads e (List.mem_append_right _ hmem))

end ParamLens.Library
