import ParamLens.Proofs.Acyclic
import ParamLens.Proofs.KnownTypes
import ParamLens.Proofs.Visits

/-! The order in which libraries are gone through. Over any sequence of demands on one session each
library is gone through at most once. When the libraries do not require each other in a circle and
none is found in the store, the calls for everything that a library requires have returned before
its own source files are read. -/

namespace ParamLens.Library

open Steps Relation

/-! ### Calls that have returned -/

/-- The first library requires the second one. -/
def DependsOn (infos : Table Info) (library dependency : String) : Prop :=
  ∃ info, infos.get? library = some info ∧ dependency ∈ info.dependencies

/-- A call for the library has returned, and none is going on. -/
def Returned (events : List Event) (library : String) : Prop :=
  .leaves library ∈ events ∧ events.count (.enters library) = events.count (.leaves library)

/-- Before source files of a library are read, the calls for all libraries that it requires,
directly or through others, have returned. -/
def DependenciesFirst (infos : Table Info) (events : List Event) : Prop :=
  ∀ before e after library, events = before ++ e :: after → e.Reads library →
    ∀ dependency, TransGen (DependsOn infos) library dependency → Returned before dependency

/-- Calls for the library and for all libraries that it requires have returned. -/
def Concluded (infos : Table Info) (events : List Event) (library : String) : Prop :=
  ∀ dependency, ReflTransGen (DependsOn infos) library dependency → .leaves dependency ∈ events

theorem Concluded.append {infos : Table Info} {events : List Event} {library : String}
    (h : Concluded infos events library) (events' : List Event) :
    Concluded infos (events ++ events') library :=
  fun dependency hreach => List.mem_append_left _ (h dependency hreach)

theorem DependenciesFirst.append_singleton {infos : Table Info} {events : List Event} {e : Event}
    (h : DependenciesFirst infos events) (hreads : ∀ library, e.Reads library →
      ∀ dependency, TransGen (DependsOn infos) library dependency → Returned events dependency) :
    DependenciesFirst infos (events ++ [e]) := by
  intro before e' after library hsplit hread
  rcases List.eq_nil_or_concat after with rfl | ⟨rest, last, rfl⟩
  · obtain ⟨rfl, he⟩ := List.append_inj' hsplit rfl
    obtain rfl := List.singleton_inj.mp he
    exact hreads library hread
  · rw [List.concat_eq_append, ← List.cons_append, ← List.append_assoc] at hsplit
    obtain ⟨hevents, -⟩ := List.append_inj' hsplit rfl
    exact h before e' rest library hevents hread

theorem not_transGen_of_unknown {infos : Table Info} {library : String}
    (hinfo : infos.get? library = none) (dependency : String) :
    ¬ TransGen (DependsOn infos) library dependency := by
  intro hreach
  obtain ⟨_, ⟨info, hsome, -⟩, -⟩ := TransGen.head'_iff.mp hreach
  cases hinfo.symm.trans hsome

/-- How far the calls are: those for the waiting libraries are going on, and the other libraries
that are marked are concluded. -/
structure Progress (infos : Table Info) (waiting : List String) (events : List Event) (s : State) :
    Prop where
  infos_eq : s.session.infos = infos
  analysed : ∀ library info, infos.get? library = some info → library ∈ s.session.allowed
  concluded : ∀ library ∈ s.session.populated, library ∈ waiting ∨ Concluded infos events library
  calls : ∀ library, events.count (.enters library) =
    events.count (.leaves library) + waiting.count library
  first : DependenciesFirst infos events

namespace Progress

variable {infos : Table Info} {waiting : List String} {events : List Event} {s next : State}
  {library : String}

theorem add {e : Event} (h : Progress infos waiting events s)
    (hcalls : ∀ library, e ≠ .enters library ∧ e ≠ .leaves library)
    (hreads : ∀ library, e.Reads library → ∀ dependency,
      TransGen (DependsOn infos) library dependency → Returned events dependency) :
    Progress infos waiting (events ++ [e]) s where
  infos_eq := h.infos_eq
  analysed := h.analysed
  concluded library hmem := (h.concluded library hmem).imp_right fun hdone => hdone.append [e]
  calls library := by
    have hcount := h.calls library
    simpa [List.count_append, List.count_cons, (hcalls library).1, (hcalls library).2] using hcount
  first := h.first.append_singleton hreads

theorem enter (h : Progress infos waiting events s) (library : String) :
    Progress infos (library :: waiting) (events ++ [.enters library]) s where
  infos_eq := h.infos_eq
  analysed := h.analysed
  concluded other hmem :=
    (h.concluded other hmem).imp (List.mem_cons_of_mem library) fun hdone => hdone.append _
  calls other := by
    have hcount := h.calls other
    simp only [List.count_append, List.count_cons, List.count_nil, beq_iff_eq, reduceCtorEq,
      Event.enters.injEq, if_false]
    omega
  first := h.first.append_singleton (by simp [Event.Reads])

theorem leave (h : Progress infos (library :: waiting) events s)
    (hdone : ∀ dependency, TransGen (DependsOn infos) library dependency →
      .leaves dependency ∈ events) :
    Progress infos waiting (events ++ [.leaves library]) s ∧
      Concluded infos (events ++ [.leaves library]) library := by
  have hconcluded : Concluded infos (events ++ [.leaves library]) library := by
    intro dependency hreach
    rcases reflTransGen_iff_eq_or_transGen.mp hreach with rfl | hreach
    · simp
    · exact List.mem_append_left _ (hdone dependency hreach)
  refine ⟨⟨h.infos_eq, h.analysed, fun other hmem => ?_, fun other => ?_, ?_⟩, hconcluded⟩
  · rcases h.concluded other hmem with hwaiting | hother
    · rcases List.mem_cons.mp hwaiting with rfl | hwaiting
      · exact .inr hconcluded
      · exact .inl hwaiting
    · exact .inr (hother.append _)
  · have hcount := h.calls other
    simp only [List.count_append, List.count_cons, List.count_nil, beq_iff_eq, reduceCtorEq,
      Event.leaves.injEq, if_false] at hcount ⊢
    omega
  · exact h.first.append_singleton (by simp [Event.Reads])

/-- A step that marks waiting libraries only. -/
theorem step (h : Progress infos waiting events s) {events' : List Event}
    (hnext : Continues s events' next) (hmarked : ∀ library ∈ marked events', library ∈ waiting) :
    Progress infos waiting events next where
  infos_eq := hnext.infos.trans h.infos_eq
  analysed library info hinfo := hnext.allowed ▸ h.analysed library info hinfo
  concluded library hmem := by
    rw [hnext.populated, List.mem_append] at hmem
    exact hmem.elim (h.concluded library) fun hmem => .inl (hmarked library hmem)
  calls := h.calls
  first := h.first

theorem mark {past : List Event} (h : Progress infos (library :: waiting) past s)
    (hnext : Continues s [.enters library, .marks library] next) :
    Progress infos (library :: waiting) (past ++ [.marks library]) next :=
  (h.step hnext (by simp [marked])).add (by simp) (by simp [Event.Reads])

theorem concluded_of_marked (h : Progress infos waiting events s)
    (acyclic : Acyclic (DependsOn infos))
    (hwaits : ∀ waiter ∈ waiting, TransGen (DependsOn infos) waiter library)
    (hmarked : library ∈ s.session.populated) : Concluded infos events library :=
  (h.concluded library hmarked).resolve_left fun hmem => acyclic library (hwaits library hmem)

theorem returned (h : Progress infos waiting events s) {dependency : String}
    (hleft : .leaves dependency ∈ events) (hnot : dependency ∉ waiting) :
    Returned events dependency := by
  refine ⟨hleft, ?_⟩
  rw [h.calls, List.count_eq_zero_of_not_mem hnot, Nat.add_zero]

/-- A call that is refused: the library is marked already, or it requires nothing. -/
theorem refuse (h : Progress infos waiting events s) (acyclic : Acyclic (DependsOn infos))
    (hwaits : ∀ waiter ∈ waiting, TransGen (DependsOn infos) waiter library)
    (hrefused : ¬ s.Admits library) :
    Progress infos waiting (events ++ [.enters library] ++ [.leaves library]) s ∧
      Concluded infos (events ++ [.enters library] ++ [.leaves library]) library := by
  refine (h.enter library).leave fun dependency hreach => ?_
  by_cases hallowed : library ∈ s.session.allowed
  · have hmarked : library ∈ s.session.populated :=
      not_not.mp fun hnew => hrefused ⟨hallowed, hnew⟩
    have hconcluded := h.concluded_of_marked acyclic hwaits hmarked
    exact List.mem_append_left _ (hconcluded dependency hreach.to_reflTransGen)
  · cases hinfo : infos.get? library with
    | none => exact absurd hreach (not_transGen_of_unknown hinfo dependency)
    | some info => exact absurd (h.analysed library info hinfo) hallowed

/-- The source files of a library are read when its dependencies are concluded. -/
theorem survey (h : Progress infos (library :: waiting) events s)
    (acyclic : Acyclic (DependsOn infos))
    (hwaits : ∀ waiter ∈ waiting, TransGen (DependsOn infos) waiter library) {info : Info}
    (hinfo : infos.get? library = some info)
    (hconcluded : ∀ dependency ∈ info.dependencies, Concluded infos events dependency)
    (hnext : Continues s [] next) :
    Progress infos waiting (events ++ [.surveys library] ++ [.leaves library]) next ∧
      Concluded infos (events ++ [.surveys library] ++ [.leaves library]) library := by
  -- What the library requires is required by one of its dependencies, or is one.
  have hdone (dependency : String) (hreach : TransGen (DependsOn infos) library dependency) :
      .leaves dependency ∈ events := by
    obtain ⟨direct, ⟨info', hinfo', hmem⟩, hrest⟩ := TransGen.head'_iff.mp hreach
    obtain rfl := Option.some.inj (hinfo.symm.trans hinfo')
    exact hconcluded direct hmem dependency hrest
  have hnot (dependency : String) (hreach : TransGen (DependsOn infos) library dependency) :
      dependency ∉ library :: waiting := by
    intro hwaiter
    rcases List.mem_cons.mp hwaiter with rfl | hwaiter
    · exact acyclic _ hreach
    · exact acyclic _ (hreach.trans (hwaits dependency hwaiter))
  have hsurveyed : Progress infos (library :: waiting) (events ++ [.surveys library]) s := by
    refine h.add (by simp) ?_
    rintro other (⟨⟨⟩⟩ | ⟨⟨⟩⟩) dependency hreach
    exact h.returned (hdone dependency hreach) (hnot dependency hreach)
  exact (hsurveyed.step hnext (by simp [marked])).leave fun dependency hreach =>
    List.mem_append_left _ (hdone dependency hreach)

end Progress

/-- The libraries of a task. -/
def Task.libraries : Task → List String
  | .call library => [library]
  | .each libraries => libraries

/-- A task for libraries that the waiting ones require, in which no library is found in the store:
the order is kept, and its libraries are concluded. -/
theorem Runs.progress {w : World} {infos : Table Info} (acyclic : Acyclic (DependsOn infos))
    {task : Task} {s next : State} {events : List Event} (h : Runs w task s events next)
    {waiting : List String} {past : List Event}
    (hwaits : ∀ library ∈ task.libraries, ∀ waiter ∈ waiting,
      TransGen (DependsOn infos) waiter library)
    (hfinds : ∀ library, .finds library ∉ events) (hpast : Progress infos waiting past s) :
    Progress infos waiting (past ++ events) next ∧
      ∀ library ∈ task.libraries, Concluded infos (past ++ events) library := by
  induction h generalizing waiting past with
  | @refused library s hrefused =>
    have hleave := hpast.refuse acyclic (hwaits library List.mem_cons_self) hrefused
    simpa [Task.libraries] using hleave
  | @unknown library s hadmits hinfo =>
    have hmark : Continues s [.enters library, .marks library] (s.mark library) := ⟨rfl, rfl, rfl⟩
    have hentered := (hpast.enter library).mark hmark
    have hleave := hentered.leave fun dependency hreach =>
      absurd hreach (not_transGen_of_unknown (hpast.infos_eq ▸ hinfo) dependency)
    simpa [Task.libraries] using hleave
  | stored => simp at hfinds
  | @surveyed library info s asked ready events hadmits hinfo hasked hdependencies ih =>
    have hinfo : infos.get? library = some info := hpast.infos_eq ▸ hinfo
    have hwaits := hwaits library List.mem_cons_self
    have hentered := (hpast.enter library).mark (continues_asked hasked)
    obtain ⟨hready, hconcluded⟩ := ih
      (fun dependency hmem waiter hwaiter => by
        have hdirect : DependsOn infos library dependency := ⟨info, hinfo, hmem⟩
        rcases List.mem_cons.mp hwaiter with rfl | hwaiter
        · exact .single hdirect
        · exact (hwaits waiter hwaiter).tail hdirect)
      (fun other hmem => hfinds other (by simp [hmem])) hentered
    have hleave := hready.survey acyclic hwaits hinfo hconcluded
      (continues_populateSources w library info.version ready)
    simpa [Task.libraries] using hleave
  | done => simpa [Task.libraries] using hpast
  | @skip library rest s next events hmarked _ ih =>
    have hconcluded := hpast.concluded_of_marked acyclic (hwaits library List.mem_cons_self) hmarked
    obtain ⟨hnext, hrest⟩ :=
      ih (fun other hmem => hwaits other (List.mem_cons_of_mem _ hmem)) hfinds hpast
    refine ⟨hnext, fun other hmem => ?_⟩
    rcases List.mem_cons.mp hmem with rfl | hmem
    · exact hconcluded.append events
    · exact hrest other hmem
  | @visit library rest s next last events events' hnew hcall hrest ihcall ihrest =>
    obtain ⟨hnext, hfirst⟩ := ihcall
      (fun other hmem => hwaits other (List.mem_singleton.mp hmem ▸ List.mem_cons_self))
      (fun other hmem => hfinds other (List.mem_append_left _ hmem)) hpast
    obtain ⟨hlast, hothers⟩ := ihrest
      (fun other hmem => hwaits other (List.mem_cons_of_mem _ hmem))
      (fun other hmem => hfinds other (List.mem_append_right _ hmem)) hnext
    rw [← List.append_assoc]
    refine ⟨hlast, fun other hmem => ?_⟩
    rcases List.mem_cons.mp hmem with rfl | hmem
    · exact (hfirst other List.mem_cons_self).append events'
    · exact hothers other hmem

theorem Serves.progress {w : World} {infos : Table Info} (acyclic : Acyclic (DependsOn infos))
    {demand : Demand} {s next : State} {events : List Event} (h : Serves w demand s events next)
    {past : List Event} (hfinds : ∀ library, .finds library ∉ events)
    (hpast : Progress infos [] past s) : Progress infos [] (past ++ events) next := by
  cases h with
  | populate hruns => exact (hruns.progress acyclic (by simp) hfinds hpast).1
  | answered =>
    rw [List.append_nil]
    exact hpast.step (continues_answerAtOnce _ _) (by simp [marked])
  | @find path _ ready events hasks hruns =>
    obtain ⟨hready, hconcluded⟩ := hruns.progress acyclic (by simp)
      (fun library hmem => hfinds library (List.mem_append_left _ hmem)) hpast
    have hnext := hready.step (continues_lookUpInstalled w path ready) (by simp [marked])
    rw [← List.append_assoc]
    rcases searching_cases path ready with hsearch | hsearch
    · rw [hsearch, List.append_nil]
      exact hnext
    · rw [hsearch]
      refine hnext.add (by simp) ?_
      rintro library (⟨⟨⟩⟩ | ⟨⟨⟩⟩) dependency hreach
      exact hnext.returned
        (hconcluded _ List.mem_cons_self dependency hreach.to_reflTransGen) List.not_mem_nil

theorem History.progress {w : World} {infos : Table Info} (acyclic : Acyclic (DependsOn infos))
    {demands : List Demand} {s next : State} {events : List Event}
    (h : History w demands s events next) {past : List Event}
    (hfinds : ∀ library, .finds library ∉ events) (hpast : Progress infos [] past s) :
    Progress infos [] (past ++ events) next := by
  induction h generalizing past with
  | nil => simpa using hpast
  | cons hserves _ ih =>
    rw [← List.append_assoc]
    refine ih (fun library hmem => hfinds library (List.mem_append_right _ hmem)) ?_
    exact hserves.progress acyclic
      (fun library hmem => hfinds library (List.mem_append_left _ hmem)) hpast

theorem progress_start (w : World) (extra : List String) (store : Store) :
    Progress (infos w (allowed extra)) [] [] ⟨Session.start w extra, store⟩ where
  infos_eq := rfl
  analysed _ _ hinfo := (installed_of_infos hinfo).1
  concluded library hmem := absurd hmem List.not_mem_nil
  calls _ := rfl
  first before e after library hsplit := by simp at hsplit

/-! ### Stores without records -/

/-- The store has no record of the library in reach: it has none, or it keeps none. -/
def Store.Lacks (library version : String) (s : Store) : Prop :=
  s.keeps version = true → s.Blank library version

/-- The records of different libraries have different keys. -/
def Apart (infos : Table Info) : Prop :=
  ∀ library info other info', infos.get? library = some info → infos.get? other = some info' →
    Store.key library info.version = Store.key other info'.version → library = other

theorem Apart.separate {infos : Table Info} (h : Apart infos) {library other : String}
    {info info' : Info} (hinfo : infos.get? library = some info)
    (hother : infos.get? other = some info') :
    Store.Separate library info.version other info'.version := by
  by_cases heq : other = library
  · subst heq
    obtain rfl := Option.some.inj (hinfo.symm.trans hother)
    exact .inl ⟨rfl, rfl⟩
  · exact .inr ⟨heq, fun hkey => heq (h other info' library info hother hinfo hkey)⟩

namespace Store.Lacks

variable {library version : String} {s t : Store}

/-- A step that neither switches the store on nor adds a record. -/
theorem step (h : s.Lacks library version) (henabled : t.enabled = s.enabled)
    (hstep : s.Blank library version → t.Blank library version) : t.Lacks library version := by
  intro hkeeps
  rw [Store.keeps, henabled] at hkeeps
  exact hstep (h hkeeps)

theorem hasClasses_eq (h : s.Lacks library version) :
    Store.hasClasses library version s = (false, s) := by
  by_cases hkeeps : s.keeps version = true
  · exact (h hkeeps).hasClasses_eq
  · rw [Store.hasClasses, if_neg hkeeps]

end Store.Lacks

theorem enabled_find? (library name version : String) (s : Store) :
    (Store.find? library name version s).2.enabled = s.enabled := by
  unfold Store.find?
  split
  · split
    · rfl
    · split <;> rfl
  · rfl

theorem enabled_hasClasses (library version : String) (s : Store) :
    (Store.hasClasses library version s).2.enabled = s.enabled := by
  unfold Store.hasClasses
  split
  · split
    · rfl
    · split <;> rfl
  · rfl

theorem enabled_change (library version : String) (f : Record → Record) (s : Store) :
    (Store.change library version f s).enabled = s.enabled := by
  unfold Store.change
  split <;> rfl

theorem enabled_flush (library version : String) (s : Store) :
    (s.flush library version).enabled = s.enabled := by
  unfold Store.flush
  split
  · split <;> rfl
  · rfl

/-- The store lacks the installed libraries that are not marked. -/
def Lacking (infos : Table Info) (marked : List String) (s : Store) : Prop :=
  ∀ library info, infos.get? library = some info → library ∉ marked →
    s.Lacks library info.version

theorem Lacking.mono {infos : Table Info} {marked marked' : List String} {s : Store}
    (h : Lacking infos marked s) (hsub : ∀ library ∈ marked, library ∈ marked') :
    Lacking infos marked' s :=
  fun library info hinfo hnot => h library info hinfo fun hmem => hnot (hsub library hmem)

/-- Work on a marked library adds no record of one that is not marked. -/
theorem withstands_lacking {infos : Table Info} (apart : Apart infos) {library : String}
    {info : Info} (hinfo : infos.get? library = some info) {marked : List String}
    (hmarked : library ∈ marked) :
    Withstands infos library info.version (Lacking infos marked) where
  hasClasses s hs other info' hother hnot :=
    (hs other info' hother hnot).step (enabled_hasClasses _ _ s)
      (Store.Blank.ends_hasClasses (apart.separate hother hinfo) s)
  find? asked info' name hasked s hs other info'' hother hnot :=
    (hs other info'' hother hnot).step (enabled_find? _ _ _ s)
      (Store.Blank.ends_find? (apart.separate hother hasked) name s)
  change f s hs other info' hother hnot := by
    have hne : library ≠ other := fun heq => hnot (heq ▸ hmarked)
    have hkey := ((apart.separate hother hinfo).resolve_left fun h => hne h.1).2
    exact (hs other info' hother hnot).step (enabled_change _ _ f s) fun h => h.change hkey f
  flush s hs other info' hother hnot := by
    have hne : library ≠ other := fun heq => hnot (heq ▸ hmarked)
    have hkey := ((apart.separate hother hinfo).resolve_left fun h => hne h.1).2
    exact (hs other info' hother hnot).step (enabled_flush _ _ s) fun h => h.flush hne hkey

theorem onStore_hasClasses_of_lacks {library version : String} {s : State}
    (h : s.store.Lacks library version) :
    onStore (Store.hasClasses library version) (s.mark library) = (false, s.mark library) := by
  rw [onStore, State.mark, h.hasClasses_eq]

theorem Runs.lacking {w : World} {task : Task} {s next : State} {events : List Event}
    (h : Runs w task s events next) (apart : Apart s.session.infos)
    (hs : Lacking s.session.infos s.session.populated s.store) :
    (∀ library, .finds library ∉ events) ∧
      Lacking next.session.infos next.session.populated next.store := by
  induction h with
  | refused => exact ⟨by simp, hs⟩
  | unknown => exact ⟨by simp, hs.mono fun _ hmem => List.mem_append_left _ hmem⟩
  | @stored library info s asked hadmits hinfo hasked =>
    cases hasked.symm.trans (onStore_hasClasses_of_lacks (hs library info hinfo hadmits.2))
  | @surveyed library info s asked ready events hadmits hinfo hasked hdependencies ih =>
    have hlacks := onStore_hasClasses_of_lacks (hs library info hinfo hadmits.2)
    obtain rfl : asked = s.mark library := (Prod.mk.inj (hasked.symm.trans hlacks)).2
    obtain ⟨hfinds, hready⟩ := ih apart (hs.mono fun _ hmem => List.mem_append_left _ hmem)
    have hinfos := hdependencies.continues.infos
    have hmarked : library ∈ ready.session.populated :=
      hdependencies.continues.mem (List.mem_append_right _ List.mem_cons_self)
    obtain ⟨-, hinfos', hpopulated, hstore⟩ := Framed.ends_populateSources
      (withstands_lacking (hinfos ▸ apart) (hinfos ▸ hinfo) hmarked) w ready ⟨rfl, rfl, rfl, hready⟩
    refine ⟨fun other hmem => hfinds other (by simpa using hmem), ?_⟩
    rw [hinfos', hpopulated]
    exact hstore
  | done => exact ⟨by simp, hs⟩
  | skip _ _ ih => exact ih apart hs
  | visit _ hcall _ ihcall ihrest =>
    obtain ⟨hfinds, hnext⟩ := ihcall apart hs
    obtain ⟨hfinds', hlast⟩ := ihrest (hcall.continues.infos ▸ apart) hnext
    exact ⟨fun library hmem => (List.mem_append.mp hmem).elim (hfinds library) (hfinds' library),
      hlast⟩

theorem Runs.mem_of_allowed {w : World} {library : String} {s next : State} {events : List Event}
    (h : Runs w (.each [library]) s events next) (hallowed : library ∈ s.session.allowed) :
    library ∈ next.session.populated := by
  have hcontinues := h.continues
  cases h with
  | skip hmarked => exact hcontinues.mem hmarked
  | visit hnew hcall =>
    cases hcall with
    | refused hrefused => exact absurd ⟨hallowed, hnew⟩ hrefused
    | unknown | stored | surveyed => exact hcontinues.mem_of_marks (by simp)

theorem Serves.lacking {w : World} {demand : Demand} {s next : State} {events : List Event}
    (h : Serves w demand s events next) (apart : Apart s.session.infos)
    (hs : Lacking s.session.infos s.session.populated s.store) :
    (∀ library, .finds library ∉ events) ∧
      Lacking next.session.infos next.session.populated next.store := by
  cases h with
  | populate hruns => exact hruns.lacking apart hs
  | @answered path s =>
    obtain ⟨-, hinfos, hpopulated, hstore⟩ :=
      Framed.ends_answerAtOnce path s ⟨rfl, rfl, rfl, hs⟩
    refine ⟨fun _ => List.not_mem_nil, ?_⟩
    rw [hinfos, hpopulated]
    exact hstore
  | @find path _ ready events hasks hruns =>
    obtain ⟨hfinds, hready⟩ := hruns.lacking apart hs
    have hmarked := hruns.mem_of_allowed hasks.2.2
    have hlookUp : Ends (Framed ready.session.allowed ready.session.infos ready.session.populated
        (Lacking ready.session.infos ready.session.populated)) (lookUpInstalled w path)
        fun _ => Framed ready.session.allowed ready.session.infos ready.session.populated
          (Lacking ready.session.infos ready.session.populated) := by
      refine Ends.get_bind fun st hst => ?_
      rw [hst.infos_eq]
      cases hinfo : ready.session.infos.get? (Dotted.first path) with
      | none => exact Framed.ends_answer path none
      | some info =>
        exact Framed.ends_lookUp (withstands_lacking (hruns.continues.infos ▸ apart) hinfo hmarked)
          hinfo rfl w path
    obtain ⟨-, hinfos, hpopulated, hstore⟩ := hlookUp ready ⟨rfl, rfl, rfl, hready⟩
    refine ⟨fun library hmem => ?_, ?_⟩
    · rcases List.mem_append.mp hmem with hmem | hmem
      · exact hfinds library hmem
      · rcases searching_cases path ready with hsearch | hsearch
        · simp [hsearch] at hmem
        · simp [hsearch] at hmem
    · rw [hinfos, hpopulated]
      exact hstore

theorem History.lacking {w : World} {demands : List Demand} {s next : State} {events : List Event}
    (h : History w demands s events next) (apart : Apart s.session.infos)
    (hs : Lacking s.session.infos s.session.populated s.store) (library : String) :
    .finds library ∉ events := by
  induction h with
  | nil => exact List.not_mem_nil
  | cons hserves _ ih =>
    obtain ⟨hfinds, hnext⟩ := hserves.lacking apart hs
    have hrest := ih (hserves.course.infos ▸ apart) hnext
    exact fun hmem => (List.mem_append.mp hmem).elim (hfinds library) hrest

/-- The demands on a new session are served in one course, which ends in the state that is computed
and in which every call returns; source files are read in its events only. Each library is marked,
and its files are gone through, at most once. When the libraries do not require each other in a
circle and none is found in the store, all that a library requires comes before the reading of its
files; and none is found when the store lacks the installed libraries at first. -/
theorem populate_once_after_dependencies (w : World) (extra : List String) (store : Store)
    (demands : List Demand) :
    let known := infos w (allowed extra)
    let first : State := ⟨Session.start w extra, store⟩
    let last := demands.foldl (Demand.run w) first
    ∃ events, (∀ events' next, History w demands first events' next ↔
        events' = events ∧ next = last) ∧
      (∀ library, events.count (.enters library) = events.count (.leaves library)) ∧
      ((∀ e ∈ events, ∀ library, ¬ e.Reads library) →
        ∀ w', History w' demands first events last) ∧
      (∀ library, events.count (.surveys library) ≤ events.count (.marks library) ∧
        events.count (.marks library) ≤ 1) ∧
      (Acyclic (DependsOn known) → (∀ library, .finds library ∉ events) →
        DependenciesFirst known events) ∧
      (Apart known → (∀ library info, known.get? library = some info →
        store.Lacks library info.version) → ∀ library, .finds library ∉ events) := by
  intro known first last
  obtain ⟨events, hhistory⟩ := exists_history w demands first
  have hcourse := hhistory.course
  refine ⟨events, fun events' next => ⟨fun h => h.unique hhistory, ?_⟩, hcourse.calls,
    fun hreads w' => hhistory.elsewhere w' hreads, fun library => ⟨hcourse.surveys library, ?_⟩,
    fun acyclic hfinds => ?_, fun apart hlacks => ?_⟩
  · rintro ⟨rfl, rfl⟩
    exact hhistory
  · -- The marks of the course are the libraries that are marked in the end.
    have hnodup := hcourse.nodup List.nodup_nil
    have hpopulated : last.session.populated = marked events := hcourse.populated
    rw [← count_marked, ← hpopulated]
    exact List.nodup_iff_count_le_one.mp hnodup library
  · exact (hhistory.progress acyclic hfinds (progress_start w extra store)).first
  · exact hhistory.lacking apart fun library info hinfo _ => hlacks library info hinfo

theorem dependsOn_stacked {library dependency : String}
    (h : DependsOn (infos stacked (allowed [])) library dependency) :
    library = "panel" ∧ dependency = "param" := by
  obtain ⟨info, hinfo, hmem⟩ := h
  rw [infos_stacked] at hinfo
  have hentry := Table.mem_of_get?_ofList hinfo
  simp only [List.mem_cons, Prod.mk.injEq, List.not_mem_nil, or_false] at hentry
  rcases hentry with ⟨rfl, rfl⟩ | ⟨rfl, rfl⟩
  · exact ⟨rfl, by simpa using hmem⟩
  · simp at hmem

/-- One library requires another, the store is empty, and the one is asked for before the other. -/
theorem populate_stacked_after_param :
    let known := infos stacked (allowed [])
    let first : State := ⟨Session.start stacked [], { enabled := true }⟩
    Acyclic (DependsOn known) ∧ TransGen (DependsOn known) "panel" "param" ∧
      ∃ events last, History stacked [.populate "panel", .populate "param"] first events last ∧
        .surveys "panel" ∈ events ∧ DependenciesFirst known events := by
  intro known first
  have acyclic : Acyclic (DependsOn known) := by
    refine acyclic_of_rank (p := (· = "panel")) (fun _ => 0)
      (fun _ _ h => (dependsOn_stacked h).1) fun _ _ h hpanel => ?_
    exact absurd ((dependsOn_stacked h).2.symm.trans hpanel) (by decide)
  have apart : Apart known := fun library info other info' hinfo hother hkey =>
    eq_of_key_eq (wellNamed_stacked other info' hother).2
      (wellNamed_stacked library info hinfo).2 hkey
  have hpanel : known.get? "panel" = some ⟨"1.0", ["param"]⟩ := by
    show (infos stacked (allowed [])).get? "panel" = _
    rw [infos_stacked]
    decide
  have hparam : known.get? "param" = some ⟨"2.0", []⟩ := by
    show (infos stacked (allowed [])).get? "param" = _
    rw [infos_stacked]
    decide
  have hlacks (library version : String) : Store.Lacks library version { enabled := true } :=
    fun hkeeps => ⟨hkeeps, rfl, rfl⟩
  have hdependencies : Runs stacked (.each ["param"]) (first.mark "panel") _ _ :=
    .visit (by decide) (.surveyed ⟨by decide, by decide⟩ hparam
      (onStore_hasClasses_of_lacks (hlacks _ _)) .done) .done
  have hcall : Runs stacked (.call "panel") first _ _ :=
    .surveyed ⟨by decide, by decide⟩ hpanel (onStore_hasClasses_of_lacks (hlacks _ _)) hdependencies
  have hmarked := hcall.continues.mem_of_marks (show Event.marks "param" ∈ _ by simp)
  have hagain := Runs.refused (w := stacked) fun h => h.2 hmarked
  have hhistory := History.cons (.populate hcall) (.cons (.populate hagain) .nil)
  obtain ⟨events, hunique, -, -, -, hfirst, hfinds⟩ :=
    populate_once_after_dependencies stacked [] { enabled := true }
      [.populate "panel", .populate "param"]
  obtain ⟨rfl, -⟩ := (hunique _ _).mp hhistory
  refine ⟨acyclic, .single ⟨_, hpanel, by simp⟩, _, _, hhistory, by simp, ?_⟩
  exact hfirst acyclic (hfinds apart fun library info _ => hlacks library info.version)

end ParamLens.Library
