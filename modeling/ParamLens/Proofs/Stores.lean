import Mathlib.Data.List.Basic
import ParamLens.Library.Store
import ParamLens.Proofs.Records
import ParamLens.Proofs.Splitting

/-! Runs of the store against plain facts about each library, which only changes alter. An answer of
the store is the one that the facts give as long as no look-up that finds nothing comes between a
change and the write of the changed record over an older file: such a look-up puts the older record
back into memory, and the change is lost. -/

namespace ParamLens.Library

/-! ### Names of records -/

theorem eq_of_key_eq {library other version version' : String} (h : ':' ∉ library.toList)
    (h' : ':' ∉ other.toList) (heq : Store.key other version' = Store.key library version) :
    other = library := by
  have hchars := congrArg (fun key => (Text.splitChars ':' key.toList).head?) heq
  have hkey (name version : String) : (Store.key name version).toList =
      name.toList ++ ':' :: version.toList := by simp [Store.key]
  simp only [hkey, Text.splitChars_append_cons ':' h, Text.splitChars_append_cons ':' h',
    List.head?_cons, Option.some.injEq] at hchars
  exact String.toList_injective hchars

theorem hyphen_notMem_versionText (numbers : List Nat) :
    '-' ∉ (versionText numbers "_").toList := by
  have hdigits (n : Nat) : '-' ∉ (toString n).toList := by
    rw [Nat.toString_eq_repr, Nat.toList_repr]
    intro h
    exact absurd (Nat.isDigit_of_mem_toDigits (by decide) (by decide) h) (by decide)
  induction numbers with
  | nil => decide
  | cons n rest ih =>
    cases rest with
    | nil => simpa [versionText, Text.join] using hdigits n
    | cons m rest =>
      simp only [versionText, Text.join, List.map_cons, String.intercalate_cons_cons,
        String.toList_append, List.mem_append, not_or] at ih ⊢
      exact ⟨⟨hdigits n, by decide⟩, ih⟩

namespace Store

/-- The name of a library stands before the last hyphen that is not part of the ending. -/
theorem dropWhile_reverse_versioned (library : String) (numbers : List Nat) :
    ((library ++ "-" ++ versionText numbers "_").toList.reverse.dropWhile (· != '-')) =
      '-' :: library.toList.reverse := by
  have hversion : ∀ c ∈ (versionText numbers "_").toList.reverse, (c != '-') = true := by
    intro c hc
    have hmem := List.mem_reverse.mp hc
    exact bne_iff_ne.mpr fun e => hyphen_notMem_versionText numbers (e ▸ hmem)
  simp only [String.toList_append, List.reverse_append]
  rw [List.dropWhile_append_of_pos hversion]
  rfl

theorem eq_of_fileName_eq {library library' version version' : String}
    (h : fileName library version = fileName library' version') : library = library' := by
  have hlist := congrArg String.toList h
  simp only [fileName] at hlist
  rw [String.toList_append, String.toList_append (s := library' ++ _ ++ _)] at hlist
  have hcut := congrArg (·.reverse.dropWhile (· != '-')) (List.append_cancel_right hlist)
  simp only [dropWhile_reverse_versioned, List.cons.injEq, List.reverse_inj, true_and] at hcut
  exact String.toList_injective hcut

/-- The second store has of the library what the first one has. -/
structure Agrees (library version : String) (s t : Store) : Prop where
  enabled : t.enabled = s.enabled
  memory : t.pending.get? (key library version) = s.pending.get? (key library version)
  file : t.stored? library version = s.stored? library version

/-! ### Runs -/

/-- The store after a change of what is kept about a library. -/
def apply (library version : String) : Change → Store → Store
  | .setClass name c => setClass library name c version
  | .setAlias name target => setAlias library name target version
  | .setTypes types => setTypes library types version

/-- The answer of the store to a question about a library. -/
def ask (library version : String) : Query → Store → Answer × Store
  | .find name, s => Prod.map Answer.found id (find? library name version s)
  | .hasClasses, s => Prod.map Answer.flag id (hasClasses library version s)
  | .types, s => Prod.map (fun names => Answer.types names.toFinset) id (types library version s)

/-- An operation on the store. -/
inductive Op where
  | alter (library : String) (change : Change)
  | flush (library : String)
  | ask (library : String) (query : Query)

/-- The answer to an operation, if it is a question, and the store after it, where each library has
one version. -/
def Op.step (version : String → String) : Op → Store → Option Answer × Store
  | .alter library change, s => (none, s.apply library (version library) change)
  | .flush library, s => (none, s.flush library (version library))
  | .ask library query, s => Prod.map some id (Store.ask library (version library) query s)

/-- What a plain record of a library comes to: its facts, whether they were ever changed, and the
facts when they were last written to the file. -/
structure Account where
  facts : Facts := {}
  changed : Bool := false
  saved : Option Facts := none

/-- The accounts of all libraries after an operation: changes alter the facts, and nothing else
does. -/
def Op.enter : Op → (String → Account) → String → Account
  | .alter library change, g =>
    Function.update g library
      { g library with facts := change.facts (g library).facts, changed := true }
  | .flush library, g =>
    if (g library).changed then
      Function.update g library { g library with saved := some (g library).facts }
    else g
  | .ask _ _, g => g

/-- The answer to an operation is the one that the plain facts give. -/
def Op.Right (g : String → Account) : Op → Option Answer → Prop
  | .ask library query, some answer => (g library).facts.Answers query answer
  | .ask _ _, none => False
  | _, _ => True

/-- The operation loses no change: it is no look-up that finds nothing while the facts differ from
what the file of the library holds. -/
def Op.Keeps (g : String → Account) : Op → Prop
  | .ask library (.find name) =>
    (∃ c, (g library).facts.Finds name c) ∨
      ∀ saved, (g library).saved = some saved → saved.Alike (g library).facts
  | _ => True

/-- Every answer in the run of the operations is the one that the plain facts give. -/
def Follows (version : String → String) : Store → (String → Account) → List Op → Prop
  | _, _, [] => True
  | s, g, op :: rest =>
    op.Right g (op.step version s).1 ∧ Follows version (op.step version s).2 (op.enter g) rest

/-- No operation of the run loses a change. -/
def AllKeep : (String → Account) → List Op → Prop
  | _, [] => True
  | g, op :: rest => op.Keeps g ∧ AllKeep (op.enter g) rest

/-- The accounts after a run. -/
def enterAll (ops : List Op) (g : String → Account) : String → Account :=
  ops.foldl (fun g op => op.enter g) g

/-- The store after a run. -/
def runAll (version : String → String) (ops : List Op) (s : Store) : Store :=
  ops.foldl (fun s op => (op.step version s).2) s

theorem follows_append {version : String → String} {s : Store} {g : String → Account}
    (ops more : List Op) :
    Follows version s g (ops ++ more) ↔
      Follows version s g ops ∧ Follows version (runAll version ops s) (enterAll ops g) more := by
  induction ops generalizing s g with
  | nil => simp [Follows, runAll, enterAll]
  | cons op rest ih =>
    simp only [List.cons_append, Follows, ih, and_assoc]
    rfl

/-! ### What the store holds of an account -/

variable {version : String → String} {s : Store} {g : String → Account} {library : String}

/-- The memory and the file of a library hold the present and the saved facts of its account. -/
structure Tracks (version : String) (s : Store) (library : String) (a : Account) : Prop where
  unsaved : a.saved = none → s.stored? library version = none
  saved (p : Facts) : a.saved = some p → ∃ r, s.stored? library version = some r ∧ r.facts.Alike p
  memory (r : Record) : s.pending.get? (key library version) = some r →
    r.isFor library version ∧ r.facts.Alike a.facts ∧ a.changed = true
  fresh : s.pending.get? (key library version) = none → a.changed = false →
    a.facts = {} ∧ a.saved = none
  written : s.pending.get? (key library version) = none → a.changed = true →
    ∃ p, a.saved = some p ∧ p.Alike a.facts

/-- The store keeps records and holds all accounts. -/
structure Holds (version : String → String) (s : Store) (g : String → Account) : Prop where
  enabled : s.enabled = true
  tracks (library : String) : Tracks (version library) s library (g library)

theorem Tracks.of_eq {version : String} {s' : Store} {a : Account} (h : Tracks version s library a)
    (pending : s'.pending.get? (key library version) = s.pending.get? (key library version))
    (stored : s'.stored? library version = s.stored? library version) :
    Tracks version s' library a := by
  constructor
  · rw [stored]; exact h.unsaved
  · rw [stored]; exact h.saved
  · rw [pending]; exact h.memory
  · rw [pending]; exact h.fresh
  · rw [pending]; exact h.written

theorem isFor_of_stored? {version : String} {r : Record} (h : s.stored? library version = some r) :
    r.isFor library version = true := by
  rw [stored?] at h
  split at h
  · split at h
    · next hfor => exact Option.some.inj h ▸ hfor
    · cases h
  · cases h

theorem Tracks.exists_saved {version : String} {a : Account} {r : Record}
    (h : Tracks version s library a) (stored : s.stored? library version = some r) :
    ∃ p, a.saved = some p ∧ r.facts.Alike p := by
  cases hsaved : a.saved with
  | none => exact absurd (stored.symm.trans (h.unsaved hsaved)) (by simp)
  | some p =>
    obtain ⟨r', hr', halike⟩ := h.saved p hsaved
    obtain rfl := Option.some.inj (stored.symm.trans hr')
    exact ⟨p, rfl, halike⟩

theorem Tracks.stored {version : String} {a : Account} {r : Record}
    (h : Tracks version s library a) (absent : s.pending.get? (key library version) = none)
    (stored : s.stored? library version = some r) :
    r.facts.Alike a.facts ∧ a.changed = true := by
  obtain ⟨p, hsaved, halike⟩ := h.exists_saved stored
  cases hchanged : a.changed with
  | false =>
    have hnone := (h.fresh absent hchanged).2
    exact absurd (hsaved.symm.trans hnone) (by simp)
  | true =>
    obtain ⟨p', hsaved', halike'⟩ := h.written absent hchanged
    obtain rfl := Option.some.inj (hsaved.symm.trans hsaved')
    exact ⟨halike.trans halike', rfl⟩

theorem Tracks.facts_of_none {version : String} {a : Account} (h : Tracks version s library a)
    (absent : s.pending.get? (key library version) = none)
    (stored : s.stored? library version = none) : a.facts = {} := by
  cases hchanged : a.changed with
  | false => exact (h.fresh absent hchanged).1
  | true =>
    obtain ⟨p, hsaved, -⟩ := h.written absent hchanged
    obtain ⟨r, hr, -⟩ := h.saved p hsaved
    exact absurd (stored.symm.trans hr) (by simp)

theorem Tracks.changed_of_saved {version : String} {a : Account} {p : Facts}
    (h : Tracks version s library a) (saved : a.saved = some p) : a.changed = true := by
  cases hpending : s.pending.get? (key library version) with
  | some r => exact (h.memory r hpending).2.2
  | none =>
    by_contra hn
    have hnone := (h.fresh hpending (Bool.not_eq_true _ ▸ hn)).2
    exact absurd (saved.symm.trans hnone) (by simp)

/-- A change applies to a record of the library with the facts of the account. -/
theorem Tracks.current {version : String} {a : Account} (h : Tracks version s library a) :
    (s.current library version).isFor library version = true ∧
      (s.current library version).facts.Alike a.facts := by
  rw [Store.current]
  cases hpending : s.pending.get? (key library version) with
  | some r =>
    obtain ⟨hfor, halike, -⟩ := h.memory r hpending
    exact ⟨hfor, halike⟩
  | none =>
    cases hstored : s.stored? library version with
    | some r => exact ⟨isFor_of_stored? hstored, (h.stored hpending hstored).1⟩
    | none =>
      rw [h.facts_of_none hpending hstored]
      exact ⟨by simp [Record.isFor, Record.fresh], Facts.Alike.refl _⟩

/-! ### Steps -/

section Steps

variable (nonempty : ∀ library, version library ≠ "")
  (distinct : Function.Injective fun library => key library (version library))

include nonempty in
theorem Holds.keeps (h : Holds version s g) (library : String) :
    s.keeps (version library) = true := by
  simp [Store.keeps, h.enabled, nonempty library]

include distinct in
theorem Holds.load (h : Holds version s g) {r : Record} {a : Account}
    (isFor : r.isFor library (version library) = true) (facts : r.facts.Alike a.facts)
    (changed : a.changed = true) (saved : a.saved = (g library).saved) :
    Holds version (s.load library (version library) r) (Function.update g library a) := by
  refine ⟨h.enabled, fun other => ?_⟩
  by_cases he : other = library
  · subst he
    have hpending : (s.load other (version other) r).pending.get? (key other (version other)) =
        some r := Table.get?_insert_self _ _ _
    rw [Function.update_self]
    refine ⟨?_, ?_, ?_, ?_, ?_⟩
    · rw [saved]; exact (h.tracks other).unsaved
    · rw [saved]; exact (h.tracks other).saved
    · intro r' hr'
      obtain rfl := Option.some.inj (hpending.symm.trans hr')
      exact ⟨isFor, facts, changed⟩
    · intro habsent
      exact absurd (hpending.symm.trans habsent) (by simp)
    · intro habsent
      exact absurd (hpending.symm.trans habsent) (by simp)
  · rw [Function.update_of_ne he]
    exact (h.tracks other).of_eq (Table.get?_insert_ne _ (distinct.ne he) _) rfl

theorem apply_eq_change (library version : String) (change : Change) :
    apply library version change = Store.change library version change.record := by
  cases change <;> rfl

include nonempty distinct in
theorem Holds.change (h : Holds version s g) (library : String) (change : Change) :
    Holds version (s.apply library (version library) change)
      ((Op.alter library change).enter g) := by
  obtain ⟨hfor, halike⟩ := (h.tracks library).current
  rw [apply_eq_change, Store.change, if_pos (h.keeps nonempty library)]
  refine h.load distinct ?_ ?_ rfl rfl
  · rw [isFor_change]; exact hfor
  · rw [facts_change]; exact halike.change change

include nonempty distinct in
theorem Holds.flush (h : Holds version s g) (library : String) :
    Holds version (s.flush library (version library)) ((Op.flush library).enter g) := by
  have htracks := h.tracks library
  rw [Store.flush, if_pos (h.keeps nonempty library), Op.enter]
  cases hpending : s.pending.get? (key library (version library)) with
  | none =>
    dsimp only
    split
    · next hchanged =>
      -- Nothing is written: the file already holds the facts.
      refine ⟨h.enabled, fun other => ?_⟩
      by_cases he : other = library
      · subst he
        rw [Function.update_self]
        obtain ⟨p, hsaved, halike⟩ := htracks.written hpending hchanged
        obtain ⟨r, hr, halike'⟩ := htracks.saved p hsaved
        refine ⟨by simp, fun p' hp' => ⟨r, hr, ?_⟩, htracks.memory, ?_, ?_⟩
        · exact Option.some.inj hp' ▸ halike'.trans halike
        · exact fun _ hunchanged => absurd (hchanged.symm.trans hunchanged) (by simp)
        · exact fun _ _ => ⟨_, rfl, Facts.Alike.refl _⟩
      · rw [Function.update_of_ne he]
        exact h.tracks other
    · exact h
  | some r =>
    obtain ⟨hfor, halike, hchanged⟩ := htracks.memory r hpending
    dsimp only
    rw [if_pos hchanged]
    refine ⟨h.enabled, fun other => ?_⟩
    by_cases he : other = library
    · subst he
      have habsent : (s.pending.erase (key other (version other))).get?
          (key other (version other)) = none := Table.get?_erase_self _ _
      rw [Function.update_self]
      refine ⟨by simp, fun p hp => ⟨r, ?_, Option.some.inj hp ▸ halike⟩, ?_, ?_, ?_⟩
      · simp [stored?, hfor]
      · exact fun r' hr' => absurd (habsent.symm.trans hr') (by simp)
      · exact fun _ hunchanged => absurd (hchanged.symm.trans hunchanged) (by simp)
      · exact fun _ _ => ⟨_, rfl, Facts.Alike.refl _⟩
    · rw [Function.update_of_ne he]
      have hfile : fileName other (version other) ≠ fileName library (version library) :=
        fun e => he (eq_of_fileName_eq e)
      refine (h.tracks other).of_eq (Table.get?_erase_ne _ (distinct.ne he)) ?_
      simp only [stored?, Table.get?_insert_ne _ hfile]

/-- A question is answered from memory, or else from the file, which then comes into memory. -/
theorem ask_cases {library version : String} (query : Query) (keeps : s.keeps version = true) :
    (∃ r, s.pending.get? (key library version) = some r ∧
      ask library version query s = (r.answer query, s)) ∨
    (∃ r, s.stored? library version = some r ∧
      (s.pending.get? (key library version) = none ∨
        ∃ name old, query = .find name ∧ s.pending.get? (key library version) = some old ∧
          old.find? name = none) ∧
      ask library version query s = (r.answer query, s.load library version r)) ∨
    (s.pending.get? (key library version) = none ∧ s.stored? library version = none ∧
      ask library version query s = ((Record.fresh library version).answer query, s)) := by
  cases hpending : s.pending.get? (key library version) with
  | none =>
    cases hstored : s.stored? library version with
    | none =>
      refine .inr (.inr ⟨rfl, rfl, ?_⟩)
      cases query <;> simp [ask, find?, hasClasses, types, keeps, hpending, hstored] <;> rfl
    | some r =>
      refine .inr (.inl ⟨r, rfl, .inl rfl, ?_⟩)
      cases query <;> simp [ask, find?, hasClasses, types, keeps, hpending, hstored] <;> rfl
  | some old =>
    cases query with
    | find name =>
      cases hfound : old.find? name with
      | some c =>
        exact .inl ⟨old, rfl, by simp [ask, find?, keeps, hpending, hfound, Record.answer]⟩
      | none =>
        cases hstored : s.stored? library version with
        | none =>
          exact .inl ⟨old, rfl, by
            simp [ask, find?, keeps, hpending, hfound, hstored, Record.answer]⟩
        | some r =>
          exact .inr (.inl ⟨r, rfl, .inr ⟨name, old, rfl, rfl, hfound⟩, by
            simp [ask, find?, keeps, hpending, hfound, hstored, Record.answer]⟩)
    | hasClasses =>
      exact .inl ⟨old, rfl, by simp [ask, hasClasses, keeps, hpending, Record.answer]⟩
    | types => exact .inl ⟨old, rfl, by simp [ask, types, keeps, hpending, Record.answer]⟩

theorem find?_eq_none_iff_of_alike {r : Record} {p : Facts} {name : String}
    (alike : r.facts.Alike p) : r.find? name = none ↔ ¬ ∃ c, p.Finds name c := by
  rw [← not_iff_not, not_not, ← Ne, Option.ne_none_iff_exists']
  exact exists_congr fun c => (r.find?_eq_some_iff name c).trans alike.finds_iff

include nonempty distinct in
/-- A question that loses no change is answered as the facts answer it. -/
theorem Holds.ask (h : Holds version s g) (library : String) (query : Query)
    (keeps : (Op.ask library query).Keeps g) :
    (g library).facts.Answers query (Store.ask library (version library) query s).1 ∧
      Holds version (Store.ask library (version library) query s).2 g := by
  have htracks := h.tracks library
  obtain ⟨r, hpending, hask⟩ | ⟨r, hstored, hwhy, hask⟩ | ⟨hpending, hstored, hask⟩ :=
    ask_cases query (h.keeps nonempty library)
  · rw [hask]
    exact ⟨(htracks.memory r hpending).2.1.answers (Facts.answers_answer r query), h⟩
  · have hloaded : r.facts.Alike (g library).facts ∧ (g library).changed = true := by
      rcases hwhy with habsent | ⟨name, old, rfl, hpending, hmiss⟩
      · exact htracks.stored habsent hstored
      · obtain ⟨-, halike, hchanged⟩ := htracks.memory old hpending
        obtain ⟨p, hsaved, halike'⟩ := htracks.exists_saved hstored
        rcases keeps with hfinds | hsame
        · exact absurd hfinds ((find?_eq_none_iff_of_alike halike).mp hmiss)
        · exact ⟨halike'.trans (hsame p hsaved), hchanged⟩
    rw [hask]
    refine ⟨hloaded.1.answers (Facts.answers_answer r query), ?_⟩
    have hload := h.load distinct (isFor_of_stored? hstored) hloaded.1 hloaded.2 rfl
    rwa [Function.update_eq_self] at hload
  · rw [hask, htracks.facts_of_none hpending hstored]
    exact ⟨Facts.answers_answer (Record.fresh library (version library)) query, h⟩

include nonempty distinct in
/-- A step that loses no change answers as the facts do, and the store holds them afterwards. -/
theorem Holds.step (h : Holds version s g) (op : Op) (keeps : op.Keeps g) :
    op.Right g (op.step version s).1 ∧ Holds version (op.step version s).2 (op.enter g) := by
  cases op with
  | alter library change => exact ⟨trivial, h.change nonempty distinct library change⟩
  | flush library => exact ⟨trivial, h.flush nonempty distinct library⟩
  | ask library query => exact h.ask nonempty distinct library query keeps

include nonempty distinct in
/-- A run that loses no change answers as the facts do, and the store holds them afterwards. -/
theorem Holds.run (h : Holds version s g) (ops : List Op) (keep : AllKeep g ops) :
    Follows version s g ops ∧ Holds version (runAll version ops s) (enterAll ops g) := by
  induction ops generalizing s g with
  | nil => exact ⟨trivial, h⟩
  | cons op rest ih =>
    obtain ⟨hright, hnext⟩ := h.step nonempty distinct op keep.1
    obtain ⟨hfollows, hholds⟩ := ih hnext keep.2
    exact ⟨⟨hright, hfollows⟩, hholds⟩

theorem holds_empty (version : String → String) :
    Holds version { enabled := true } fun _ => {} := by
  refine ⟨rfl, fun library => ⟨fun _ => rfl, ?_, ?_, fun _ _ => ⟨rfl, rfl⟩, ?_⟩⟩
  · exact fun _ h => absurd h (by simp)
  · exact fun _ h => absurd h (by simp)
  · exact fun _ h => absurd h (by simp)

/-! ### Lost changes -/

include nonempty distinct in
/-- A look-up that finds nothing while the file holds something else puts the facts of the file in
place of the present ones. -/
theorem Holds.lose (h : Holds version s g) {name : String} {p : Facts}
    (missing : ¬ ∃ c, (g library).facts.Finds name c) (saved : (g library).saved = some p)
    (unlike : ¬ p.Alike (g library).facts) :
    Holds version (Store.ask library (version library) (.find name) s).2
      (Function.update g library { g library with facts := p }) := by
  have htracks := h.tracks library
  obtain ⟨r, hstored, halike⟩ := htracks.saved p saved
  cases hpending : s.pending.get? (key library (version library)) with
  | none =>
    obtain ⟨hsame, -⟩ := htracks.stored hpending hstored
    exact absurd (halike.symm.trans hsame) unlike
  | some old =>
    obtain ⟨-, hold, hchanged⟩ := htracks.memory old hpending
    have hmiss : old.find? name = none := (find?_eq_none_iff_of_alike hold).mpr missing
    have hask : (Store.ask library (version library) (.find name) s).2 =
        s.load library (version library) r := by
      simp [Store.ask, find?, h.keeps nonempty library, hpending, hmiss, hstored]
    rw [hask]
    exact h.load distinct (isFor_of_stored? hstored) halike hchanged rfl

/-- The operations that change a library and write it to its file. -/
def alterAndFlush (library : String) (changes : List Change) : List Op :=
  changes.map (.alter library) ++ [.flush library]

theorem facts_enterAll_alterAndFlush (library : String) (changes : List Change)
    (g : String → Account) :
    (enterAll (alterAndFlush library changes) g library).facts =
      (g library).facts.after changes := by
  induction changes generalizing g with
  | nil =>
    simp only [alterAndFlush, enterAll, List.map_nil, List.nil_append, List.foldl_cons,
      List.foldl_nil, Op.enter]
    split
    · rw [Function.update_self]; rfl
    · rfl
  | cons change rest ih =>
    have hnext := ih ((Op.alter library change).enter g)
    simp only [Op.enter, Function.update_self] at hnext
    exact hnext

/-- A question right after a write loses nothing. -/
theorem allKeep_alterAndFlush_ask (library : String) (changes : List Change) (query : Query)
    (changed : (g library).changed = true) :
    AllKeep g (alterAndFlush library changes ++ [.ask library query]) := by
  induction changes generalizing g with
  | nil =>
    refine ⟨trivial, ?_, trivial⟩
    cases query with
    | find name =>
      refine .inr fun p hp => ?_
      simp only [Op.enter, changed, if_true, Function.update_self, Option.some.injEq] at hp ⊢
      exact hp ▸ Facts.Alike.refl _
    | hasClasses => trivial
    | types => trivial
  | cons change rest ih => exact ⟨trivial, ih (by simp [Op.enter])⟩

theorem answers_of_follows {changes : List Change} {query : Query}
    (follows : Follows version s g (alterAndFlush library changes ++ [.ask library query])) :
    ((g library).facts.after changes).Answers query (Store.ask library (version library) query
      (runAll version (alterAndFlush library changes) s)).1 := by
  have hlast := ((follows_append _ _).mp follows).2.1
  rw [← facts_enterAll_alterAndFlush]
  exact hlast

include nonempty distinct in
/-- A change that a look-up loses is missed by a later question. -/
theorem Holds.exists_not_follows (h : Holds version s g) {op : Op} (loses : ¬ op.Keeps g) :
    ∃ more, AllKeep (op.enter g) more ∧
      ¬ Follows version (op.step version s).2 (op.enter g) more := by
  cases op with
  | alter library change => exact absurd trivial loses
  | flush library => exact absurd trivial loses
  | ask library query =>
    cases query with
    | hasClasses => exact absurd trivial loses
    | types => exact absurd trivial loses
    | find name =>
      obtain ⟨hmissing, hdiffers⟩ := not_or.mp loses
      obtain ⟨p, hsaved, hunlike⟩ : ∃ p, (g library).saved = some p ∧
          ¬ p.Alike (g library).facts := by
        by_contra hn
        exact hdiffers fun p hp => by_contra fun hne => hn ⟨p, hp, hne⟩
      have hlost := h.lose nonempty distinct hmissing hsaved hunlike
      obtain ⟨changes, query, hdiffer⟩ := Facts.exists_differ hunlike
      have hchanged := (h.tracks library).changed_of_saved hsaved
      have hfollows := hlost.run nonempty distinct
        (alterAndFlush library changes ++ [.ask library query])
        (allKeep_alterAndFlush_ask library changes query (by rwa [Function.update_self]))
      have hanswer := answers_of_follows hfollows.1
      rw [Function.update_self] at hanswer
      exact ⟨_, allKeep_alterAndFlush_ask library changes query hchanged,
        fun hn => hdiffer _ hanswer (answers_of_follows hn)⟩

end Steps

/-- Two libraries with one key in memory read each other's records. -/
theorem not_follows_of_shared_key {version : String → String}
    (nonempty : ∀ library, version library ≠ "") {library other : String} (ne : library ≠ other)
    (shared : key library (version library) = key other (version other)) :
    ¬ Follows version { enabled := true } (fun _ => {})
      [.alter library (.setTypes ["Parameter"]), .ask other .types] := by
  rintro ⟨-, hanswer, -⟩
  let r := (Record.fresh library (version library)).setTypes ["Parameter"]
  let s := Store.load { enabled := true } library (version library) r
  have hkeeps (library : String) (s : Store) (enabled : s.enabled = true) :
      s.keeps (version library) = true := by
    simp [keeps, enabled, nonempty library]
  have hstore :
      apply library (version library) (.setTypes ["Parameter"]) { enabled := true } = s := by
    rw [apply_eq_change, change, if_pos (hkeeps library _ rfl)]
    rfl
  have hask : ask other (version other) .types s = (.types {"Parameter"}, s) := by
    have hpending : s.pending.get? (key other (version other)) = some r := by
      rw [← shared]
      exact Table.get?_insert_self _ _ _
    simp [ask, types, hkeeps other s rfl, hpending, r, Record.setTypes]
  have hfacts : ((Op.alter library (.setTypes ["Parameter"])).enter (fun _ => {}) other).facts =
      {} := by
    rw [Op.enter, Function.update_of_ne ne.symm]
  simp only [Op.step, hstore, hask, Prod.map, Op.Right, hfacts, Facts.Answers] at hanswer
  exact absurd hanswer (by decide)

/-- The answers of the store are those of plain facts in every run that loses no change, and a
change that a look-up loses is missed in some run after it; this holds if no two libraries share a
key in memory, and if two do, the answers are wrong in some run even if no look-up loses a
change. -/
theorem follows_facts_iff_no_change_lost (version : String → String)
    (nonempty : ∀ library, version library ≠ "") :
    (Function.Injective (fun library => key library (version library)) →
      (∀ ops, AllKeep (fun _ => {}) ops → Follows version { enabled := true } (fun _ => {}) ops) ∧
      ∀ ops op, AllKeep (fun _ => {}) ops → ¬ op.Keeps (enterAll ops fun _ => {}) →
        ∃ more, AllKeep (enterAll (ops ++ [op]) fun _ => {}) more ∧
          ¬ Follows version { enabled := true } (fun _ => {}) (ops ++ op :: more)) ∧
    (¬ Function.Injective (fun library => key library (version library)) →
      ∃ ops, AllKeep (fun _ => {}) ops ∧
        ¬ Follows version { enabled := true } (fun _ => {}) ops) := by
  refine ⟨fun distinct => ⟨fun ops keep => ?_, fun ops op keep loses => ?_⟩, fun shared => ?_⟩
  · exact ((holds_empty version).run nonempty distinct ops keep).1
  · obtain ⟨-, hholds⟩ := (holds_empty version).run nonempty distinct ops keep
    obtain ⟨more, hkeep, hlost⟩ := hholds.exists_not_follows nonempty distinct loses
    refine ⟨more, ?_, fun hfollows => ?_⟩
    · simpa [enterAll] using hkeep
    · exact hlost ((follows_append ops (op :: more)).mp hfollows).2.2
  · obtain ⟨library, other, hkey, hne⟩ : ∃ library other,
        key library (version library) = key other (version other) ∧ library ≠ other := by
      by_contra hn
      exact shared fun library other hkey => by_contra fun hne => hn ⟨library, other, hkey, hne⟩
    refine ⟨[.alter library (.setTypes ["Parameter"]), .ask other .types], ?_, ?_⟩
    · exact ⟨trivial, trivial, trivial⟩
    · exact not_follows_of_shared_key nonempty hne hkey

/-- A class and an alias put in before and after a write are found, and a miss right after a second
write loses nothing. -/
theorem follows_facts_between_flushes :
    (∀ library : String, (fun _ => "1.0") library ≠ "") ∧
    Follows (fun _ => "1.0") { enabled := true } (fun _ => {})
      [.alter "panel" (.setClass "A" (.ofName "A")), .flush "panel",
        .alter "panel" (.setAlias "B" "A"), .ask "panel" (.find "B"), .ask "panel" .types,
        .flush "panel", .ask "panel" (.find "C")] := by
  have nonempty : ∀ library : String, (fun _ : String => "1.0") library ≠ "" := fun _ => by simp
  have distinct : Function.Injective fun library => key library "1.0" := by
    intro library other h
    simpa [key, String.append_assoc] using h
  refine ⟨nonempty, ((follows_facts_iff_no_change_lost _ nonempty).1 distinct).1 _ ?_⟩
  refine ⟨trivial, trivial, trivial, .inl ?_, trivial, trivial, .inr ?_, trivial⟩
  · exact ⟨.ofName "A", ["B"], .along rfl rfl (.here rfl)⟩
  · rintro saved ⟨⟩
    exact Facts.Alike.refl _

/-- After a write a class is put in; a look-up of another name finds nothing and loses the class. -/
theorem class_lost_by_missed_lookup :
    ¬ Follows (fun _ => "1.0") { enabled := true } (fun _ => {})
      [.alter "panel" (.setClass "A" (.ofName "A")), .flush "panel",
        .alter "panel" (.setClass "B" (.ofName "B")), .ask "panel" (.find "C"),
        .ask "panel" (.find "B")] := by
  rintro ⟨-, -, -, -, hanswer, -⟩
  have hlost : (none : Option ParamClass) = some (.ofName "B") :=
    (hanswer (.ofName "B")).mpr ⟨[], .here rfl⟩
  exact absurd hlost (by simp)

end Store

end ParamLens.Library
