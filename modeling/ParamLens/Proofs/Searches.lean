import Mathlib.Data.Finset.Card
import ParamLens.Library.Search
import ParamLens.Proofs.Tables

/-! A search through the source files of a library comes to an end, however the files import each
other and the classes list each other as bases, and whatever fails on the way. A base is followed
only while it is not being followed already, so that the bases of the trees bound the depth; a file
is analysed only if its analysis has not begun. At the end the state is as empty as it was at the
start: a failure leaves nothing behind before it is caught. -/

namespace ParamLens.Library.Search

open Syntax

/-! ### Steps that come to an end -/

/-- From the state the step comes to an end, and the state after it is as stated, whether the step
has failed or not. -/
def Keeps {α : Type} (x : SearchM α) (s : Search) (I : Search → Prop) : Prop :=
  ∃ outcome t, x.run s = some (outcome, t) ∧ I t

/-- From the state the step has a result, and the state after it is as stated. -/
def Succeeds {α : Type} (x : SearchM α) (s : Search) (I : Search → Prop) : Prop :=
  ∃ a t, x.run s = some (.ok a, t) ∧ I t

section

variable {α β : Type} {s : Search} {I J : Search → Prop} {x : SearchM α} {f : α → SearchM β}

theorem run_bind_of_ok {a : α} {t : Search} (h : x.run s = some (.ok a, t)) :
    (x >>= f).run s = (f a).run t := by
  show (x.run s).bind (fun next => ExceptT.bindCont f next.1 next.2) = _
  rw [h]
  rfl

theorem run_bind_of_error {fault : SearchFault} {t : Search}
    (h : x.run s = some (.error fault, t)) : (x >>= f).run s = some (.error fault, t) := by
  show (x.run s).bind (fun next => ExceptT.bindCont f next.1 next.2) = _
  rw [h]
  rfl

namespace Succeeds

theorem pure {a : α} (h : I s) : Succeeds (Pure.pure a) s I := ⟨a, s, rfl, h⟩

theorem keeps (h : Succeeds x s I) : Keeps x s I := by
  obtain ⟨a, t, hrun, ht⟩ := h
  exact ⟨.ok a, t, hrun, ht⟩

theorem bind (hx : Succeeds x s I) (hf : ∀ a t, I t → Succeeds (f a) t J) :
    Succeeds (x >>= f) s J := by
  obtain ⟨a, t, hrun, ht⟩ := hx
  obtain ⟨b, u, hnext, hu⟩ := hf a t ht
  exact ⟨b, u, (run_bind_of_ok hrun).trans hnext, hu⟩

theorem bind_keeps (hx : Succeeds x s I) (hf : ∀ a t, I t → Keeps (f a) t J) :
    Keeps (x >>= f) s J := by
  obtain ⟨a, t, hrun, ht⟩ := hx
  obtain ⟨b, u, hnext, hu⟩ := hf a t ht
  exact ⟨b, u, (run_bind_of_ok hrun).trans hnext, hu⟩

theorem get_bind {f : Search → SearchM β} (h : Succeeds (f s) s I) : Succeeds (get >>= f) s I := h

theorem modify_bind {g : Search → Search} {f : Unit → SearchM β} (h : Succeeds (f ()) (g s) I) :
    Succeeds (modify g >>= f) s I := h

theorem of_modify {g : Search → Search} (h : I (g s)) : Succeeds (modify g) s I :=
  ⟨(), g s, rfl, h⟩

theorem mono (h : Succeeds x s I) (himp : ∀ t, I t → J t) : Succeeds x s J := by
  obtain ⟨a, t, hrun, ht⟩ := h
  exact ⟨a, t, hrun, himp t ht⟩

end Succeeds

namespace Keeps

theorem pure {a : α} (h : I s) : Keeps (Pure.pure a) s I := (Succeeds.pure h).keeps

theorem throw {fault : SearchFault} (h : I s) : Keeps (throw fault : SearchM α) s I :=
  ⟨.error fault, s, rfl, h⟩

theorem bind (hx : Keeps x s I) (hf : ∀ a t, I t → Keeps (f a) t I) : Keeps (x >>= f) s I := by
  obtain ⟨outcome, t, hrun, ht⟩ := hx
  cases outcome with
  | error fault => exact ⟨.error fault, t, run_bind_of_error hrun, ht⟩
  | ok a => exact Succeeds.bind_keeps ⟨a, t, hrun, ht⟩ hf

theorem get_bind {f : Search → SearchM β} (h : Keeps (f s) s I) : Keeps (get >>= f) s I := h

theorem modify_bind {g : Search → Search} {f : Unit → SearchM β} (h : Keeps (f ()) (g s) I) :
    Keeps (modify g >>= f) s I := h

theorem mono (h : Keeps x s I) (himp : ∀ t, I t → J t) : Keeps x s J := by
  obtain ⟨outcome, t, hrun, ht⟩ := h
  exact ⟨outcome, t, hrun, himp t ht⟩

theorem tryCatch {handle : SearchFault → SearchM α} (hx : Keeps x s I)
    (hhandle : ∀ fault t, I t → Succeeds (handle fault) t I) :
    Succeeds (tryCatch x handle) s I := by
  obtain ⟨outcome, t, hrun, ht⟩ := hx
  have hcatch : (MonadExcept.tryCatch x handle).run s = (x.run s).bind fun next =>
    match next.1 with
    | .ok a => some (.ok a, next.2)
    | .error fault => (handle fault).run next.2 := by
    show (x.run s).bind _ = _
    congr 1
    funext next
    obtain ⟨outcome, t⟩ := next
    cases outcome <;> rfl
  cases outcome with
  | ok a => exact ⟨a, t, by rw [hcatch, hrun]; rfl, ht⟩
  | error fault =>
    obtain ⟨a, u, hnext, hu⟩ := hhandle fault t ht
    exact ⟨a, u, by rw [hcatch, hrun]; exact hnext, hu⟩

theorem andFinally {change : Search → Search} (hx : Keeps x s I) (h : ∀ t, I t → J (change t)) :
    Keeps (x.andFinally change) s J := by
  obtain ⟨outcome, t, hrun, ht⟩ := hx
  refine ⟨outcome, change t, ?_, h t ht⟩
  show (x.run s).bind (fun next => some (next.1, change next.2)) = _
  rw [hrun]
  rfl

theorem anyM {test : α → SearchM Bool} {l : List α}
    (htest : ∀ a ∈ l, ∀ t, I t → Keeps (test a) t I) (hs : I s) : Keeps (l.anyM test) s I := by
  induction l generalizing s with
  | nil => exact pure hs
  | cons a rest ih =>
    refine bind (htest a List.mem_cons_self s hs) fun found t ht => ?_
    cases found with
    | true => exact pure ht
    | false => exact ih (fun b hb => htest b (List.mem_cons_of_mem _ hb)) ht

theorem foldlM {step : β → α → SearchM β} {l : List α}
    (hstep : ∀ a ∈ l, ∀ b t, I t → Keeps (step b a) t I) (b : β) (hs : I s) :
    Keeps (l.foldlM step b) s I := by
  induction l generalizing b s with
  | nil => exact pure hs
  | cons a rest ih =>
    rw [List.foldlM_cons]
    refine bind (hstep a List.mem_cons_self b s hs) fun b' t ht => ?_
    exact ih (fun c hc => hstep c (List.mem_cons_of_mem _ hc)) b' ht

end Keeps

end

/-! ### What a step keeps -/

/-- The bases of the known classes come from the trees, and no analysis has begun twice. -/
structure Sound (context : SearchContext) (s : Search) : Prop where
  listed : ∀ name n imports, s.classes.get? name = some (n, imports) →
    baseNames n ⊆ context.listedBases
  once : (s.analysed.map Prod.fst ++ s.inProgress).Nodup

/-- The second state comes from the first one by a step that is complete: what it has begun and
followed it has finished and left, and if it has taken files from the queue then all of them. -/
structure Kept (context : SearchContext) (s t : Search) : Prop where
  sound : Sound context t
  inProgress : t.inProgress = s.inProgress
  following : t.following = s.following
  queue : t.queue = s.queue ∨ t.queue = []

variable {context : SearchContext} {s t u : Search} {file : Path} {n : Node}

theorem Sound.kept (h : Sound context s) : Kept context s s := ⟨h, rfl, rfl, .inl rfl⟩

theorem Kept.trans (h : Kept context s t) (h' : Kept context t u) : Kept context s u where
  sound := h'.sound
  inProgress := h'.inProgress.trans h.inProgress
  following := h'.following.trans h.following
  queue := by
    rcases h'.queue with hqueue | hempty
    · rw [hqueue]; exact h.queue
    · exact .inr hempty

theorem sound_empty (context : SearchContext) : Sound context {} where
  listed := by rintro name n imports ⟨⟩
  once := List.nodup_nil

theorem baseNames_subset_listedBases {content : String} {tree : Node}
    (hparse : context.world.parse? content = some tree) (hn : n ∈ tree.walk) :
    baseNames n ⊆ context.listedBases := by
  obtain ⟨before, after, htrees, -⟩ := List.lookup_eq_some_iff.mp hparse
  intro base hbase
  refine List.mem_flatMap.mpr ⟨(content, tree), ?_, List.mem_flatMap.mpr ⟨n, hn, hbase⟩⟩
  rw [htrees]
  simp

theorem mem_walk_of_mem_classesInOrder {tree : Node} {entry : Node × String}
    (h : entry ∈ classesInOrder tree) : entry.1 ∈ tree.walk := by
  obtain ⟨m, hm, hentry⟩ := List.mem_filterMap.mp h
  obtain ⟨name, -, rfl⟩ := Option.map_eq_some_iff.mp hentry
  exact List.mem_of_mem_filter hm

theorem Sound.know (h : Sound context s) {content : String} {tree : Node}
    (hparse : context.world.parse? content = some tree) (imports : Imports) :
    Sound context (s.know imports (classesInOrder tree)) where
  listed := by
    intro name n own hget
    rcases Table.mem_of_get?_update hget with hnew | hold
    · obtain ⟨entry, hentry, heq⟩ := List.mem_map.mp hnew
      obtain ⟨-, rfl, -⟩ : entry.2 = name ∧ entry.1 = n ∧ imports = own := by simpa using heq
      exact baseNames_subset_listedBases hparse (mem_walk_of_mem_classesInOrder hentry)
    · exact h.listed name n own hold
  once := h.once

theorem notMem_of_not_hasBegun (h : s.hasBegun file = false) :
    file ∉ s.analysed.map Prod.fst ++ s.inProgress := by
  simp only [Search.hasBegun, Search.isAnalysed, Bool.or_eq_false_iff, List.any_eq_false,
    beq_iff_eq, List.contains_eq_mem, decide_eq_false_iff_not] at h
  rw [List.mem_append, not_or, List.mem_map, not_exists]
  exact ⟨fun entry hentry => h.1 entry hentry.1 hentry.2, h.2⟩

theorem Sound.begin (h : Sound context s) (hnew : s.hasBegun file = false) :
    Sound context (s.begin file) where
  listed := h.listed
  once := by
    show (s.analysed.map Prod.fst ++ (s.inProgress ++ [file])).Nodup
    rw [← List.append_assoc]
    exact h.once.append (List.nodup_singleton file) (by simpa using notMem_of_not_hasBegun hnew)

theorem kept_keep (h : Sound context s) (file : Path) (content : String) :
    Kept context s (s.keep file content) := by
  rw [Search.keep]
  split
  · exact h.kept
  · exact ⟨⟨h.listed, h.once⟩, rfl, rfl, .inl rfl⟩

/-- A file whose analysis has begun and is finished stands only among the analysed ones. -/
theorem Kept.finish (hnew : s.hasBegun file = false) (h : Kept context (s.begin file) t)
    (classes : Table ParamClass) : Kept context s (t.finish file classes) := by
  have hbegun : t.inProgress = s.inProgress ++ [file] := h.inProgress
  have hnot : file ∉ s.inProgress := fun hmem =>
    notMem_of_not_hasBegun hnew (List.mem_append_right _ hmem)
  have hfilter : (t.inProgress.filter (· != file)) = s.inProgress := by
    rw [hbegun, List.filter_append, List.filter_eq_self.mpr]
    · simp
    · exact fun other hother => bne_iff_ne.mpr fun heq => hnot (heq ▸ hother)
  refine ⟨⟨h.sound.listed, ?_⟩, hfilter, h.following, h.queue⟩
  have honce := h.sound.once
  rw [hbegun] at honce
  show ((t.analysed ++ [(file, classes)]).map Prod.fst ++ t.inProgress.filter (· != file)).Nodup
  rw [hfilter, List.map_append, List.append_assoc]
  exact (List.Perm.append_left _ List.perm_append_comm).nodup_iff.mp honce

/-! ### The parts of a search -/

/-- The question whether a listed base has parameters comes to an end, in every state with the bases
that are being followed. -/
def Settles (context : SearchContext) (following : List String) (ask : AskBase) : Prop :=
  ∀ base ∈ context.listedBases, ∀ imports s, Sound context s → s.following = following →
    Keeps (ask base imports) s (Kept context s)

section

variable {following : List String} {ask : AskBase} (hask : Settles context following ask)

include hask

theorem keeps_inheritsWith (hs : Sound context s) (hfollowing : s.following = following)
    (hbases : baseNames n ⊆ context.listedBases) (imports : Imports) :
    Keeps (inheritsWith ask n imports) s (Kept context s) := by
  refine Keeps.anyM (fun base hbase t ht => ?_) hs.kept
  split
  · exact Keeps.pure ht
  · have hbase' := hask base (hbases hbase) imports t ht.sound (ht.following.trans hfollowing)
    exact hbase'.mono fun u hu => ht.trans hu

theorem keeps_classesWith (hs : Sound context s) (hfollowing : s.following = following)
    {content : String} {tree : Node} (hparse : context.world.parse? content = some tree) :
    Keeps (classesWith ask context content tree) s (Kept context s) := by
  have hknow : Kept context s (s.know (importsInOrder tree) (classesInOrder tree)) :=
    ⟨hs.know hparse _, rfl, rfl, .inl rfl⟩
  refine Keeps.modify_bind (Keeps.foldlM (fun entry hentry found t ht => ?_) ∅ hknow)
  have hbases := baseNames_subset_listedBases hparse (mem_walk_of_mem_classesInOrder hentry)
  have hinherits := keeps_inheritsWith hask ht.sound (ht.following.trans hfollowing) hbases
    (importsInOrder tree)
  refine (hinherits.mono fun u hu => ht.trans hu).bind fun inherits u hu => ?_
  split
  · dsimp only
    split
    · exact Keeps.pure hu
    · exact Keeps.pure hu
  · exact Keeps.pure hu

omit hask in
theorem readTree_cases (w : World) (file : Path) : (∃ fault, readTree w file = throw fault) ∨
    ∃ content tree, w.parse? content = some tree ∧ readTree w file = pure (content, tree) := by
  rw [readTree]
  split
  · exact .inl ⟨_, rfl⟩
  · next content _ =>
    split
    · exact .inl ⟨_, rfl⟩
    · next tree hparse => exact .inr ⟨content, tree, hparse, rfl⟩

theorem keeps_fileClassesWith (hs : Sound context s) (hfollowing : s.following = following)
    (file : Path) : Keeps (fileClassesWith ask context file) s (Kept context s) := by
  rw [fileClassesWith]
  rcases readTree_cases context.world file with ⟨fault, hread⟩ | ⟨content, tree, hparse, hread⟩
  · rw [hread]
    exact ⟨.error fault, s, rfl, hs.kept⟩
  · rw [hread, pure_bind]
    have hkeep := kept_keep hs file content
    have hclasses := keeps_classesWith hask hkeep.sound (hkeep.following.trans hfollowing) hparse
    exact Keeps.modify_bind (hclasses.mono fun t ht => hkeep.trans ht)

/-- Whatever fails in the analysis of a file, the analysis is finished. -/
theorem succeeds_analyseWith (hs : Sound context s) (hfollowing : s.following = following)
    (file : Path) : Succeeds (analyseWith ask context file) s (Kept context s) := by
  refine Succeeds.get_bind ?_
  cases hnew : s.hasBegun file with
  | true => exact Succeeds.pure hs.kept
  | false =>
    have hbegin := hs.begin hnew
    have hclasses := keeps_fileClassesWith hask hbegin hfollowing file
    refine Succeeds.modify_bind ((hclasses.tryCatch fun _ _ => Succeeds.pure).bind
      fun classes t ht => ?_)
    exact Succeeds.of_modify (ht.finish hnew classes)

/-- With room for every file of the queue, all of them are analysed. -/
theorem succeeds_drainWith (hs : Sound context s) (hfollowing : s.following = following)
    {bound : Nat} (hbound : s.queue.length ≤ bound) :
    Succeeds (drainWith ask context bound) s fun t => Kept context s t ∧ t.queue = [] := by
  induction bound generalizing s with
  | zero =>
    have hqueue : s.queue = [] := List.eq_nil_of_length_eq_zero (Nat.le_zero.mp hbound)
    refine Succeeds.get_bind ?_
    rw [hqueue]
    exact Succeeds.pure ⟨hs.kept, hqueue⟩
  | succ bound ih =>
    refine Succeeds.get_bind ?_
    cases hqueue : s.queue with
    | nil => exact Succeeds.pure ⟨hs.kept, hqueue⟩
    | cons file rest =>
      refine Succeeds.modify_bind ?_
      have hrest : Sound context { s with queue := rest } := ⟨hs.listed, hs.once⟩
      refine (succeeds_analyseWith hask hrest hfollowing file).bind fun _ t ht => ?_
      have hlength : t.queue.length ≤ bound := by
        rw [hqueue, List.length_cons] at hbound
        rcases ht.queue with h | h
        · rw [h]; exact Nat.le_of_succ_le_succ hbound
        · rw [h]; exact Nat.zero_le bound
      refine (ih ht.sound (ht.following.trans hfollowing) hlength).mono fun u hu => ?_
      exact ⟨⟨hu.1.sound, hu.1.inProgress.trans ht.inProgress, hu.1.following.trans ht.following,
        .inr hu.2⟩, hu.2⟩

/-- The file is put into the queue, and nothing is left in the queue. -/
theorem succeeds_drainAllWith (hs : Sound context s) (hfollowing : s.following = following)
    (file : Path) :
    Succeeds (drainAllWith ask context) (s.enqueue file) fun t =>
      Kept context s t ∧ t.queue = [] := by
  obtain ⟨hsound, hprogress, hsame⟩ : Sound context (s.enqueue file) ∧
      (s.enqueue file).inProgress = s.inProgress ∧ (s.enqueue file).following = s.following := by
    rw [Search.enqueue]
    split
    · exact ⟨hs, rfl, rfl⟩
    · exact ⟨⟨hs.listed, hs.once⟩, rfl, rfl⟩
  refine Succeeds.get_bind ?_
  refine (succeeds_drainWith hask hsound (hsame.trans hfollowing) le_rfl).mono fun t ht => ?_
  obtain ⟨hkept, hempty⟩ := ht
  exact ⟨⟨hkept.sound, hkept.inProgress.trans hprogress, hkept.following.trans hsame,
    .inr hempty⟩, hempty⟩

theorem keeps_importedInheritsWith (hs : Sound context s) (hfollowing : s.following = following)
    (base path : String) :
    Keeps (importedInheritsWith ask context base path) s (Kept context s) := by
  rw [importedInheritsWith]
  split
  · exact Keeps.pure hs.kept
  dsimp only
  split
  · exact Keeps.pure hs.kept
  refine Keeps.get_bind ?_
  split
  · exact Keeps.pure hs.kept
  split
  · exact Keeps.throw hs.kept
  · exact Keeps.pure hs.kept
  · next file _ =>
    refine Keeps.modify_bind ?_
    refine (succeeds_drainAllWith hask hs hfollowing file).bind_keeps fun _ t ht => ?_
    obtain ⟨hkept, -⟩ := ht
    refine Keeps.get_bind ?_
    split
    · exact Keeps.pure hkept
    · next n imports hget =>
      have hbases := hkept.sound.listed _ n imports hget
      refine (keeps_inheritsWith hask hkept.sound (hkept.following.trans hfollowing) hbases
        imports).mono fun u hu => ?_
      exact hkept.trans hu

theorem keeps_decideWith (hs : Sound context s) (hfollowing : s.following = following)
    (base : String) (imports : Imports) :
    Keeps (decideWith ask context base imports) s (Kept context s) := by
  refine Keeps.get_bind ?_
  split
  · next n own hget =>
    exact keeps_inheritsWith hask hs hfollowing (hs.listed base n own hget) own
  · split
    · exact keeps_importedInheritsWith hask hs hfollowing base _
    · exact Keeps.pure hs.kept

end

/-! ### Bases that are followed -/

/-- The listed bases that are not being followed. -/
def unfollowed (context : SearchContext) (following : List String) : Finset String :=
  context.listedBases.toFinset \ following.toFinset

/-- There are fewer bases left to follow than the bound allows: each one that is followed takes one
from both. -/
theorem settles_askBase {bound : Nat} {following : List String}
    (hbound : (unfollowed context following).card < bound) :
    Settles context following (askBase context bound) := by
  induction bound generalizing following with
  | zero => exact absurd hbound (Nat.not_lt_zero _)
  | succ bound ih =>
    intro base hbase imports s hs hfollowing
    refine Keeps.get_bind ?_
    dsimp only
    split
    · exact Keeps.pure hs.kept
    next hnew =>
    split
    · exact Keeps.throw hs.kept
    have hnew' : base ∉ following := by simpa [hfollowing] using hnew
    have hfewer : (unfollowed context (base :: following)).card < bound := by
      have hmem : base ∈ unfollowed context following := by simp [unfollowed, hbase, hnew']
      have herase : unfollowed context (base :: following) =
          (unfollowed context following).erase base := by
        ext name
        simp only [unfollowed, List.toFinset_cons, Finset.mem_sdiff, Finset.mem_insert,
          Finset.mem_erase]
        tauto
      have hsome := Finset.card_pos.mpr ⟨base, hmem⟩
      rw [herase, Finset.card_erase_of_mem hmem]
      omega
    have hfollow : Sound context (s.follow base) := ⟨hs.listed, hs.once⟩
    have hdecide := keeps_decideWith (ih hfewer) hfollow (by rw [← hfollowing]; rfl) base imports
    refine Keeps.modify_bind (hdecide.andFinally fun t ht => ?_)
    have hleave : (t.leave base).following = s.following := by
      show t.following.erase base = s.following
      rw [ht.following]
      exact List.erase_cons_head base s.following
    exact ⟨⟨ht.sound.listed, ht.sound.once⟩, ht.inProgress, hleave, ht.queue⟩

/-- The depth of a search is enough whatever is being followed. -/
theorem settles_depth (context : SearchContext) (following : List String) :
    Settles context following (askBase context context.depth) := by
  refine settles_askBase (Nat.lt_succ_of_le ?_)
  calc (unfollowed context following).card
      ≤ context.listedBases.toFinset.card := Finset.card_le_card Finset.sdiff_subset
    _ ≤ context.listedBases.length := List.toFinset_card_le _

/-! ### Bases that go round in a circle -/

/-- Known classes that follow one another: the first is a base of the node, and each later one a
base of the class before it. -/
inductive BaseChain (classes : Table (Node × Imports)) : Node → List String → Prop
  | nil (n : Node) : BaseChain classes n []
  | cons {n parent : Node} {imports : Imports} {base : String} {rest : List String} :
      base ∈ baseNames n → classes.get? base = some (parent, imports) →
      BaseChain classes parent rest → BaseChain classes n (base :: rest)

namespace BaseChain

variable {classes : Table (Node × Imports)} {n parent : Node} {imports : Imports} {base : String}
  {names : List String}

theorem mem_names (h : BaseChain classes n names) : ∀ name ∈ names, name ∈ classes.names := by
  induction h with
  | nil => simp
  | cons _ hget _ ih => exact List.forall_mem_cons.mpr ⟨Table.mem_names_of_get? hget, ih⟩

theorem take (h : BaseChain classes n names) (k : Nat) : BaseChain classes n (names.take k) := by
  induction h generalizing k with
  | nil => simpa using BaseChain.nil _
  | cons hbase hget _ ih =>
    cases k with
    | zero => exact .nil _
    | succ k => exact .cons hbase hget (ih k)

theorem follow_with {before after longer : List String}
    (h : BaseChain classes n (before ++ base :: after))
    (hget : classes.get? base = some (parent, imports))
    (hlonger : BaseChain classes parent longer) :
    BaseChain classes n (before ++ base :: longer) := by
  induction before generalizing n with
  | nil =>
    cases h with
    | cons hbase _ _ => exact .cons hbase hget hlonger
  | cons first rest ih =>
    cases h with
    | cons hbase hfirst hrest => exact .cons hbase hfirst (ih hrest)

/-- A chain that comes back to a class can be made as long as one likes. -/
theorem exists_longer (h : BaseChain classes n names) (hdup : ¬ names.Nodup) (k : Nat) :
    ∃ longer, BaseChain classes n longer ∧ k ≤ longer.length := by
  induction h with
  | nil => exact absurd List.nodup_nil hdup
  | @cons n parent imports base rest hbase hget hrest ih =>
    by_cases hnodup : rest.Nodup
    · have hmem : base ∈ rest := by
        by_contra hnot
        exact hdup (List.nodup_cons.mpr ⟨hnot, hnodup⟩)
      obtain ⟨before, after, rfl⟩ := List.append_of_mem hmem
      -- The class is met again below itself, and each round makes the chain longer.
      have hround (k : Nat) : ∃ longer, BaseChain classes parent longer ∧ k ≤ longer.length := by
        induction k with
        | zero => exact ⟨[], .nil _, Nat.zero_le _⟩
        | succ k ih =>
          obtain ⟨longer, hlonger, hlength⟩ := ih
          refine ⟨before ++ base :: longer, hrest.follow_with hget hlonger, ?_⟩
          rw [List.length_append, List.length_cons]
          omega
      obtain ⟨longer, hlonger, hlength⟩ := hround k
      exact ⟨base :: longer, .cons hbase hget hlonger, Nat.le_succ_of_le hlength⟩
    · obtain ⟨longer, hlonger, hlength⟩ := ih hnodup
      exact ⟨base :: longer, .cons hbase hget hlonger, Nat.le_succ_of_le hlength⟩

end BaseChain

/-- Steps of which each fails or not whatever was gathered before it. -/
theorem foldlM_eq_none_iff {α β : Type} {step : β → α → Option β} {P : α → Prop} {l : List α}
    (h : ∀ b, ∀ a ∈ l, step b a = none ↔ P a) (b : β) :
    l.foldlM step b = none ↔ ∃ a ∈ l, P a := by
  induction l generalizing b with
  | nil => simp
  | cons a rest ih =>
    rw [List.foldlM_cons, List.exists_mem_cons_iff, ← h b a List.mem_cons_self]
    cases hstep : step b a with
    | none => simp
    | some b' =>
      simp only [Option.bind_eq_bind, Option.bind_some, reduceCtorEq, false_or]
      exact ih (fun b a ha => h b a (List.mem_cons_of_mem _ ha)) b'

theorem inheritNearby?_eq_none_iff (classes : Table (Node × Imports)) (r : Recognition)
    (content : String) (bound : Nat) (n : Node) (c : ParamClass) :
    inheritNearby? classes r content bound n c = none ↔
      ∃ names, BaseChain classes n names ∧ names.length = bound := by
  induction bound generalizing n c with
  | zero => exact ⟨fun _ => ⟨[], .nil n, rfl⟩, fun _ => rfl⟩
  | succ bound ih =>
    rw [inheritNearby?]
    refine (foldlM_eq_none_iff (P := fun base => ∃ parent imports names,
      classes.get? base = some (parent, imports) ∧ BaseChain classes parent names ∧
        names.length = bound) (fun c base _ => ?_) c).trans ?_
    · split
      · next hget => simp [hget]
      · next parent imports hget => simp [hget, ih]
    · constructor
      · rintro ⟨base, hbase, parent, imports, names, hget, hnames, hlength⟩
        exact ⟨base :: names, .cons hbase hget hnames, congrArg Nat.succ hlength⟩
      · rintro ⟨names, hnames, hlength⟩
        cases hnames with
        | nil => simp at hlength
        | @cons _ parent imports base rest hbase hget hrest =>
          exact ⟨base, hbase, parent, imports, rest, hget, hrest, Nat.succ.inj hlength⟩

/-- The bound of a search is too small only where every bound is. -/
theorem inheritNearby?_eq_none_iff_forall (classes : Table (Node × Imports)) (r : Recognition)
    (content : String) (n : Node) (c : ParamClass) :
    inheritNearby? classes r content (classes.size + 1) n c = none ↔
      ∀ bound, inheritNearby? classes r content bound n c = none := by
  refine ⟨fun h bound => ?_, fun h => h _⟩
  rw [inheritNearby?_eq_none_iff] at h ⊢
  obtain ⟨names, hnames, hlength⟩ := h
  have hdup : ¬ names.Nodup := by
    intro hnodup
    have hle := classes.length_le_size hnodup hnames.mem_names
    omega
  obtain ⟨longer, hlonger, hbound⟩ := hnames.exists_longer hdup bound
  exact ⟨longer.take bound, hlonger.take bound, by rw [List.length_take]; omega⟩

/-! ### The whole search -/

theorem keeps_classOf (hs : Sound context s) (file : Path) (n : Node) (imports : Imports) :
    Keeps (classOf context file n imports) s (Kept context s) := by
  have hcontent : Keeps (contentOf context file) s (Kept context s) := by
    refine Keeps.get_bind ?_
    split
    · exact Keeps.pure hs.kept
    · split
      · next content _ => exact Keeps.modify_bind (Keeps.pure (kept_keep hs file content))
      · exact Keeps.pure hs.kept
  rw [classOf]
  split
  · exact Keeps.throw hs.kept
  · refine hcontent.bind fun content t ht => Keeps.get_bind ?_
    dsimp only
    split
    · exact Keeps.throw ht
    · exact Keeps.pure ht

theorem keeps_searchFile (hs : Sound context s) (name : String) (file : Path) :
    Keeps (searchFile context name file) s (Kept context s) := by
  have hsettles := settles_depth context s.following
  refine Keeps.modify_bind ?_
  refine (succeeds_drainAllWith hsettles hs rfl file).bind_keeps fun _ t ht => ?_
  obtain ⟨hkept, -⟩ := ht
  refine Keeps.get_bind ?_
  split
  · exact Keeps.pure hkept
  · next n imports hget =>
    have hbases := hkept.sound.listed name n imports hget
    have hinherits := keeps_inheritsWith hsettles hkept.sound hkept.following hbases imports
    refine (hinherits.mono fun u hu => hkept.trans hu).bind fun inherits u hu => ?_
    split
    · have hclass := keeps_classOf hu.sound file n imports
      exact (hclass.mono fun v hv => hu.trans hv).bind fun _ _ => Keeps.pure
    · exact Keeps.pure hu

/-- Whatever fails in the search of a file, the search goes on. -/
theorem succeeds_searchFiles (hs : Sound context s) (name : String) (files : List Path) :
    Succeeds (searchFiles context name files) s (Kept context s) := by
  induction files generalizing s with
  | nil => exact Succeeds.pure hs.kept
  | cons file rest ih =>
    refine ((keeps_searchFile hs name file).tryCatch fun _ _ => Succeeds.pure).bind
      fun found t ht => ?_
    split
    · exact Succeeds.pure ht
    · exact (ih ht.sound).mono fun u hu => ht.trans hu

theorem forget_of_kept (h : Kept context {} t) : t.forget = {} := by
  obtain ⟨-, hprogress, hfollowing, hqueue⟩ := h
  have hqueue' : t.queue = [] := hqueue.elim id id
  rw [Search.forget, hprogress, hfollowing, hqueue']

theorem succeeds_searchSources (context : SearchContext) (path : String) :
    Succeeds (searchSources context path) {} fun t => t = {} := by
  rw [searchSources]
  split
  · exact Succeeds.pure rfl
  · split
    · exact Succeeds.pure rfl
    · refine (succeeds_searchFiles (sound_empty context) _ _).bind fun found t ht => ?_
      exact Succeeds.modify_bind (Succeeds.pure (forget_of_kept ht))

/-- A search that starts with nothing has a result and ends with nothing, whatever fails on the way:
no file is in the queue or begun, no base is followed, and nothing is known. Before it forgets what
it has learnt, it has analysed each file at most once. The search of one file can fail, and leaves
no file in the queue or begun and no base followed then, too. Putting the parameters of a class
together fails only where this would never end. -/
theorem searchSources_returns_empty (context : SearchContext) (path : String) :
    (∃ found, (searchSources context path).run {} = some (.ok found, {})) ∧
    (∃ found last,
      (searchFiles context (Dotted.last path) (sources context.world (Dotted.first path))).run {} =
        some (.ok found, last) ∧
      (last.analysed.map Prod.fst).Nodup ∧ last.queue = [] ∧ last.inProgress = [] ∧
      last.following = []) ∧
    (∀ name file, ∃ outcome last, (searchFile context name file).run {} = some (outcome, last) ∧
      last.queue = [] ∧ last.inProgress = [] ∧ last.following = []) ∧
    ∀ classes r content n c, inheritNearby? classes r content (classes.size + 1) n c = none ↔
      ∀ bound, inheritNearby? classes r content bound n c = none := by
  refine ⟨?_, ?_, ?_, inheritNearby?_eq_none_iff_forall⟩
  · obtain ⟨found, last, hrun, hempty⟩ := succeeds_searchSources context path
    exact ⟨found, hempty ▸ hrun⟩
  · obtain ⟨found, last, hrun, hkept⟩ := succeeds_searchFiles (sound_empty context)
      (Dotted.last path) (sources context.world (Dotted.first path))
    have honce := (List.nodup_append.mp hkept.sound.once).1
    exact ⟨found, last, hrun, honce, hkept.queue.elim id id, hkept.inProgress, hkept.following⟩
  · intro name file
    obtain ⟨outcome, last, hrun, hkept⟩ := keeps_searchFile (sound_empty context) name file
    exact ⟨outcome, last, hrun, hkept.queue.elim id id, hkept.inProgress, hkept.following⟩

end ParamLens.Library.Search
