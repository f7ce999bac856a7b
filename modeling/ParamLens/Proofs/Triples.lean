import Mathlib.Data.List.Forall2
import ParamLens.Proofs.Steps

/-! Triples of steps that change a state and can fail. From a state with the property before it, a
step succeeds with an answer and a state that are as stated, or it fails in a way, and with a state,
that is allowed. With failures ruled out a triple says that the step succeeds; with failures allowed
it says what holds if it does. -/

namespace ParamLens.Steps

variable {ε σ α β γ κ : Type} {P P' : σ → Prop} {Q Q' : α → σ → Prop}
  {E : ε → σ → Prop}

/-- From a state with `P` the step succeeds with an answer and a state in `Q`, or it fails with a
failure and a state in `E`. -/
def Triple (P : σ → Prop) (x : ExceptT ε (StateM σ) α) (Q : α → σ → Prop) (E : ε → σ → Prop) :
    Prop :=
  ∀ s, P s → match x.run s with
    | (.ok a, next) => Q a next
    | (.error failure, next) => E failure next

/-- The answer tells of a list whether one of its members passes a test. -/
def AnyOf (T : α → Bool → Prop) (l : List α) (found : Bool) : Prop :=
  if found then ∃ a ∈ l, T a true else ∀ a ∈ l, T a false

/-- A chain of changes, one for each member of the list. -/
inductive Traverses (T : α → κ → κ → Prop) : List α → κ → κ → Prop
  | nil (k : κ) : Traverses T [] k k
  | cons {a : α} {l : List α} {k k' k'' : κ} :
      T a k k' → Traverses T l k' k'' → Traverses T (a :: l) k k''

theorem Traverses.exists_step {T : α → κ → κ → Prop} {l : List α} {k k' : κ} {I : κ → Prop}
    (h : Traverses T l k k') (hstep : ∀ a ∈ l, ∀ k k', T a k k' → I k → I k') (hk : I k) {a : α}
    (ha : a ∈ l) : ∃ before after, I before ∧ T a before after := by
  induction h with
  | nil => cases ha
  | @cons first l k k' k'' hfirst _ ih =>
    rcases List.mem_cons.mp ha with rfl | ha
    · exact ⟨k, k', hk, hfirst⟩
    · refine ih (fun b hb => hstep b (List.mem_cons_of_mem _ hb)) ?_ ha
      exact hstep first List.mem_cons_self k k' hfirst hk

theorem exists_of_mem_forall₂ {T : α → γ → Prop} {l : List α} {cs : List γ}
    (h : List.Forall₂ T l cs) {a : α} (ha : a ∈ l) : ∃ c ∈ cs, T a c := by
  induction h with
  | nil => cases ha
  | @cons first c l cs hfirst _ ih =>
    rcases List.mem_cons.mp ha with rfl | ha
    · exact ⟨c, List.mem_cons_self, hfirst⟩
    · obtain ⟨d, hd, hT⟩ := ih ha
      exact ⟨d, List.mem_cons_of_mem _ hd, hT⟩

theorem eq_of_zip {l : List α} {bs cs : List β} (hbs : bs.length = l.length)
    (hcs : cs.length = l.length)
    (h : ∀ a b c, (a, b) ∈ l.zip bs → (a, c) ∈ l.zip cs → b = c) : bs = cs := by
  refine List.ext_getElem (hbs.trans hcs.symm) fun i hb hc => ?_
  have hi : i < l.length := hbs ▸ hb
  refine h l[i] bs[i] cs[i] ?_ ?_
  · rw [← List.getElem_zip (h := by simpa [hbs] using hi)]
    exact List.getElem_mem _
  · rw [← List.getElem_zip (h := by simpa [hcs] using hi)]
    exact List.getElem_mem _

namespace Triple

/-- Where failing is allowed, only what holds of a success needs to be shown. -/
theorem of_success {x : ExceptT ε (StateM σ) α} (hE : ∀ failure s, E failure s)
    (h : ∀ s a next, P s → x.run s = (.ok a, next) → Q a next) : Triple P x Q E := by
  intro s hs
  rcases hrun : x.run s with ⟨failure | a, next⟩
  · exact hE failure next
  · exact h s a next hs hrun

theorem of_ok {x : ExceptT ε (StateM σ) α} (h : Triple P x Q E) {s next : σ} {a : α} (hs : P s)
    (hrun : x.run s = (.ok a, next)) : Q a next := by
  have := h s hs
  rwa [hrun] at this

theorem exists_ok {x : ExceptT ε (StateM σ) α} (h : Triple P x Q fun _ _ => False) {s : σ}
    (hs : P s) : ∃ a next, x.run s = (.ok a, next) ∧ Q a next := by
  have hspec := h s hs
  rcases hrun : x.run s with ⟨_ | a, next⟩
  · rw [hrun] at hspec
    exact hspec.elim
  · rw [hrun] at hspec
    exact ⟨a, next, rfl, hspec⟩

theorem final {x : ExceptT ε (StateM σ) α} (h : Triple P x Q E) (hQ : ∀ a s, Q a s → P' s)
    (hE : ∀ failure s, E failure s → P' s) {s : σ} (hs : P s) : P' (x.run s).2 := by
  have hspec := h s hs
  rcases hrun : x.run s with ⟨failure | a, next⟩
  · rw [hrun] at hspec
    exact hE failure next hspec
  · rw [hrun] at hspec
    exact hQ a next hspec

theorem failing {E' : ε → σ → Prop} {x : ExceptT ε (StateM σ) α} (h : Triple P x Q E)
    (hE : ∀ failure s, E failure s → E' failure s) : Triple P x Q E' := by
  intro s hs
  have hspec := h s hs
  rcases hrun : x.run s with ⟨failure | a, next⟩
  · rw [hrun] at hspec
    exact hE failure next hspec
  · rwa [hrun] at hspec

theorem weaken {x : ExceptT ε (StateM σ) α} (h : Triple P x Q E) (hP : ∀ s, P' s → P s)
    (hQ : ∀ a s, Q a s → Q' a s) : Triple P' x Q' E := by
  intro s hs
  have hspec := h s (hP s hs)
  rcases hrun : x.run s with ⟨_ | a, next⟩
  · rwa [hrun] at hspec
  · rw [hrun] at hspec
    exact hQ a next hspec

theorem of_exists {P : κ → σ → Prop} {x : ExceptT ε (StateM σ) α}
    (h : ∀ k, Triple (P k) x Q E) : Triple (fun s => ∃ k, P k s) x Q E :=
  fun s hs => hs.elim fun k hk => h k s hk

theorem of_and {p : Prop} {x : ExceptT ε (StateM σ) α} (h : p → Triple P x Q E) :
    Triple (fun s => p ∧ P s) x Q E :=
  fun s hs => h hs.1 s hs.2

theorem pure {a : α} (h : ∀ s, P s → Q a s) : Triple P (pure a : ExceptT ε (StateM σ) α) Q E := h

theorem modify {f : σ → σ} {Q : Unit → σ → Prop} (h : ∀ s, P s → Q () (f s)) :
    Triple P (modify f : ExceptT ε (StateM σ) Unit) Q E := h

theorem lift {x : StateM σ α} (h : ∀ s, P s → Q (x s).1 (x s).2) :
    Triple P (ExceptT.lift x : ExceptT ε (StateM σ) α) Q E := h

theorem bind {x : ExceptT ε (StateM σ) α} {f : α → ExceptT ε (StateM σ) β} {R : β → σ → Prop}
    (hx : Triple P x Q E) (hf : ∀ a, Triple (Q a) (f a) R E) : Triple P (x >>= f) R E := by
  intro s hs
  have hspec := hx s hs
  rw [run_bind]
  rcases hrun : x.run s with ⟨_ | a, next⟩
  · rwa [hrun] at hspec
  · rw [hrun] at hspec
    exact hf a next hspec

theorem get_bind {f : σ → ExceptT ε (StateM σ) β} {R : β → σ → Prop}
    (h : ∀ s, P s → Triple P (f s) R E) : Triple P (get >>= f) R E :=
  fun s hs => h s hs s hs

theorem anyM {f : α → ExceptT ε (StateM σ) Bool} {T : α → Bool → Prop} {l : List α}
    (h : ∀ a ∈ l, Triple P (f a) (fun found s => T a found ∧ P s) E) :
    Triple P (l.anyM f) (fun found s => AnyOf T l found ∧ P s) E := by
  induction l with
  | nil => exact pure fun s hs => ⟨by simp [AnyOf], hs⟩
  | cons a rest ih =>
    rw [List.anyM]
    refine (h a List.mem_cons_self).bind fun found => ?_
    cases found with
    | true => exact pure fun s hs => ⟨⟨a, List.mem_cons_self, hs.1⟩, hs.2⟩
    | false =>
      refine of_and fun hT => ?_
      refine (ih fun a ha => h a (List.mem_cons_of_mem _ ha)).weaken (fun s hs => hs) ?_
      rintro (_ | _) s ⟨hany, hs⟩
      · refine ⟨fun b hb => ?_, hs⟩
        rcases List.mem_cons.mp hb with rfl | hb
        · exact hT
        · exact hany b hb
      · obtain ⟨b, hb, hTb⟩ := hany
        exact ⟨⟨b, List.mem_cons_of_mem _ hb, hTb⟩, hs⟩

/-- A fold over a list whose step asks a question about each member. -/
theorem foldlM {f : β → α → ExceptT ε (StateM σ) β} {T : α → γ → Prop} {g : β → γ → β}
    {l : List α}
    (h : ∀ b, ∀ a ∈ l, Triple P (f b a) (fun b' s => (∃ c, T a c ∧ b' = g b c) ∧ P s) E)
    (b : β) : Triple P (l.foldlM f b)
      (fun b' s => (∃ cs, List.Forall₂ T l cs ∧ b' = cs.foldl g b) ∧ P s) E := by
  induction l generalizing b with
  | nil => exact pure fun s hs => ⟨⟨[], .nil, rfl⟩, hs⟩
  | cons a rest ih =>
    rw [List.foldlM_cons]
    refine (h b a List.mem_cons_self).bind fun b' => of_and ?_
    rintro ⟨c, hc, rfl⟩
    refine (ih (fun b a ha => h b a (List.mem_cons_of_mem _ ha)) _).weaken (fun s hs => hs) ?_
    rintro b' s ⟨⟨cs, hcs, rfl⟩, hs⟩
    exact ⟨⟨c :: cs, .cons hc hcs, rfl⟩, hs⟩

/-- A loop over a list, whose body takes what the states are about from one value to the next. -/
theorem forIn {f : α → PUnit → ExceptT ε (StateM σ) (ForInStep PUnit)} {T : α → κ → κ → Prop}
    {I : κ → σ → Prop} {l : List α}
    (h : ∀ a ∈ l, ∀ k, Triple (I k) (f a PUnit.unit)
      (fun step s => step = .yield PUnit.unit ∧ ∃ k', T a k k' ∧ I k' s) E) (k : κ) :
    Triple (I k) (forIn l PUnit.unit f) (fun _ s => ∃ k', Traverses T l k k' ∧ I k' s) E := by
  induction l generalizing k with
  | nil => exact pure fun s hs => ⟨k, .nil k, hs⟩
  | cons a rest ih =>
    rw [List.forIn_cons]
    refine (h a List.mem_cons_self k).bind fun step => of_and ?_
    rintro rfl
    refine of_exists fun k' => of_and fun hT => ?_
    refine (ih (fun b hb => h b (List.mem_cons_of_mem _ hb)) k').weaken (fun s hs => hs) ?_
    rintro _ s ⟨k'', hrest, hs⟩
    exact ⟨k'', .cons hT hrest, hs⟩

end Triple

/-! ### Steps that cannot fail -/

/-- From a state with `P` the step ends with an answer and a state in `Q`. -/
def Ends (P : σ → Prop) (x : StateM σ α) (Q : α → σ → Prop) : Prop := ∀ s, P s → Q (x s).1 (x s).2

namespace Ends

theorem weaken {x : StateM σ α} (h : Ends P x Q) (hP : ∀ s, P' s → P s)
    (hQ : ∀ a s, Q a s → Q' a s) : Ends P' x Q' :=
  fun s hs => hQ _ _ (h s (hP s hs))

theorem pure {a : α} (h : ∀ s, P s → Q a s) : Ends P (pure a : StateM σ α) Q := h

theorem bind {x : StateM σ α} {f : α → StateM σ β} {R : β → σ → Prop} (hx : Ends P x Q)
    (hf : ∀ a, Ends (Q a) (f a) R) : Ends P (x >>= f) R :=
  fun s hs => hf (x s).1 (x s).2 (hx s hs)

theorem get_bind {f : σ → StateM σ β} {R : β → σ → Prop} (h : ∀ s, P s → Ends P (f s) R) :
    Ends P (get >>= f) R :=
  fun s hs => h s hs s hs

theorem of_and {p : Prop} {x : StateM σ α} (h : p → Ends P x Q) : Ends (fun s => p ∧ P s) x Q :=
  fun s hs => h hs.1 s hs.2

theorem of_fact {p : Prop} {x : StateM σ α} (h : p → Ends (fun _ => True) x Q) :
    Ends (fun _ => p) x Q :=
  fun s hp => h hp s trivial

theorem foldlM_of {f : β → α → StateM σ β} {I : β → σ → Prop} {l : List α}
    (h : ∀ b, ∀ a ∈ l, Ends (I b) (f b a) I) (b : β) : Ends (I b) (l.foldlM f b) I := by
  induction l generalizing b with
  | nil => exact pure fun s hs => hs
  | cons a rest ih =>
    rw [List.foldlM_cons]
    exact (h b a List.mem_cons_self).bind fun b' =>
      ih (fun b a ha => h b a (List.mem_cons_of_mem _ ha)) b'

theorem foldlM {f : β → α → StateM σ β} {l : List α}
    (h : ∀ b, ∀ a ∈ l, Ends P (f b a) fun _ => P) (b : β) :
    Ends P (l.foldlM f b) fun _ => P :=
  foldlM_of (I := fun _ => P) h b

theorem mapM {f : α → StateM σ β} {l : List α} (h : ∀ a ∈ l, Ends P (f a) fun _ => P) :
    Ends P (l.mapM f) fun _ => P := by
  induction l with
  | nil => exact pure fun s hs => hs
  | cons a rest ih =>
    rw [List.mapM_cons]
    refine (h a List.mem_cons_self).bind fun b => ?_
    exact (ih fun a ha => h a (List.mem_cons_of_mem _ ha)).bind fun _ => pure fun s hs => hs

/-- A loop over a list, with an invariant for the members that are done. -/
theorem forIn {f : α → β → StateM σ (ForInStep β)} {I : List α → σ → Prop} {l : List α}
    (h : ∀ before a after, l = before ++ a :: after → ∀ b, Ends (I before) (f a b)
      fun step s => (∃ b', step = .yield b') ∧ I (before ++ [a]) s) (b : β) :
    Ends (I []) (ForIn.forIn l b f) fun _ => I l := by
  have hrest : ∀ rest before, l = before ++ rest → ∀ b, Ends (I before) (ForIn.forIn rest b f)
      fun _ => I l := by
    intro rest
    induction rest with
    | nil =>
      intro before hl b
      rw [List.append_nil] at hl
      exact pure fun s hs => hl ▸ hs
    | cons a rest ih =>
      intro before hl b
      rw [List.forIn_cons]
      refine (h before a rest hl b).bind fun step => ?_
      rintro s ⟨⟨b', rfl⟩, hs⟩
      exact ih (before ++ [a]) (by rw [hl, List.append_assoc, List.singleton_append]) b' s hs
  exact hrest l [] rfl b

theorem run_foldlM {f : β → α → StateM σ β} {g : β → α → β} {l : List α} {s : σ}
    (h : ∀ b, ∀ a ∈ l, f b a s = (g b a, s)) (b : β) : l.foldlM f b s = (l.foldl g b, s) := by
  induction l generalizing b with
  | nil => rfl
  | cons a rest ih =>
    rw [List.foldlM_cons]
    show rest.foldlM f (f b a s).1 (f b a s).2 = _
    rw [h b a List.mem_cons_self]
    exact ih (fun b a ha => h b a (List.mem_cons_of_mem _ ha)) (g b a)

end Ends

/-! ### Steps that keep a property when they fail -/

/-- From a state with `P` the step ends in a state with `P`, also when it fails, and an answer that
it gives is in `T`. -/
def Maintains (P : σ → Prop) (x : ExceptT ε (StateM σ) α) (T : α → Prop) : Prop :=
  ∀ s, P s → (∀ a, (x.run s).1 = .ok a → T a) ∧ P (x.run s).2

namespace Maintains

variable {T : α → Prop} {U : β → Prop}

theorem pure {a : α} (h : T a) : Maintains P (pure a : ExceptT ε (StateM σ) α) T :=
  fun _ hs => ⟨by rintro _ ⟨⟩; exact h, hs⟩

theorem modify {f : σ → σ} (h : ∀ s, P s → P (f s)) :
    Maintains P (modify f : ExceptT ε (StateM σ) Unit) fun _ => True :=
  fun s hs => ⟨fun _ _ => trivial, h s hs⟩

theorem lift {x : StateM σ α} (h : Ends P x fun a s => T a ∧ P s) :
    Maintains P (ExceptT.lift x : ExceptT ε (StateM σ) α) T :=
  fun s hs => ⟨by rintro _ ⟨⟩; exact (h s hs).1, (h s hs).2⟩

theorem bind {x : ExceptT ε (StateM σ) α} {f : α → ExceptT ε (StateM σ) β}
    (hx : Maintains P x T) (hf : ∀ a, T a → Maintains P (f a) U) : Maintains P (x >>= f) U := by
  intro s hs
  obtain ⟨hanswer, hnext⟩ := hx s hs
  rw [run_bind]
  rcases hrun : x.run s with ⟨_ | a, next⟩
  · rw [hrun] at hnext
    exact ⟨by rintro _ ⟨⟩, hnext⟩
  · rw [hrun] at hanswer hnext
    exact hf a (hanswer a rfl) next hnext

theorem get_bind {f : σ → ExceptT ε (StateM σ) β} (h : ∀ s, P s → Maintains P (f s) U) :
    Maintains P (get >>= f) U :=
  fun s hs => h s hs s hs

theorem anyM {f : α → ExceptT ε (StateM σ) Bool} {l : List α}
    (h : ∀ a ∈ l, Maintains P (f a) fun _ => True) :
    Maintains P (l.anyM f) fun _ => True := by
  induction l with
  | nil => exact pure trivial
  | cons a rest ih =>
    rw [List.anyM]
    refine (h a List.mem_cons_self).bind fun found _ => ?_
    cases found with
    | true => exact pure trivial
    | false => exact ih fun b hb => h b (List.mem_cons_of_mem _ hb)

theorem foldlM {f : β → α → ExceptT ε (StateM σ) β} {l : List α}
    (h : ∀ b, ∀ a ∈ l, U b → Maintains P (f b a) U) {b : β} (hb : U b) :
    Maintains P (l.foldlM f b) U := by
  induction l generalizing b with
  | nil => exact pure hb
  | cons a rest ih =>
    rw [List.foldlM_cons]
    exact (h b a List.mem_cons_self hb).bind fun b' hb' =>
      ih (fun c a ha => h c a (List.mem_cons_of_mem _ ha)) hb'

theorem forIn {f : α → PUnit → ExceptT ε (StateM σ) (ForInStep PUnit)} {l : List α}
    (h : ∀ a ∈ l, Maintains P (f a PUnit.unit) fun _ => True) :
    Maintains P (forIn l PUnit.unit f) fun _ => True := by
  induction l with
  | nil => exact pure trivial
  | cons a rest ih =>
    rw [List.forIn_cons]
    refine (h a List.mem_cons_self).bind fun step _ => ?_
    cases step with
    | done => exact pure trivial
    | yield => exact ih fun b hb => h b (List.mem_cons_of_mem _ hb)

end Maintains

end ParamLens.Steps
