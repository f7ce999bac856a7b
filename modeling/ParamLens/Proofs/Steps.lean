import ParamLens.Analysis.Analyzer

/-! Steps that change a state and can fail: what their runs do, relations between the state before a
step and the state after it that carry over to sequences of steps, and runs of two steps side by
side. -/

namespace ParamLens.Steps

variable {ε σ α β : Type}

/-! ### Runs -/

theorem run_bind (x : ExceptT ε (StateM σ) α) (f : α → ExceptT ε (StateM σ) β) (s : σ) :
    (x >>= f).run s = match x.run s with
      | (.ok a, next) => (f a).run next
      | (.error e, next) => (.error e, next) := by
  rw [ExceptT.run_bind]
  show (x.run >>= _) s = _
  simp only [bind, StateT.bind]
  rcases x.run s with ⟨_ | a, next⟩ <;> rfl

theorem run_pure (a : α) (s : σ) : (pure a : ExceptT ε (StateM σ) α).run s = (.ok a, s) := rfl

theorem run_get (s : σ) : (get : ExceptT ε (StateM σ) σ).run s = (.ok s, s) := rfl

theorem run_modify (f : σ → σ) (s : σ) :
    (modify f : ExceptT ε (StateM σ) Unit).run s = (.ok (), f s) := rfl

theorem run_lift (x : StateM σ α) (s : σ) :
    (ExceptT.lift x : ExceptT ε (StateM σ) α).run s = (.ok (x s).1, (x s).2) := rfl

theorem run_mk_pure (r : Except ε α) (s : σ) :
    (ExceptT.mk (pure r) : ExceptT ε (StateM σ) α).run s = (r, s) := rfl

/-- A loop whose body always goes on is a fold of what the body does to the state. -/
theorem run_forIn_yield {f : α → PUnit → ExceptT ε (StateM σ) (ForInStep PUnit)}
    {g : σ → α → σ} (h : ∀ a s, (f a PUnit.unit).run s = (.ok (.yield PUnit.unit), g s a))
    (l : List α) (s : σ) : (forIn l PUnit.unit f).run s = (.ok PUnit.unit, l.foldl g s) := by
  induction l generalizing s with
  | nil => rfl
  | cons a rest ih =>
    rw [List.forIn_cons, run_bind, h]
    exact ih (g s a)

/-! ### Relations over steps -/

/-- A relation that holds over no step, and over two steps when it holds over each. -/
structure Frame (R : σ → σ → Prop) : Prop where
  refl (s : σ) : R s s
  trans {s₁ s₂ s₃ : σ} : R s₁ s₂ → R s₂ s₃ → R s₁ s₃

/-- The state before the step and the state after it are related, also when the step fails. -/
def Leads (R : σ → σ → Prop) (x : ExceptT ε (StateM σ) α) : Prop := ∀ s, R s (x.run s).2

namespace Frame

variable {R : σ → σ → Prop}

theorem pure (frame : Frame R) (a : α) : Leads R (pure a : ExceptT ε (StateM σ) α) :=
  fun s => frame.refl s

theorem get (frame : Frame R) : Leads R (get : ExceptT ε (StateM σ) σ) := fun s => frame.refl s

theorem bind (frame : Frame R) {x : ExceptT ε (StateM σ) α} {f : α → ExceptT ε (StateM σ) β}
    (hx : Leads R x) (hf : ∀ a, Leads R (f a)) : Leads R (x >>= f) := by
  intro s
  have hfirst := hx s
  rw [run_bind]
  rcases hrun : x.run s with ⟨result, next⟩
  rw [hrun] at hfirst
  cases result with
  | ok a => exact frame.trans hfirst (hf a next)
  | error e => exact hfirst

theorem findSomeM? (frame : Frame R) {f : α → ExceptT ε (StateM σ) (Option β)} (l : List α)
    (hf : ∀ a, Leads R (f a)) : Leads R (l.findSomeM? f) := by
  induction l with
  | nil => exact frame.pure none
  | cons a rest ih =>
    rw [List.findSomeM?_cons]
    refine frame.bind (hf a) fun found => ?_
    cases found with
    | none => exact ih
    | some b => exact frame.pure (some b)

end Frame

/-! ### Settled answers -/

/-- From every state with the property the step gives the answer and keeps the property. -/
def Yields (P : σ → Prop) (x : StateM σ α) (a : α) : Prop := ∀ s, P s → (x s).1 = a ∧ P (x s).2

theorem Yields.pure {P : σ → Prop} (a : α) : Yields P (pure a) a := fun _ h => ⟨rfl, h⟩

theorem Yields.bind {P : σ → Prop} {x : StateM σ α} {f : α → StateM σ β} {a : α} {b : β}
    (hx : Yields P x a) (hf : Yields P (f a) b) : Yields P (x >>= f) b := by
  intro s h
  obtain ⟨hanswer, hnext⟩ := hx s h
  show (f (x s).1 (x s).2).1 = b ∧ P (f (x s).1 (x s).2).2
  rw [hanswer]
  exact hf _ hnext

theorem Yields.get_bind {P : σ → Prop} {f : σ → StateM σ β} {b : β}
    (h : ∀ s, P s → Yields P (f s) b) : Yields P (get >>= f) b :=
  fun s hs => h s hs s hs

theorem Yields.mapM {P : σ → Prop} {f : α → StateM σ β} {g : α → β} {l : List α}
    (h : ∀ a ∈ l, Yields P (f a) (g a)) : Yields P (l.mapM f) (l.map g) := by
  induction l with
  | nil => exact Yields.pure []
  | cons a rest ih =>
    rw [List.mapM_cons]
    refine Yields.bind (h a List.mem_cons_self) ?_
    exact Yields.bind (ih fun a ha => h a (List.mem_cons_of_mem _ ha)) (Yields.pure _)

theorem Yields.foldlM {P : σ → Prop} {f : β → α → StateM σ β} {g : β → α → β} {l : List α}
    (h : ∀ b, ∀ a ∈ l, Yields P (f b a) (g b a)) (b : β) :
    Yields P (l.foldlM f b) (l.foldl g b) := by
  induction l generalizing b with
  | nil => exact Yields.pure b
  | cons a rest ih =>
    rw [List.foldlM_cons]
    refine Yields.bind (h b a List.mem_cons_self) ?_
    exact ih (fun b a ha => h b a (List.mem_cons_of_mem _ ha)) (g b a)

/-- Every answer of the step has the property. -/
def Gives (P : α → Prop) (x : StateM σ α) : Prop := ∀ s, P (x s).1

theorem Gives.pure {P : α → Prop} {a : α} (h : P a) : Gives P (pure a : StateM σ α) := fun _ => h

theorem Gives.bind {P : β → Prop} (x : StateM σ α) {f : α → StateM σ β} (h : ∀ a, Gives P (f a)) :
    Gives P (x >>= f) :=
  fun s => h (x s).1 (x s).2

/-! ### Two runs -/

/-- Runs of the two steps from related states give the same answer and end in related states. -/
def Agree (R : σ → σ → Prop) (x y : StateM σ α) : Prop :=
  ∀ s t, R s t → (x s).1 = (y t).1 ∧ R (x s).2 (y t).2

namespace Agree

variable {R : σ → σ → Prop}

theorem pure (a : α) : Agree R (pure a) (pure a) := fun _ _ h => ⟨rfl, h⟩

/-- The continuations need to agree only on answers that the first step can give. -/
theorem bind_of_gives {x y : StateM σ α} {f g : α → StateM σ β} (hx : Agree R x y)
    {P : α → Prop} (hP : Gives P x) (hf : ∀ a, P a → Agree R (f a) (g a)) :
    Agree R (x >>= f) (y >>= g) := by
  intro s t h
  obtain ⟨hanswer, hnext⟩ := hx s t h
  have hlast := hf (x s).1 (hP s) _ _ hnext
  show (f (x s).1 (x s).2).1 = (g (y t).1 (y t).2).1 ∧
    R (f (x s).1 (x s).2).2 (g (y t).1 (y t).2).2
  rwa [← hanswer]

theorem bind {x y : StateM σ α} {f g : α → StateM σ β} (hx : Agree R x y)
    (hf : ∀ a, Agree R (f a) (g a)) : Agree R (x >>= f) (y >>= g) := by
  have hany : Gives (fun _ : α => True) x := fun _ => trivial
  exact hx.bind_of_gives hany fun a _ => hf a

theorem mapM {f g : α → StateM σ β} {l : List α} (h : ∀ a ∈ l, Agree R (f a) (g a)) :
    Agree R (l.mapM f) (l.mapM g) := by
  induction l with
  | nil => exact pure []
  | cons a rest ih =>
    rw [List.mapM_cons, List.mapM_cons]
    refine (h a List.mem_cons_self).bind fun b => ?_
    exact (ih fun a ha => h a (List.mem_cons_of_mem _ ha)).bind fun bs => pure _

/-! #### Steps that can fail -/

theorem run_pure (a : α) :
    Agree R (Pure.pure a : ExceptT ε (StateM σ) α).run (Pure.pure a : ExceptT ε (StateM σ) α).run :=
  fun _ _ h => ⟨rfl, h⟩

theorem run_bind {x y : ExceptT ε (StateM σ) α} {f g : α → ExceptT ε (StateM σ) β}
    (hx : Agree R x.run y.run) (hf : ∀ a, Agree R (f a).run (g a).run) :
    Agree R (x >>= f).run (y >>= g).run := by
  intro s t h
  obtain ⟨hanswer, hnext⟩ := hx s t h
  rw [Steps.run_bind, Steps.run_bind]
  rcases hrun : x.run s with ⟨result, next⟩
  rcases hrun' : y.run t with ⟨result', next'⟩
  rw [hrun, hrun'] at hanswer hnext
  obtain rfl : result = result' := hanswer
  cases result with
  | ok a => exact hf a _ _ hnext
  | error e => exact ⟨rfl, hnext⟩

theorem run_get_bind {f g : σ → ExceptT ε (StateM σ) β}
    (h : ∀ s t, R s t → Agree R (f s).run (g t).run) :
    Agree R (get >>= f).run (get >>= g).run := by
  intro s t hst
  rw [Steps.run_bind, Steps.run_bind]
  exact h s t hst s t hst

theorem run_lift {x y : StateM σ α} (h : Agree R x y) :
    Agree R (ExceptT.lift x : ExceptT ε (StateM σ) α).run (ExceptT.lift y).run := by
  intro s t hst
  obtain ⟨hanswer, hnext⟩ := h s t hst
  rw [Steps.run_lift, Steps.run_lift, hanswer]
  exact ⟨rfl, hnext⟩

theorem run_modify {f g : σ → σ} (h : ∀ s t, R s t → R (f s) (g t)) :
    Agree R (modify f : ExceptT ε (StateM σ) Unit).run (modify g : ExceptT ε (StateM σ) Unit).run :=
  fun s t hst => ⟨rfl, h s t hst⟩

theorem run_anyM {f g : α → ExceptT ε (StateM σ) Bool} {l : List α}
    (h : ∀ a ∈ l, Agree R (f a).run (g a).run) : Agree R (l.anyM f).run (l.anyM g).run := by
  induction l with
  | nil => exact run_pure false
  | cons a rest ih =>
    rw [List.anyM, List.anyM]
    refine run_bind (h a List.mem_cons_self) fun found => ?_
    cases found with
    | true => exact run_pure true
    | false => exact ih fun a ha => h a (List.mem_cons_of_mem _ ha)

theorem run_foldlM {f g : β → α → ExceptT ε (StateM σ) β} {l : List α}
    (h : ∀ b, ∀ a ∈ l, Agree R (f b a).run (g b a).run) (b : β) :
    Agree R (l.foldlM f b).run (l.foldlM g b).run := by
  induction l generalizing b with
  | nil => exact run_pure b
  | cons a rest ih =>
    rw [List.foldlM_cons, List.foldlM_cons]
    exact run_bind (h b a List.mem_cons_self) fun b =>
      ih (fun b a ha => h b a (List.mem_cons_of_mem _ ha)) b

theorem run_forIn {f g : α → β → ExceptT ε (StateM σ) (ForInStep β)} {l : List α}
    (h : ∀ b, ∀ a ∈ l, Agree R (f a b).run (g a b).run) (b : β) :
    Agree R (forIn l b f).run (forIn l b g).run := by
  induction l generalizing b with
  | nil => exact run_pure b
  | cons a rest ih =>
    rw [List.forIn_cons, List.forIn_cons]
    refine run_bind (h b a List.mem_cons_self) fun step => ?_
    cases step with
    | done b => exact run_pure b
    | yield b => exact ih (fun b a ha => h b a (List.mem_cons_of_mem _ ha)) b

theorem same_iff {P : σ → Prop} {x : StateM σ α} :
    Agree (fun s t => s = t ∧ P s) x x ↔ ∀ s, P s → P (x s).2 := by
  constructor
  · intro h s hs
    exact (h s s ⟨rfl, hs⟩).2.2
  · rintro h s t ⟨rfl, hs⟩
    exact ⟨rfl, rfl, h s hs⟩

end Agree

end ParamLens.Steps
