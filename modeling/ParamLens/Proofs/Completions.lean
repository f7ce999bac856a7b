import ParamLens.Editor.Completion
import ParamLens.Proofs.Steps

/-! What completions do to an analyzer: they ask for classes of libraries, and nothing else. A
relation between the states before and after such a question holds over every completion. -/

namespace ParamLens.Editor

open Analysis Steps

variable {R : AnalysisState → AnalysisState → Prop} {w : World}

section

variable (frame : Frame R) (ask : ∀ path, Leads R (externalClass w path))

include frame ask

/-! ### References -/

theorem leads_firstKnown (classes : Classes) (names : List String) :
    Leads R (firstKnown w classes names) := by
  induction names with
  | nil => exact frame.pure none
  | cons name rest ih =>
    rw [firstKnown]
    split
    · exact frame.pure _
    · refine frame.bind frame.get fun s => ?_
      split
      · exact ih
      · refine frame.bind (ask _) fun found => ?_
        split
        · exact frame.pure _
        · exact ih

theorem leads_resolveName (name : String) (classes : Classes) (content : String) :
    Leads R (resolveName w name classes content) := by
  rw [resolveName]
  split
  · exact frame.pure _
  · split
    · exact frame.pure none
    · exact leads_firstKnown frame ask classes _

theorem leads_writtenExternal (name : String) : Leads R (writtenExternal w name) :=
  frame.bind frame.get fun _ => ask _

theorem leads_constructedClass (name : String) : Leads R (constructedClass w name) := by
  refine frame.bind frame.get fun s => ?_
  split
  · exact frame.pure _
  · exact leads_writtenExternal frame ask name

theorem leads_reference (content name : String) : Leads R (reference? w content name) := by
  refine frame.bind frame.get fun s => ?_
  dsimp only
  split
  · exact frame.pure _
  · exact leads_resolveName frame ask name _ content

theorem leads_referredClass (content name : String) : Leads R (referredClass w content name) := by
  refine frame.bind (leads_reference frame ask content name) fun reference => ?_
  refine frame.bind frame.get fun s => ?_
  dsimp only
  split
  · exact frame.pure _
  · exact leads_writtenExternal frame ask _

theorem leads_isInConstructor (line : String) (character : Nat) :
    Leads R (isInConstructor w line character) := by
  rw [isInConstructor]
  split
  · exact frame.pure false
  · exact frame.bind (leads_constructedClass frame ask _) fun _ => frame.pure _

theorem leads_openConstructor (lines : List String) (place : Cursor) :
    Leads R (openConstructor? w lines place) := by
  refine frame.findSomeM? _ fun number => ?_
  split
  · exact frame.pure none
  · exact frame.bind (leads_constructedClass frame ask _) fun _ => frame.pure _

/-! ### Contexts -/

omit ask in
theorem leads_dependsItems (lines : List String) (place : Cursor) :
    Leads R (dependsItems w lines place) := by
  rw [dependsItems]
  split
  · exact frame.pure []
  · split
    · exact frame.pure []
    · refine frame.bind frame.get fun s => ?_
      split <;> exact frame.pure _

theorem leads_referredItems (content name : String) {f : Option ParamClass → AnalysisM (List Item)}
    (hf : ∀ c, Leads R (f c)) : Leads R (referredClass w content name >>= f) :=
  frame.bind (leads_referredClass frame ask content name) hf

theorem leads_updateItems (content line : String) (character : Nat) :
    Leads R (updateItems w content line character) := by
  rw [updateItems]
  split
  · exact frame.pure []
  · refine leads_referredItems frame ask _ _ fun c => ?_
    split <;> exact frame.pure _

theorem leads_reactiveItems (content line : String) (character : Nat) :
    Leads R (reactiveItems w content line character) := by
  rw [reactiveItems]
  split
  · exact frame.pure []
  · refine leads_referredItems frame ask _ _ fun c => ?_
    split <;> exact frame.pure _

theorem leads_parameterItems (content line : String) (character : Nat) :
    Leads R (parameterItems w content line character) := by
  rw [parameterItems]
  split
  · exact frame.pure []
  · refine leads_referredItems frame ask _ _ fun c => ?_
    split <;> exact frame.pure _

theorem leads_namespaceItems (content line : String) (character : Nat) :
    Leads R (namespaceItems w content line character) := by
  rw [namespaceItems]
  split
  · exact frame.pure []
  · refine leads_referredItems frame ask _ _ fun c => ?_
    split <;> exact frame.pure _

theorem leads_constructorItems (line : String) (place : Cursor) :
    Leads R (constructorItems w line place) := by
  rw [constructorItems]
  split
  · exact frame.pure []
  · refine frame.bind (leads_constructedClass frame ask _) fun c => ?_
    split <;> exact frame.pure _

theorem leads_multilineItems (lines : List String) (place : Cursor) (name : String) :
    Leads R (multilineItems w lines place name) := by
  refine frame.bind (leads_constructedClass frame ask name) fun c => ?_
  split <;> exact frame.pure _

theorem leads_fallbackItems (types lines : List String) (line : String) (place : Cursor) :
    Leads R (fallbackItems w types lines line place) := by
  refine frame.bind (leads_openConstructor frame ask lines place) fun opened => ?_
  have hothers (items : List Item) : Leads R (if (!items.isEmpty) = true then pure items else do
      let isInside ← isInConstructor w line place.character
      pure (if (isInside || opened.isSome) = true then []
        else declarationItems types line place.character)) := by
    split
    · exact frame.pure _
    · exact frame.bind (leads_isInConstructor frame ask line _) fun _ => frame.pure _
  cases opened with
  | none => exact frame.bind (frame.pure []) hothers
  | some name => exact frame.bind (leads_multilineItems frame ask lines place name) hothers

omit ask in
theorem leads_firstItems {contexts : List (AnalysisM (List Item))}
    (h : ∀ context ∈ contexts, Leads R context) : Leads R (firstItems contexts) := by
  induction contexts with
  | nil => exact frame.pure []
  | cons context rest ih =>
    refine frame.bind (h context List.mem_cons_self) fun items => ?_
    split
    · exact ih fun context hmem => h context (List.mem_cons_of_mem _ hmem)
    · exact frame.pure _

/-- What holds over every question for a class of a library holds over a completion. -/
theorem leads_complete (types : List String) (content : String) (place : Cursor) :
    Leads R (complete w types content place) := by
  rw [complete]
  split
  · exact frame.pure []
  · refine leads_firstItems frame fun context hmem => ?_
    simp only [List.mem_cons, List.not_mem_nil, or_false] at hmem
    rcases hmem with rfl | rfl | rfl | rfl | rfl | rfl | rfl
    · exact leads_dependsItems frame _ place
    · exact leads_updateItems frame ask content _ _
    · exact leads_reactiveItems frame ask content _ _
    · exact leads_parameterItems frame ask content _ _
    · exact leads_namespaceItems frame ask content _ _
    · exact leads_constructorItems frame ask _ place
    · exact leads_fallbackItems frame ask types _ _ place

end

end ParamLens.Editor
