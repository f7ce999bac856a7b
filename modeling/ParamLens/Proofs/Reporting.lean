import Mathlib.Data.List.Forall2
import ParamLens.Check.File
import ParamLens.Proofs.Triples

/-! Which rules the checks report. Each check of a file has rules of its own: declarations, calls,
assignments to attributes and decorators never report the rule of another check. -/

namespace ParamLens.Check

open Syntax Steps

/-- Some of the diagnostics is about the rule. -/
def Reports (rule : Rule) (ds : List Diagnostic) : Prop := ∃ d ∈ ds, d.rule = rule

instance (rule : Rule) (ds : List Diagnostic) : Decidable (Reports rule ds) :=
  inferInstanceAs (Decidable (∃ d ∈ ds, d.rule = rule))

/-- All of the diagnostics are about one of the rules. -/
def Among (rules : List Rule) (ds : List Diagnostic) : Prop := ∀ d ∈ ds, d.rule ∈ rules

section

variable {rule : Rule} {rules rules' : List Rule} {d : Diagnostic} {ds ds' : List Diagnostic}

@[simp] theorem rule_atNode (n : Node) (made : Rule) (message : String) :
    (Diagnostic.atNode n made message).rule = made := rfl

@[simp] theorem not_reports_nil : ¬ Reports rule [] := by simp [Reports]

@[simp] theorem reports_cons : Reports rule (d :: ds) ↔ d.rule = rule ∨ Reports rule ds := by
  simp [Reports]

@[simp] theorem reports_append :
    Reports rule (ds ++ ds') ↔ Reports rule ds ∨ Reports rule ds' := by
  simp [Reports, or_and_right, exists_or]

@[simp] theorem among_nil : Among rules [] := by simp [Among]

@[simp] theorem among_cons : Among rules (d :: ds) ↔ d.rule ∈ rules ∧ Among rules ds := by
  simp [Among]

@[simp] theorem among_append : Among rules (ds ++ ds') ↔ Among rules ds ∧ Among rules ds' := by
  simp [Among, or_imp, forall_and]

theorem among_flatMap {α : Type} {l : List α} {f : α → List Diagnostic}
    (h : ∀ a ∈ l, Among rules (f a)) : Among rules (l.flatMap f) := by
  intro d hd
  obtain ⟨a, ha, hd⟩ := List.mem_flatMap.mp hd
  exact h a ha d hd

theorem among_flatten {l : List (List Diagnostic)} (h : ∀ ds ∈ l, Among rules ds) :
    Among rules l.flatten := by
  intro d hd
  obtain ⟨ds, hds, hd⟩ := List.mem_flatten.mp hd
  exact h ds hds d hd

theorem Among.mono (h : Among rules ds) (hsub : rules ⊆ rules') : Among rules' ds :=
  fun d hd => hsub (h d hd)

theorem Among.not_reports (h : Among rules ds) (hrule : rule ∉ rules) : ¬ Reports rule ds := by
  rintro ⟨d, hd, rfl⟩
  exact hrule (h d hd)

theorem Among.filter_eq_self (h : Among rules ds) :
    ds.filter (fun d => rules.contains d.rule) = ds :=
  List.filter_eq_self.mpr fun d hd => List.contains_iff_mem.mpr (h d hd)

theorem Among.filter_eq_nil (h : Among rules' ds) (hapart : ∀ rule ∈ rules', rule ∉ rules) :
    ds.filter (fun d => rules.contains d.rule) = [] :=
  List.filter_eq_nil_iff.mpr fun d hd hmem => hapart _ (h d hd) (List.contains_iff_mem.mp hmem)

end

/-! ### The rules of each check -/

/-- The rules of declarations. -/
def declarationRules : List Rule :=
  [.typeMismatch, .booleanTypeMismatch, .deprecatedType, .invalidBounds, .defaultOutsideBounds,
    .emptyDefaultWithBounds]

/-- The rules of the members of containers. -/
def containerRules : List Rule := [.itemTypeMismatch, .lengthMismatch]

/-- The rules of calls. -/
def constructorRules : List Rule :=
  [.constructorTypeMismatch, .constructorOutsideBounds] ++ containerRules

/-- The rules of assignments to attributes. -/
def assignedRules : List Rule := [.assignedTypeMismatch, .assignedOutsideBounds]

section

variable {k : Known} {n call : Node} {name type className : String}

theorem among_defaultTypeDiagnostics :
    Among [.typeMismatch, .booleanTypeMismatch] (defaultTypeDiagnostics n name call type) := by
  unfold defaultTypeDiagnostics
  split
  · split
    · exact among_nil
    · dsimp only
      split
      · simp
      · split <;> simp
  · exact among_nil

theorem among_deprecationDiagnostics :
    Among [.deprecatedType] (deprecationDiagnostics n type) := by
  unfold deprecationDiagnostics
  split <;> simp

theorem among_boundsDiagnostics :
    Among [.invalidBounds, .defaultOutsideBounds] (boundsDiagnostics n name call) := by
  unfold boundsDiagnostics
  split
  · exact among_nil
  · dsimp only
    refine among_append.mpr ⟨?_, ?_⟩
    · split <;> simp
    · split
      · exact among_nil
      · split <;> simp

theorem among_emptinessDiagnostics :
    Among [.emptyDefaultWithBounds] (emptinessDiagnostics n name call) := by
  unfold emptinessDiagnostics
  split <;> simp

theorem among_constraintDiagnostics {imports : Imports} :
    Among [.invalidBounds, .defaultOutsideBounds, .emptyDefaultWithBounds]
      (constraintDiagnostics imports n name) := by
  unfold constraintDiagnostics
  split
  · exact among_nil
  · split
    · exact among_boundsDiagnostics.mono (by decide)
    · split
      · exact among_emptinessDiagnostics.mono (by decide)
      · exact among_nil

theorem among_declarationDiagnostics {imports : Imports} :
    Among declarationRules (declarationDiagnostics imports n name) := by
  unfold declarationDiagnostics
  split
  · exact among_nil
  · split
    · exact among_nil
    · refine among_append.mpr ⟨among_append.mpr ⟨?_, ?_⟩, ?_⟩
      · exact among_defaultTypeDiagnostics.mono (by decide)
      · exact among_deprecationDiagnostics.mono (by decide)
      · exact among_constraintDiagnostics.mono (by decide)

theorem among_classDiagnostics : Among declarationRules (classDiagnostics k n) := by
  unfold classDiagnostics
  split
  · exact among_flatMap fun _ _ => among_declarationDiagnostics
  · exact among_nil

theorem among_containerDiagnostics {p : Parameter} {site value : Node} :
    Among containerRules (containerDiagnostics p name site value) := by
  unfold containerDiagnostics
  split
  · unfold itemDiagnostics
    split
    · split
      · exact among_nil
      · intro d hd
        obtain ⟨entry, -, hd⟩ := List.mem_filterMap.mp hd
        obtain ⟨actual, -, hd⟩ := Option.bind_eq_some_iff.mp hd
        split at hd
        · cases hd
        · obtain rfl := Option.some.inj hd
          exact List.mem_cons_self
    · exact among_nil
  · split
    · unfold lengthDiagnostics
      split
      · split
        · exact among_nil
        · simp [containerRules]
      · exact among_nil
    · exact among_nil

theorem among_argumentDiagnostics {argument : Argument} :
    Among constructorRules (argumentDiagnostics k className name argument) := by
  unfold argumentDiagnostics
  split
  · exact among_nil
  · split
    · exact among_nil
    · dsimp only
      refine among_append.mpr ⟨among_append.mpr ⟨?_, ?_⟩, ?_⟩
      · split <;> simp [constructorRules]
      · split <;> simp [constructorRules]
      · exact among_containerDiagnostics.mono (by decide)

theorem among_constructorDiagnostics :
    Among constructorRules (constructorDiagnostics k className call) := by
  unfold constructorDiagnostics
  split
  · exact among_flatMap fun _ _ => among_argumentDiagnostics
  · exact among_nil

theorem among_assignmentDiagnostics {value : Node} :
    Among assignedRules (assignmentDiagnostics k className name n value) := by
  unfold assignmentDiagnostics
  split
  · split
    · exact among_nil
    · dsimp only
      refine among_append.mpr ⟨?_, ?_⟩
      · split <;> simp [assignedRules]
      · split <;> simp [assignedRules]
  · exact among_nil

theorem among_decoratorDiagnostics {place : Node.Located} :
    Among [.unknownDependency] (decoratorDiagnostics k place) := by
  unfold decoratorDiagnostics
  split
  · exact among_nil
  · split
    · exact among_nil
    · intro d hd
      obtain ⟨entry, -, hd⟩ := List.mem_filterMap.mp hd
      dsimp only at hd
      split at hd
      · cases hd
      · obtain rfl := Option.some.inj hd
        exact List.mem_cons_self

end

/-! ### A whole file -/

section

variable {σ : Type} {k : Known} {ask : AskClass σ}

/-- The results of a step at each member of a list come from runs of the step. -/
theorem forall₂_mapM {α β : Type} (f : α → StateM σ β) (l : List α) (s : σ) :
    List.Forall₂ (fun a b => ∃ t, (f a t).1 = b) l ((l.mapM f) s).1 := by
  induction l generalizing s with
  | nil => exact .nil
  | cons a rest ih =>
    rw [List.mapM_cons]
    exact .cons ⟨s, rfl⟩ (ih (f a s).2)

theorem among_checkCall (call : Node) (s : σ) :
    Among constructorRules (checkCall k ask call s).1 := by
  have hends : Ends (fun _ => True) (checkCall k ask call)
      fun ds _ => Among constructorRules ds := by
    unfold checkCall
    refine Ends.bind (Q := fun _ _ => True) (fun _ _ => trivial) fun found => ?_
    cases found with
    | none => exact Ends.pure fun _ _ => among_nil
    | some className => exact Ends.pure fun _ _ => among_constructorDiagnostics
  exact hends s trivial

theorem checkAssignment_cases (k : Known) (ask : AskClass σ) (place : Node.Located) (s : σ) :
    (checkAssignment k ask place s).1 = [] ∨ ∃ className name value,
      (checkAssignment k ask place s).1 =
        assignmentDiagnostics k className name place.node value := by
  have hends : Ends (fun _ => True) (checkAssignment k ask place) fun ds _ => ds = [] ∨
      ∃ className name value, ds = assignmentDiagnostics k className name place.node value := by
    unfold checkAssignment
    dsimp only
    split
    · split
      · exact Ends.pure fun _ _ => .inl rfl
      · refine Ends.bind (Q := fun _ _ => True) (fun _ _ => trivial) fun found => ?_
        cases found with
        | none => exact Ends.pure fun _ _ => .inl rfl
        | some className => exact Ends.pure fun _ _ => .inr ⟨className, _, _, rfl⟩
    · exact Ends.pure fun _ _ => .inl rfl
  exact hends s trivial

theorem among_checkAssignment (place : Node.Located) (s : σ) :
    Among assignedRules (checkAssignment k ask place s).1 := by
  rcases checkAssignment_cases k ask place s with hnil | ⟨className, name, value, hsome⟩
  · rw [hnil]
    exact among_nil
  · rw [hsome]
    exact among_assignmentDiagnostics

theorem forall_mem_mapM {α β : Type} {P : β → Prop} {f : α → StateM σ β} (h : ∀ a s, P (f a s).1)
    (l : List α) (s : σ) : ∀ b ∈ ((l.mapM f) s).1, P b := by
  intro b hb
  obtain ⟨⟨i, hi⟩, rfl⟩ := List.mem_iff_get.mp hb
  have hruns := forall₂_mapM f l s
  obtain ⟨t, ht⟩ := hruns.get (hruns.length_eq ▸ hi) hi
  exact ht ▸ h _ t

/-- The diagnostics of a file are those of its declarations, assignments, calls and decorators, each
about rules of its own. -/
theorem exists_checkFile_parts (k : Known) (ask : AskClass σ) (root : Node) (s : σ) :
    ∃ declarations assignments calls decorators,
    (checkFile k ask root s).1 = declarations ++ assignments ++ calls ++ decorators ∧
    Among declarationRules declarations ∧ Among assignedRules assignments ∧
    Among constructorRules calls ∧ Among [.unknownDependency] decorators ∧
    assignments = (((k.finder.found .attributeAssignments root).mapM
      (checkAssignment k ask)) s).1.flatten ∧
    decorators =
      (k.finder.found .memberDecorators root).flatMap (decoratorDiagnostics k) := by
  refine ⟨_, _, _, _, rfl, ?_, ?_, ?_, ?_, rfl, rfl⟩
  · exact among_flatMap fun _ _ => among_classDiagnostics
  · exact among_flatten (forall_mem_mapM among_checkAssignment _ s)
  · exact among_flatten (forall_mem_mapM among_checkCall _ _)
  · exact among_flatMap fun _ _ => among_decoratorDiagnostics

theorem filter_checkFile_decorators (root : Node) (s : σ) :
    ((checkFile k ask root s).1.filter fun d => d.rule = .unknownDependency) =
      (k.finder.found .memberDecorators root).flatMap (decoratorDiagnostics k) := by
  have htest : (fun d : Diagnostic => decide (d.rule = .unknownDependency)) =
      fun d => [Rule.unknownDependency].contains d.rule := by
    funext d
    simp
  obtain ⟨declarations, assignments, calls, decorators, hparts, hdeclarations, hassignments, hcalls,
    hdecorators, -, rfl⟩ := exists_checkFile_parts k ask root s
  rw [htest, hparts, List.filter_append, List.filter_append, List.filter_append,
    hdeclarations.filter_eq_nil (by decide), hassignments.filter_eq_nil (by decide),
    hcalls.filter_eq_nil (by decide), hdecorators.filter_eq_self, List.append_nil, List.append_nil,
    List.nil_append]

end

end ParamLens.Check
