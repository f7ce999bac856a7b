import ParamLens.Check.Value
import ParamLens.Proofs.Documents
import ParamLens.Proofs.Magnitudes
import ParamLens.Proofs.Reporting
import ParamLens.Proofs.Tables

/-! Verdicts about values. A value is given to a parameter by a keyword of a constructor or by an
assignment to an attribute of an instance. What the parameter takes is said once, in terms of the
literal's type and of the interval that the bounds describe; both checks report exactly the values
that the parameter does not take. -/

namespace ParamLens.Syntax.Node

/-- The two nodes write the same, each at its own place. -/
inductive Alike : Node → Node → Prop
  | intro {kind : Kind} {text : String} {span span' : Span} {role role' : Option Role}
      {children children' : List Node} : List.Forall₂ Alike children children' →
      Alike ⟨kind, span, text, role, children⟩ ⟨kind, span', text, role', children'⟩

theorem Alike.literalType?_eq {n m : Node} (h : Alike n m) : n.literalType? = m.literalType? := by
  cases h with
  | intro _ => rfl

theorem Alike.text_eq {n m : Node} (h : Alike n m) : n.text = m.text := by
  cases h with
  | intro _ => rfl

theorem Alike.number?_eq {n m : Node} (h : Alike n m) : n.number? = m.number? := by
  fun_induction Node.number? n generalizing m with
  | case1 span text role children =>
    cases h
    rfl
  | case2 span text role children =>
    cases h
    rfl
  | case3 span text role operator operand rest hminus ih =>
    cases h with
    | intro hchildren =>
      cases hchildren with
      | cons hoperator hrest =>
        cases hrest with
        | cons hoperand _ => rw [number?, ← hoperator.text_eq, if_pos hminus, ih hoperand]
  | case4 span text role operator operand rest hminus =>
    cases h with
    | intro hchildren =>
      cases hchildren with
      | cons hoperator hrest =>
        cases hrest with
        | cons _ _ => rw [number?, ← hoperator.text_eq, if_neg hminus]
  | case5 n hint hfloat hunary =>
    cases h with
    | intro hchildren =>
      unfold number?
      split
      · next heq =>
        cases heq
        exact (hint _ _ _ _ rfl).elim
      · next heq =>
        cases heq
        exact (hfloat _ _ _ _ rfl).elim
      · next heq =>
        cases heq
        cases hchildren with
        | cons _ hrest =>
          cases hrest with
          | cons _ _ => exact (hunary _ _ _ _ _ _ rfl).elim
      · rfl

theorem number?_of_noneType {n : Node} (h : n.literalType? = some .noneType) :
    n.number? = none := by
  obtain ⟨kind, span, text, role, children⟩ := n
  cases kind
  all_goals first | rfl | simp [literalType?] at h

end ParamLens.Syntax.Node

namespace ParamLens.Check

open Syntax

/-! ### What a parameter takes -/

/-- The parameter refuses the value: the literal has a type, the parameter's type is one whose
values are checked, none of the types that it accepts accepts the value's, and the value is not a
none that the parameter allows. -/
def Refuses (p : Parameter) (value : Node) : Prop :=
  ∃ actual accepted, value.literalType? = some actual ∧ acceptedTypes? p.typeName = some accepted ∧
    (∀ expected ∈ accepted, expected.accepts actual = false) ∧
    ¬ (actual = .noneType ∧ p.allowsNone = true)

/-- The value exceeds the bounds of the parameter: the parameter is a number or an integer with
bounds that describe an interval, and the value is a number that does not lie in it. -/
def Exceeds (p : Parameter) (value : Node) : Prop :=
  (p.typeName = "Number" ∨ p.typeName = "Integer") ∧
    ∃ bounds S x v, p.bounds = some bounds ∧ Bound.Describe bounds S ∧
      value.number? = some x ∧ x.value? = some v ∧ v ∉ S

section

variable {p : Parameter} {value : Node}

theorem isRefused_iff {accepted : List ValueType} {actual : ValueType} :
    isRefused accepted actual = true ↔ ∀ expected ∈ accepted, expected.accepts actual = false := by
  simp [isRefused]

theorem refusal?_isSome_iff : (refusal? p value).isSome = true ↔ Refuses p value := by
  rw [refusal?, Refuses]
  cases acceptedTypes? p.typeName with
  | none => simp
  | some accepted =>
    cases value.literalType? with
    | none => simp
    | some actual =>
      simp only [Option.bind_eq_bind, Option.bind_some, Option.some.injEq, exists_and_left,
        exists_eq_left']
      split
      · next hnone => simp [hnone]
      · next hnone =>
        rw [← isRefused_iff]
        split
        · next hrefused => simp [hrefused, hnone]
        · next hrefused => simp [hrefused]

theorem excess?_isSome_iff : (excess? p value).isSome = true ↔ Exceeds p value := by
  have hbounded : isBounded p.typeName = true ↔ p.typeName = "Number" ∨ p.typeName = "Integer" := by
    simp [isBounded]
  rw [excess?, Exceeds, ← hbounded]
  cases isBounded p.typeName with
  | false => simp
  | true =>
    cases p.bounds with
    | none => simp
    | some bounds =>
      cases hrange : Range.ofBounds? bounds with
      | none => simp [Range.describe_iff, hrange]
      | some range =>
        cases value.number? with
        | none => simp [hrange]
        | some x =>
          have hexcludes : range.excludes x = true ↔ ∃ v, x.value? = some v ∧ v ∉ range.interval :=
            Range.excludes_iff
          simp only [Bool.not_true, Bool.false_eq_true, if_false, Option.bind_eq_bind,
            Option.bind_some, hrange, Option.isSome_ite, hexcludes, Range.describe_iff,
            Option.some.injEq, true_and]
          constructor
          · rintro ⟨v, hv, hout⟩
            exact ⟨bounds, _, x, v, rfl, ⟨range, hrange, rfl⟩, rfl, hv, hout⟩
          · rintro ⟨_, _, _, v, rfl, ⟨found, hfound, rfl⟩, rfl, hv, hout⟩
            obtain rfl := Option.some.inj (hrange.symm.trans hfound)
            exact ⟨v, hv, hout⟩

end

/-! ### Classes by the names under which they are found -/

/-- The class is found under the name: a class of the file under its key, or a class of a library
under its full name, which is the key or the name of no class of the file. -/
inductive Finds (k : Known) : String → ParamClass → Prop
  | inFile {name : String} {row : Nat} {c : ParamClass} :
      k.classes.get? (Classes.key name row) = some c → Finds k (Classes.key name row) c
  | inLibrary {path : String} {c : ParamClass} : k.external? path = some c → path ≠ "" →
      k.classes.contains path = false → k.classes.keyOf? path = none → Finds k path c

section

variable {k : Known} {className : String} {c : ParamClass}

theorem colon_mem_key (name : String) (row : Nat) :
    (Classes.key name row).toList.contains ':' = true := by
  simp [Classes.key]

theorem Finds.ne_empty (h : Finds k className c) : className ≠ "" := by
  cases h with
  | @inFile name row _ hget =>
    have hcolon := colon_mem_key name row
    intro hempty
    rw [hempty] at hcolon
    cases hcolon
  | inLibrary _ hne _ _ => exact hne

theorem Finds.isClass (h : Finds k className c) : k.isClass className = true := by
  cases h with
  | inFile hget => simp [Known.isClass, Table.contains_eq_isSome, hget]
  | inLibrary hget _ _ _ => simp [Known.isClass, hget]

theorem local?_eq_none (hkey : k.classes.contains className = false)
    (hname : k.classes.keyOf? className = none) (name : String) :
    k.local? className name = none := by
  have hget : k.classes.get? className = none := by
    rw [Table.contains_eq_isSome] at hkey
    exact Option.isSome_eq_false_iff.mp hkey |> Option.isNone_iff_eq_none.mp
  have hnamed : k.classes.entries.filter (fun entry => Classes.keyHasName className entry.1) =
      [] := by
    rw [List.filter_eq_nil_iff]
    exact List.find?_eq_none.mp (Option.map_eq_none_iff.mp hname)
  rw [Known.local?, hget, ite_self, hnamed, List.findSome?_nil]

theorem Finds.parameter?_eq (h : Finds k className c) {name : String} {p : Parameter}
    (hp : c.get? name = some p) : k.parameter? className name = some p := by
  cases h with
  | inFile hget =>
    rw [Known.parameter?, Known.local?, if_pos (colon_mem_key _ _), hget]
    exact Option.or_eq_some_iff.mpr (.inl hp)
  | inLibrary hget _ hkey hname =>
    rw [Known.parameter?, local?_eq_none hkey hname, Option.none_or, hget]
    exact hp

end

/-! ### Diagnostics about a value -/

section

variable {k : Known} {className name : String} {p : Parameter}

theorem not_refuses_of_unnamed (h : p.typeName = "") (value : Node) : ¬ Refuses p value := by
  rintro ⟨actual, accepted, -, haccepted, -⟩
  rw [h] at haccepted
  cases haccepted

theorem not_exceeds_of_unnamed (h : p.typeName = "") (value : Node) : ¬ Exceeds p value := by
  rintro ⟨hbounded, -⟩
  simp [h] at hbounded

theorem not_refuses_of_isAllowedNone {value : Node} (h : isAllowedNone p value = true) :
    ¬ Refuses p value := by
  obtain ⟨hnone, hallowed⟩ : value.literalType? = some .noneType ∧ p.allowsNone = true := by
    simpa [isAllowedNone] using h
  rintro ⟨actual, accepted, hactual, -, -, hnot⟩
  rw [hnone] at hactual
  exact hnot ⟨(Option.some.inj hactual).symm, hallowed⟩

theorem not_exceeds_of_isAllowedNone {value : Node} (h : isAllowedNone p value = true) :
    ¬ Exceeds p value := by
  have hnone : value.literalType? = some .noneType :=
    beq_iff_eq.mp (Bool.and_eq_true_iff.mp h).1
  rintro ⟨-, bounds, S, x, v, -, -, hx, -⟩
  rw [Node.number?_of_noneType hnone] at hx
  cases hx

theorem filter_named (p : Parameter) :
    (some p).filter (·.typeName != "") = if p.typeName = "" then none else some p := by
  by_cases h : p.typeName = "" <;> simp [h]

theorem reports_argumentDiagnostics (hp : k.parameter? className name = some p)
    (argument : Argument) :
    (Reports .constructorTypeMismatch (argumentDiagnostics k className name argument) ↔
        Refuses p argument.value) ∧
      (Reports .constructorOutsideBounds (argumentDiagnostics k className name argument) ↔
        Exceeds p argument.value) := by
  unfold argumentDiagnostics
  rw [hp, filter_named]
  by_cases hunnamed : p.typeName = ""
  · simp [hunnamed, not_refuses_of_unnamed hunnamed, not_exceeds_of_unnamed hunnamed]
  · rw [if_neg hunnamed]
    dsimp only
    split
    · next hnone =>
      simp [not_refuses_of_isAllowedNone hnone, not_exceeds_of_isAllowedNone hnone]
    · rw [← refusal?_isSome_iff, ← excess?_isSome_iff]
      have hmismatch : ¬ Reports .constructorTypeMismatch
          (containerDiagnostics p name argument.site argument.value) :=
        among_containerDiagnostics.not_reports (by decide)
      have houtside : ¬ Reports .constructorOutsideBounds
          (containerDiagnostics p name argument.site argument.value) :=
        among_containerDiagnostics.not_reports (by decide)
      cases refusal? p argument.value <;> cases excess? p argument.value <;>
        simp [hmismatch, houtside]

/-- An assignment to an attribute of an instance of a known class is reported exactly if the class
has a parameter of the name that does not take the value. -/
theorem reports_assignmentDiagnostics (hne : className ≠ "") (hclass : k.isClass className = true)
    (name : String) (n value : Node) :
    (Reports .assignedTypeMismatch (assignmentDiagnostics k className name n value) ↔
        ∃ p, k.parameter? className name = some p ∧ Refuses p value) ∧
      (Reports .assignedOutsideBounds (assignmentDiagnostics k className name n value) ↔
        ∃ p, k.parameter? className name = some p ∧ Exceeds p value) := by
  unfold assignmentDiagnostics
  have hknown : (className != "" && k.isClass className) = true := by simp [hne, hclass]
  rw [if_pos hknown]
  cases k.parameter? className name with
  | none => simp
  | some p =>
    simp only [Option.some.injEq, exists_eq_left', filter_named]
    by_cases hunnamed : p.typeName = ""
    · simp [hunnamed, not_refuses_of_unnamed hunnamed, not_exceeds_of_unnamed hunnamed]
    · rw [if_neg hunnamed]
      dsimp only
      rw [← refusal?_isSome_iff, ← excess?_isSome_iff]
      cases refusal? p value <;> cases excess? p value <;> simp

end

/-! ### Calls and assignments -/

variable {σ : Type} {k : Known} {ask : AskClass σ}

theorem run_checkCall {call : Node} {s : σ} {className : String}
    (hclass : (instanceClass? k ask call s).1 = some className) :
    (checkCall k ask call s).1 = constructorDiagnostics k className call := by
  have hbind (f : Option String → StateM σ (List Diagnostic)) :
      (instanceClass? k ask call >>= f) s = f (some className) (instanceClass? k ask call s).2 := by
    show f (instanceClass? k ask call s).1 (instanceClass? k ask call s).2 = _
    rw [hclass]
  rw [checkCall, hbind]
  rfl

/-- The node assigns the value to an attribute of the target. -/
structure Assigns (n target : Node) (name : String) (value : Node) : Prop where
  left : n.child? .left = some target
  right : n.child? .right = some value
  member : (target.child? .attribute).map Node.text = some name
  named : name ≠ ""

theorem Assigns.run_checkAssignment {place : Node.Located} {target value : Node} {name : String}
    (h : Assigns place.node target name value) (s : σ) :
    (checkAssignment k ask place s).1 =
      (assignedClass? k ask place.ancestors target name s).1.elim [] fun className =>
        assignmentDiagnostics k className name place.node value := by
  have hbind (f : Option String → StateM σ (List Diagnostic)) :
      (assignedClass? k ask place.ancestors target name >>= f) s =
        f (assignedClass? k ask place.ancestors target name s).1
          (assignedClass? k ask place.ancestors target name s).2 := rfl
  have hfilter : ((target.child? .attribute).map Node.text).filter (· != "") = some name := by
    simp [h.member, h.named]
  rw [checkAssignment]
  simp only [h.left, h.right, hfilter]
  rw [hbind]
  cases (assignedClass? k ask place.ancestors target name s).1 with
  | none => rfl
  | some className => rfl

theorem refuses_congr {p : Parameter} {n m : Node} (h : n.Alike m) :
    Refuses p n ↔ Refuses p m := by
  rw [Refuses, Refuses, h.literalType?_eq]

theorem exceeds_congr {p : Parameter} {n m : Node} (h : n.Alike m) :
    Exceeds p n ↔ Exceeds p m := by
  rw [Exceeds, Exceeds, h.number?_eq]

/-- A call and an assignment that give one value to the parameter of one class, of the file or of a
library, have the same verdicts. Both report a mismatch of types exactly if the parameter refuses
the value, and both report bounds exactly if the value exceeds the interval that they describe. -/
theorem construction_and_assignment_verdicts {s t : σ} {className name : String} {c : ParamClass}
    {p : Parameter} (hclass : Finds k className c) (hp : c.get? name = some p) {call : Node}
    {argument : Argument} (hcall : (instanceClass? k ask call s).1 = some className)
    (hargument : call.keywords.get? name = some argument) {place : Node.Located}
    {target value : Node} (hassigns : Assigns place.node target name value)
    (hassigned : (assignedClass? k ask place.ancestors target name t).1 = some className)
    (halike : argument.value.Alike value) :
    ((checkCall k ask call s).1 = call.keywords.entries.flatMap fun entry =>
        argumentDiagnostics k className entry.1 entry.2) ∧
      (name, argument) ∈ call.keywords.entries ∧
      (Reports .constructorTypeMismatch (argumentDiagnostics k className name argument) ↔
        Refuses p value) ∧
      (Reports .assignedTypeMismatch (checkAssignment k ask place t).1 ↔ Refuses p value) ∧
      (Reports .constructorOutsideBounds (argumentDiagnostics k className name argument) ↔
        Exceeds p value) ∧
      (Reports .assignedOutsideBounds (checkAssignment k ask place t).1 ↔ Exceeds p value) := by
  have hparameter := hclass.parameter?_eq hp
  obtain ⟨hmismatch, houtside⟩ := reports_argumentDiagnostics hparameter argument
  obtain ⟨hmismatch', houtside'⟩ :=
    reports_assignmentDiagnostics hclass.ne_empty hclass.isClass name place.node value
  simp only [hparameter, Option.some.injEq, exists_eq_left'] at hmismatch' houtside'
  rw [refuses_congr halike] at hmismatch
  rw [exceeds_congr halike] at houtside
  rw [hassigns.run_checkAssignment, hassigned, Option.elim_some]
  refine ⟨?_, Table.mem_entries_of_get? hargument, hmismatch, hmismatch', houtside, houtside'⟩
  have hknown : (className != "" && k.isClass className) = true := by
    simp [hclass.ne_empty, hclass.isClass]
  rw [run_checkCall hcall, constructorDiagnostics, if_pos hknown]

open Sketch in
/-- A file with a class, a call of it with minus five, and an assignment of minus five to an
attribute. -/
def minusFiveFile : Sketch :=
  file [classed "A" [] [], evaluates (call (name "A") [keyword "x" (minus "5")]),
    assign (member "a" "x") (minus "5")]

/-- The argument of the call. -/
def minusFiveArgument : Argument :=
  ⟨minusFiveFile.nodeAt [1, 0, 1, 1, 2], minusFiveFile.nodeAt [1, 0, 1, 1]⟩

/-- The assignment. -/
def minusFivePlace : Node.Located := minusFiveFile.placeAt [2, 0]

/-- An integer that is not negative. -/
def naturalParameter : Parameter :=
  { name := "x", typeName := "Integer", bounds := some [.number (.int 0), .absent] }

/-- A class with the parameter. -/
def naturalClass : ParamClass := (ParamClass.ofName "A").add naturalParameter

/-- The class as the only one of a file. -/
def naturalKnown : Known where
  classes := (∅ : Classes).insert "A:0" naturalClass
  external := ∅
  imports := ∅
  isDeclaration := fun _ => false

/-- No library has a class. -/
def noLibrary : AskClass Unit := fun _ => pure none

/-- Minus five exceeds bounds without an upper end, in a call as well as in an assignment. -/
theorem verdicts_of_minusFive : Finds naturalKnown "A:0" naturalClass ∧
    Reports .constructorOutsideBounds
      (argumentDiagnostics naturalKnown "A:0" "x" minusFiveArgument) ∧
    Reports .assignedOutsideBounds (checkAssignment naturalKnown noLibrary minusFivePlace ()).1 ∧
    ¬ Reports .assignedTypeMismatch (checkAssignment naturalKnown noLibrary minusFivePlace ()).1 ∧
    Exceeds naturalParameter (minusFiveFile.nodeAt [2, 0, 2]) := by
  have hclass : Finds naturalKnown (Classes.key "A" 0) naturalClass := .inFile rfl
  have hcall : (instanceClass? naturalKnown noLibrary (minusFiveFile.nodeAt [1, 0]) ()).1 =
      some "A:0" := rfl
  have hassigned : (assignedClass? naturalKnown noLibrary minusFivePlace.ancestors
      (minusFiveFile.nodeAt [2, 0, 0]) "x" ()).1 = some "A:0" := rfl
  have halike : minusFiveArgument.value.Alike (minusFiveFile.nodeAt [2, 0, 2]) :=
    .intro (.cons (.intro .nil) (.cons (.intro .nil) .nil))
  have hreports : Reports .constructorOutsideBounds
      (argumentDiagnostics naturalKnown "A:0" "x" minusFiveArgument) := by
    decide +kernel
  have hagrees : ¬ Reports .constructorTypeMismatch
      (argumentDiagnostics naturalKnown "A:0" "x" minusFiveArgument) := by
    decide +kernel
  obtain ⟨-, -, hmismatch, hmismatch', houtside, houtside'⟩ :=
    construction_and_assignment_verdicts hclass rfl hcall rfl ⟨rfl, rfl, rfl, by decide⟩ hassigned
      halike
  have hexceeds := houtside.mp hreports
  exact ⟨hclass, hreports, houtside'.mpr hexceeds,
    fun h => hagrees (hmismatch.mpr (hmismatch'.mp h)), hexceeds⟩

end ParamLens.Check
