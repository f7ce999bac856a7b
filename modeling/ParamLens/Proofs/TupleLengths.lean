import ParamLens.Proofs.DefaultBounds
import ParamLens.Proofs.Isolation

/-! Lengths of tuples. The check of a call counts what stands in a tuple besides parentheses and
commas, and passes over a tuple in which nothing is counted. So comments count as elements, and the
empty tuple is never reported. -/

namespace ParamLens.Number

theorem same_int (a b : Int) : (Number.int a).same (.int b) = decide (a = b) := by
  simp only [same, order?, place?, Place.order, Int.min_self, Int.sub_self, Int.toNat_zero]
  rcases Int.lt_trichotomy a b with h | rfl | h
  · have hne : ¬ a = b := by omega
    simp [compare, compareOfLessAndEq, h, hne]
  · simp [compare, compareOfLessAndEq]
  · have hlt : ¬ a < b := by omega
    have hne : ¬ a = b := by omega
    simp [compare, compareOfLessAndEq, hlt, hne]

end ParamLens.Number

namespace ParamLens.Check

open Syntax Declaration

/-! ### What stands in a tuple -/

/-- The node may stand anywhere in a text: it is a comment, or it continues a line. -/
def isExtra (n : Node) : Bool :=
  match n.kind with
  | .other "comment" | .other "line_continuation" => true
  | _ => false

/-- The node is a parenthesis or a comma. -/
def isPunctuation (n : Node) : Bool :=
  n.kind == .openParen || n.kind == .closeParen || n.kind == .comma

/-- The comments in a tuple literal, and what continues its lines. -/
def extras (n : Node) : List Node := n.children.filter isExtra

/-- The elements of a tuple literal. -/
def tupleElements (n : Node) : List Node :=
  n.children.filter fun child => !isPunctuation child && !isExtra child

theorem isPunctuation_of_isExtra {n : Node} (h : isExtra n = true) : isPunctuation n = false := by
  obtain ⟨kind, span, text, role, children⟩ := n
  cases kind
  all_goals first | rfl | cases h

theorem length_filter_punctuation (n : Node) :
    (n.children.filter fun child => !isPunctuation child).length =
      (tupleElements n).length + (extras n).length := by
  rw [tupleElements, extras]
  induction n.children with
  | nil => rfl
  | cons child rest ih =>
    cases hextra : isExtra child with
    | true =>
      simp only [List.filter_cons, hextra, isPunctuation_of_isExtra hextra, Bool.not_false,
        Bool.not_true, Bool.and_false, Bool.false_eq_true, if_true, if_false, List.length_cons, ih]
      omega
    | false =>
      cases hpunctuation : isPunctuation child with
      | true => simpa [hextra, hpunctuation] using ih
      | false =>
        simp only [List.filter_cons, hextra, hpunctuation, Bool.not_false, Bool.and_true,
          Bool.false_eq_true, if_true, if_false, List.length_cons, ih]
        omega

/-! ### What is reported -/

/-- What is to be said of a tuple with `count` elements for a parameter of length `m`. -/
def lengthReport (name : String) (site : Node) (count : Nat) (m : Int) : List Diagnostic :=
  if count = m then []
  else [.atNode site .lengthMismatch
    s!"Tuple parameter '{name}' has {count} elements, expected {m}"]

theorem lengthReport_eq_iff {name : String} {site : Node} {count count' : Nat} {m : Int} :
    lengthReport name site count m = lengthReport name site count' m ↔ count = count' := by
  refine ⟨fun h => ?_, fun h => by rw [h]⟩
  rw [lengthReport, lengthReport] at h
  split at h
  · split at h
    · omega
    · cases h
  · split at h
    · cases h
    · obtain ⟨-, -, -, hmessage⟩ := Diagnostic.mk.inj (List.cons.inj h).1
      exact Library.eq_of_toString_eq (by simpa using hmessage)

theorem lengthDiagnostics_eq {p : Parameter} {m : Int} (hlength : p.length = some (.int m))
    (name : String) (site : Node) {value : Node} (htuple : value.kind = .tuple) :
    lengthDiagnostics p name site value =
      if (tupleElements value).length + (extras value).length = 0 then []
      else lengthReport name site ((tupleElements value).length + (extras value).length) m := by
  rw [← length_filter_punctuation, lengthDiagnostics, hlength, tupleItems?,
    if_pos (beq_iff_eq.mpr htuple)]
  have hsame : (value.children.filter fun child =>
      !(child.kind == .openParen || child.kind == .closeParen || child.kind == .comma)) =
        value.children.filter fun child => !isPunctuation child := rfl
  rw [hsame]
  cases value.children.filter fun child => !isPunctuation child with
  | nil => rfl
  | cons item rest =>
    rw [if_neg (by simp)]
    dsimp only
    rw [Number.same_int, lengthReport]
    simp only [decide_eq_true_eq]
    rfl

/-! ### Calls -/

/-- The assignment declares a parameter for tuples of length `m`. -/
def DeclaresTuple (imports : Imports) (n : Node) (m : Int) : Prop :=
  ∃ call literal x, n.assignedCall? = some call ∧ typeName? imports call = some "Tuple" ∧
    call.keywordValue? "length" = some literal ∧ literal.number? = some x ∧ x.toInt? = some m

theorem DeclaresTuple.parameter_eq {imports : Imports} {n : Node} {m : Int}
    (h : DeclaresTuple imports n m) (content name : String) :
    (parameter imports content n name).typeName = "Tuple" ∧
      (parameter imports content n name).length = some (.int m) := by
  obtain ⟨call, literal, x, hcall, htype, hliteral, hx, hm⟩ := h
  have hlength : length? call = some (.int m) := by simp [length?, hliteral, hx, hm]
  simp [parameter, hcall, htype, hlength]

theorem filter_argumentDiagnostics {k : Known} {className name : String} {p : Parameter}
    (hp : k.parameter? className name = some p) (htype : p.typeName = "Tuple") {argument : Argument}
    (htuple : argument.value.kind = .tuple) :
    ((argumentDiagnostics k className name argument).filter fun d => d.rule = .lengthMismatch) =
      lengthDiagnostics p name argument.site argument.value := by
  have hliteral : argument.value.literalType? = some .tuple := by
    rw [Node.literalType?, htuple]
  have hnone : isAllowedNone p argument.value = false := by simp [isAllowedNone, hliteral]
  have hcontainer : containerDiagnostics p name argument.site argument.value =
      lengthDiagnostics p name argument.site argument.value := by
    rw [containerDiagnostics, if_neg (by rw [htype]; decide), if_pos htype]
  have hlengths : (lengthDiagnostics p name argument.site argument.value).filter
      (fun d => d.rule = .lengthMismatch) =
        lengthDiagnostics p name argument.site argument.value := by
    unfold lengthDiagnostics
    split
    · split <;> simp
    · rfl
  unfold argumentDiagnostics
  rw [hp, filter_named, if_neg (by rw [htype]; decide)]
  dsimp only
  rw [if_neg (by simp [hnone]), hcontainer, List.filter_append, List.filter_append, hlengths]
  cases refusal? p argument.value <;> cases excess? p argument.value <;> simp

theorem Finds.run_checkCall {σ : Type} {k : Known} {ask : AskClass σ} {s : σ} {className : String}
    {c : ParamClass} {call : Node} (hclass : Finds k className c)
    (hcall : (instanceClass? k ask call s).1 = some className) :
    (checkCall k ask call s).1 = call.keywords.entries.flatMap fun entry =>
      argumentDiagnostics k className entry.1 entry.2 := by
  have hknown : (className != "" && k.isClass className) = true := by
    simp [hclass.ne_empty, hclass.isClass]
  rw [Check.run_checkCall hcall, constructorDiagnostics, if_pos hknown]

/-- A call with a tuple for a parameter of length `m` is reported by the number of its elements and
extras together, unless that is zero. This is as it should be exactly if the tuple has no extras,
and is not empty for a parameter of another length. -/
theorem tuple_length_reported_iff {σ : Type} {k : Known} {ask : AskClass σ} {s : σ}
    {className name content : String} {c : ParamClass} {imports : Imports} {n call : Node} {m : Int}
    {argument : Argument} (hdeclares : DeclaresTuple imports n m) (hclass : Finds k className c)
    (hp : c.get? name = some (parameter imports content n name))
    (hcall : (instanceClass? k ask call s).1 = some className)
    (hargument : call.keywords.get? name = some argument) (htuple : argument.value.kind = .tuple) :
    let reported := (argumentDiagnostics k className name argument).filter
      fun d => d.rule = .lengthMismatch
    let elements := (tupleElements argument.value).length
    let counted := elements + (extras argument.value).length
    ((checkCall k ask call s).1 = call.keywords.entries.flatMap fun entry =>
        argumentDiagnostics k className entry.1 entry.2) ∧
      (name, argument) ∈ call.keywords.entries ∧
      (reported = if counted = 0 then [] else lengthReport name argument.site counted m) ∧
      (reported = lengthReport name argument.site elements m ↔
        extras argument.value = [] ∧ (elements = 0 → m = 0)) := by
  intro reported elements counted
  obtain ⟨htype, hlength⟩ := hdeclares.parameter_eq content name
  have hreported : reported =
      if counted = 0 then [] else lengthReport name argument.site counted m := by
    exact (filter_argumentDiagnostics (hclass.parameter?_eq hp) htype htuple).trans
      (lengthDiagnostics_eq hlength name argument.site htuple)
  refine ⟨hclass.run_checkCall hcall, Table.mem_entries_of_get? hargument, hreported, ?_⟩
  rw [hreported, ← List.length_eq_zero_iff]
  by_cases hcounted : counted = 0
  · have hnone : elements = 0 ∧ (extras argument.value).length = 0 := by omega
    rw [if_pos hcounted, hnone.1, lengthReport]
    split
    · next hm => simpa [hnone.2] using hm.symm
    · next hm => simpa [hnone.2] using Ne.symm hm
  · rw [if_neg hcounted, lengthReport_eq_iff]
    omega

section

open Sketch

/-- A file with a class whose parameter asks for pairs, and with calls of the class with tuples that
have this between their parentheses. -/
def pairFile (tuples : List (List Sketch)) : Sketch :=
  file ([importsModule ["param"],
      classed "A" [rootBase] [declares "t" "Tuple" [keyword "length" (number "2")]]] ++
    tuples.map fun inside => evaluates (call (name "A")
      [keyword "t" (phrase .tuple none (mark "(" :: inside ++ [mark ")"]))]))

/-- A tuple of three elements, with a comma after the last one. -/
def threeFile : Sketch :=
  pairFile [[number "1", mark ",", number "2", mark ",", number "3", mark ","]]

/-- The empty tuple, and a pair with a comment in it. -/
def mistakenFile : Sketch :=
  pairFile [[], [number "1", mark ",", token (.other "comment") none (.blank 2) "# note",
    (number "2").behind (.line 4)]]

end

/-- The declaration of the parameter. -/
def pairDeclaration : Node := threeFile.nodeAt [1, 4, 0, 0]

/-- The argument of the call. -/
def threeArgument : Argument := ⟨threeFile.nodeAt [2, 0, 1, 1, 2], threeFile.nodeAt [2, 0, 1, 1]⟩

/-- A class with the parameter. -/
def pairClass : ParamClass :=
  (ParamClass.ofName "A").add (parameter ∅ threeFile.written pairDeclaration "t")

/-- The class as the only one of a file. -/
def pairKnown : Known where
  classes := (∅ : Classes).insert "A:1" pairClass
  external := ∅
  imports := ∅
  isDeclaration := fun _ => false

/-- A tuple of three is reported for a length of two, as it should be. -/
theorem tuple_length_reported_three :
    DeclaresTuple ∅ pairDeclaration 2 ∧ (tupleElements threeArgument.value).length = 3 ∧
      ((argumentDiagnostics pairKnown "A:1" "t" threeArgument).filter
        fun d => d.rule = .lengthMismatch) = lengthReport "t" threeArgument.site 3 2 := by
  have hdeclares : DeclaresTuple ∅ pairDeclaration 2 := ⟨_, _, _, rfl, rfl, rfl, rfl, rfl⟩
  have hclass : Finds pairKnown (Classes.key "A" 1) pairClass := .inFile rfl
  have hcall : (instanceClass? pairKnown noLibrary (threeFile.nodeAt [2, 0]) ()).1 =
      some (Classes.key "A" 1) := rfl
  have hp : pairClass.get? "t" = some (parameter ∅ threeFile.written pairDeclaration "t") := rfl
  have hargument : (threeFile.nodeAt [2, 0]).keywords.get? "t" = some threeArgument := rfl
  obtain ⟨-, -, -, hiff⟩ := tuple_length_reported_iff hdeclares hclass hp hcall hargument rfl
  exact ⟨hdeclares, rfl, hiff.mpr ⟨rfl, by decide⟩⟩

open Analysis in
/-- The pair is reported as a tuple of three elements, and the empty tuple is not reported. -/
theorem tuple_length_mistaken :
    let w := World.sketched [(["a.py"], mistakenFile)]
    ((analyzeFile w mistakenFile.written none).run (fresh w none [] {})).1.map
      (fun a => a.diagnostics.map fun d => (d.rule, d.message)) =
        .ok [(.lengthMismatch, "Tuple parameter 't' has 3 elements, expected 2")] := by
  decide +kernel

end ParamLens.Check
