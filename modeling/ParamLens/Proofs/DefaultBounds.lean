import ParamLens.Check.Default
import ParamLens.Proofs.KnownTypes
import ParamLens.Proofs.Verdicts

/-! Bounds of defaults. The check of a declaration reads bounds anew, and not as they are read into
the parameter: it hears of a tuple of two numbers only, and takes the flags of the ends from a tuple
only. So every default that it reports is reported in a call of the class as well, and the others
that are reported there are those whose bounds or flags it does not read. -/

namespace ParamLens.Check

open Syntax Declaration

/-! ### The elements of bounds -/

/-- The node is an element of the tuple or list around it: it is neither punctuation nor a
comment. -/
def isElement (n : Node) : Bool :=
  match n.kind with
  | .openParen | .closeParen | .openBracket | .closeBracket | .comma | .other "comment" => false
  | _ => true

/-- The node is a tuple or a list of two elements. -/
structure IsPair (n low high : Node) : Prop where
  sequence : isSequence n = true
  elements : n.children.filter isElement = [low, high]

theorem isElement_of_isRangeEnd {n : Node} (h : isRangeEnd n = true) : isElement n = true := by
  obtain ⟨kind, span, text, role, children⟩ := n
  cases kind
  all_goals first | rfl | cases h

theorem isRangeEnd_of_isDeclaredEnd {n : Node} (h : isDeclaredEnd n = true) :
    isRangeEnd n = true := by
  obtain ⟨kind, span, text, role, children⟩ := n
  cases kind
  all_goals first | rfl | cases h

theorem isDeclaredEnd_of_number? {n : Node} {x : Number} (h : n.number? = some x) :
    isDeclaredEnd n = true := by
  obtain ⟨kind, span, text, role, children⟩ := n
  cases kind
  all_goals first | rfl | cases h

namespace IsPair

variable {n low high : Node}

/-- A reader that looks at some of the elements finds those of the two that it looks at. -/
theorem filter_eq (h : IsPair n low high) {test : Node → Bool}
    (htest : ∀ m, test m = true → isElement m = true) :
    n.children.filter test = [low, high].filter test := by
  rw [← h.elements, List.filter_filter]
  refine List.filter_congr fun m _ => ?_
  cases hm : test m with
  | false => rfl
  | true => rw [htest m hm, Bool.and_self]

theorem rangeEnds?_eq (h : IsPair n low high) {least greatest : Number}
    (hlow : low.number? = some least) (hhigh : high.number? = some greatest) :
    rangeEnds? n = some (some least, some greatest) := by
  have hlow' := isRangeEnd_of_isDeclaredEnd (isDeclaredEnd_of_number? hlow)
  have hhigh' := isRangeEnd_of_isDeclaredEnd (isDeclaredEnd_of_number? hhigh)
  have hends : n.children.filter isRangeEnd = [low, high] := by
    rw [h.filter_eq fun _ => isElement_of_isRangeEnd]
    simp [hlow', hhigh']
  simp only [rangeEnds?, h.sequence, if_true, hends, hlow, hhigh]

theorem declaredEnds?_eq_some_iff (h : IsPair n low high) {least greatest : Number} :
    declaredEnds? n = some (least, greatest) ↔
      n.kind = .tuple ∧ low.number? = some least ∧ high.number? = some greatest := by
  have hends : n.children.filter isDeclaredEnd = [low, high].filter isDeclaredEnd :=
    h.filter_eq fun m hm => isElement_of_isRangeEnd (isRangeEnd_of_isDeclaredEnd hm)
  rw [declaredEnds?, hends]
  constructor
  · intro hsome
    split at hsome
    · next htuple =>
      split at hsome
      · next first second rest hfirst =>
        have hboth : [low, high].filter isDeclaredEnd = [low, high] :=
          List.filter_sublist.eq_of_length_le (by simp [hfirst])
        obtain ⟨rfl, rfl, -⟩ : first = low ∧ second = high ∧ rest = [] := by
          simpa using hfirst.symm.trans hboth
        obtain ⟨least', hleast, hsome⟩ := Option.bind_eq_some_iff.mp hsome
        obtain ⟨greatest', hgreatest, hsome⟩ := Option.bind_eq_some_iff.mp hsome
        cases hsome
        exact ⟨beq_iff_eq.mp htuple, hleast, hgreatest⟩
      · cases hsome
    · cases hsome
  · rintro ⟨htuple, hlow, hhigh⟩
    simp [htuple, isDeclaredEnd_of_number? hlow, isDeclaredEnd_of_number? hhigh, hlow, hhigh]

end IsPair

/-! ### The two checks -/

/-- The range between two numbers, with flags that say whether each end belongs to it. -/
def rangeWith (least greatest : Number) (flags : Bool × Bool) : Range :=
  ⟨.number least, .number greatest, .flag flags.1, .flag flags.2⟩

/-- The flags that a call gives, as a tuple or as a list. -/
def givenFlags (call : Node) : Bool × Bool :=
  ((call.keywordValue? "inclusive_bounds").bind flags?).getD (true, true)

section

variable {imports : Imports} {n call : Node} {type name : String}

theorem reports_boundsDiagnostics_iff :
    Reports .defaultOutsideBounds (boundsDiagnostics n name call) ↔
      ∃ least greatest x,
        (call.keywordValue? "bounds").bind declaredEnds? = some (least, greatest) ∧
        (default? call).bind Node.number? = some x ∧
        (rangeWith least greatest (declaredFlags call)).excludes x = true := by
  unfold boundsDiagnostics
  cases (call.keywordValue? "bounds").bind declaredEnds? with
  | none => simp
  | some ends =>
    obtain ⟨least, greatest⟩ := ends
    dsimp only
    have horder (message : String) : ¬ Reports .defaultOutsideBounds (if greatest.le least then
        [Diagnostic.atNode n .invalidBounds message] else []) := by
      split <;> simp
    rw [reports_append, or_iff_right (horder _)]
    cases (default? call).bind Node.number? with
    | none => simp
    | some x =>
      dsimp only
      split
      · next hexcludes => simp [rangeWith, hexcludes]
      · next hexcludes => simp [rangeWith, hexcludes]

theorem reports_declarationDiagnostics_iff (hdeclared : declared? imports n = some (call, type))
    (htype : isBounded type = true) {d : Node} {x : Number} (hdefault : default? call = some d)
    (hd : d.number? = some x) :
    Reports .defaultOutsideBounds (declarationDiagnostics imports n name) ↔
      Reports .defaultOutsideBounds (boundsDiagnostics n name call) := by
  have hnotNone : (d.literalType? == some .noneType) = false := by
    refine beq_eq_false_iff_ne.mpr fun hnone => ?_
    rw [Node.number?_of_noneType hnone] at hd
    cases hd
  have hallowed : isAllowedDefault call type = false := by
    simp [isAllowedDefault, hdefault, hnotNone]
  have hothers : ¬ Reports .defaultOutsideBounds
      (defaultTypeDiagnostics n name call type ++ deprecationDiagnostics n type) := by
    rw [reports_append, not_or]
    exact ⟨among_defaultTypeDiagnostics.not_reports (by decide),
      among_deprecationDiagnostics.not_reports (by decide)⟩
  unfold declarationDiagnostics constraintDiagnostics
  simp only [hdeclared, hallowed, htype, if_true, Bool.false_eq_true, if_false]
  rw [reports_append, or_iff_right hothers]

theorem parameter_of_declared? (content name : String) (hn : n.kind = .assignment)
    (hdeclared : declared? imports n = some (call, type)) (hne : type ≠ "") :
    (parameter imports content n name).typeName = type ∧
      (parameter imports content n name).bounds = bounds? call := by
  obtain ⟨found, hfound, hrest⟩ := Option.bind_eq_some_iff.mp hdeclared
  obtain ⟨found', htype, hsome⟩ := Option.bind_eq_some_iff.mp hrest
  cases hsome
  have hdirect : n.directCall? = some call := by
    rwa [declaringCall?, hn, beq_self_eq_true, if_pos rfl] at hfound
  have hassigned : n.assignedCall? = some call := by
    rw [Node.assignedCall?, hdirect, Option.some_or]
  simp [parameter, hassigned, htype, hne]

theorem declaredFlags_eq_givenFlags
    (h : ∀ flags ∈ call.keywordValue? "inclusive_bounds", flags.kind ≠ .list) :
    declaredFlags call = givenFlags call := by
  rw [declaredFlags, givenFlags]
  cases hflags : call.keywordValue? "inclusive_bounds" with
  | none => rfl
  | some flags =>
    by_cases htuple : flags.kind = .tuple
    · simp [Option.filter_some, htuple]
    · have hnot : isSequence flags = false := by simp [isSequence, htuple, h flags hflags]
      simp [Option.filter_some, htuple, flags?, hnot]

theorem declaredFlags_of_list {flags : Node}
    (hflags : call.keywordValue? "inclusive_bounds" = some flags) (hlist : flags.kind = .list) :
    declaredFlags call = (true, true) := by
  simp [declaredFlags, hflags, Option.filter_some, hlist]

theorem excludes_closed_iff {least greatest x : Number} :
    (rangeWith least greatest (true, true)).excludes x = true ↔
      x.lt least = true ∨ greatest.lt x = true := by
  simp [rangeWith, Range.excludes, Range.isBelow, Range.isAbove, Bound.value?, Bound.isTrue]

theorem excludes_of_lt {least greatest x : Number}
    (h : x.lt least = true ∨ greatest.lt x = true) (flags : Bool × Bool) :
    (rangeWith least greatest flags).excludes x = true := by
  have hle {a b : Number} (hlt : a.lt b = true) : a.le b = true := by
    simp only [Number.lt, Number.le] at hlt ⊢
    simp [hlt]
  obtain ⟨lowClosed, highClosed⟩ := flags
  rw [Range.excludes, Bool.or_eq_true]
  refine h.imp (fun hbelow => ?_) fun habove => ?_
  · cases lowClosed
    · exact hle hbelow
    · exact hbelow
  · cases highClosed
    · exact hle habove
    · exact habove

theorem exceeds_iff_of_isPair {p : Parameter} {bounds low high value : Node}
    {least greatest x : Number} (htype : isBounded p.typeName = true)
    (hp : p.bounds = bounds? call) (hbounds : call.keywordValue? "bounds" = some bounds)
    (hpair : IsPair bounds low high) (hlow : low.number? = some least)
    (hhigh : high.number? = some greatest) (hvalue : value.number? = some x) :
    Exceeds p value ↔ (rangeWith least greatest (givenFlags call)).excludes x = true := by
  have hbounds' : bounds? call = some [.number least, .number greatest,
      .flag (givenFlags call).1, .flag (givenFlags call).2] := by
    simp [bounds?, hbounds, hpair.rangeEnds?_eq hlow hhigh, bound, givenFlags]
  have hrange : p.bounds.bind Range.ofBounds? =
      some (rangeWith least greatest (givenFlags call)) := by
    rw [hp, hbounds']
    rfl
  rw [← excess?_isSome_iff]
  simp [excess?, htype, hrange, hvalue]

end

/-- A numeric default is reported exactly if the same value is reported in a call of the class, the
bounds are a tuple of two numbers, and the flags of the ends are not a list unless the value lies
outside of the closed range. -/
theorem default_outside_bounds_iff {k : Known} {content className name type : String}
    {c : ParamClass} {n call bounds low high d : Node} {x : Number} {argument : Argument}
    (hn : n.kind = .assignment) (hdeclared : declared? k.imports n = some (call, type))
    (htype : type = "Number" ∨ type = "Integer")
    (hbounds : call.keywordValue? "bounds" = some bounds) (hpair : IsPair bounds low high)
    (hdefault : default? call = some d) (hd : d.number? = some x) (hclass : Finds k className c)
    (hp : c.get? name = some (parameter k.imports content n name))
    (halike : d.Alike argument.value) :
    Reports .defaultOutsideBounds (declarationDiagnostics k.imports n name) ↔
      Reports .constructorOutsideBounds (argumentDiagnostics k className name argument) ∧
      bounds.kind = .tuple ∧ ∃ least greatest, low.number? = some least ∧
        high.number? = some greatest ∧
        ((∀ flags ∈ call.keywordValue? "inclusive_bounds", flags.kind ≠ .list) ∨
          x.lt least = true ∨ greatest.lt x = true) := by
  have hbounded : isBounded type = true := by rcases htype with rfl | rfl <;> rfl
  have hne : type ≠ "" := by rcases htype with rfl | rfl <;> decide
  obtain ⟨hname, hsame⟩ := parameter_of_declared? content name hn hdeclared hne
  have hconstructor {least greatest : Number} (hlow : low.number? = some least)
      (hhigh : high.number? = some greatest) :
      Reports .constructorOutsideBounds (argumentDiagnostics k className name argument) ↔
        (rangeWith least greatest (givenFlags call)).excludes x = true := by
    rw [(reports_argumentDiagnostics (hclass.parameter?_eq hp) argument).2]
    exact exceeds_iff_of_isPair (hname ▸ hbounded) hsame hbounds hpair hlow hhigh
      (halike.number?_eq ▸ hd)
  have hdeclaration : Reports .defaultOutsideBounds (declarationDiagnostics k.imports n name) ↔
      bounds.kind = .tuple ∧ ∃ least greatest, low.number? = some least ∧
        high.number? = some greatest ∧
        (rangeWith least greatest (declaredFlags call)).excludes x = true := by
    rw [reports_declarationDiagnostics_iff hdeclared hbounded hdefault hd,
      reports_boundsDiagnostics_iff]
    simp [hbounds, hpair.declaredEnds?_eq_some_iff, hdefault, hd, and_assoc]
  rw [hdeclaration, and_left_comm]
  refine and_congr_right fun htuple => ?_
  constructor
  · rintro ⟨least, greatest, hlow, hhigh, hexcludes⟩
    by_cases hflags : ∀ flags ∈ call.keywordValue? "inclusive_bounds", flags.kind ≠ .list
    · rw [declaredFlags_eq_givenFlags hflags] at hexcludes
      exact ⟨(hconstructor hlow hhigh).mpr hexcludes, least, greatest, hlow, hhigh, .inl hflags⟩
    · push Not at hflags
      obtain ⟨flags, hflags, hlist⟩ := hflags
      rw [declaredFlags_of_list hflags hlist, excludes_closed_iff] at hexcludes
      exact ⟨(hconstructor hlow hhigh).mpr (excludes_of_lt hexcludes _), least, greatest, hlow,
        hhigh, .inr hexcludes⟩
  · rintro ⟨hreports, least, greatest, hlow, hhigh, hflags | houtside⟩
    · refine ⟨least, greatest, hlow, hhigh, ?_⟩
      rw [declaredFlags_eq_givenFlags hflags]
      exact (hconstructor hlow hhigh).mp hreports
    · exact ⟨least, greatest, hlow, hhigh, excludes_of_lt houtside _⟩

section

open Sketch

/-- A file with a class whose integer has the default minus five and these bounds, and with a call
of the class with minus five. -/
def boundedFile (low high : Sketch) : Sketch :=
  file [importsModule ["param"],
    classed "A" [rootBase] [declares "x" "Integer"
      [keyword "default" (minus "5"), keyword "bounds" (listed .tuple [low, high])]],
    evaluates (call (name "A") [keyword "x" (minus "5")])]

/-- Bounds without a missing end. -/
def digitFile : Sketch := boundedFile (number "0") (number "9")

/-- Bounds without an upper end. -/
def halfOpenFile : Sketch := boundedFile (number "0") (token .noneLiteral none (.blank 0) "None")

end

/-- The declaration of the integer. -/
def digitDeclaration : Node := digitFile.nodeAt [1, 4, 0, 0]

/-- The argument of the call. -/
def digitArgument : Argument := ⟨digitFile.nodeAt [2, 0, 1, 1, 2], digitFile.nodeAt [2, 0, 1, 1]⟩

/-- The class that declares the integer. -/
def digitClass : ParamClass :=
  (ParamClass.ofName "A").add (parameter ∅ digitFile.written digitDeclaration "x")

/-- The class as the only one of a file. -/
def digitKnown : Known where
  classes := (∅ : Classes).insert "A:1" digitClass
  external := ∅
  imports := ∅
  isDeclaration := fun _ => true

/-- Minus five is reported as a default between zero and nine, since it is in a call. -/
theorem default_outside_bounds_digits :
    Reports .constructorOutsideBounds (argumentDiagnostics digitKnown "A:1" "x" digitArgument) ∧
      Reports .defaultOutsideBounds (declarationDiagnostics ∅ digitDeclaration "x") := by
  have hdeclared : declared? digitKnown.imports digitDeclaration =
      some (digitFile.nodeAt [1, 4, 0, 0, 2], "Integer") := rfl
  have hbounds : (digitFile.nodeAt [1, 4, 0, 0, 2]).keywordValue? "bounds" =
      some (digitFile.nodeAt [1, 4, 0, 0, 2, 1, 3, 2]) := rfl
  have hpair : IsPair (digitFile.nodeAt [1, 4, 0, 0, 2, 1, 3, 2])
      (digitFile.nodeAt [1, 4, 0, 0, 2, 1, 3, 2, 1])
      (digitFile.nodeAt [1, 4, 0, 0, 2, 1, 3, 2, 3]) := ⟨rfl, rfl⟩
  have hclass : Finds digitKnown (Classes.key "A" 1) digitClass := .inFile rfl
  have hp : digitClass.get? "x" =
      some (parameter digitKnown.imports digitFile.written digitDeclaration "x") := rfl
  have halike : (digitFile.nodeAt [1, 4, 0, 0, 2, 1, 1, 2]).Alike digitArgument.value :=
    .intro (.cons (.intro .nil) (.cons (.intro .nil) .nil))
  have hreports : Reports .constructorOutsideBounds
      (argumentDiagnostics digitKnown (Classes.key "A" 1) "x" digitArgument) := by
    decide +kernel
  have hiff := default_outside_bounds_iff rfl hdeclared (.inr rfl) hbounds hpair rfl rfl hclass hp
    halike
  exact ⟨hreports, hiff.mpr ⟨hreports, rfl, _, _, rfl, rfl, .inl (by decide +kernel)⟩⟩

open Analysis in
/-- With a missing end the call is reported, and the default is not. -/
theorem default_unreported_half_open :
    let w := World.sketched [(["a.py"], halfOpenFile)]
    ((analyzeFile w halfOpenFile.written none).run (fresh w none [] {})).1.map
      (fun a => a.diagnostics.map (·.rule)) = .ok [.constructorOutsideBounds] := by
  decide +kernel

end ParamLens.Check
