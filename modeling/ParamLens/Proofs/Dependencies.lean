import ParamLens.Proofs.Attribution
import ParamLens.Proofs.SingleFile
import ParamLens.Syntax.Backwards

/-! The names on which methods depend. A decorator is judged for the nearest class around it. Names
of parameters and methods are looked for in that class alone. For a member of a parameter, as in
`p.q`, the type of the parameter is that of the first class with the same name which has the
parameter, so that another class of the name can decide. -/

namespace ParamLens

/-- The names of the parameters of a class, each with its type. -/
def ParamClass.declaredTypes (c : ParamClass) : List (String × String) :=
  c.parameters.entries.map fun entry => (entry.1, entry.2.typeName)

namespace ParamClass

variable {c : ParamClass} {name type : String}

theorem map_fst_declaredTypes (c : ParamClass) :
    c.declaredTypes.map Prod.fst = c.parameterNames := by
  rw [declaredTypes, List.map_map]
  rfl

theorem mem_declaredTypes :
    (name, type) ∈ c.declaredTypes ↔ ∃ p, c.get? name = some p ∧ p.typeName = type := by
  rw [declaredTypes, List.mem_map]
  constructor
  · rintro ⟨entry, hentry, heq⟩
    obtain ⟨rfl, rfl⟩ := Prod.mk.inj heq
    exact ⟨entry.2, Table.get?_of_mem_entries hentry, rfl⟩
  · rintro ⟨p, hget, rfl⟩
    exact ⟨(name, p), Table.mem_entries_of_get? hget, rfl⟩

theorem mem_parameterNames : name ∈ c.parameterNames ↔ ∃ p, c.get? name = some p :=
  Table.mem_names_iff

theorem declaredTypes_ne_nil : c.declaredTypes ≠ [] ↔ c.parameterNames ≠ [] := by
  rw [← map_fst_declaredTypes, Ne, Ne, List.map_eq_nil_iff]

end ParamClass

end ParamLens

namespace ParamLens.Check

open Syntax Analysis

/-! ### References -/

/-- What a name on which a method depends refers to. -/
inductive Reference where
  /-- Something said about a parameter, as in `p:constant`. -/
  | about (parameter : String)
  /-- A member of what a parameter holds, as in `p.q`. -/
  | member (parameter : String)
  /-- A parameter or a method. -/
  | itself (name : String)

namespace Reference

def ofName (name : String) : Reference :=
  if ':' ∈ name.toList then .about ((Text.split ':' name).headD "")
  else if '.' ∈ name.toList then .member ((Text.split '.' name).headD "")
  else .itself name

/-- A class with the parameters and the methods has what is referred to. -/
def Accepted (types : List (String × String)) (methods : List String) : Reference → Prop
  | .about parameter => parameter ∈ types.map Prod.fst
  | .member parameter => ∃ type, (parameter, type) ∈ types ∧ holdsObjects type = true
  | .itself name => name ∈ types.map Prod.fst ∨ name ∈ methods

/-- Classes without parameters reject nothing. -/
def Rejected (types : List (String × String)) (methods : List String) (r : Reference) : Prop :=
  types ≠ [] ∧ ¬ r.Accepted types methods

end Reference

/-- The first class of the name that has the parameter gives it the type. -/
def FirstTyped (k : Known) (className parameter type : String) : Prop :=
  ∃ before key c after, k.classes.entries = before ++ (key, c) :: after ∧
    Classes.keyHasName className key = true ∧ (parameter, type) ∈ c.declaredTypes ∧
    ∀ entry ∈ before, Classes.keyHasName className entry.1 = true →
      parameter ∉ entry.2.parameterNames

/-- Where a member is referred to, the class agrees with the first class of its name that has the
parameter on whether the parameter can hold objects. -/
def TypedAlike (k : Known) (className : String) (c : ParamClass) : Reference → Prop
  | .member parameter => ∀ type first, (parameter, type) ∈ c.declaredTypes →
      FirstTyped k className parameter first → holdsObjects type = holdsObjects first
  | _ => True

section

variable {k : Known} {className name parameter type : String} {c : ParamClass}

theorem local?_eq_findSome? (hcolon : ':' ∉ className.toList) :
    k.local? className parameter = k.classes.entries.findSome? fun entry =>
      if Classes.keyHasName className entry.1 then entry.2.get? parameter else none := by
  rw [Known.local?, if_neg (by simpa using hcolon), ← List.filterMap_eq_filter,
    findSome?_filterMap]
  refine findSome?_congr fun entry _ => ?_
  by_cases hkey : Classes.keyHasName className entry.1 = true <;> simp [Option.guard, hkey]

theorem firstTyped_iff (hcolon : ':' ∉ className.toList) :
    FirstTyped k className parameter type ↔
      ∃ p, k.local? className parameter = some p ∧ p.typeName = type := by
  have hmiss (entry : String × ParamClass) :
      (if Classes.keyHasName className entry.1 then entry.2.get? parameter else none) = none ↔
        (Classes.keyHasName className entry.1 = true → parameter ∉ entry.2.parameterNames) := by
    rw [ParamClass.mem_parameterNames, ← Option.isSome_iff_exists, Option.not_isSome_iff_eq_none]
    by_cases hkey : Classes.keyHasName className entry.1 = true <;> simp [hkey]
  simp only [local?_eq_findSome? hcolon, List.findSome?_eq_some_iff, hmiss, FirstTyped,
    ParamClass.mem_declaredTypes]
  constructor
  · rintro ⟨before, key, c, after, hentries, hkey, ⟨p, hget, htype⟩, hbefore⟩
    exact ⟨p, ⟨before, (key, c), after, hentries, by rw [if_pos hkey, hget], hbefore⟩, htype⟩
  · rintro ⟨p, ⟨before, ⟨key, c⟩, after, hentries, hget, hbefore⟩, htype⟩
    by_cases hkey : Classes.keyHasName className key = true
    · rw [if_pos hkey] at hget
      exact ⟨before, key, c, after, hentries, hkey, ⟨p, hget, htype⟩, hbefore⟩
    · rw [if_neg hkey] at hget
      cases hget

/-! ### The verdict on a name -/

/-- The nearest class around a node. -/
def nearestClass? (ancestors : List Node) : Option Node :=
  ancestors.find? (·.kind == .classDefinition)

/-- The class of the node is registered with what it declares and inherits. No class of a library
has the plain name for its full name. -/
structure Registered (k : Known) (n : Node) (className : String) (c : ParamClass) : Prop where
  name : n.className? = some className
  entered : k.classes.get? (Classes.key className n.row) = some c
  noLibrary : k.external? className = none

/-- What is reported about a name that a class does not have. -/
def complaint (className name : String) (site : Node) : Diagnostic :=
  .atNode site .unknownDependency s!"Parameter '{name}' does not exist in class '{className}'"

theorem complaint_inj {other : String} {site site' : Node}
    (h : complaint className name site = complaint className other site') : name = other := by
  have hmessage : s!"Parameter '{name}' does not exist in class '{className}'" =
      s!"Parameter '{other}' does not exist in class '{className}'" :=
    congrArg Diagnostic.message h
  rwa [String.append_left_inj, String.append_left_inj, String.append_left_inj,
    String.append_right_inj] at hmessage

theorem mem_decoratorDiagnostics {place : Node.Located} {n : Node} {d : Diagnostic}
    (hclass : knownClassAround? k place.ancestors = some (className, n)) :
    d ∈ decoratorDiagnostics k place ↔ parametersOf k className n ≠ [] ∧
      ∃ name site, (name, site) ∈ dependencies place.node ∧
        isValidDependency k (parametersOf k className n) (methodsOf n) className name = false ∧
        d = complaint className name site := by
  rw [decoratorDiagnostics, hclass]
  dsimp only
  split
  · next hnil => simp [hnil]
  · next hcons =>
    simp only [List.mem_filterMap, Prod.exists, Option.ite_none_left_eq_some, Option.some.injEq,
      Bool.not_eq_true, complaint, eq_comm (a := d)]
    exact ⟨fun h => ⟨hcons, h⟩, fun h => h.2⟩

theorem complaint_mem_decoratorDiagnostics {place : Node.Located} {n site : Node}
    (hclass : knownClassAround? k place.ancestors = some (className, n))
    (hname : (name, site) ∈ dependencies place.node) :
    complaint className name site ∈ decoratorDiagnostics k place ↔
      parametersOf k className n ≠ [] ∧
        isValidDependency k (parametersOf k className n) (methodsOf n) className name = false := by
  rw [mem_decoratorDiagnostics hclass]
  refine and_congr_right fun _ => ⟨?_, fun hinvalid => ⟨name, site, hname, hinvalid, rfl⟩⟩
  rintro ⟨other, site', -, hinvalid, heq⟩
  rwa [complaint_inj heq]

/-- A name is valid as the class has it. For a member, the classes of the same name tell what the
parameter holds. -/
theorem isValidDependency_iff {methods : List String} :
    isValidDependency k c.parameterNames methods className name = true ↔
      match Reference.ofName name with
      | .member parameter => parameter ∈ c.parameterNames ∧
          ∃ p, k.parameter? className parameter = some p ∧ holdsObjects p.typeName = true
      | r => r.Accepted c.declaredTypes methods := by
  unfold isValidDependency Reference.ofName
  simp only [List.contains_iff_mem]
  split
  · simp [Reference.Accepted, ParamClass.map_fst_declaredTypes]
  · split
    · simp [Option.any_eq_true]
    · simp [Reference.Accepted, ParamClass.map_fst_declaredTypes]

theorem keyHasName_key_self (className : String) (row : Nat) :
    Classes.keyHasName className (Classes.key className row) = true := by
  simp [Classes.keyHasName, Classes.key, Text.startsWith]

namespace Registered

variable {n : Node} (registered : Registered k n className c)

include registered

theorem knownClassAround? {ancestors : List Node} (hnearest : nearestClass? ancestors = some n) :
    knownClassAround? k ancestors = some (className, n) := by
  have hknown : (k.classes.keyOf? className).isSome = true := by
    rw [Classes.keyOf?, Option.isSome_map, Table.findName?, List.find?_isSome]
    exact ⟨_, Table.mem_entries_of_get? registered.entered, keyHasName_key_self _ _⟩
  obtain ⟨hkind, before, after, hsplit, hbefore⟩ := List.find?_eq_some_iff_append.mp hnearest
  refine List.findSome?_eq_some_iff.mpr ⟨before, n, after, hsplit, ?_, fun m hm => ?_⟩
  · rw [if_pos hkind, registered.name]
    simp [Option.filter, hknown]
  · rw [if_neg (by simpa using hbefore m hm)]

theorem parametersOf : parametersOf k className n = c.parameterNames := by
  rw [Check.parametersOf, registered.noLibrary, registered.entered]
  rfl

/-- The class itself is one of its name, so that some class of the name has the parameter. -/
theorem exists_firstTyped (hcolon : ':' ∉ className.toList)
    (hparameter : parameter ∈ c.parameterNames) :
    ∃ first, FirstTyped k className parameter first := by
  obtain ⟨p, hget⟩ := ParamClass.mem_parameterNames.mp hparameter
  have hsome : (k.local? className parameter).isSome = true := by
    rw [local?_eq_findSome? hcolon, List.findSome?_isSome_iff]
    refine ⟨_, Table.mem_entries_of_get? registered.entered, ?_⟩
    rw [if_pos (keyHasName_key_self _ _), hget]
    rfl
  obtain ⟨found, hfound⟩ := Option.isSome_iff_exists.mp hsome
  exact ⟨found.typeName, (firstTyped_iff hcolon).mpr ⟨found, hfound, rfl⟩⟩

/-- A name in a decorator is reported exactly if its own class rejects it, unless another class of
the same name tells that the parameter of a member holds something else. -/
theorem reported_iff_rejected {place : Node.Located} {site : Node}
    (hnearest : nearestClass? place.ancestors = some n) (hcolon : ':' ∉ className.toList)
    (hname : (name, site) ∈ dependencies place.node) :
    (complaint className name site ∈ decoratorDiagnostics k place ↔
      (Reference.ofName name).Rejected c.declaredTypes (methodsOf n)) ↔
        TypedAlike k className c (Reference.ofName name) := by
  rw [complaint_mem_decoratorDiagnostics (registered.knownClassAround? hnearest) hname,
    registered.parametersOf, ← Bool.not_eq_true, isValidDependency_iff, Reference.Rejected,
    ParamClass.declaredTypes_ne_nil]
  cases hreference : Reference.ofName name with
  | about parameter => simp [TypedAlike]
  | itself name => simp [TypedAlike]
  | member parameter =>
    dsimp only [TypedAlike, Reference.Accepted]
    by_cases hparameter : parameter ∈ c.parameterNames
    · obtain ⟨first, hfirst⟩ := registered.exists_firstTyped hcolon hparameter
      obtain ⟨p, hp⟩ := ParamClass.mem_parameterNames.mp hparameter
      obtain ⟨found, hfound, rfl⟩ := (firstTyped_iff hcolon).mp hfirst
      have hfoundParameter : k.parameter? className parameter = some found := by
        rw [Known.parameter?, hfound, Option.some_or]
      have hown (type : String) : (parameter, type) ∈ c.declaredTypes ↔ type = p.typeName := by
        simp [ParamClass.mem_declaredTypes, hp, eq_comm]
      have honly (type : String) :
          FirstTyped k className parameter type ↔ type = found.typeName := by
        simp [firstTyped_iff hcolon, hfound, eq_comm]
      have hne : c.parameterNames ≠ [] := List.ne_nil_of_mem hparameter
      simp only [hown, honly, hfoundParameter, hparameter, hne, Option.some.injEq, true_and, ne_eq,
        not_false_eq_true, exists_eq_left, exists_eq_left', not_iff_not]
      constructor
      · rintro hsame type first rfl rfl
        exact Bool.eq_iff_iff.mpr hsame.symm
      · intro halike
        rw [halike _ _ rfl rfl]
    · have hmissing (type : String) : (parameter, type) ∉ c.declaredTypes := by
        rw [ParamClass.mem_declaredTypes]
        rintro ⟨p, hp, -⟩
        exact hparameter (ParamClass.mem_parameterNames.mpr ⟨p, hp⟩)
      simp [hparameter, hmissing]

end Registered

/-- The diagnostics are those of the place: each is about a name in the decorator, and a name is
reported exactly if the nearest class around the place rejects it by its own parameters and methods,
apart from members of a parameter that another class of the same name gives another type. -/
structure JudgedByOwnClass (k : Known) (place : Node.Located) (ds : List Diagnostic) : Prop where
  sites : ∀ d ∈ ds, ∃ className name site, (name, site) ∈ dependencies place.node ∧
    d = complaint className name site
  verdict {n : Node} {className : String} {c : ParamClass} :
    nearestClass? place.ancestors = some n → Registered k n className c →
    ':' ∉ className.toList → ∀ name site, (name, site) ∈ dependencies place.node →
      ((complaint className name site ∈ ds ↔
        (Reference.ofName name).Rejected c.declaredTypes (methodsOf n)) ↔
          TypedAlike k className c (Reference.ofName name))

theorem judgedByOwnClass_decoratorDiagnostics (k : Known) (place : Node.Located) :
    JudgedByOwnClass k place (decoratorDiagnostics k place) where
  sites d hd := by
    cases hclass : knownClassAround? k place.ancestors with
    | none => simp [decoratorDiagnostics, hclass] at hd
    | some found =>
      obtain ⟨-, name, site, hname, -, heq⟩ := (mem_decoratorDiagnostics hclass).mp hd
      exact ⟨found.1, name, site, hname, heq⟩
  verdict hnearest registered hcolon _ _ hname :=
    registered.reported_iff_rejected hnearest hcolon hname

end

end ParamLens.Check

namespace ParamLens.Analysis

open Syntax Steps Check

/-- What an analysis reports about names on which methods depend comes from the decorators of the
file, one after another. -/
theorem exists_reports_of_decorators {w : World} {content : String} {current : Option Path}
    {s next : AnalysisState} {a : Analysis} {root : Node}
    {R : Node.Located → List Diagnostic → Prop}
    (h : (analyzeFile w content current).run s = (.ok a, next))
    (htree : w.parse? content = some root)
    (hplace : ∀ place ∈ root.located,
      R place (decoratorDiagnostics (knownOf w next.analyzer) place)) :
    ∃ reports : List (List Diagnostic),
      (a.diagnostics.filter fun d => d.rule = .unknownDependency) = reports.flatten ∧
      List.Forall₂ R (w.finder.found .memberDecorators root) reports := by
  obtain ⟨-, prepared, hdiagnostics⟩ := exists_diagnostics_eq h htree
  rw [hdiagnostics, filter_checkFile_decorators, List.flatMap_def]
  refine ⟨_, rfl, ?_⟩
  rw [List.forall₂_map_right_iff]
  exact List.forall₂_same.mpr fun place hmem =>
    hplace place (Finder.mem_found_iff.mp hmem).1

/-- A name on which a method depends is judged by the nearest class around its decorator, except
that the type of a parameter whose member is named is looked up by the name of the class. -/
theorem dependencies_judged_by_own_class {w : World} {content : String} {current : Option Path}
    {s next : AnalysisState} {a : Analysis} {root : Node}
    (h : (analyzeFile w content current).run s = (.ok a, next))
    (htree : w.parse? content = some root) :
    ∃ reports : List (List Diagnostic),
      (a.diagnostics.filter fun d => d.rule = .unknownDependency) = reports.flatten ∧
      List.Forall₂ (JudgedByOwnClass (knownOf w next.analyzer))
        (w.finder.found .memberDecorators root) reports :=
  exists_reports_of_decorators h htree fun place _ =>
    judgedByOwnClass_decoratorDiagnostics (knownOf w next.analyzer) place

section

open Sketch

/-- A function with a class `K` that has a parameter `p` of a type. -/
def localClass (own type : String) (methods : List Statement) : Statement :=
  function own [] [classed "K" [rootBase] (declares "p" type [] :: methods)]

/-- A method that depends on names. -/
def dependsOn (dependencies : List String) (own : String) : Statement :=
  decorated (call (member "param" "depends") (dependencies.map quoted)) (function own ["self"] [])

/-- A class with a parameter that holds an object and a method that depends on a member of it. -/
def holding : Statement := localClass "one" "ClassSelector" [dependsOn ["p.q"] "f"]

/-- The class alone. -/
def holderFile : Sketch := file [importsModule ["param"], holding]

/-- The same class between two others of its name, whose parameter is a number. -/
def twinFile : Sketch :=
  file [importsModule ["param"], localClass "zero" "Integer" [], holding,
    localClass "two" "Integer" []]

end

/-- The files, in which searches are made in some way. -/
def twinWorld (f : Finder) : World :=
  { World.sketched [(["a.py"], holderFile), (["b.py"], twinFile)] with finder := f }

def holderClass : Node := twinFile.nodeAt [2, 4, 0]

/-- The class does not reject the member, and yet it is reported: the first class of the name gives
the parameter another type. -/
theorem dependencies_judged_in_twins : ∃ a next c,
    (analyzeFile (twinWorld .inText) twinFile.written none).run
      (fresh (twinWorld .inText) none [] {}) = (.ok a, next) ∧
    Registered (knownOf (twinWorld .inText) next.analyzer) holderClass "K" c ∧
    ¬ (Reference.ofName "p.q").Rejected c.declaredTypes (methodsOf holderClass) ∧
    ¬ TypedAlike (knownOf (twinWorld .inText) next.analyzer) "K" c (.ofName "p.q") := by
  let w := twinWorld .inText
  let site := twinFile.nodeAt [2, 4, 0, 4, 1, 0, 1, 1, 1]
  have hanswer : ((analyzeFile w twinFile.written none).run (fresh w none [] {})).1.map
      (·.diagnostics) = .ok [complaint "K" "p.q" site] := by decide +kernel
  have hclass : (((analyzeFile w twinFile.written none).run
      (fresh w none [] {})).2.analyzer.latest.classes.get? "K:5").map
        ParamClass.declaredTypes = some [("p", "ClassSelector")] := by decide +kernel
  have hlibrary : (((analyzeFile w twinFile.written none).run
      (fresh w none [] {})).2.analyzer.external.get? "K").isSome = false := by
    decide +kernel
  rcases hrun : (analyzeFile w twinFile.written none).run (fresh w none [] {}) with ⟨result, next⟩
  rw [hrun] at hanswer hclass hlibrary
  cases result with
  | error failure => cases hanswer
  | ok a =>
    obtain ⟨c, hget, htypes⟩ := Option.map_eq_some_iff.mp hclass
    have registered : Registered (knownOf w next.analyzer) holderClass "K" c :=
      ⟨rfl, hget, by simp_all [Known.external?, knownOf]⟩
    have haccepted :
        ¬ (Reference.ofName "p.q").Rejected c.declaredTypes (methodsOf holderClass) := by
      rw [htypes]
      exact fun hrejected => hrejected.2 ⟨"ClassSelector", List.mem_singleton.mpr rfl, rfl⟩
    refine ⟨a, next, c, rfl, registered, haccepted, fun halike => haccepted ?_⟩
    have htree : w.parse? twinFile.written = some twinFile.node :=
      @World.parse?_sketched [(["a.py"], holderFile), (["b.py"], twinFile)] (by decide +kernel)
        (["b.py"], twinFile) (.tail _ (.head _))
    obtain ⟨reports, hreports, hjudged⟩ := dependencies_judged_by_own_class hrun htree
    obtain ⟨place, hplaces, hnearest, hdependencies⟩ : ∃ place,
        w.finder.found .memberDecorators twinFile.node = [place] ∧
        nearestClass? place.ancestors = some holderClass ∧
        dependencies place.node = [("p.q", site)] := ⟨_, rfl, rfl, rfl⟩
    rw [hplaces] at hjudged
    obtain ⟨ds, rest, hds, hrest, rfl⟩ := List.forall₂_cons_left_iff.mp hjudged
    obtain rfl := List.forall₂_nil_left_iff.mp hrest
    have hdiagnostics : a.diagnostics = [complaint "K" "p.q" site] := Except.ok.inj hanswer
    have hreported : complaint "K" "p.q" site ∈ ds := by
      have hkept : complaint "K" "p.q" site ∈ [ds].flatten := by
        rw [← hreports, hdiagnostics]
        exact List.mem_filter.mpr ⟨List.mem_singleton.mpr rfl, rfl⟩
      simpa using hkept
    have hverdict := hds.verdict hnearest registered (by decide) "p.q" site
      (hdependencies ▸ List.mem_singleton.mpr rfl)
    exact (hverdict.mpr halike).mp hreported

/-- The member is valid for the class alone. It is reported as soon as a class of the name that is
found before gives the parameter a type that holds no objects, whether searches go through the text
from its start or from its end. -/
theorem twins_reported :
    let found (f : Finder) (file : Sketch) (key : String) :=
      ((analyzeFile (twinWorld f) file.written none).run (fresh (twinWorld f) none [] {})).1.map
        fun a => (a.classes.contains key, a.diagnostics.map (·.message))
    let complaints := ["Parameter 'p.q' does not exist in class 'K'"]
    (found .inText holderFile "K:2" = .ok (true, []) ∧
      found .inText twinFile "K:5" = .ok (true, complaints)) ∧
    found .fromEnd holderFile "K:2" = .ok (true, []) ∧
      found .fromEnd twinFile "K:5" = .ok (true, complaints) := by
  decide +kernel

end ParamLens.Analysis
