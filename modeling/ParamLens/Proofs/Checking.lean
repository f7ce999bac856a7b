import ParamLens.Check.File
import ParamLens.Proofs.Steps
import ParamLens.Proofs.Tables

/-! What the checks of a file read from the table of library classes: the entries under the names
that the file can have for a class, and for each parameter name that it assigns on a plain name the
first entry with such a parameter. Tables in which these readings agree give the same
diagnostics. -/

namespace ParamLens.Check

open Syntax Steps

/-! ### Readings -/

/-- The names that a call can have for the class of which it makes an instance. -/
def calledNames (imports : Imports) (call : Node) : List String :=
  match call.children.head? with
  | none => []
  | some function =>
    function.text :: (((function.child? .attribute).map Node.text).toList ++
      (Imports.expand imports function.chain).toList)

/-- The object to whose attribute a node assigns. -/
def assignedObject? (n : Node) : Option Node := (n.child? .left).bind (·.child? .object)

/-- The names under which the checks of a file look for classes of libraries. -/
def lookedUp (classes : Classes) (imports : Imports) (root : Node) : List String :=
  classes.names ++ root.located.flatMap fun place =>
    calledNames imports place.node ++
      (assignedObject? place.node).toList.flatMap (calledNames imports) ++
      place.ancestors.filterMap Node.className?

/-- The names of the attributes to which a file assigns on a plain name. -/
def assignedNames (root : Node) : List String :=
  root.located.filterMap fun place => do
    let target ← place.node.child? .left
    let object ← target.child? .object
    if object.kind == .identifier then (target.child? .attribute).map Node.text else none

/-- What is known agrees but for the table of library classes, and the checks of the file read the
same from the two tables. -/
structure SameReadings (root : Node) (k k' : Known) : Prop where
  classes : k.classes = k'.classes
  imports : k.imports = k'.imports
  isDeclaration : k.isDeclaration = k'.isDeclaration
  finder : k.finder = k'.finder
  named (name : String) (looked : name ∈ lookedUp k.classes k.imports root) :
    k.external.get? name = k'.external.get? name
  first (name : String) (assigned : name ∈ assignedNames root) :
    externalWith? k name = externalWith? k' name
  values (name : String) (found found' : Option ParamClass) :
    k.external.get? name = some found → k'.external.get? name = some found' → found = found'

variable {k k' : Known} {root : Node}

theorem SameReadings.refl (root : Node) (k : Known) : SameReadings root k k :=
  ⟨rfl, rfl, rfl, rfl, fun _ _ => rfl, fun _ _ => rfl, fun _ _ _ h h' =>
    Option.some.inj (h.symm.trans h')⟩

theorem mem_lookedUp_of_place {classes : Classes} {imports : Imports} {place : Node.Located}
    (hplace : place ∈ root.located) {name : String}
    (h : name ∈ calledNames imports place.node ++
      (assignedObject? place.node).toList.flatMap (calledNames imports) ++
        place.ancestors.filterMap Node.className?) : name ∈ lookedUp classes imports root :=
  List.mem_append_right _ (List.mem_flatMap.mpr ⟨place, hplace, h⟩)

/-! ### One name -/

section

variable (classes : k.classes = k'.classes) {className : String}
  (same : k.external.get? className = k'.external.get? className)

include classes same

theorem parameter?_congr (name : String) :
    k.parameter? className name = k'.parameter? className name := by
  simp only [Known.parameter?, Known.local?, Known.external?, classes, same]

theorem isClass_congr : k.isClass className = k'.isClass className := by
  simp only [Known.isClass, Known.external?, classes, same]

theorem constructorDiagnostics_congr (call : Node) :
    constructorDiagnostics k className call = constructorDiagnostics k' className call := by
  simp only [constructorDiagnostics, argumentDiagnostics, isClass_congr classes same,
    parameter?_congr classes same]

theorem assignmentDiagnostics_congr (name : String) (n value : Node) :
    assignmentDiagnostics k className name n value =
      assignmentDiagnostics k' className name n value := by
  simp only [assignmentDiagnostics, isClass_congr classes same, parameter?_congr classes same]

theorem parametersOf_congr (n : Node) :
    parametersOf k className n = parametersOf k' className n := by
  simp only [parametersOf, Known.external?, classes, same]

end

/-! ### Calls and assignments -/

variable {σ : Type} {R : σ → σ → Prop} {ask ask' : AskClass σ}

theorem agree_instanceClass? (h : SameReadings root k k')
    (hask : ∀ path, Agree R (ask path) (ask' path)) (call : Node) :
    Agree R (instanceClass? k ask call) (instanceClass? k' ask' call) := by
  obtain ⟨classes, external, imports, isDeclaration⟩ := k
  obtain ⟨classes', external', imports', isDeclaration'⟩ := k'
  obtain rfl : classes = classes' := h.classes
  obtain rfl : imports = imports' := h.imports
  rw [instanceClass?, instanceClass?]
  dsimp only
  split
  · exact Agree.pure none
  · split
    · exact Agree.pure _
    · split
      · exact Agree.pure _
      · split
        · exact Agree.pure _
        · exact (hask _).bind fun found => Agree.pure _
    · exact Agree.pure none

theorem mem_names_of_keyOf? {classes : Classes} {name key : String}
    (h : classes.keyOf? name = some key) : key ∈ classes.names := by
  obtain ⟨entry, hentry, rfl⟩ := Option.map_eq_some_iff.mp h
  exact Table.mem_names_of_findName? hentry

theorem gives_instanceClass? (k : Known) (ask : AskClass σ) (call : Node) :
    Gives (fun found => ∀ className ∈ found,
      className ∈ k.classes.names ∨ className ∈ calledNames k.imports call)
      (instanceClass? k ask call) := by
  rw [instanceClass?]
  split
  · exact Gives.pure (by simp)
  · next function hfunction =>
    have hhead : call.children.head? = some function := by
      split at hfunction
      · exact hfunction
      · cases hfunction
    simp only [calledNames, hhead]
    split
    · refine Gives.pure ?_
      intro className hname
      obtain rfl := Option.some.inj hname
      cases hkey : k.classes.keyOf? function.text with
      | some key => exact .inl (mem_names_of_keyOf? hkey)
      | none => exact .inr (by simp)
    · split
      · next key hkey =>
        refine Gives.pure ?_
        intro className hname
        obtain rfl := Option.some.inj hname
        obtain ⟨last, -, hkey⟩ := Option.bind_eq_some_iff.mp hkey
        exact .inl (mem_names_of_keyOf? hkey)
      · split
        · refine Gives.pure ?_
          intro className hname
          exact .inr (by simp [Option.mem_def.mp hname])
        · next path hpath =>
          refine Gives.bind _ fun found => Gives.pure ?_
          intro className hname
          refine .inr ?_
          split at hname
          · simp [hpath, Option.mem_def.mp hname]
          · simp [Option.mem_def.mp hname]
    · exact Gives.pure (by simp)

theorem agree_checkCall (h : SameReadings root k k') (hask : ∀ path, Agree R (ask path) (ask' path))
    {place : Node.Located} (hplace : place ∈ root.located) :
    Agree R (checkCall k ask place.node) (checkCall k' ask' place.node) := by
  refine (agree_instanceClass? h hask place.node).bind_of_gives (gives_instanceClass? k ask _)
    fun found hfound => ?_
  cases found with
  | none => exact Agree.pure []
  | some className =>
    have hlooked : className ∈ lookedUp k.classes k.imports root := by
      rcases hfound className rfl with hmem | hmem
      · exact List.mem_append_left _ hmem
      · exact mem_lookedUp_of_place hplace (by simp [hmem])
    have hsame := constructorDiagnostics_congr h.classes (h.named className hlooked) place.node
    simp only [hsame]
    exact Agree.pure _

theorem get?_of_externalWith? {name path : String} (h : externalWith? k name = some path) :
    ∃ c, k.external.get? path = some (some c) := by
  obtain ⟨⟨found, value⟩, hentry, rfl⟩ := Option.map_eq_some_iff.mp h
  have hmem := List.mem_of_find?_eq_some hentry
  have htest := List.find?_some hentry
  cases value with
  | none => simp at htest
  | some c => exact ⟨c, Table.get?_of_mem_entries hmem⟩

theorem classInScope?_congr (classes : k.classes = k'.classes) (finder : k.finder = k'.finder)
    (ancestors : List Node) (name : String) :
    classInScope? k ancestors name = classInScope? k' ancestors name := by
  simp only [classInScope?, Known.keyOf?, classes, finder]

theorem mem_names_of_classInScope? {ancestors : List Node} {name key : String}
    (h : classInScope? k ancestors name = some key) : key ∈ k.classes.names := by
  obtain ⟨scope, -, h⟩ := Option.bind_eq_some_iff.mp h
  obtain ⟨n, -, hkey⟩ := List.exists_of_findSome?_eq_some h
  have hkey := (Option.filter_eq_some_iff.mp hkey).1
  exact Table.mem_names_of_contains (Option.filter_eq_some_iff.mp hkey).2

theorem agree_assignedClass? (h : SameReadings root k k')
    (hask : ∀ path, Agree R (ask path) (ask' path)) {place : Node.Located}
    (hplace : place ∈ root.located) {target : Node} {name : String}
    (htarget : place.node.child? .left = some target)
    (hattribute : (target.child? .attribute).map Node.text = some name) :
    Agree R (assignedClass? k ask place.ancestors target name)
        (assignedClass? k' ask' place.ancestors target name) ∧
      Gives (fun found => ∀ className ∈ found,
        k.external.get? className = k'.external.get? className)
        (assignedClass? k ask place.ancestors target name) := by
  simp only [assignedClass?]
  split
  · exact ⟨Agree.pure none, Gives.pure (by simp)⟩
  · next object hobject =>
    split
    · refine ⟨agree_instanceClass? h hask object, fun s className hfound => ?_⟩
      refine h.named className ?_
      rcases gives_instanceClass? k ask object s className hfound with hmem | hmem
      · exact List.mem_append_left _ hmem
      · have hassigned : assignedObject? place.node = some object := by
          simp [assignedObject?, htarget, hobject]
        exact mem_lookedUp_of_place hplace (by simp [hassigned, hmem])
    · next hkind =>
      have hassigned : name ∈ assignedNames root :=
        List.mem_filterMap.mpr ⟨place, hplace, by simp [htarget, hobject, hkind, hattribute]⟩
      have hfirst := h.first name hassigned
      have hscope := classInScope?_congr h.classes h.finder place.ancestors name
      refine ⟨?_, Gives.pure ?_⟩
      · rw [hscope, hfirst]
        exact Agree.pure _
      · intro className hfound
        rcases Option.or_eq_some_iff.mp hfound with hkey | ⟨-, hwith⟩
        · exact h.named className (List.mem_append_left _ (mem_names_of_classInScope? hkey))
        · obtain ⟨c, hc⟩ := get?_of_externalWith? hwith
          obtain ⟨c', hc'⟩ := get?_of_externalWith? (hfirst ▸ hwith)
          rw [hc, hc', h.values className _ _ hc hc']
    · exact ⟨Agree.pure none, Gives.pure (by simp)⟩

theorem agree_checkAssignment (h : SameReadings root k k')
    (hask : ∀ path, Agree R (ask path) (ask' path)) {place : Node.Located}
    (hplace : place ∈ root.located) :
    Agree R (checkAssignment k ask place) (checkAssignment k' ask' place) := by
  rw [checkAssignment, checkAssignment]
  split
  · next target value htarget hvalue =>
    split
    · exact Agree.pure []
    · next name hname =>
      obtain ⟨hclass, hsame⟩ := agree_assignedClass? h hask hplace htarget
        (Option.filter_eq_some_iff.mp hname).1
      refine hclass.bind_of_gives hsame fun found hfound => ?_
      cases found with
      | none => exact Agree.pure []
      | some className =>
        have hdiagnostics :=
          assignmentDiagnostics_congr h.classes (hfound className rfl) name place.node value
        simp only [hdiagnostics]
        exact Agree.pure _
  · exact Agree.pure []

/-! ### Decorators -/

theorem knownClassAround?_congr (classes : k.classes = k'.classes) {ancestors : List Node}
    (same : ∀ name ∈ ancestors.filterMap Node.className?,
      k.external.get? name = k'.external.get? name) :
    knownClassAround? k ancestors = knownClassAround? k' ancestors := by
  induction ancestors with
  | nil => rfl
  | cons n rest ih =>
    have hrest := ih fun name hmem => same name (by
      rw [List.filterMap_cons]
      split
      · exact hmem
      · exact List.mem_cons_of_mem _ hmem)
    have hfirst : (n.className?.filter fun name =>
          (k.classes.keyOf? name).isSome || k.external.contains name) =
        n.className?.filter fun name =>
          (k'.classes.keyOf? name).isSome || k'.external.contains name := by
      cases hname : n.className? with
      | none => rfl
      | some name =>
        have hsame := same name (by simp [hname])
        simp only [Option.filter_some, Table.contains_eq_isSome, classes, hsame]
    simp only [knownClassAround?, List.findSome?_cons, hfirst] at hrest ⊢
    rw [hrest]

theorem mem_of_knownClassAround? {ancestors : List Node} {name : String} {n : Node}
    (h : knownClassAround? k ancestors = some (name, n)) :
    name ∈ ancestors.filterMap Node.className? := by
  obtain ⟨ancestor, hmem, hfound⟩ := List.exists_of_findSome?_eq_some h
  split at hfound
  · obtain ⟨found, hfilter, heq⟩ := Option.map_eq_some_iff.mp hfound
    obtain ⟨rfl, -⟩ := Prod.mk.inj heq
    exact List.mem_filterMap.mpr ⟨ancestor, hmem, (Option.filter_eq_some_iff.mp hfilter).1⟩
  · cases hfound

theorem decoratorDiagnostics_congr (h : SameReadings root k k') {place : Node.Located}
    (hplace : place ∈ root.located) :
    decoratorDiagnostics k place = decoratorDiagnostics k' place := by
  have hnamed : ∀ name ∈ place.ancestors.filterMap Node.className?,
      k.external.get? name = k'.external.get? name :=
    fun name hmem => h.named name (mem_lookedUp_of_place hplace (List.mem_append_right _ hmem))
  rw [decoratorDiagnostics, decoratorDiagnostics, ← knownClassAround?_congr h.classes hnamed]
  cases hknown : knownClassAround? k place.ancestors with
  | none => rfl
  | some found =>
    obtain ⟨className, n⟩ := found
    have hsame := hnamed className (mem_of_knownClassAround? hknown)
    simp only [parametersOf_congr h.classes hsame, isValidDependency,
      parameter?_congr h.classes hsame]

/-! ### Files -/

/-- Tables of library classes from which the checks of a file read the same give the same
diagnostics. -/
theorem agree_checkFile (h : SameReadings root k k')
    (hask : ∀ path, Agree R (ask path) (ask' path)) :
    Agree R (checkFile k ask root) (checkFile k' ask' root) := by
  have hdeclarations : classDiagnostics k = classDiagnostics k' := by
    funext n
    have hkey : k.keyOf? n = k'.keyOf? n := by simp only [Known.keyOf?, h.classes]
    rw [classDiagnostics, classDiagnostics, hkey, h.isDeclaration, h.imports]
  have hdecorators :
      (k.finder.found .memberDecorators root).flatMap (decoratorDiagnostics k) =
        (k.finder.found .memberDecorators root).flatMap (decoratorDiagnostics k') := by
    simp only [List.flatMap]
    congr 1
    exact List.map_congr_left fun place hplace =>
      decoratorDiagnostics_congr h (Finder.mem_found_iff.mp hplace).1
  simp only [checkFile, hdeclarations, hdecorators, ← h.finder]
  refine Agree.bind (Agree.mapM fun place hplace => ?_) fun assignments => ?_
  · exact agree_checkAssignment h hask (Finder.mem_found_iff.mp hplace).1
  · refine Agree.bind (Agree.mapM fun call hcall => ?_) fun calls => Agree.pure _
    obtain ⟨place, hplace, rfl⟩ := List.mem_map.mp hcall
    exact agree_checkCall h hask (Finder.mem_found_iff.mp hplace).1

end ParamLens.Check
