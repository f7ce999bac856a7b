import ParamLens.Library.Ancestry
import ParamLens.Library.Detection
import ParamLens.Proofs.Acyclic
import ParamLens.Proofs.Surveys
import ParamLens.Proofs.Triples

/-! The parameters of a library's class by its source files: its own, by the imports of its own
file, and then those of its bases, of which the first one with a name counts. A base is a class of
the library by the full name that its file gives it. -/

namespace ParamLens.Library

open Syntax Steps

/-! ### The names of bases -/

/-- The full name of what a module writes as `written`. Dots at the start are those of the module
that it is imported from: one stands for the package of the module, each further one goes up by one.
Of a name that is taken from dots alone, one dot stands between the two. -/
def meantName? (written module : String) (isPackage : Bool) : Option String :=
  if Text.startsWith written "." then
    let rest := Dotted.withoutLeadingDots written
    let dots := Dotted.leadingDots written
    let level := if Dotted.isDotted rest then dots else dots - 1
    let parts := Dotted.components module
    let package := if isPackage then parts else parts.dropLast
    if parts.length < level then none
    else some (Dotted.ofComponents (package.take (package.length - (level - 1)) ++ [rest]))
  else some written

/-- The name is not taken from dots alone. -/
def TakenFromModule (written : String) : Prop :=
  Text.startsWith written "." = true → Dotted.isDotted (Dotted.withoutLeadingDots written) = true

theorem drop_leadingDots (written : String) :
    Text.drop written (Dotted.leadingDots written) = Dotted.withoutLeadingDots written := by
  rw [Text.drop, Dotted.leadingDots, Dotted.withoutLeadingDots]
  congr 1
  have hsplit := List.takeWhile_append_dropWhile (p := (· == '.')) (l := written.toList)
  calc written.toList.drop (written.toList.takeWhile (· == '.')).length
      = (written.toList.takeWhile (· == '.') ++ written.toList.dropWhile (· == '.')).drop
          (written.toList.takeWhile (· == '.')).length := by rw [hsplit]
    _ = written.toList.dropWhile (· == '.') := List.drop_left

theorem leadingDots_pos {written : String} (h : Text.startsWith written "." = true) :
    0 < Dotted.leadingDots written := by
  rw [Text.startsWith] at h
  rw [Dotted.leadingDots]
  cases hchars : written.toList with
  | nil => simp [hchars] at h
  | cons c rest =>
    have hc : '.' = c := by simpa [hchars, List.isPrefixOf] using h
    simp [← hc]

/-- A name that is taken from a module is resolved as it is meant. -/
theorem resolveRelative?_eq_meantName? {written : String} (h : TakenFromModule written)
    (module : String) (isPackage : Bool) :
    resolveRelative? written module isPackage = meantName? written module isPackage := by
  rw [resolveRelative?, meantName?]
  split
  · next hdots =>
    have hrest := h hdots
    have hne : Dotted.withoutLeadingDots written ≠ "" := by
      intro heq
      rw [heq] at hrest
      exact absurd hrest (by decide)
    have hpos := leadingDots_pos hdots
    simp only [drop_leadingDots, hrest, if_true, if_neg hne, gt_iff_lt]
    split
    · rfl
    · next hlevel =>
      cases isPackage with
      | true => rfl
      | false =>
        simp only [Bool.false_eq_true, if_false, List.dropLast_eq_take, List.take_take,
          List.length_take]
        congr 4
        omega
  · rfl

theorem ofComponents_append_ne {parts : List String} {rest : String} (h : rest ≠ "") :
    Dotted.ofComponents (parts ++ [rest]) ≠ "" := by
  intro heq
  have hchars := congrArg String.toList heq
  rw [Dotted.ofComponents, Text.join, String.toList_intercalate, List.map_append,
    List.map_singleton, show ".".toList = ['.'] from rfl, Text.intercalate_append_cons] at hchars
  have hrest : rest.toList = [] := by simp_all
  exact h (String.toList_eq_nil_iff.mp hrest)

theorem ne_empty_of_meantName? {written module full : String} {isPackage : Bool}
    (htaken : TakenFromModule written) (hdots : Text.startsWith written "." = true)
    (h : meantName? written module isPackage = some full) : full ≠ "" := by
  simp only [meantName?, if_pos hdots, if_pos (htaken hdots)] at h
  split at h
  · cases h
  · rw [← Option.some.inj h]
    refine ofComponents_append_ne fun heq => ?_
    exact absurd (heq ▸ htaken hdots) (by decide)

/-- The full name of a base of a class; one that goes up too far stays as it is written. -/
def fullName (path : String) (d : Definition) (base : String) : String :=
  (meantName? base (Dotted.parent path) (isPackageFile d.file)).getD base

theorem filter_resolveRelative? {base : String} (htaken : TakenFromModule base)
    (hdots : Text.startsWith base "." = true) (module : String) (isPackage : Bool) :
    (resolveRelative? base module isPackage).filter (· != "") =
      meantName? base module isPackage := by
  rw [resolveRelative?_eq_meantName? htaken]
  cases hmeant : meantName? base module isPackage with
  | none => rfl
  | some full =>
    rw [Option.filter_some, if_pos (by simpa using ne_empty_of_meantName? htaken hdots hmeant)]

/-! ### Inherited parameters -/

section

variable (w : World) (library : String) (root : Path) (types classes : List String)

/-- The class from which a base lets a class inherit: a class with parameters of the library, but
not the root of them all. -/
def parentOf? (path : String) (d : Definition) (base : String) : Option String :=
  if isParameterizedRoot base (some library) then none
  else if classes.contains (fullName path d base) then some (fullName path d base)
  else none

/-- The parameters with those of the tables, of which the first one with a name counts. -/
def fillAll (t : Table Parameter) (maps : List (Table Parameter)) : Table Parameter :=
  maps.foldl (fun found t => found.fill t.entries) t

/-- The parameters that a class declares itself, by the imports of its own file. -/
def declaredParameters (d : Definition) : Table Parameter :=
  byName (ownParameters ⟨d.imports, types⟩ d.imports d.content d.node)

/-- The parameters of a class of the library with all that it inherits, base after base; of those
with one name the first counts, and its own before all. -/
inductive Whole : String → Table Parameter → Prop
  | intro {path : String} {d : Definition} {listed : List String} {maps : List (Table Parameter)} :
      Declared w library root (sources w library) path d listed → maps.length = listed.length →
      (∀ base t, (base, t) ∈ listed.zip maps → ∀ parent,
        parentOf? library classes path d base = some parent → Whole parent t) →
      (∀ base t, (base, t) ∈ listed.zip maps →
        parentOf? library classes path d base = none → t = ∅) →
      Whole path (fillAll (declaredParameters types d) maps)

end

/-- Where the full names of classes are distinct, a class has its parameters in one way. -/
theorem Whole.unique {w : World} {library : String} {root : Path} {types classes : List String}
    (distinct : ∀ path d listed d' listed',
      Declared w library root (sources w library) path d listed →
      Declared w library root (sources w library) path d' listed' → d = d' ∧ listed = listed')
    {path : String} {t t' : Table Parameter} (h : Whole w library root types classes path t)
    (h' : Whole w library root types classes path t') : t = t' := by
  induction h generalizing t' with
  | @intro path d listed maps hdeclared hlength hmaps hnone ih =>
    cases h' with
    | @intro _ d' listed' maps' hdeclared' hlength' hmaps' hnone' =>
      obtain ⟨rfl, rfl⟩ := distinct path d listed d' listed' hdeclared hdeclared'
      -- The tables agree base by base: by induction for a parent, and else they are empty.
      have heq : maps = maps' := by
        refine eq_of_zip hlength hlength' fun base t t' ht ht' => ?_
        cases hparent : parentOf? library classes path d base with
        | none => rw [hnone base t ht hparent, hnone' base t' ht' hparent]
        | some parent => exact ih base t ht parent hparent (hmaps' base t' ht' parent hparent)
      rw [heq]

/-! ### Detected classes -/

/-- The names are distinct, and each one is that of a class. -/
structure Marked (bases : Table (List String)) (names : List String) : Prop where
  distinct : names.Nodup
  known : ∀ name ∈ names, name ∈ bases.names

theorem Marked.append {bases : Table (List String)} {names : List String} (h : Marked bases names)
    {name : String} (hname : name ∈ bases.names) (hnew : name ∉ names) :
    Marked bases (names ++ [name]) := by
  refine ⟨?_, fun other hother => ?_⟩
  · rw [List.nodup_append]
    refine ⟨h.distinct, List.nodup_singleton _, fun a ha b hb heq => hnew ?_⟩
    rwa [← List.mem_singleton.mp hb, ← heq]
  · rcases List.mem_append.mp hother with hold | hlast
    · exact h.known other hold
    · rwa [List.mem_singleton.mp hlast]

theorem Marked.markWhere {bases : Table (List String)} {names : List String}
    (h : Marked bases names) (test : String → List String → Bool) :
    Marked bases (markWhere test bases names) := by
  refine List.foldlRecOn _ _ h fun found hfound (name, listed) hentry => ?_
  dsimp only
  split
  · rw [mark]
    split
    · exact hfound
    · next hnew => exact hfound.append (List.mem_map_of_mem hentry) (by simpa using hnew)
  · exact hfound

theorem Marked.sweep {bases : Table (List String)} {marked : List String} (h : Marked bases marked)
    (names : List String → String → Bool) : Marked bases (sweep names bases marked) := by
  refine List.foldlRecOn _ _ h fun found hfound (name, listed) hentry => ?_
  dsimp only
  split
  · next hnew =>
    refine hfound.append (List.mem_map_of_mem hentry) ?_
    simpa using (Bool.and_eq_true_iff.mp hnew).1
  · exact hfound

theorem Marked.sweepAll {bases : Table (List String)} {marked : List String}
    (h : Marked bases marked) (names : List String → String → Bool) (fuel : Nat) :
    Marked bases (sweepAll names bases fuel marked) := by
  induction fuel generalizing marked with
  | zero => exact h
  | succ fuel ih =>
    rw [Library.sweepAll]
    split
    · exact h
    · exact ih (h.sweep names)

theorem marked_parameterizedClasses (library : String) (bases : Table (List String)) :
    Marked bases (parameterizedClasses library bases) := by
  have hstart : Marked bases [] := ⟨List.nodup_nil, fun name hname => absurd hname List.not_mem_nil⟩
  exact ((hstart.markWhere _).markWhere _).sweepAll _ _

end ParamLens.Library
