import Mathlib.Data.List.DropRight
import Mathlib.Logic.Function.Iterate
import ParamLens.Proofs.Ancestors
import ParamLens.Proofs.Paths

/-! Names that are written with dots at their start. One dot stands for the package around a module,
and each further dot goes up by one. Within a library the dots are counted; only in a module that is
no package one dot too many is taken, and then the name is left alone. Within a workspace all
dots but one are dropped, so that a module is looked for beside the file that imports it, however
many dots it is written with. -/

namespace ParamLens.Dotted

/-- The name with dots before it. -/
def withDots (dots : Nat) (rest : String) : String :=
  String.ofList (List.replicate dots '.') ++ rest

variable {dots : Nat} {rest : String}

theorem toList_withDots : (withDots dots rest).toList = List.replicate dots '.' ++ rest.toList := by
  simp [withDots]

theorem startsWith_withDots (pos : 0 < dots) : Text.startsWith (withDots dots rest) "." = true := by
  obtain ⟨more, rfl⟩ : ∃ more, dots = more + 1 := ⟨dots - 1, by omega⟩
  simp [Text.startsWith, toList_withDots, List.replicate_succ]

theorem takeWhile_eq_nil (h : Text.startsWith rest "." = false) :
    rest.toList.takeWhile (· == '.') = [] := by
  cases hchars : rest.toList with
  | nil => rfl
  | cons c cs =>
    have hc : c ≠ '.' := by
      rintro rfl
      simp [Text.startsWith, hchars] at h
    simp [hc]

theorem leadingDots_withDots (h : Text.startsWith rest "." = false) :
    leadingDots (withDots dots rest) = dots := by
  rw [leadingDots, toList_withDots, List.takeWhile_append_of_pos (by simp), takeWhile_eq_nil h]
  simp

theorem drop_withDots : Text.drop (withDots dots rest) dots = rest := by
  rw [Text.drop, toList_withDots]
  simp

theorem withoutLeadingDots_withDots (h : Text.startsWith rest "." = false) :
    withoutLeadingDots (withDots dots rest) = rest := by
  rw [← Library.drop_leadingDots, leadingDots_withDots h, drop_withDots]

theorem startsWith_ofComponents {parts : List String} (ne : parts ≠ [])
    (h : ∀ part ∈ parts, part ≠ "" ∧ '.' ∉ part.toList) :
    Text.startsWith (ofComponents parts) "." = false := by
  refine Bool.eq_false_iff.mpr fun hstarts => ?_
  obtain ⟨rest, hrest⟩ := List.isPrefixOf_iff_prefix.mp hstarts
  have hcomponents := components_ofComponents ne fun part hpart => (h part hpart).2
  rw [components, Text.split, ← hrest] at hcomponents
  have hempty : "" ∈ parts := by
    rw [← hcomponents]
    simp [Text.splitChars]
  exact (h "" hempty).1 rfl

end ParamLens.Dotted

/-! ### Names in a library -/

namespace ParamLens.Library

/-- The components of the package around a module, which is the module itself if it is a package. -/
def packageAround (module : String) (isPackage : Bool) : List String :=
  if isPackage then Dotted.components module else (Dotted.components module).dropLast

/-- What a name with dots before it means in a package: it stands in the package that is reached by
going up once for each dot after the first. It means nothing if that leads out of the library. -/
def meantIn? (package : List String) (dots : Nat) (rest : String) : Option String :=
  if dots ≤ package.length then
    some (Dotted.ofComponents (package.rdrop (dots - 1) ++ if rest = "" then [] else [rest]))
  else none

variable {dots : Nat} {rest : String}

theorem length_components_pos (module : String) : 0 < (Dotted.components module).length := by
  rw [Dotted.components, Text.split, List.length_map, Text.length_splitChars]
  omega

theorem resolveRelative?_withDots (pos : 0 < dots) (h : Text.startsWith rest "." = false)
    (module : String) (isPackage : Bool) :
    resolveRelative? (Dotted.withDots dots rest) module isPackage =
      if (Dotted.components module).length < dots then none
      else some (Dotted.ofComponents ((Dotted.components module).rdrop
        (if isPackage then dots - 1 else dots) ++ if rest = "" then [] else [rest])) := by
  rw [resolveRelative?, if_pos (Dotted.startsWith_withDots pos)]
  simp only [Dotted.leadingDots_withDots h, Dotted.drop_withDots, List.rdrop, gt_iff_lt]
  congr 3
  split <;> simp

theorem rdrop_dropLast {α : Type} (l : List α) {n : Nat} (h : 0 < n) :
    l.dropLast.rdrop (n - 1) = l.rdrop n := by
  rw [List.rdrop, List.rdrop, List.dropLast_eq_take, List.take_take, List.length_take]
  congr 1
  omega

theorem resolveRelative?_of_package (pos : 0 < dots) (h : Text.startsWith rest "." = false)
    (module : String) : resolveRelative? (Dotted.withDots dots rest) module true =
      meantIn? (packageAround module true) dots rest := by
  rw [resolveRelative?_withDots pos h, meantIn?, packageAround, if_pos rfl, if_pos rfl]
  by_cases hdots : dots ≤ (Dotted.components module).length
  · rw [if_pos hdots, if_neg (by omega)]
  · rw [if_neg hdots, if_pos (by omega)]

/-- From a module that is no package a name is resolved as it is meant, unless it has as many dots
as the module has components: it means nothing then, and is resolved to what is after the dots. -/
theorem resolveRelative?_of_module (pos : 0 < dots) (h : Text.startsWith rest "." = false)
    (module : String) : resolveRelative? (Dotted.withDots dots rest) module false =
      if dots = (Dotted.components module).length then some rest
      else meantIn? (packageAround module false) dots rest := by
  have hcomponents := length_components_pos module
  rw [resolveRelative?_withDots pos h, meantIn?, packageAround, if_neg Bool.false_ne_true,
    if_neg Bool.false_ne_true, rdrop_dropLast _ pos, List.length_dropLast]
  rcases lt_trichotomy dots (Dotted.components module).length with hless | heq | hmore
  · have hwithin : dots ≤ (Dotted.components module).length - 1 := by omega
    rw [if_neg hless.not_gt, if_neg hless.ne, if_pos hwithin]
  · have htop : (Dotted.components module).rdrop dots = [] := by simp [List.rdrop, heq]
    rw [if_neg heq.not_gt, if_pos heq, htop, List.nil_append]
    by_cases hrest : rest = ""
    · rw [if_pos hrest, hrest]
      rfl
    · rw [if_neg hrest, Dotted.ofComponents_singleton]
  · have hbeyond : ¬ dots ≤ (Dotted.components module).length - 1 := by omega
    rw [if_pos hmore, if_neg hmore.ne', if_neg hbeyond]

/-- A name with dots before it is resolved as it is meant exactly if the module is a package or has
not as many components as the name has dots. Otherwise the dots lead out of the library, and the
name is resolved as if it were not relative. -/
theorem resolveRelative?_eq_meantIn?_iff (pos : 0 < dots) (h : Text.startsWith rest "." = false)
    (module : String) (isPackage : Bool) :
    let resolved := resolveRelative? (Dotted.withDots dots rest) module isPackage
    let meant := meantIn? (packageAround module isPackage) dots rest
    (resolved = meant ↔ isPackage = true ∨ dots ≠ (Dotted.components module).length) ∧
      (isPackage = false → dots = (Dotted.components module).length →
        resolved = some rest ∧ meant = none) := by
  intro resolved meant
  have hcomponents := length_components_pos module
  cases isPackage with
  | true => exact ⟨by simp [resolved, meant, resolveRelative?_of_package pos h], by simp⟩
  | false =>
    have hresolved : resolved = _ := resolveRelative?_of_module pos h module
    by_cases hdots : dots = (Dotted.components module).length
    · have hmeant : meant = none := by
        simp only [meant, meantIn?, packageAround, Bool.false_eq_true, if_false,
          List.length_dropLast]
        rw [if_neg (by omega)]
      rw [if_pos hdots] at hresolved
      rw [hresolved, hmeant]
      simp [hdots]
    · rw [if_neg hdots] at hresolved
      exact ⟨by simp [hresolved, meant, hdots], fun _ heq => absurd heq hdots⟩

/-- Three dots in a module of a package within a package lead to the top of the library. -/
theorem resolveRelative?_eq_meantIn?_deep :
    resolveRelative? (Dotted.withDots 3 "util.F") "panel.pane.base.mod" false =
        some "panel.util.F" ∧
      meantIn? (packageAround "panel.pane.base.mod" false) 3 "util.F" = some "panel.util.F" := by
  have hmeant : meantIn? (packageAround "panel.pane.base.mod" false) 3 "util.F" =
      some "panel.util.F" := by
    decide +kernel
  obtain ⟨hiff, -⟩ := resolveRelative?_eq_meantIn?_iff (by decide : 0 < 3)
    (by decide : Text.startsWith "util.F" "." = false) "panel.pane.base.mod" false
  exact ⟨(hiff.mpr (.inr (by decide +kernel))).trans hmeant, hmeant⟩

/-- Two dots in a module at the top of a library lead out of it, but the name is resolved. -/
theorem resolveRelative?_past_top :
    resolveRelative? (Dotted.withDots 2 "x") "panel.mod" false = some "x" ∧
      meantIn? (packageAround "panel.mod" false) 2 "x" = none := by
  decide +kernel

end ParamLens.Library

/-! ### Files in a workspace -/

namespace ParamLens.Path

theorem iterate_parent (p : Path) (n : Nat) :
    Path.parent^[n] p = { p with parts := p.parts.rdrop n } := by
  induction n with
  | zero => simp
  | succ n ih =>
    rw [Function.iterate_succ_apply', ih, parent]
    simp only [List.rdrop, List.dropLast_eq_take, List.take_take, List.length_take]
    congr 2
    omega

theorem length_iterate_parent_lt {p : Path} {n : Nat} (h : Path.parent^[n] p ≠ p) :
    (Path.parent^[n] p).parts.length < p.parts.length := by
  rw [iterate_parent] at h ⊢
  have hinitial : p.parts.rdrop n <+: p.parts := List.take_prefix _ _
  refine lt_of_le_of_ne hinitial.length_le fun hlength => h ?_
  rw [hinitial.eq_of_length hlength]

theorem splitEnding_of_dotless {name : String} (h : '.' ∉ name.toList) :
    splitEnding name = (name, "") := by
  have hall : name.toList.reverse.takeWhile (· != '.') = name.toList.reverse := by
    rw [List.takeWhile_eq_self_iff]
    intro c hc
    rw [List.mem_reverse] at hc
    exact bne_iff_ne.mpr fun heq => h (heq ▸ hc)
  have hstem : name.toList.reverse.drop (name.toList.reverse.length + 1) = [] :=
    List.drop_eq_nil_of_le (Nat.le_succ _)
  rw [splitEnding]
  simp only [hall, hstem, List.reverse_nil, List.isEmpty_nil, Bool.or_true, if_true]

end ParamLens.Path

namespace ParamLens.Imports

variable {w : World}

/-- The components of a module's name, of which each one can be the name of a file. -/
structure IsModuleName (parts : List String) : Prop where
  ne_nil : parts ≠ []
  plain : ∀ part ∈ parts, part ≠ "" ∧ '.' ∉ part.toList ∧ '/' ∉ part.toList

/-- The source file of a module below a directory. -/
def sourceBelow (directory : Path) (parts : List String) : Path :=
  { directory with parts := directory.parts ++ parts.dropLast ++ [parts.getLastD "" ++ ".py"] }

/-- The file that makes a module below a directory a package. -/
def packageBelow (directory : Path) (parts : List String) : Path :=
  { directory with parts := directory.parts ++ parts ++ ["__init__.py"] }

/-- The file of a module below a directory: its source file, or else its package file. -/
def fileBelow? (w : World) (directory : Path) (parts : List String) : Option Path :=
  [sourceBelow directory parts, packageBelow directory parts].find? w.files.contains

theorem join_part {part : String} (h : part ≠ "" ∧ '.' ∉ part.toList ∧ '/' ∉ part.toList)
    (p : Path) : p.join part = { p with parts := p.parts ++ [part] } := by
  obtain ⟨hempty, hdot, hslash⟩ := h
  have hrelative : Text.startsWith part "/" = false := by
    refine Bool.eq_false_iff.mpr fun hstarts => ?_
    obtain ⟨rest, hrest⟩ := List.isPrefixOf_iff_prefix.mp hstarts
    exact hslash (hrest ▸ List.mem_cons_self)
  have hne : part ≠ "." := by
    rintro rfl
    exact hdot (by decide)
  have hsplit : Text.split '/' part = [part] := by
    simp [Text.split, Text.splitChars_of_notMem _ hslash]
  have hpath : Path.ofText part = ⟨false, [part]⟩ := by
    rw [Path.ofText, hrelative, hsplit]
    simp [hempty, hne]
  rw [Path.join, hpath]
  rfl

theorem foldl_join_parts {parts : List String}
    (h : ∀ part ∈ parts, part ≠ "" ∧ '.' ∉ part.toList ∧ '/' ∉ part.toList) (p : Path) :
    parts.foldl Path.join p = { p with parts := p.parts ++ parts } := by
  induction parts generalizing p with
  | nil => simp
  | cons part rest ih =>
    rw [List.foldl_cons, join_part (h part List.mem_cons_self),
      ih fun other hother => h other (List.mem_cons_of_mem _ hother)]
    simp

theorem moduleFileAt?_eq_fileBelow? {parts : List String} (h : IsModuleName parts)
    (directory : Path) :
    Library.moduleFileAt? w { directory with parts := directory.parts ++ parts } =
      fileBelow? w directory parts := by
  obtain ⟨front, last, rfl⟩ : ∃ front last, parts = front ++ [last] :=
    ⟨_, _, (List.dropLast_append_getLast h.ne_nil).symm⟩
  have hdot : '.' ∉ last.toList := (h.plain last (by simp)).2.1
  have hsource : Path.withEnding? { directory with parts := directory.parts ++ (front ++ [last]) }
      ".py" = some (sourceBelow directory (front ++ [last])) := by
    simp [Path.withEnding?, sourceBelow, Path.stem, Path.name, Path.splitEnding_of_dotless hdot,
      -List.append_assoc]
  have hpackage : Path.join { directory with parts := directory.parts ++ (front ++ [last]) }
      Library.packageFile = packageBelow directory (front ++ [last]) := by
    have hpath : Path.ofText Library.packageFile = ⟨false, ["__init__.py"]⟩ := by decide
    rw [Path.join, hpath]
    rfl
  rw [Library.moduleFileAt?, hsource, Option.filter_some, fileBelow?]
  simp only [hpackage, List.find?_cons, List.find?_nil]
  cases hcontains : w.files.contains (sourceBelow directory (front ++ [last])) with
  | true => simp
  | false =>
    simp only [Bool.false_eq_true, if_false]
    cases w.files.contains (packageBelow directory (front ++ [last])) <;> rfl

/-- However many dots a module is written with, it is looked for beside the file that imports it. -/
theorem moduleFile_withDots {dots : Nat} (pos : 0 < dots) {parts : List String}
    (h : IsModuleName parts) (root file : Path) :
    moduleFile w (some root) (some file) (Dotted.withDots dots (Dotted.ofComponents parts)) =
      .ok (fileBelow? w file.parent parts) := by
  have hplain : ∀ part ∈ parts, part ≠ "" ∧ '.' ∉ part.toList :=
    fun part hpart => ⟨(h.plain part hpart).1, (h.plain part hpart).2.1⟩
  have hstart := Dotted.startsWith_ofComponents h.ne_nil hplain
  have hcomponents :=
    Dotted.components_ofComponents h.ne_nil fun part hpart => (hplain part hpart).2
  have hfilter : parts.filter (· != "") = parts := by
    rw [List.filter_eq_self]
    exact fun part hpart => bne_iff_ne.mpr (hplain part hpart).1
  have htarget : relativeTarget (Dotted.withDots dots (Dotted.ofComponents parts)) file =
      { file.parent with parts := file.parent.parts ++ parts } := by
    simp only [relativeTarget, Dotted.withoutLeadingDots_withDots hstart, hcomponents, hfilter,
      foldl_join_parts h.plain]
  have hdots : Text.startsWith (Dotted.withDots dots (Dotted.ofComponents parts)) "." = true :=
    Dotted.startsWith_withDots pos
  refine moduleFile_eq_ok_iff.mpr ⟨?_, ?_⟩
  · have hnamed : w.lacksName { file.parent with parts := file.parent.parts ++ parts } = false := by
      simp [World.lacksName, h.ne_nil]
    rw [moduleFault?, target?, Option.bind_some, if_pos hdots, Option.map_some, htarget,
      Option.filter_some, hnamed]
    rfl
  · rw [moduleFile?, Option.bind_some, if_pos hdots, relativeFile?, Option.bind_some, htarget]
    exact moduleFileAt?_eq_fileBelow? h file.parent

theorem mem_of_fileBelow? {directory file : Path} {parts : List String}
    (h : fileBelow? w directory parts = some file) :
    file = sourceBelow directory parts ∨ file = packageBelow directory parts := by
  simpa using List.mem_of_find?_eq_some h

theorem length_sourceBelow (directory : Path) {parts : List String} (ne : parts ≠ []) :
    (sourceBelow directory parts).parts.length = directory.parts.length + parts.length := by
  have hpos := List.length_pos_iff.mpr ne
  simp only [sourceBelow, List.length_append, List.length_dropLast, List.length_singleton]
  omega

theorem length_packageBelow (directory : Path) (parts : List String) :
    (packageBelow directory parts).parts.length = directory.parts.length + parts.length + 1 := by
  simp [packageBelow]
  omega

theorem sourceBelow_ne_packageBelow {here above : Path} {parts : List String} (ne : parts ≠ [])
    (h : parts.getLast? ≠ some "__init__") : sourceBelow here parts ≠ packageBelow above parts := by
  intro heq
  have hlast := congrArg (fun p : Path => p.parts.getLast?) heq
  simp only [sourceBelow, packageBelow, List.getLast?_concat, Option.some.injEq] at hlast
  have hname : parts.getLastD "" = "__init__" := by
    have hchars : (parts.getLastD "").toList ++ ".py".toList =
        "__init__".toList ++ ".py".toList := by
      rw [← String.toList_append, ← String.toList_append, hlast]
      rfl
    exact String.toList_injective (List.append_cancel_right hchars)
  rw [List.getLastD_eq_getLast?] at hname
  cases hparts : parts.getLast? with
  | none => exact ne (List.getLast?_eq_none_iff.mp hparts)
  | some last =>
    rw [hparts, Option.getD_some] at hname
    exact h (hname ▸ hparts)

theorem fileBelow?_ne_of_shorter {here above file : Path} {parts : List String} (ne : parts ≠ [])
    (last : parts.getLast? ≠ some "__init__")
    (shorter : above.parts.length < here.parts.length) (h : fileBelow? w here parts = some file) :
    fileBelow? w above parts ≠ some file := by
  intro habove
  have hhere := length_sourceBelow here ne
  have habove' := length_sourceBelow above ne
  have hpackage := length_packageBelow here parts
  have hpackage' := length_packageBelow above parts
  -- The lengths of the paths differ, but for a source file here and a package file above.
  rcases mem_of_fileBelow? h with rfl | rfl
  · rcases mem_of_fileBelow? habove with heq | heq
    · rw [heq] at hhere
      omega
    · exact sourceBelow_ne_packageBelow ne last heq
  · rcases mem_of_fileBelow? habove with heq | heq
    · rw [heq] at hpackage
      omega
    · rw [heq] at hpackage
      omega

/-- A module that is written with dots is looked for beside the file that imports it, however many
dots there are. This is where it is meant, one directory up for each dot after the first, exactly if
that is the same directory, or else if neither directory has the module. -/
theorem relative_file_is_meant_iff {dots : Nat} (pos : 0 < dots) {parts : List String}
    (h : IsModuleName parts) (w : World) (root file : Path) :
    let here := file.parent
    let meant := Path.parent^[dots - 1] here
    let found := moduleFile w (some root) (some file)
      (Dotted.withDots dots (Dotted.ofComponents parts))
    found = .ok (fileBelow? w here parts) ∧
      (parts.getLast? ≠ some "__init__" →
        (found = .ok (fileBelow? w meant parts) ↔ meant = here ∨
          fileBelow? w here parts = none ∧ fileBelow? w meant parts = none)) := by
  intro here meant found
  have hfound : found = .ok (fileBelow? w here parts) := moduleFile_withDots pos h root file
  refine ⟨hfound, fun last => ?_⟩
  rw [hfound, Except.ok.injEq]
  constructor
  · intro hsame
    by_cases hmeant : meant = here
    · exact .inl hmeant
    · have hshorter := Path.length_iterate_parent_lt hmeant
      refine .inr ?_
      cases hhere : fileBelow? w here parts with
      | none => exact ⟨rfl, hsame ▸ hhere⟩
      | some found =>
        exact absurd (hsame ▸ hhere) (fileBelow?_ne_of_shorter h.ne_nil last hshorter hhere)
  · rintro (hmeant | ⟨hhere, hmeant⟩)
    · rw [hmeant]
    · rw [hhere, hmeant]

/-- A workspace with a module `helper` in a package and one beside the package. -/
def office : World :=
  { files := ⟨[(["ws", "helper.py"], .text ""), (["ws", "pkg", "helper.py"], .text ""),
      (["ws", "pkg", "main.py"], .text ""), (["ws", "pkg", "sub", "__init__.py"], .text "")], []⟩ }

def officeMain : Path := ⟨true, ["ws", "pkg", "main.py"]⟩

/-- One dot finds the package below the directory of the file; two dots do not find what they
mean. -/
theorem relative_file_is_meant_in_office :
    IsModuleName ["sub"] ∧ IsModuleName ["helper"] ∧
      moduleFile office (some ⟨true, ["ws"]⟩) (some officeMain)
          (Dotted.withDots 1 (Dotted.ofComponents ["sub"])) =
        .ok (some ⟨true, ["ws", "pkg", "sub", "__init__.py"]⟩) ∧
      moduleFile office (some ⟨true, ["ws"]⟩) (some officeMain)
          (Dotted.withDots 2 (Dotted.ofComponents ["helper"])) ≠
        .ok (fileBelow? office (Path.parent^[1] officeMain.parent) ["helper"]) := by
  have hsub : IsModuleName ["sub"] := ⟨by simp, by decide⟩
  have hhelper : IsModuleName ["helper"] := ⟨by simp, by decide⟩
  refine ⟨hsub, hhelper, ?_, fun heq => ?_⟩
  · rw [(relative_file_is_meant_iff Nat.one_pos hsub office ⟨true, ["ws"]⟩ officeMain).1,
      Except.ok.injEq]
    decide +kernel
  · obtain ⟨-, hiff⟩ :=
      relative_file_is_meant_iff Nat.two_pos hhelper office ⟨true, ["ws"]⟩ officeMain
    exact absurd ((hiff (by decide)).mp heq) (by decide +kernel)

/-- Two dots mean the module beside the package, and the one in the package is found. -/
theorem relative_file_found_beside :
    (moduleFile office (some ⟨true, ["ws"]⟩) (some officeMain)
        (Dotted.withDots 2 (Dotted.ofComponents ["helper"]))).toOption =
        some (some ⟨true, ["ws", "pkg", "helper.py"]⟩) ∧
      fileBelow? office (Path.parent^[1] officeMain.parent) ["helper"] =
        some ⟨true, ["ws", "helper.py"]⟩ := by
  decide +kernel

end ParamLens.Imports
