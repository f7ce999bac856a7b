import ParamLens.Library.Survey
import ParamLens.Proofs.Splitting
import ParamLens.Proofs.Tables

/-! What the survey of a library's files holds: under each name a class of one of the files, as it
stands there, with the full names of its bases by the imports of that file. -/

namespace ParamLens.Library

open Syntax

variable {w : World} {library package : String} {root file : Path}

/-- The class with a full name as it stands in one of the files, and the full names of its bases. -/
def Declared (w : World) (library : String) (root : Path) (files : List Path) (path : String)
    (d : Definition) (listed : List String) : Prop :=
  d.file ∈ files ∧ w.read? d.file = some d.content ∧
    ∃ tree name, w.parse? d.content = some tree ∧ d.imports = Imports.ofTree w.finder tree ∧
      (d.node, name) ∈ namedClasses w.finder tree ∧
      classPathIn? library root d.file name = some path ∧
      listed = basePaths w d.imports (some library) (some d.file)
        ((namedClasses w.finder tree).map Prod.snd) d.node

/-- Every entry of the survey is a class of one of the files. -/
structure Survey.Holds (w : World) (library : String) (root : Path) (files : List Path)
    (s : Survey) : Prop where
  definitions {path : String} {d : Definition} : s.definitions.get? path = some d →
    ∃ listed, s.bases.get? path = some listed ∧ Declared w library root files path d listed
  bases {path : String} {listed : List String} : s.bases.get? path = some listed →
    ∃ d, s.definitions.get? path = some d

theorem Survey.Holds.insert {files : List Path} {s : Survey} (h : s.Holds w library root files)
    {path : String} {d : Definition} {listed : List String}
    (hdeclared : Declared w library root files path d listed) :
    Survey.Holds w library root files
      { s with
        bases := s.bases.insert path listed
        definitions := s.definitions.insert path d } := by
  refine ⟨fun {asked found} hget => ?_, fun {asked found} hget => ?_⟩
  · rw [Table.get?_insert] at hget ⊢
    split at hget
    · next heq =>
      obtain rfl := Option.some.inj hget
      exact ⟨listed, if_pos heq, heq ▸ hdeclared⟩
    · next hne =>
      rw [if_neg hne]
      exact h.definitions hget
  · rw [Table.get?_insert] at hget ⊢
    split at hget
    · next heq => exact ⟨d, if_pos heq⟩
    · next hne =>
      rw [if_neg hne]
      exact h.bases hget

theorem Survey.Holds.addClasses {files : List Path} {s : Survey}
    (h : s.Holds w library root files) {file : Path} {content : String} {tree : Node}
    (hfile : file ∈ files) (hread : w.read? file = some content)
    (htree : w.parse? content = some tree) :
    (s.addClasses w library root file content tree).Holds w library root files := by
  rw [Survey.addClasses]
  refine List.foldlRecOn _ _ h fun s hs (n, name) hmem => ?_
  cases hpath : classPathIn? library root file name with
  | none => simpa only [hpath] using hs
  | some path =>
    simp only [hpath]
    exact hs.insert ⟨hfile, hread, tree, name, htree, rfl, hmem, hpath, rfl⟩

theorem Survey.Holds.with_offers {files : List Path} {s : Survey}
    (h : s.Holds w library root files) (offers : Offers) :
    Survey.Holds w library root files { s with offers } :=
  ⟨h.definitions, h.bases⟩

theorem Survey.Holds.addFile {files : List Path} {s : Survey} (h : s.Holds w library root files)
    {file : Path} (hfile : file ∈ files) :
    (s.addFile w library root file).Holds w library root files := by
  rw [Survey.addFile]
  cases hread : w.read? file with
  | none => exact h
  | some content =>
    dsimp only
    cases htree : w.parse? content with
    | none => exact h
    | some tree => exact (h.with_offers _).addClasses hfile hread htree

theorem Survey.holds_ofFiles (w : World) (library : String) (root : Path) {files all : List Path}
    (hfiles : ∀ file ∈ files, file ∈ all) (offers : Offers) :
    (Survey.ofFiles w library root files offers).Holds w library root all := by
  have hstart : Survey.Holds w library root all { offers, setOrder := w.nameOrder } := by
    refine ⟨fun hget => ?_, fun hget => ?_⟩
    · cases hget
    · cases hget
  exact List.foldlRecOn _ _ hstart fun s hs file hfile => hs.addFile (hfiles file hfile)

/-! ### Offers -/

/-- The entries for the names of an import that takes names one by one. -/
def namesOf (package : String) (n : Node) : List (String × String) :=
  if takesAll n then [] else reexports package n

/-- The entry for an import that takes all names of a module. -/
def wholesOf (package : String) (n : Node) : List (String × String) :=
  if takesAll n then ((sourceModule? package n).map (package, ·)).toList else []

theorem Offers.add_eq (o : Offers) (package : String) (n : Node) :
    o.add package n = ⟨o.names.update (namesOf package n), o.wholes ++ wholesOf package n⟩ := by
  rw [add, namesOf, wholesOf]
  cases takesAll n with
  | false => simp
  | true => cases sourceModule? package n <;> simp [Table.update]

theorem Offers.addPackage_eq (o : Offers) (f : Finder) (package : String) (tree : Node) :
    o.addPackage f package tree =
      ⟨o.names.update ((memberImports f tree).flatMap (namesOf package)),
        o.wholes ++ (memberImports f tree).flatMap (wholesOf package)⟩ := by
  rw [addPackage]
  induction memberImports f tree generalizing o with
  | nil => simp [Table.update]
  | cons n rest ih => rw [List.foldl_cons, ih, add_eq]; simp [Table.update]

/-- The entries for the imports of a file, if it makes a package. -/
def entriesOf (w : World) (library : String) (root : Path)
    (entries : String → Node → List (String × String)) (file : Path) : List (String × String) :=
  match (w.read? file).bind w.parse?, packageName? library root file with
  | some tree, some package => (memberImports w.finder tree).flatMap (entries package)
  | _, _ => []

theorem mem_entriesOf_iff {entries : String → Node → List (String × String)}
    {entry : String × String} : entry ∈ entriesOf w library root entries file ↔
      ∃ tree package, (w.read? file).bind w.parse? = some tree ∧
        packageName? library root file = some package ∧
          ∃ n ∈ memberImports w.finder tree, entry ∈ entries package n := by
  rw [entriesOf]
  split
  · next tree package htree hpackage =>
    rw [List.mem_flatMap]
    refine ⟨fun h => ⟨tree, package, htree, hpackage, h⟩, ?_⟩
    rintro ⟨tree', package', htree', hpackage', h⟩
    obtain rfl := Option.some.inj (htree.symm.trans htree')
    obtain rfl := Option.some.inj (hpackage.symm.trans hpackage')
    exact h
  · next hnone =>
    refine ⟨fun h => absurd h List.not_mem_nil, ?_⟩
    rintro ⟨tree, package, htree, hpackage, -⟩
    exact absurd hpackage (hnone tree package htree)

theorem offers_addClasses (s : Survey) (file : Path) (content : String) (tree : Node) :
    (s.addClasses w library root file content tree).offers = s.offers := by
  refine List.foldlRecOn (motive := fun found : Survey => found.offers = s.offers) _ _ rfl
    fun found hfound (n, name) _ => ?_
  cases hpath : classPathIn? library root file name with
  | none => simpa only [hpath] using hfound
  | some path => simpa only [hpath] using hfound

theorem offers_addFile (s : Survey) (file : Path) :
    (s.addFile w library root file).offers =
      ⟨s.offers.names.update (entriesOf w library root namesOf file),
        s.offers.wholes ++ entriesOf w library root wholesOf file⟩ := by
  rw [Survey.addFile, entriesOf, entriesOf]
  cases hread : w.read? file with
  | none => simp [Table.update]
  | some content =>
    dsimp only [Option.bind_some]
    cases htree : w.parse? content with
    | none => simp [Table.update]
    | some tree =>
      dsimp only
      rw [offers_addClasses]
      cases packageName? library root file with
      | none => simp [Table.update]
      | some package => exact s.offers.addPackage_eq w.finder package tree

theorem offers_ofFiles (files : List Path) (offers : Offers) :
    (Survey.ofFiles w library root files offers).offers =
      ⟨offers.names.update (files.flatMap (entriesOf w library root namesOf)),
        offers.wholes ++ files.flatMap (entriesOf w library root wholesOf)⟩ := by
  have hfold (s : Survey) : (files.foldl (Survey.addFile w library root) s).offers =
      ⟨s.offers.names.update (files.flatMap (entriesOf w library root namesOf)),
        s.offers.wholes ++ files.flatMap (entriesOf w library root wholesOf)⟩ := by
    induction files generalizing s with
    | nil => simp [Table.update]
    | cons file rest ih =>
      rw [List.foldl_cons, ih, offers_addFile]
      simp [Table.update]
  exact hfold { offers, setOrder := w.nameOrder }

theorem mem_namesOf_iff {n : Node} {entry : String × String} :
    entry ∈ namesOf package n ↔ takesAll n = false ∧ ∃ source ∈ sourceModule? package n,
      ∃ name ∈ takenNames n, entry = (Dotted.append package name, Dotted.append source name) := by
  rw [namesOf, reexports]
  cases takesAll n with
  | true => simp
  | false => cases sourceModule? package n <;> simp [eq_comm]

theorem mem_wholesOf_iff {n : Node} {entry : String × String} :
    entry ∈ wholesOf package n ↔ takesAll n = true ∧ ∃ source ∈ sourceModule? package n,
      entry = (package, source) := by
  rw [wholesOf]
  cases takesAll n with
  | true => cases sourceModule? package n <;> simp
  | false => simp

/-! ### Wildcards -/

/-- No import of the files takes all names of its module. -/
def NoWildcards (w : World) (files : List Path) : Prop :=
  ∀ file ∈ files, ∀ tree ∈ (w.read? file).bind w.parse?, ∀ n ∈ memberImports w.finder tree,
    takesAll n = false

theorem wholes_ofFiles {files : List Path} (h : NoWildcards w files) (offers : Offers) :
    (Survey.ofFiles w library root files offers).offers.wholes = offers.wholes := by
  have hnone : files.flatMap (entriesOf w library root wholesOf) = [] := by
    refine List.eq_nil_iff_forall_not_mem.mpr fun entry hmem => ?_
    obtain ⟨file, hfile, hentry⟩ := List.mem_flatMap.mp hmem
    obtain ⟨tree, package, htree, -, n, hn, hwhole⟩ := mem_entriesOf_iff.mp hentry
    obtain ⟨hall, -⟩ := mem_wholesOf_iff.mp hwhole
    rw [h file hfile tree htree n hn] at hall
    cases hall
  rw [offers_ofFiles, hnone, List.append_nil]

/-- What offers all names of a module is a package of the library. -/
def Survey.PackagesOf (library : String) (s : Survey) : Prop :=
  ∀ offer ∈ s.offers.wholes, ∃ parts, offer.1 = Dotted.ofComponents (library :: parts)

theorem Survey.packagesOf_ofFiles (w : World) (library : String) (root : Path) (files : List Path) :
    (Survey.ofFiles w library root files {}).PackagesOf library := by
  intro offer hoffer
  rw [offers_ofFiles] at hoffer
  obtain ⟨file, -, hentry⟩ := List.mem_flatMap.mp hoffer
  obtain ⟨tree, package, -, hpackage, n, -, hwhole⟩ := mem_entriesOf_iff.mp hentry
  obtain ⟨-, source, -, rfl⟩ := mem_wholesOf_iff.mp hwhole
  rw [packageName?] at hpackage
  split at hpackage
  · obtain ⟨below, -, rfl⟩ := Option.map_eq_some_iff.mp hpackage
    exact ⟨below.dropLast, rfl⟩
  · cases hpackage

/-! ### Full names -/

theorem exists_toList_append (library name : String) (parts : List String) :
    ∃ rest, (Dotted.append (Dotted.ofComponents (library :: parts)) name).toList =
      library.toList ++ '.' :: rest := by
  rw [Dotted.append, Dotted.ofComponents, Text.join]
  cases parts with
  | nil => exact ⟨name.toList, by simp⟩
  | cons part rest =>
    refine ⟨(".".intercalate (part :: rest) ++ "." ++ name).toList, ?_⟩
    rw [String.intercalate_cons_cons]
    simp

theorem exists_toList_of_classPathIn? {file : Path} {name path : String}
    (h : classPathIn? library root file name = some path) :
    ∃ rest, path.toList = library.toList ++ '.' :: rest := by
  obtain ⟨module, hmodule, rfl⟩ := Option.map_eq_some_iff.mp h
  obtain ⟨below, -, rfl⟩ := Option.map_eq_some_iff.mp hmodule
  exact exists_toList_append library name (moduleComponents below)

theorem first_eq_of_toList {path : String} {rest : List Char} (plain : '.' ∉ library.toList)
    (h : path.toList = library.toList ++ '.' :: rest) : Dotted.first path = library := by
  rw [Dotted.first, Dotted.components, Text.split, h, Text.splitChars_append_cons '.' plain]
  exact String.ofList_toList

theorem Declared.first_eq {files : List Path} {path : String} {d : Definition}
    {listed : List String} (h : Declared w library root files path d listed)
    (plain : '.' ∉ library.toList) : Dotted.first path = library := by
  obtain ⟨-, -, tree, name, -, -, -, hpath, -⟩ := h
  obtain ⟨rest, hrest⟩ := exists_toList_of_classPathIn? hpath
  exact first_eq_of_toList plain hrest

theorem Declared.ne_empty {files : List Path} {path : String} {d : Definition}
    {listed : List String} (h : Declared w library root files path d listed) : path ≠ "" := by
  obtain ⟨-, -, tree, name, -, -, -, hpath, -⟩ := h
  obtain ⟨rest, hrest⟩ := exists_toList_of_classPathIn? hpath
  rintro rfl
  simp at hrest

theorem Declared.not_relative {files : List Path} {path : String} {d : Definition}
    {listed : List String} (h : Declared w library root files path d listed)
    (named : library ≠ "") (plain : '.' ∉ library.toList) :
    Text.startsWith path "." = false := by
  obtain ⟨-, -, tree, name, -, -, -, hpath, -⟩ := h
  obtain ⟨rest, hrest⟩ := exists_toList_of_classPathIn? hpath
  rw [Text.startsWith, hrest]
  cases hchars : library.toList with
  | nil => exact absurd (String.toList_eq_nil_iff.mp hchars) named
  | cons c cs =>
    rw [hchars, List.mem_cons, not_or] at plain
    simp [List.isPrefixOf, plain.1]

end ParamLens.Library
