import ParamLens.Imports.Module
import ParamLens.Proofs.Splitting

/-! Plain paths, whose components are such as a text can write. The text of a plain path reads back
as the path, so plain paths with one text are one path; and the file of a module is plain if the
paths are that it is looked for from. So it is with straight paths, which begin at the root and
never go up; a straight path is the only one of its file. -/

namespace ParamLens.Path

variable {p q : Path}

/-- The components of the path can be written in a text. -/
def Plain (p : Path) : Prop := ∀ part ∈ p.parts, part ≠ "" ∧ part ≠ "." ∧ '/' ∉ part.toList

theorem filter_parts (h : p.Plain) :
    p.parts.filter (fun part => part != "" && part != ".") = p.parts := by
  rw [List.filter_eq_self]
  intro part hmem
  obtain ⟨hempty, hdot, -⟩ := h part hmem
  simp [hempty, hdot]

theorem split_join_parts (h : p.Plain) (ne : p.parts ≠ []) :
    Text.split '/' (Text.join "/" p.parts) = p.parts :=
  Text.split_join rfl ne fun part hmem => (h part hmem).2.2

theorem split_slash_append (s : String) : Text.split '/' ("/" ++ s) = "" :: Text.split '/' s := by
  simp [Text.split, Text.splitChars]

theorem head?_split_of_startsWith {s : String} (h : Text.startsWith s "/" = true) :
    (Text.split '/' s).head? = some "" := by
  obtain ⟨rest, hrest⟩ := List.isPrefixOf_iff_prefix.mp h
  rw [Text.split, ← hrest]
  simp [Text.splitChars]

theorem ofText_text (h : p.Plain) : ofText p.text = p := by
  obtain ⟨absolute, parts⟩ := p
  have hfilter := filter_parts h
  cases absolute with
  | true =>
    have hslash : Text.startsWith ("/" ++ Text.join "/" parts) "/" = true := by
      simp [Text.startsWith]
    rw [text, if_pos rfl, ofText, hslash, split_slash_append]
    by_cases hparts : parts = []
    · subst hparts
      rfl
    · have hsplit := split_join_parts h hparts
      simp only at hsplit hfilter
      simp [hsplit, hfilter]
  | false =>
    by_cases hparts : parts = []
    · subst hparts
      decide
    · have hsplit := split_join_parts h hparts
      simp only at hsplit hfilter
      have hslash : Text.startsWith (Text.join "/" parts) "/" = false := by
        -- A slash at the start would come before an empty component.
        refine Bool.eq_false_iff.mpr fun hstarts => ?_
        have hhead := head?_split_of_startsWith hstarts
        rw [hsplit] at hhead
        exact (h "" (List.mem_of_head? hhead)).1 rfl
      have htext : text ⟨false, parts⟩ = Text.join "/" parts := by simp [text, hparts]
      rw [htext, ofText, hslash, hsplit, hfilter]

theorem Plain.eq_of_text_eq (hp : p.Plain) (hq : q.Plain) (h : p.text = q.text) : p = q := by
  rw [← ofText_text hp, h, ofText_text hq]

theorem plain_ofText (s : String) : (ofText s).Plain := by
  intro part hmem
  obtain ⟨hsplit, htest⟩ := List.mem_filter.mp hmem
  obtain ⟨piece, hpiece, rfl⟩ := List.mem_map.mp hsplit
  have hslash := Text.separator_notMem_of_mem_splitChars hpiece
  simp only [Bool.and_eq_true, bne_iff_ne] at htest
  exact ⟨htest.1, htest.2, by simpa using hslash⟩

theorem plain_of_mem_map_ofText {written : Option String} :
    ∀ path ∈ written.map ofText, path.Plain := by
  intro path hpath
  obtain ⟨text, -, rfl⟩ := Option.map_eq_some_iff.mp hpath
  exact plain_ofText text

theorem Plain.parent (h : p.Plain) : p.parent.Plain :=
  fun part hmem => h part (List.dropLast_subset _ hmem)

theorem Plain.join (h : p.Plain) (s : String) : (p.join s).Plain := by
  rw [Path.join]
  split
  · exact plain_ofText s
  · intro part hmem
    rcases List.mem_append.mp hmem with hmem | hmem
    · exact h part hmem
    · exact plain_ofText s part hmem

theorem Plain.foldl_join (h : p.Plain) (parts : List String) : (parts.foldl Path.join p).Plain := by
  induction parts generalizing p with
  | nil => exact h
  | cons part rest ih => exact ih (h.join part)

theorem mem_of_mem_splitEnding {name : String} {c : Char} (h : c ∈ (splitEnding name).1.toList) :
    c ∈ name.toList := by
  rw [splitEnding] at h
  split at h
  · exact h
  · rw [String.toList_ofList, List.mem_reverse] at h
    exact List.mem_reverse.mp (List.mem_of_mem_drop h)

theorem slash_notMem_stem (h : p.Plain) : '/' ∉ p.stem.toList := by
  intro hmem
  have hname := mem_of_mem_splitEnding hmem
  rw [name, List.getLastD_eq_getLast?] at hname
  cases hlast : p.parts.getLast? with
  | none => simp [hlast] at hname
  | some part =>
    rw [hlast] at hname
    exact (h part (List.mem_of_getLast? hlast)).2.2 hname

theorem Plain.withEnding? (h : p.Plain) (hq : p.withEnding? ".py" = some q) : q.Plain := by
  rw [Path.withEnding?] at hq
  split at hq
  · cases hq
  · obtain rfl := Option.some.inj hq
    intro part hmem
    rcases List.mem_append.mp hmem with hmem | hmem
    · exact h part (List.dropLast_subset _ hmem)
    · rw [List.mem_singleton] at hmem
      subst hmem
      have hslash := slash_notMem_stem h
      refine ⟨fun e => ?_, fun e => ?_, ?_⟩
      · simpa using congrArg String.toList e
      · have hlength := congrArg (·.toList.length) e
        simp at hlength
      · simpa [String.toList_append] using hslash

/-! ### Straight paths -/

/-- A plain path from the root that never goes up. -/
structure Straight (p : Path) : Prop where
  plain : p.Plain
  absolute : p.absolute = true
  down : ".." ∉ p.parts

instance : Decidable p.Straight :=
  decidable_of_iff ((∀ part ∈ p.parts, part ≠ "" ∧ part ≠ "." ∧ '/' ∉ part.toList) ∧
      p.absolute = true ∧ ".." ∉ p.parts)
    ⟨fun h => ⟨h.1, h.2.1, h.2.2⟩, fun h => ⟨h.plain, h.absolute, h.down⟩⟩

theorem Straight.eq_of_parts_eq (hp : p.Straight) (hq : q.Straight) (h : p.parts = q.parts) :
    p = q := by
  have habsolute := hp.absolute.trans hq.absolute.symm
  cases p
  cases q
  simp_all

theorem Straight.parent (h : p.Straight) : p.parent.Straight :=
  ⟨h.plain.parent, h.absolute, fun hup => h.down (List.dropLast_subset _ hup)⟩

theorem Straight.join (h : p.Straight) {s : String} (hs : ".." ∉ (ofText s).parts) :
    (p.join s).Straight := by
  refine ⟨h.plain.join s, ?_, ?_⟩
  · rw [Path.join]
    split
    · assumption
    · exact h.absolute
  · rw [Path.join]
    split
    · exact hs
    · intro hup
      rcases List.mem_append.mp hup with hup | hup
      · exact h.down hup
      · exact hs hup

theorem dots_notMem_parts {s : String} (h : '.' ∉ s.toList) : ".." ∉ (ofText s).parts := by
  intro hup
  obtain ⟨piece, hpiece, heq⟩ := List.mem_map.mp (List.mem_filter.mp hup).1
  have hdot : '.' ∈ piece := by
    have hchars := congrArg String.toList heq
    rw [String.toList_ofList] at hchars
    rw [hchars]
    decide
  exact h (Text.mem_of_mem_splitChars hpiece hdot)

theorem Straight.foldl_join (h : p.Straight) {parts : List String}
    (hparts : ∀ part ∈ parts, '.' ∉ part.toList) : (parts.foldl Path.join p).Straight := by
  induction parts generalizing p with
  | nil => exact h
  | cons part rest ih =>
    refine ih (h.join (dots_notMem_parts (hparts part List.mem_cons_self))) ?_
    exact fun other hother => hparts other (List.mem_cons_of_mem _ hother)

theorem Straight.withEnding? (h : p.Straight) (hq : p.withEnding? ".py" = some q) :
    q.Straight := by
  have hplain := h.plain.withEnding? hq
  rw [Path.withEnding?] at hq
  split at hq
  · cases hq
  · obtain rfl := Option.some.inj hq
    refine ⟨hplain, h.absolute, fun hup => ?_⟩
    rcases List.mem_append.mp hup with hup | hup
    · exact h.down (List.dropLast_subset _ hup)
    · have hlength := congrArg (·.toList.length) (List.mem_singleton.mp hup)
      simp at hlength

end ParamLens.Path

namespace ParamLens.FileSystem

theorem eq_append_of_follow? {fs : FileSystem} {here parts there : List String}
    (h : fs.follow? here parts = some there) (hdown : ".." ∉ parts) : there = here ++ parts := by
  induction parts generalizing here with
  | nil =>
    obtain rfl := Option.some.inj h
    rw [List.append_nil]
  | cons part rest ih =>
    rw [List.mem_cons, not_or] at hdown
    rw [follow?] at h
    split at h
    · rw [if_neg (Ne.symm hdown.1)] at h
      rw [ih h hdown.2, List.append_assoc]
      rfl
    · cases h

theorem mem_files_of_read? {w : World} {p : Path} (hp : p.Straight) {content : String}
    (h : w.read? p = some content) : p.parts ∈ w.files.files.map Prod.fst := by
  rw [World.read?, read] at h
  split at h
  · cases h
  · next parts hlocate =>
    obtain rfl : parts = p.parts := eq_append_of_follow? hlocate hp.down
    split at h
    · next content' hfile =>
      rw [fileAt?] at hfile
      obtain ⟨before, after, hsplit, -⟩ := List.lookup_eq_some_iff.mp hfile
      rw [hsplit]
      simp
    · cases h

end ParamLens.FileSystem

namespace ParamLens.Imports

variable {w : World} {workspace current : Option Path} {name : String} {file : Path}

theorem moduleFileAt?_cases {target : Path} (h : Library.moduleFileAt? w target = some file) :
    target.withEnding? ".py" = some file ∨ file = target.join Library.packageFile := by
  rw [Library.moduleFileAt?] at h
  split at h
  · next found hfound =>
    obtain rfl := Option.some.inj h
    exact .inl (Option.filter_eq_some_iff.mp hfound).1
  · dsimp only at h
    split at h
    · exact .inr (Option.some.inj h).symm
    · cases h

theorem moduleFile_eq_ok_iff {found : Option Path} :
    moduleFile w workspace current name = .ok found ↔
      moduleFault? w workspace current name = none ∧
        moduleFile? w workspace current name = found := by
  rw [moduleFile]
  split
  · next fault hfault => simp [hfault]
  · next hfault => simp [hfault]

theorem moduleFile_cases (h : moduleFile w workspace current name = .ok (some file)) :
    (∃ path ∈ current, Library.moduleFileAt? w (relativeTarget name path) = some file) ∨
      (∃ root ∈ workspace, Library.moduleFileAt? w (absoluteTarget name root) = some file) ∨
      w.moduleOrigins.get? name = some file := by
  obtain ⟨root, hroot, hfile⟩ := Option.bind_eq_some_iff.mp (moduleFile_eq_ok_iff.mp h).2
  split at hfile
  · exact .inl (Option.bind_eq_some_iff.mp hfile)
  · rcases Option.or_eq_some_iff.mp hfile with hfile | ⟨-, hfile⟩
    · exact .inr (.inl ⟨root, hroot, hfile⟩)
    · exact .inr (.inr (Option.filter_eq_some_iff.mp hfile).1)

theorem plain_of_moduleFileAt? {target : Path} (h : target.Plain)
    (hfile : Library.moduleFileAt? w target = some file) : file.Plain := by
  rcases moduleFileAt?_cases hfile with hsource | rfl
  · exact h.withEnding? hsource
  · exact h.join _

theorem plain_of_moduleFile (hworkspace : ∀ root ∈ workspace, root.Plain)
    (hcurrent : ∀ path ∈ current, path.Plain)
    (horigins : ∀ name origin, w.moduleOrigins.get? name = some origin → origin.Plain)
    (hfile : moduleFile w workspace current name = .ok (some file)) : file.Plain := by
  rcases moduleFile_cases hfile with ⟨path, hpath, hfile⟩ | ⟨root, hroot, hfile⟩ | horigin
  · exact plain_of_moduleFileAt? ((hcurrent path hpath).parent.foldl_join _) hfile
  · exact plain_of_moduleFileAt? ((hworkspace root hroot).foldl_join _) hfile
  · exact horigins name file horigin

theorem straight_of_moduleFileAt? {target : Path} (h : target.Straight)
    (hfile : Library.moduleFileAt? w target = some file) : file.Straight := by
  rcases moduleFileAt?_cases hfile with hsource | rfl
  · exact h.withEnding? hsource
  · exact h.join (by decide)

theorem dot_notMem_of_mem_components {part : String} (h : part ∈ Dotted.components name) :
    '.' ∉ part.toList := by
  obtain ⟨piece, hpiece, rfl⟩ := List.mem_map.mp h
  simpa using Text.separator_notMem_of_mem_splitChars hpiece

theorem straight_of_moduleFile (hworkspace : ∀ root ∈ workspace, root.Straight)
    (hcurrent : ∀ path ∈ current, path.Straight)
    (horigins : ∀ name origin, w.moduleOrigins.get? name = some origin → origin.Straight)
    (hfile : moduleFile w workspace current name = .ok (some file)) : file.Straight := by
  rcases moduleFile_cases hfile with ⟨path, hpath, hfile⟩ | ⟨root, hroot, hfile⟩ | horigin
  · refine straight_of_moduleFileAt? ((hcurrent path hpath).parent.foldl_join ?_) hfile
    exact fun part hpart => dot_notMem_of_mem_components (List.mem_filter.mp hpart).1
  · refine straight_of_moduleFileAt? ((hworkspace root hroot).foldl_join ?_) hfile
    exact fun part hpart => dot_notMem_of_mem_components hpart
  · exact horigins name file horigin

end ParamLens.Imports
