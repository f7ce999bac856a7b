import Mathlib.Data.List.DropRight
import ParamLens.Parameter.Source
import ParamLens.Proofs.Splitting

/-! The rows of a text that are shown as a definition. They are those that the count of brackets
goes through, without the blank ones at their end. So the rows of a definition are shown exactly if
the count goes through all of them, and beyond them through blank rows only. -/

namespace ParamLens.Text

variable {cs rest : List Char}

/-! ### Blanks at the ends -/

theorem trimEndChars_append_of_blank {blanks : List Char} (h : ∀ c ∈ blanks, isBlank c = true) :
    trimEndChars (cs ++ blanks) = trimEndChars cs := by
  rw [trimEndChars, List.reverse_append, List.dropWhile_append_of_pos]
  · rfl
  · simpa using h

theorem trimEndChars_of_blank (h : ∀ c ∈ cs, isBlank c = true) : trimEndChars cs = [] := by
  simpa [trimEndChars] using h

theorem trimStartChars_append_of_visible (h : ∃ c ∈ cs, isBlank c = false) :
    trimStartChars (cs ++ rest) = trimStartChars cs ++ rest := by
  obtain ⟨c, hmem, hc⟩ := h
  rw [trimStartChars, trimStartChars, List.dropWhile_append, if_neg]
  rw [List.isEmpty_iff, List.dropWhile_eq_nil_iff]
  intro hall
  rw [hall c hmem] at hc
  cases hc

theorem trimEndChars_cons (c : Char) (cs : List Char) :
    trimEndChars (c :: cs) =
      if trimEndChars cs = [] ∧ isBlank c = true then [] else c :: trimEndChars cs := by
  rw [trimEndChars, trimEndChars, List.reverse_cons, List.dropWhile_append]
  by_cases hempty : cs.reverse.dropWhile isBlank = []
  · cases hc : isBlank c with
    | true => simp [hempty, hc]
    | false => simp [hempty, hc]
  · simp [hempty]

theorem trimStartChars_trimEndChars (cs : List Char) :
    trimStartChars (trimEndChars cs) = trimEndChars (trimStartChars cs) := by
  induction cs with
  | nil => rfl
  | cons c rest ih =>
    rw [trimEndChars_cons]
    cases hc : isBlank c with
    | true =>
      have hstart (cs : List Char) : trimStartChars (c :: cs) = trimStartChars cs := by
        rw [trimStartChars, List.dropWhile_cons_of_pos hc]
        rfl
      rw [hstart, ← ih]
      by_cases hempty : trimEndChars rest = []
      · rw [if_pos ⟨hempty, rfl⟩, hempty]
      · rw [if_neg fun h => hempty h.1, hstart]
    | false =>
      have hstart (cs : List Char) : trimStartChars (c :: cs) = c :: cs := by
        rw [trimStartChars, List.dropWhile_cons_of_neg (by simp [hc])]
      rw [if_neg (by simp), hstart, hstart, trimEndChars_cons, if_neg (by simp [hc])]

/-- The last character is no blank. -/
def EndsVisible (cs : List Char) : Prop := ∃ c, cs.getLast? = some c ∧ isBlank c = false

theorem EndsVisible.append (h : EndsVisible rest) (cs : List Char) : EndsVisible (cs ++ rest) := by
  obtain ⟨c, hlast, hc⟩ := h
  exact ⟨c, by simp [List.getLast?_append, hlast], hc⟩

theorem EndsVisible.trimEndChars_eq (h : EndsVisible cs) : trimEndChars cs = cs := by
  obtain ⟨c, hlast, hc⟩ := h
  obtain ⟨before, rfl⟩ := List.getLast?_eq_some_iff.mp hlast
  simp [trimEndChars, hc]

theorem blank_or_visible (cs : List Char) :
    (∀ c ∈ cs, isBlank c = true) ∨ ∃ c ∈ cs, isBlank c = false := by
  by_cases h : ∃ c ∈ cs, isBlank c = false
  · exact .inr h
  · refine .inl fun c hmem => ?_
    cases hc : isBlank c with
    | true => rfl
    | false => exact absurd ⟨c, hmem, hc⟩ h

theorem endsVisible_trimEndChars (h : ∃ c ∈ cs, isBlank c = false) :
    EndsVisible (trimEndChars cs) := by
  induction cs with
  | nil => simp at h
  | cons c rest ih =>
    rw [trimEndChars_cons]
    rcases blank_or_visible rest with hrest | hrest
    · have hc : isBlank c = false := by
        obtain ⟨found, hmem, hfound⟩ := h
        rcases List.mem_cons.mp hmem with rfl | hmem
        · exact hfound
        · rw [hrest found hmem] at hfound
          cases hfound
      rw [if_neg (by simp [hc]), trimEndChars_of_blank hrest]
      exact ⟨c, rfl, hc⟩
    · obtain ⟨last, hlast, hvisible⟩ := ih hrest
      have hne : trimEndChars rest ≠ [] := fun hempty => by simp [hempty] at hlast
      rw [if_neg fun hboth => hne hboth.1]
      exact EndsVisible.append ⟨last, hlast, hvisible⟩ [c]

theorem EndsVisible.trimStartChars (h : EndsVisible cs) : EndsVisible (trimStartChars cs) := by
  obtain ⟨c, hlast, hc⟩ := h
  obtain ⟨before, rfl⟩ := List.getLast?_eq_some_iff.mp hlast
  rcases blank_or_visible before with hbefore | hbefore
  · rw [Text.trimStartChars, List.dropWhile_append_of_pos hbefore]
    exact ⟨c, by simp [hc], hc⟩
  · rw [trimStartChars_append_of_visible hbefore]
    exact EndsVisible.append ⟨c, rfl, hc⟩ _

theorem mem_of_mem_trimEndChars {c : Char} (h : c ∈ trimEndChars cs) : c ∈ cs := by
  rw [trimEndChars, List.mem_reverse] at h
  exact List.mem_reverse.mp ((List.dropWhile_sublist _).mem h)

theorem mem_of_mem_trimStartChars {c : Char} (h : c ∈ trimStartChars cs) : c ∈ cs :=
  (List.dropWhile_sublist _).mem h

theorem trim_trimStart (s : String) : trim (trimStart s) = trim s := by
  rw [trim, trim, trimStart, String.toList_ofList, trimStartChars, trimStartChars,
    List.dropWhile_idempotent]

theorem trim_trimEnd (s : String) : trim (trimEnd s) = trim s := by
  rw [trim, trim, trimEnd, String.toList_ofList, trimStartChars_trimEndChars, trimEndChars,
    trimEndChars, List.reverse_reverse, List.dropWhile_idempotent]

theorem trimEnd_trimEnd (s : String) : trimEnd (trimEnd s) = trimEnd s := by
  rw [trimEnd, trimEnd, String.toList_ofList, trimEndChars, trimEndChars, List.reverse_reverse,
    List.dropWhile_idempotent]

end ParamLens.Text

namespace ParamLens.Source

open Text

/-! ### Rows up to blanks at their ends -/

/-- All characters of the row are blanks. -/
def isBlankRow (row : String) : Bool := row.toList.all isBlank

/-- Rows without the blanks at their ends, and the first one without its indentation. -/
def tidy : List String → List String
  | [] => []
  | first :: rest => trim first :: rest.map trimEnd

/-- The text shows the rows, up to blanks at the ends of the rows and the indentation of the first
one. -/
def Shows (shown : String) (rows : List String) : Prop := tidy (lines shown) = tidy rows

instance (shown : String) (rows : List String) : Decidable (Shows shown rows) :=
  inferInstanceAs (Decidable (_ = _))

theorem length_tidy (rows : List String) : (tidy rows).length = rows.length := by
  cases rows with
  | nil => rfl
  | cons first rest => simp [tidy]

theorem exists_visible {row : String} (h : isBlankRow row = false) :
    ∃ c ∈ row.toList, isBlank c = false := by
  simpa [isBlankRow] using h

theorem toList_unlines_cons (first : String) (rest : List String) :
    (unlines (first :: rest)).toList =
      first.toList ++ rest.flatMap fun row => '\n' :: row.toList := by
  have h := intercalate_append_cons '\n' [] (rest.map String.toList) first.toList
  rw [unlines, join, String.toList_intercalate, List.map_cons]
  simpa [List.flatMap_map] using h

theorem toList_trimEnd (row : String) : (trimEnd row).toList = trimEndChars row.toList := by
  rw [trimEnd, String.toList_ofList]

theorem toList_trimStart (row : String) : (trimStart row).toList = trimStartChars row.toList := by
  rw [trimStart, String.toList_ofList]

theorem lines_unlines_trimEnd {first : String} {rest : List String} (hfirst : '\n' ∉ first.toList)
    (hrest : ∀ row ∈ rest, '\n' ∉ row.toList) :
    lines (unlines (first :: rest.map trimEnd)) = first :: rest.map trimEnd := by
  refine split_join rfl (by simp) fun row hmem => ?_
  rcases List.mem_cons.mp hmem with rfl | hmem
  · exact hfirst
  · obtain ⟨row, hrow, rfl⟩ := List.mem_map.mp hmem
    rw [toList_trimEnd]
    exact fun hc => hrest row hrow (mem_of_mem_trimEndChars hc)

theorem blank_of_mem_blanks {blanks : List String} (h : ∀ row ∈ blanks, isBlankRow row = true) :
    ∀ c ∈ blanks.flatMap fun row => '\n' :: trimEndChars row.toList, isBlank c = true := by
  intro c hmem
  obtain ⟨row, hrow, hc⟩ := List.mem_flatMap.mp hmem
  have hblank : ∀ c ∈ row.toList, isBlank c = true := by simpa [isBlankRow] using h row hrow
  rcases List.mem_cons.mp hc with rfl | hc
  · decide
  · exact hblank c (mem_of_mem_trimEndChars hc)

theorem lines_trim_unlines {first : String} {rest blanks : List String}
    (hfirst : isBlankRow first = false)
    (hlast : ∀ row ∈ (first :: rest).getLast?, isBlankRow row = false)
    (hblanks : ∀ row ∈ blanks, isBlankRow row = true)
    (hrows : ∀ row ∈ first :: rest, '\n' ∉ row.toList) :
    lines (trim (unlines ((first :: rest ++ blanks).map trimEnd))) =
      trimStart (trimEnd first) :: rest.map trimEnd := by
  have hvisible := endsVisible_trimEndChars (exists_visible hfirst)
  -- The text is what is kept, followed by the ends of the blank rows.
  have hkept : EndsVisible (trimStartChars (trimEndChars first.toList) ++
      rest.flatMap fun row => '\n' :: trimEndChars row.toList) := by
    rcases List.eq_nil_or_concat rest with rfl | ⟨before, row, rfl⟩
    · simpa using hvisible.trimStartChars
    · have hrow : isBlankRow row = false :=
        hlast row (by simp [List.getLast?_cons, List.concat_eq_append])
      simp only [List.concat_eq_append, List.flatMap_append, List.flatMap_singleton]
      exact (((endsVisible_trimEndChars (exists_visible hrow)).append ['\n']).append _).append _
  have htext : (trim (unlines ((first :: rest ++ blanks).map trimEnd))).toList =
      (unlines (trimStart (trimEnd first) :: rest.map trimEnd)).toList := by
    obtain ⟨c, hlast, hc⟩ := hvisible
    rw [trim, String.toList_ofList, List.cons_append, List.map_cons, toList_unlines_cons,
      toList_unlines_cons, List.flatMap_map, List.flatMap_map, toList_trimStart, toList_trimEnd,
      trimStartChars_append_of_visible ⟨c, List.mem_of_getLast? hlast, hc⟩, List.flatMap_append,
      ← List.append_assoc]
    simp only [toList_trimEnd]
    rw [trimEndChars_append_of_blank (blank_of_mem_blanks hblanks), hkept.trimEndChars_eq]
  rw [String.toList_injective htext]
  refine lines_unlines_trimEnd ?_ fun row hrow => hrows row (List.mem_cons_of_mem _ hrow)
  rw [toList_trimStart, toList_trimEnd]
  exact fun hc => hrows first List.mem_cons_self
    (mem_of_mem_trimEndChars (mem_of_mem_trimStartChars hc))

/-! ### The rows that are gone through -/

theorem closingLines_isPrefix (s : Nesting) (ls : List String) : closingLines s ls <+: ls := by
  induction ls generalizing s with
  | nil => exact List.prefix_rfl
  | cons line rest ih =>
    rw [closingLines]
    split
    · exact ⟨rest, rfl⟩
    · exact (List.prefix_cons_inj line).mpr (ih _)

theorem closingLines_cons (s : Nesting) (line : String) (rest : List String) :
    ∃ more, closingLines s (line :: rest) = line :: more := by
  rw [closingLines]
  split
  · exact ⟨[], rfl⟩
  · exact ⟨_, rfl⟩

/-- The shown text and the rows gone through, without the blank ones at their end. -/
theorem tidy_indentedDefinition {ls : List String} {index : Nat} {first : String}
    {rest blanks : List String}
    (hclosing : closingLines {} (ls.drop index) = first :: rest ++ blanks)
    (hfirst : isBlankRow first = false)
    (hlast : ∀ row ∈ (first :: rest).getLast?, isBlankRow row = false)
    (hblanks : ∀ row ∈ blanks, isBlankRow row = true)
    (hrows : ∀ row ∈ ls, '\n' ∉ row.toList) :
    tidy (lines (indentedDefinition ls index)) = tidy (first :: rest) := by
  have hrows : ∀ row ∈ first :: rest, '\n' ∉ row.toList := by
    intro row hmem
    have hmem : row ∈ closingLines {} (ls.drop index) := hclosing ▸ List.mem_append_left _ hmem
    exact hrows row (List.mem_of_mem_drop ((closingLines_isPrefix _ _).mem hmem))
  have hlines : lines (definition ls index) = trimStart (trimEnd first) :: rest.map trimEnd := by
    rw [definition, hclosing]
    exact lines_trim_unlines hfirst hlast hblanks hrows
  have hline : ls[index]? = some first := by
    obtain ⟨after, hafter⟩ := closingLines_isPrefix {} (ls.drop index)
    rw [hclosing] at hafter
    rw [← List.head?_drop, ← hafter]
    rfl
  rw [indentedDefinition]
  simp only [hlines, hline]
  split
  · rw [lines_unlines_trimEnd (hrows first List.mem_cons_self)
      fun row hrow => hrows row (List.mem_cons_of_mem _ hrow)]
    simp [tidy, trimEnd_trimEnd]
  · rw [hlines]
    simp [tidy, trimEnd_trimEnd, trim_trimStart, trim_trimEnd]

theorem exists_append_blanks (rows : List String) :
    ∃ kept blanks, rows = kept ++ blanks ∧ (∀ row ∈ blanks, isBlankRow row = true) ∧
      ∀ row ∈ kept.getLast?, isBlankRow row = false := by
  refine ⟨rows.rdropWhile isBlankRow, rows.rtakeWhile isBlankRow,
    List.rdropWhile_append_rtakeWhile.symm, fun row hmem => List.mem_rtakeWhile_imp hmem, ?_⟩
  intro row hmem
  have hne : rows.rdropWhile isBlankRow ≠ [] := fun hempty => by simp [hempty] at hmem
  rw [List.getLast?_eq_some_getLast hne, Option.mem_some] at hmem
  have hlast := List.rdropWhile_last_not isBlankRow rows hne
  rw [hmem] at hlast
  simpa using hlast

theorem shows_iff {ls : List String} {index : Nat} {rows rest : List String}
    (hls : ∀ row ∈ ls, '\n' ∉ row.toList) (hdrop : ls.drop index = rows ++ rest)
    (hfirst : ∀ row ∈ rows.head?, isBlankRow row = false)
    (hlast : ∀ row ∈ rows.getLast?, isBlankRow row = false) (hne : rows ≠ []) :
    Shows (indentedDefinition ls index) rows ↔
      ∃ blanks, (∀ row ∈ blanks, isBlankRow row = true) ∧
        closingLines {} (ls.drop index) = rows ++ blanks := by
  obtain ⟨first, others, rfl⟩ := List.exists_cons_of_ne_nil hne
  have hfirst : isBlankRow first = false := hfirst first rfl
  constructor
  · intro hshows
    obtain ⟨more, hmore⟩ := closingLines_cons {} first (others ++ rest)
    rw [← List.cons_append, ← hdrop] at hmore
    -- The rows gone through are some that are shown, and blank ones behind them.
    obtain ⟨kept, blanks, hclosing, hblanks, hkept⟩ :=
      exists_append_blanks (closingLines {} (ls.drop index))
    obtain ⟨shown, rfl⟩ : ∃ shown, kept = first :: shown := by
      cases kept with
      | nil =>
        rw [hmore, List.nil_append] at hclosing
        rw [hblanks first (hclosing ▸ List.mem_cons_self)] at hfirst
        cases hfirst
      | cons row shown =>
        rw [hmore, List.cons_append] at hclosing
        exact ⟨shown, by rw [(List.cons.inj hclosing).1]⟩
    have htidy := tidy_indentedDefinition hclosing hfirst hkept hblanks hls
    have hlength : (first :: shown).length = (first :: others).length := by
      rw [← length_tidy, ← htidy, hshows, length_tidy]
    have hshown : first :: shown <+: first :: others ++ rest := by
      rw [← hdrop]
      exact (hclosing ▸ List.prefix_append _ _ : first :: shown <+: _).trans
        (closingLines_isPrefix _ _)
    refine ⟨blanks, hblanks, ?_⟩
    rw [hclosing, (List.append_inj_left (List.prefix_iff_eq_append.mp hshown) hlength)]
  · rintro ⟨blanks, hblanks, hclosing⟩
    exact tidy_indentedDefinition hclosing hfirst hlast hblanks hls

end ParamLens.Source
