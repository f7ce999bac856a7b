import ParamLens.Text.Dotted

/-! Splitting characters at a separator and putting the pieces together again, as with the
components of dotted names. -/

namespace ParamLens.Text

/-- The pieces put together with a separator, split at one of them: every piece before it is closed
by a separator, and every piece after it is opened by one. -/
theorem intercalate_append_cons {α : Type} (separator : α) (before after : List (List α))
    (piece : List α) :
    [separator].intercalate (before ++ piece :: after) =
      before.flatMap (· ++ [separator]) ++ piece ++ after.flatMap (separator :: ·) := by
  induction before with
  | nil =>
    induction after generalizing piece with
    | nil => simp
    | cons next rest ih =>
      have h := ih next
      simp only [List.nil_append, List.flatMap_nil] at h ⊢
      rw [List.intercalate_cons_cons, h]
      simp
  | cons first rest ih =>
    rw [List.cons_append, List.intercalate_cons_of_ne_nil (by simp), ih]
    simp

theorem length_splitChars (separator : Char) (cs : List Char) :
    (splitChars separator cs).length = cs.count separator + 1 := by
  fun_induction splitChars separator cs with
  | case1 => simp
  | case2 rest ih => simp [ih]
  | case3 c rest hc hsplit ih => exact absurd hsplit (splitChars_ne_nil separator rest)
  | case4 c rest hc piece pieces hsplit ih =>
    rw [hsplit] at ih
    simpa [List.count_cons, hc] using ih

theorem intercalate_splitChars (separator : Char) (cs : List Char) :
    [separator].intercalate (splitChars separator cs) = cs := by
  fun_induction splitChars separator cs with
  | case1 => simp
  | case2 rest ih =>
    rw [List.intercalate_cons_of_ne_nil (splitChars_ne_nil separator rest), ih]
    simp
  | case3 c rest hc hsplit ih => exact absurd hsplit (splitChars_ne_nil separator rest)
  | case4 c rest hc piece pieces hsplit ih =>
    rw [hsplit, ← List.nil_append (piece :: pieces), intercalate_append_cons] at ih
    rw [← List.nil_append ((c :: piece) :: pieces), intercalate_append_cons]
    simpa using ih

theorem mem_of_mem_splitChars {separator c : Char} {cs piece : List Char}
    (h : piece ∈ splitChars separator cs) (hc : c ∈ piece) : c ∈ cs := by
  obtain ⟨before, after, hsplit⟩ := List.append_of_mem h
  rw [← intercalate_splitChars separator cs, hsplit, intercalate_append_cons]
  simp [hc]

theorem separator_notMem_of_mem_splitChars {separator : Char} {cs piece : List Char}
    (h : piece ∈ splitChars separator cs) : separator ∉ piece := by
  fun_induction splitChars separator cs generalizing piece with
  | case1 => simp_all
  | case2 rest ih =>
    rcases List.mem_cons.mp h with rfl | hmem
    · simp
    · exact ih hmem
  | case3 c rest hc hsplit ih => exact absurd hsplit (splitChars_ne_nil separator rest)
  | case4 c rest hc first pieces hsplit ih =>
    rw [hsplit] at ih
    rcases List.mem_cons.mp h with rfl | hmem
    · have hfirst := ih List.mem_cons_self
      simp [hfirst, Ne.symm hc]
    · exact ih (List.mem_cons_of_mem first hmem)

theorem splitChars_append_cons (separator : Char) {piece : List Char} (h : separator ∉ piece)
    (rest : List Char) :
    splitChars separator (piece ++ separator :: rest) = piece :: splitChars separator rest := by
  induction piece with
  | nil => simp [splitChars]
  | cons c piece ih =>
    rw [List.mem_cons, not_or] at h
    simp [splitChars, Ne.symm h.1, ih h.2]

theorem splitChars_of_notMem (separator : Char) {piece : List Char} (h : separator ∉ piece) :
    splitChars separator piece = [piece] := by
  induction piece with
  | nil => rfl
  | cons c piece ih =>
    rw [List.mem_cons, not_or] at h
    simp [splitChars, Ne.symm h.1, ih h.2]

theorem splitChars_intercalate (separator : Char) {pieces : List (List Char)} (ne : pieces ≠ [])
    (h : ∀ piece ∈ pieces, separator ∉ piece) :
    splitChars separator ([separator].intercalate pieces) = pieces := by
  induction pieces with
  | nil => exact absurd rfl ne
  | cons piece rest ih =>
    have hpiece := h piece List.mem_cons_self
    cases rest with
    | nil => simpa using splitChars_of_notMem separator hpiece
    | cons next others =>
      rw [List.intercalate_cons_cons, List.append_assoc, List.singleton_append,
        splitChars_append_cons separator hpiece]
      rw [ih (by simp) fun piece hmem => h piece (List.mem_cons_of_mem _ hmem)]

theorem split_join {separator : Char} {between : String} (hbetween : between.toList = [separator])
    {pieces : List String} (ne : pieces ≠ []) (h : ∀ piece ∈ pieces, separator ∉ piece.toList) :
    split separator (join between pieces) = pieces := by
  rw [split, join, String.toList_intercalate, hbetween,
    splitChars_intercalate separator (by simpa using ne) (by simpa using h)]
  simp [Function.comp_def]

end ParamLens.Text

namespace ParamLens.Dotted

theorem components_ofComponents {parts : List String} (ne : parts ≠ [])
    (h : ∀ part ∈ parts, '.' ∉ part.toList) : components (ofComponents parts) = parts :=
  Text.split_join rfl ne h

theorem ofComponents_singleton (name : String) : ofComponents [name] = name := by
  simp [ofComponents, Text.join]

theorem ofComponents_cons_cons (first next : String) (rest : List String) :
    ofComponents (first :: next :: rest) = append first (ofComponents (next :: rest)) := by
  refine String.toList_injective ?_
  simp [ofComponents, append, Text.join, String.toList_intercalate]

theorem isDotted_ofComponents {first next : String} {rest : List String} :
    isDotted (ofComponents (first :: next :: rest)) = true := by
  simp [isDotted, ofComponents, Text.join]

end ParamLens.Dotted
