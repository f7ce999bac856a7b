import ParamLens.Editor.Edit
import ParamLens.Proofs.Splitting

/-! Changes of a document, read as cuts of its text. A place is an offset into the text, and a
change between two places cuts the text at two offsets and puts the new text there. The main
statements say that changes on the lines of a text give what the cuts give, one after another, and
fail exactly when one of them begins on a line that the text before it does not have. -/

namespace ParamLens.Text

/-- The offset at which a line of a text begins, if the text has the line. -/
def lineStart? : List Char → Nat → Option Nat
  | _, 0 => some 0
  | [], _ + 1 => none
  | c :: rest, line + 1 =>
    (lineStart? rest (if c = '\n' then line else line + 1)).map (· + 1)

/-- The number of characters before the first line end. -/
def lineLength (cs : List Char) : Nat := (cs.takeWhile (· != '\n')).length

/-- The offset of a place: where its line begins, and from there its position, but at most the end
of the line. A line that the text does not have stands for the end of the text. -/
def offset (cs : List Char) (line character : Nat) : Nat :=
  match lineStart? cs line with
  | some start => start + min character (lineLength (cs.drop start))
  | none => cs.length

/-- The number of lines of a text: one more than it has line ends. -/
def lineCount (s : String) : Nat := count s '\n' + 1

/-! ### Lines and their ends -/

theorem length_lines (s : String) : (lines s).length = lineCount s := by
  simp [lines, split, length_splitChars, lineCount, count]

theorem lineStart?_of_splitChars {cs piece : List Char} {before after : List (List Char)}
    (h : splitChars '\n' cs = before ++ piece :: after) :
    lineStart? cs before.length = some (before.flatMap (· ++ ['\n'])).length := by
  induction cs generalizing before piece with
  | nil =>
    cases before with
    | nil => rfl
    | cons first rest => simp [splitChars] at h
  | cons c rest ih =>
    cases before with
    | nil => simp [lineStart?]
    | cons first others =>
      by_cases hc : c = '\n'
      · simp only [splitChars, if_pos hc, List.cons_append, List.cons.injEq] at h
        obtain ⟨rfl, hrest⟩ := h
        simp [lineStart?, hc, ih hrest]
      · simp only [splitChars, if_neg hc] at h
        split at h
        · rename_i hsplit
          exact absurd hsplit (splitChars_ne_nil '\n' rest)
        · rename_i head pieces hsplit
          simp only [List.cons_append, List.cons.injEq] at h
          obtain ⟨rfl, rfl⟩ := h
          have hrest : splitChars '\n' rest = (head :: others) ++ piece :: after := by
            simpa using hsplit
          have hstart := ih hrest
          simp only [List.length_cons] at hstart
          simp [lineStart?, hc, hstart]

theorem lineStart?_eq_none {cs : List Char} {line : Nat} (h : cs.count '\n' < line) :
    lineStart? cs line = none := by
  fun_induction lineStart? cs line with
  | case1 => simp at h
  | case2 => rfl
  | case3 c rest line ih =>
    by_cases hc : c = '\n'
    · simp only [hc, List.count_cons_self, if_true] at h ih ⊢
      rw [ih (by omega)]
      rfl
    · simp only [List.count_cons_of_ne hc, if_neg hc] at h ih ⊢
      rw [ih h]
      rfl

theorem takeWhile_append_flatMap {piece : List Char} (h : '\n' ∉ piece)
    (after : List (List Char)) :
    (piece ++ after.flatMap ('\n' :: ·)).takeWhile (· != '\n') = piece := by
  have hall : ∀ c ∈ piece, (c != '\n') = true := by
    intro c hc
    simpa using fun e : c = '\n' => h (e ▸ hc)
  rw [List.takeWhile_append_of_pos hall]
  cases after <;> simp

theorem eq_append_of_splitChars {cs piece : List Char} {before after : List (List Char)}
    (h : splitChars '\n' cs = before ++ piece :: after) :
    cs = before.flatMap (· ++ ['\n']) ++ (piece ++ after.flatMap ('\n' :: ·)) := by
  rw [← List.append_assoc, ← intercalate_append_cons, ← h, intercalate_splitChars]

theorem offset_of_splitChars {cs piece : List Char} {before after : List (List Char)}
    (h : splitChars '\n' cs = before ++ piece :: after) (character : Nat) :
    offset cs before.length character =
      (before.flatMap (· ++ ['\n'])).length + min character piece.length := by
  have hmem : piece ∈ splitChars '\n' cs := by simp [h]
  have hpiece : '\n' ∉ piece := separator_notMem_of_mem_splitChars hmem
  have hlength : lineLength (cs.drop (before.flatMap (· ++ ['\n'])).length) = piece.length := by
    rw [eq_append_of_splitChars h, List.drop_left, lineLength, takeWhile_append_flatMap hpiece]
  rw [offset, lineStart?_of_splitChars h]
  simp only [hlength]

theorem exists_append_of_getElem? {α : Type} {l : List α} {i : Nat} {a : α} (h : l[i]? = some a) :
    ∃ before after, l = before ++ a :: after ∧ before.length = i := by
  obtain ⟨hi, rfl⟩ := List.getElem?_eq_some_iff.mp h
  refine ⟨l.take i, l.drop (i + 1), ?_, by simp [Nat.le_of_lt hi]⟩
  rw [← List.drop_eq_getElem_cons hi, List.take_append_drop]

theorem take_offset {cs piece : List Char} {line : Nat}
    (h : (splitChars '\n' cs)[line]? = some piece) (character : Nat) :
    cs.take (offset cs line character) =
      ((splitChars '\n' cs).take line).flatMap (· ++ ['\n']) ++ piece.take character := by
  obtain ⟨before, after, hsplit, rfl⟩ := exists_append_of_getElem? h
  rw [offset_of_splitChars hsplit, hsplit, List.take_left, eq_append_of_splitChars hsplit,
    List.take_length_add_append, List.take_append_of_le_length (Nat.min_le_right _ _),
    ← List.take_eq_take_min]

theorem drop_offset (cs : List Char) (line character : Nat) :
    cs.drop (offset cs line character) =
      ((splitChars '\n' cs).getD line []).drop character ++
        ((splitChars '\n' cs).drop (line + 1)).flatMap ('\n' :: ·) := by
  cases h : (splitChars '\n' cs)[line]? with
  | none =>
    -- A line behind the last one: both sides are empty.
    have hlength := length_splitChars '\n' cs
    have hlast := List.getElem?_eq_none_iff.mp h
    rw [offset, lineStart?_eq_none (by omega), List.getD_eq_getElem?_getD, h,
      List.drop_eq_nil_iff.mpr (show (splitChars '\n' cs).length ≤ line + 1 by omega)]
    simp
  | some piece =>
    obtain ⟨before, after, hsplit, rfl⟩ := exists_append_of_getElem? h
    have hdrop : (splitChars '\n' cs).drop (before.length + 1) = after := by
      rw [hsplit, List.drop_length_add_append]
      rfl
    have hcut : piece.drop (min character piece.length) = piece.drop character := by
      rcases Nat.le_total character piece.length with hle | hle
      · rw [Nat.min_eq_left hle]
      · rw [Nat.min_eq_right hle, List.drop_eq_nil_iff.mpr hle, List.drop_length]
    rw [offset_of_splitChars hsplit, List.getD_eq_getElem?_getD, h, hdrop,
      eq_append_of_splitChars hsplit, List.drop_length_add_append,
      List.drop_append_of_le_length (Nat.min_le_right _ _), hcut]
    rfl

end ParamLens.Text

namespace ParamLens.Editor

/-- The text after the part between two places is cut out and another text is put there. -/
def splice (content : String) (start stop : Cursor) (text : String) : String :=
  Text.take content (Text.offset content.toList start.line start.character) ++ text ++
    Text.drop content (Text.offset content.toList stop.line stop.character)

namespace Edit

/-- The text that a change means: all of it is new, or the part between two places is. -/
def meant (content : String) : Edit → String
  | .whole text => text
  | .between start stop text => splice content start stop text

/-- A change between two places names them in their order. -/
def Ordered : Edit → Prop
  | .whole _ => True
  | .between start stop _ =>
    start.line < stop.line ∨ start.line = stop.line ∧ start.character ≤ stop.character

/-- A change between two places begins on a line of the text. -/
def Fits (content : String) : Edit → Prop
  | .whole _ => True
  | .between start _ _ => start.line < Text.lineCount content

instance (e : Edit) : Decidable e.Ordered :=
  match e with
  | .whole _ => inferInstanceAs (Decidable True)
  | .between start stop _ => inferInstanceAs (Decidable
      (start.line < stop.line ∨ start.line = stop.line ∧ start.character ≤ stop.character))

instance (content : String) (e : Edit) : Decidable (e.Fits content) :=
  match e with
  | .whole _ => inferInstanceAs (Decidable True)
  | .between start _ _ => inferInstanceAs (Decidable (start.line < Text.lineCount content))

end Edit

/-- The text that changes mean, one after another. -/
def meantText (content : String) (edits : List Edit) : String := edits.foldl Edit.meant content

/-- Each change fits the text that those before it leave. -/
def AllFit : String → List Edit → Prop
  | _, [] => True
  | content, e :: rest => e.Fits content ∧ AllFit (e.meant content) rest

instance AllFit.decidable : (content : String) → (edits : List Edit) →
    Decidable (AllFit content edits)
  | _, [] => inferInstanceAs (Decidable True)
  | content, e :: rest =>
    have := AllFit.decidable (e.meant content) rest
    inferInstanceAs (Decidable (e.Fits content ∧ AllFit (e.meant content) rest))

theorem toList_unlines (before after : List String) (line : String) :
    (Text.unlines (before ++ line :: after)).toList =
      (before.map String.toList).flatMap (· ++ ['\n']) ++ line.toList ++
        (after.map String.toList).flatMap ('\n' :: ·) := by
  rw [Text.unlines, Text.join, String.toList_intercalate, List.map_append, List.map_cons,
    ← Text.intercalate_append_cons]
  rfl

theorem map_toList_lines (content : String) :
    (Text.lines content).map String.toList = Text.splitChars '\n' content.toList := by
  simp [Text.lines, Text.split, Function.comp_def]

theorem unlines_lines (content : String) : Text.unlines (Text.lines content) = content := by
  apply String.toList_injective
  rw [Text.unlines, Text.join, String.toList_intercalate, map_toList_lines]
  exact Text.intercalate_splitChars '\n' content.toList

/-! ### Taking lines out and putting lines in -/

theorem removeAfter_append (before : List String) (line : String) (count : Nat)
    (rest : List String) :
    removeAfter before.length count (before ++ line :: rest) =
      before ++ line :: rest.drop count := by
  induction count generalizing rest with
  | zero => rfl
  | succ count ih =>
    have herase : (before ++ line :: rest).eraseIdx (before.length + count + 1) =
        before ++ line :: rest.eraseIdx count := by
      rw [Nat.add_assoc, List.eraseIdx_append_of_length_le (Nat.le_add_right _ _),
        Nat.add_sub_cancel_left, List.eraseIdx_cons_succ]
    have hdrop : (rest.eraseIdx count).drop count = rest.drop (count + 1) := by
      apply List.ext_getElem?
      intro i
      rw [List.getElem?_drop, List.getElem?_eraseIdx_of_ge (Nat.le_add_right _ _),
        List.getElem?_drop, Nat.add_right_comm]
    rw [removeAfter, herase, ih, hdrop]

theorem insertIdx_length_append (before rest : List String) (line : String) :
    (before ++ rest).insertIdx before.length line = before ++ line :: rest := by
  induction before with
  | nil => rfl
  | cons first others ih => simpa using ih

theorem insertFrom_append (before new rest : List String) :
    insertFrom before.length new (before ++ rest) = before ++ new ++ rest := by
  induction new generalizing before with
  | nil => simp [insertFrom]
  | cons line others ih =>
    have hnext := ih (before ++ [line])
    simp only [List.length_append, List.length_singleton, List.append_assoc,
      List.singleton_append] at hnext
    rw [insertFrom, insertIdx_length_append, hnext, List.append_assoc, List.cons_append]

/-- A text of several lines, with something put before its first and behind its last line. -/
theorem unlines_framed {text top bottom : String} {middle : List String}
    (h : Text.lines text = top :: (middle ++ [bottom])) (above below : List String)
    (before after : String) :
    Text.unlines (above ++ (before ++ top) :: (middle ++ (bottom ++ after) :: below)) =
      Text.unlines (above ++ (before ++ text ++ after) :: below) := by
  have htext : text.toList = top.toList ++
      ((middle ++ [bottom]).map String.toList).flatMap ('\n' :: ·) := by
    have hlines := toList_unlines [] (middle ++ [bottom]) top
    rw [List.nil_append, ← h, unlines_lines] at hlines
    simpa using hlines
  apply String.toList_injective
  rw [toList_unlines, toList_unlines]
  simp [htext]

theorem exists_lines_eq {text : String} (h : (Text.lines text).length ≠ 1) :
    ∃ top middle bottom, Text.lines text = top :: (middle ++ [bottom]) := by
  have hne : Text.lines text ≠ [] := by simp [Text.lines, Text.split, Text.splitChars_ne_nil]
  obtain ⟨top, rest, hlines⟩ := List.exists_cons_of_ne_nil hne
  have hrest : rest ≠ [] := by
    rintro rfl
    exact h (by rw [hlines, List.length_singleton])
  exact ⟨top, rest.dropLast, rest.getLast hrest, by
    rw [hlines, List.dropLast_concat_getLast hrest]⟩

/-- The lines after a change, put together: one line takes the place of those that the change
touches, with what stands before and behind the new text. -/
theorem unlines_replaceLines_append (above below : List String) (first text : String)
    (start stop : Cursor) (hstart : above.length = start.line) :
    ∃ replaced, replaceLines? (above ++ first :: below) start stop text = some replaced ∧
      Text.unlines replaced = Text.unlines (above ++
        (Text.take first start.character ++ text ++
          Text.drop ((above ++ first :: below).getD stop.line "") stop.character) ::
        below.drop (stop.line - start.line)) := by
  have hfirst : (above ++ first :: below)[start.line]? = some first := by simp [← hstart]
  refine ⟨_, by rw [replaceLines?, hfirst, Option.map_some], ?_⟩
  generalize Text.take first start.character = before
  generalize Text.drop ((above ++ first :: below).getD stop.line "") stop.character = after
  dsimp only
  split
  · next hsame =>
    simp [← hstart, ← hsame]
  · rw [← hstart, removeAfter_append]
    -- New text of one line joins both ends of the cut; of several, its first and last line do.
    split
    · next hone =>
      obtain ⟨only, honly⟩ := List.length_eq_one_iff.mp hone
      have htext : only = text := by
        rw [← unlines_lines text, honly]
        simp [Text.unlines, Text.join]
      simp [honly, htext]
    · next hmany =>
      obtain ⟨top, middle, bottom, hlines⟩ := exists_lines_eq hmany
      have hfilled := insertFrom_append (above ++ [before ++ top]) middle
        (below.drop (stop.line - above.length))
      have hlast := insertIdx_length_append (above ++ (before ++ top) :: middle)
        (below.drop (stop.line - above.length)) (bottom ++ after)
      have hbottom : (top :: (middle ++ [bottom])).getLastD "" = bottom := by
        rw [← List.cons_append, List.getLastD_concat]
      simp only [List.length_append, List.length_cons, List.length_nil, List.append_assoc,
        List.cons_append, List.nil_append, Nat.zero_add] at hfilled hlast
      rw [← unlines_framed hlines, hlines, hbottom]
      simp [hfilled, hlast]

/-! ### One change -/

theorem exists_replaceLines {content : String} {start stop : Cursor} (text : String)
    (hle : start.line ≤ stop.line) (hline : start.line < (Text.lines content).length) :
    ∃ replaced, replaceLines? (Text.lines content) start stop text = some replaced ∧
      Text.unlines replaced = splice content start stop text := by
  obtain ⟨above, below, hsplit, habove⟩ :=
    Text.exists_append_of_getElem? (List.getElem?_eq_getElem hline)
  generalize (Text.lines content)[start.line] = first at hsplit
  obtain ⟨replaced, hreplaced, hunlines⟩ :=
    unlines_replaceLines_append above below first text start stop habove
  rw [← hsplit] at hreplaced hunlines
  refine ⟨replaced, hreplaced, hunlines.trans ?_⟩
  have hpieces : Text.splitChars '\n' content.toList =
      above.map String.toList ++ first.toList :: below.map String.toList := by
    rw [← map_toList_lines, hsplit, List.map_append, List.map_cons]
  have hpiece : (Text.splitChars '\n' content.toList)[start.line]? = some first.toList := by
    simp [hpieces, ← habove]
  have htake : (Text.splitChars '\n' content.toList).take start.line =
      above.map String.toList := by
    simp [hpieces, ← habove]
  have hdrop : (Text.splitChars '\n' content.toList).drop (stop.line + 1) =
      (below.map String.toList).drop (stop.line - start.line) := by
    have hindex : stop.line + 1 = above.length + (stop.line - start.line + 1) := by omega
    rw [hpieces, hindex, ← List.length_map, List.drop_length_add_append, List.drop_succ_cons]
  have hlast : ((Text.lines content).getD stop.line "").toList =
      (Text.splitChars '\n' content.toList).getD stop.line [] := by
    rw [← map_toList_lines, List.getD_eq_getElem?_getD, List.getD_eq_getElem?_getD,
      List.getElem?_map]
    cases (Text.lines content)[stop.line]? <;> rfl
  apply String.toList_injective
  rw [toList_unlines, splice]
  simp only [String.toList_append, Text.toList_take, Text.toList_drop, hlast,
    Text.take_offset hpiece, Text.drop_offset, htake, hdrop, List.map_drop, List.append_assoc]

theorem Edit.Ordered.line_le {start stop : Cursor} {text : String}
    (h : (Edit.between start stop text).Ordered) : start.line ≤ stop.line := by
  rcases h with hlt | ⟨heq, -⟩ <;> omega

theorem Edit.apply_of_fits {content : String} {e : Edit} (hordered : e.Ordered)
    (hfits : e.Fits content) : e.apply content = .ok (e.meant content) := by
  cases e with
  | whole text => rfl
  | between start stop text =>
    have hline : start.line < (Text.lines content).length := by
      rw [Text.length_lines]
      exact hfits
    obtain ⟨replaced, hreplaced, hunlines⟩ := exists_replaceLines text hordered.line_le hline
    simp only [Edit.apply, hreplaced, Edit.meant, hunlines]

theorem Edit.apply_of_not_fits {content : String} {e : Edit} (h : ¬ e.Fits content) :
    e.apply content = .error .lineOutOfRange := by
  cases e with
  | whole text => exact absurd trivial h
  | between start stop text =>
    have hline : (Text.lines content)[start.line]? = none := by
      rw [List.getElem?_eq_none_iff, Text.length_lines]
      exact Nat.not_lt.mp h
    simp [Edit.apply, replaceLines?, hline]

/-! ### Changes one after another -/

theorem applyEdits_of_allFit {content : String} {edits : List Edit}
    (hordered : ∀ e ∈ edits, e.Ordered) (hfit : AllFit content edits) :
    applyEdits content edits = .ok (meantText content edits) := by
  induction edits generalizing content with
  | nil => rfl
  | cons e rest ih =>
    obtain ⟨hfirst, hrest⟩ := hfit
    have hnext := ih (fun e he => hordered e (List.mem_cons_of_mem _ he)) hrest
    rw [applyEdits, List.foldlM_cons, Edit.apply_of_fits (hordered e List.mem_cons_self) hfirst]
    exact hnext

/-- The first change that does not fit ends all of them. -/
theorem applyEdits_of_not_allFit {content : String} {edits : List Edit}
    (hordered : ∀ e ∈ edits, e.Ordered) (hfit : ¬ AllFit content edits) :
    applyEdits content edits = .error .lineOutOfRange := by
  induction edits generalizing content with
  | nil => exact absurd trivial hfit
  | cons e rest ih =>
    rw [applyEdits, List.foldlM_cons]
    by_cases hfirst : e.Fits content
    · have hrest : ¬ AllFit (e.meant content) rest := fun h => hfit ⟨hfirst, h⟩
      rw [Edit.apply_of_fits (hordered e List.mem_cons_self) hfirst]
      exact ih (fun e he => hordered e (List.mem_cons_of_mem _ he)) hrest
    · rw [Edit.apply_of_not_fits hfirst]
      rfl

end ParamLens.Editor
