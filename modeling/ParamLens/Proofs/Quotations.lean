import ParamLens.Proofs.Phrases

/-! Quotations in the text of a dependency decorator. The text is taken apart into characters and
quoted names, possibly with a quotation that is open at its end. What is read from the text, over
all its lines, are those names and that quotation. -/

namespace ParamLens.Text

/-! ### Rows -/

/-- What stands behind the last line end. -/
def lastRow (cs : List Char) : List Char := (cs.reverse.takeWhile (· != '\n')).reverse

theorem lastRow_append {tail : List Char} (h : '\n' ∉ tail) (cs : List Char) :
    lastRow (cs ++ tail) = lastRow cs ++ tail := by
  have hall : ∀ c ∈ tail.reverse, (c != '\n') = true := by
    intro c hc
    rw [bne_iff_ne]
    rintro rfl
    exact h (List.mem_reverse.mp hc)
  rw [lastRow, List.reverse_append, List.takeWhile_append_of_pos hall, List.reverse_append,
    List.reverse_reverse, lastRow]

theorem lastRow_newline (cs : List Char) : lastRow (cs ++ ['\n']) = [] := by
  simp [lastRow]

theorem lastRow_intercalate {row : List Char} (h : '\n' ∉ row) (above : List (List Char)) :
    lastRow (['\n'].intercalate (above ++ [row])) = row := by
  rw [intercalate_append_cons, List.flatMap_nil, List.append_nil, lastRow_append h]
  rcases above.eq_nil_or_concat' with rfl | ⟨more, last, rfl⟩
  · rfl
  · rw [List.flatMap_append, List.flatMap_singleton, ← List.append_assoc, lastRow_newline]
    rfl

theorem intercalate_nil_eq_flatten {α : Type} (pieces : List (List α)) :
    ([] : List α).intercalate pieces = pieces.flatten := by
  induction pieces with
  | nil => rfl
  | cons piece rest ih =>
    cases rest with
    | nil => simp
    | cons next rest =>
      rw [List.intercalate_cons_cons, ih]
      simp

theorem flatMap_splitChars (separator ending : Char) (cs : List Char) :
    (splitChars separator cs).flatMap (· ++ [ending]) =
      cs.map (fun c => if c = separator then ending else c) ++ [ending] := by
  fun_induction splitChars separator cs with
  | case1 => rfl
  | case2 rest ih => simp [ih]
  | case3 c rest hc hsplit ih => exact absurd hsplit (splitChars_ne_nil separator rest)
  | case4 c rest hc piece pieces hsplit ih =>
    rw [hsplit] at ih
    simpa [hc] using ih

theorem foldr_count_splitChars {separator c : Char} (h : c ≠ separator) (cs : List Char) :
    (splitChars separator cs).foldr (fun piece total => piece.count c + total) 0 = cs.count c := by
  fun_induction splitChars separator cs with
  | case1 => rfl
  | case2 rest ih => simpa [List.count_cons, Ne.symm h] using ih
  | case3 d rest hd hsplit ih => exact absurd hsplit (splitChars_ne_nil separator rest)
  | case4 d rest hd piece pieces hsplit ih =>
    rw [hsplit, List.foldr_cons] at ih
    rw [List.foldr_cons, List.count_cons, List.count_cons, ← ih]
    omega

end ParamLens.Text

namespace ParamLens.Editor

open Text Scan Phrase

/-! ### Quotations -/

theorem isQuote_iff {c : Char} : isQuote c = true ↔ c = '"' ∨ c = Char.ofNat 39 := by
  rw [isQuote, Bool.or_eq_true, beq_iff_eq, beq_iff_eq]

/-- A quotation mark with what stands behind it on its line, up to the next mark. -/
structure Quotation where
  sign : Char
  content : List Char
  isQuote_sign : isQuote sign = true
  plain : ∀ c ∈ content, isQuote c = false ∧ c ≠ '\n'

theorem Quotation.sign_ne_newline (q : Quotation) : q.sign ≠ '\n' := by
  intro h
  have hquote := q.isQuote_sign
  rw [h] at hquote
  exact absurd hquote (by decide)

/-- What may stand in parentheses: a character that is no quotation mark, or a quoted name. -/
inductive Piece where
  | mark (c : Char) (h : isQuote c = false)
  | quoted (q : Quotation) (h : q.content ≠ [])

def Piece.text : Piece → List Char
  | .mark c _ => [c]
  | .quoted q _ => q.sign :: (q.content ++ [q.sign])

def Piece.name? : Piece → Option String
  | .mark _ _ => none
  | .quoted q _ => some (String.ofList q.content)

section

variable {cs : List Char}

theorem quotedFrom_plain (h : ∀ c ∈ cs, isQuote c = false) (rest : List Char) :
    quotedFrom none (cs ++ rest) = quotedFrom none rest := by
  induction cs with
  | nil => rfl
  | cons c cs ih =>
    have hc : isQuote c = false := h c List.mem_cons_self
    simp [quotedFrom, hc, ih fun d hd => h d (List.mem_cons_of_mem c hd)]

theorem quotedFrom_opened (h : ∀ c ∈ cs, isQuote c = false) (name rest : List Char) :
    quotedFrom (some name) (cs ++ rest) = quotedFrom (some (name ++ cs)) rest := by
  induction cs generalizing name with
  | nil => simp
  | cons c cs ih =>
    have hc : isQuote c = false := h c List.mem_cons_self
    simp [quotedFrom, hc, ih fun d hd => h d (List.mem_cons_of_mem c hd)]

theorem quotedFrom_closing {sign : Char} (hsign : isQuote sign = true) {name : List Char}
    (hne : name ≠ []) (rest : List Char) :
    quotedFrom (some name) (sign :: rest) = String.ofList name :: quotedFrom none rest := by
  obtain ⟨c, more, rfl⟩ := List.exists_cons_of_ne_nil hne
  simp [quotedFrom, hsign]

/-- A line end as the blank that is read in its place. -/
def blanked (c : Char) : Char := if c = '\n' then ' ' else c

theorem isQuote_blanked (c : Char) : isQuote (blanked c) = isQuote c := by
  unfold blanked
  split
  · next h =>
    subst h
    decide
  · rfl

theorem Quotation.map_blanked (q : Quotation) : q.content.map blanked = q.content :=
  (List.map_congr_left fun c hc => if_neg (q.plain c hc).2).trans (List.map_id' q.content)

theorem quotedFrom_pieces (pieces : List Piece) (rest : List Char) :
    quotedFrom none ((pieces.flatMap Piece.text).map blanked ++ rest) =
      pieces.filterMap Piece.name? ++ quotedFrom none rest := by
  induction pieces with
  | nil => rfl
  | cons piece pieces ih =>
    rw [List.flatMap_cons, List.map_append, List.append_assoc]
    cases piece with
    | mark c hc =>
      rw [quotedFrom_plain, ih]
      · rfl
      · simpa [Piece.text, isQuote_blanked] using hc
    | quoted q hne =>
      have hsign : blanked q.sign = q.sign := if_neg q.sign_ne_newline
      have htext : (Piece.quoted q hne).text.map blanked = q.sign :: (q.content ++ [q.sign]) := by
        simp [Piece.text, hsign, q.map_blanked]
      have hopens (more : List Char) :
          quotedFrom none (q.sign :: more) = quotedFrom (some []) more := by
        simp [quotedFrom, q.isQuote_sign]
      rw [htext, List.cons_append, List.append_assoc, List.singleton_append, hopens,
        quotedFrom_opened fun c hc => (q.plain c hc).1, List.nil_append,
        quotedFrom_closing q.isQuote_sign hne, ih]
      rfl

theorem quotedFrom_opened_end (h : ∀ c ∈ cs, isQuote c = false) (name : List Char) :
    quotedFrom (some name) cs = [] := by
  have hend := quotedFrom_opened h name []
  rwa [List.append_nil] at hend

/-! ### The quotation at the cursor -/

/-- Each kind of quotation mark stands in the text an even number of times. -/
def Paired (cs : List Char) : Prop := ∀ sign, isQuote sign = true → cs.count sign % 2 = 0

theorem paired_nil : Paired [] := fun _ _ => rfl

theorem count_plain (h : ∀ c ∈ cs, isQuote c = false) {sign : Char} (hsign : isQuote sign = true) :
    cs.count sign = 0 := by
  rw [List.count_eq_zero]
  intro hmem
  simp [h sign hmem] at hsign

theorem Paired.lastRow_pieces (pieces : List Piece) (h : Paired (lastRow cs)) :
    Paired (lastRow (cs ++ pieces.flatMap Piece.text)) := by
  induction pieces generalizing cs with
  | nil => simpa using h
  | cons piece pieces ih =>
    rw [List.flatMap_cons, ← List.append_assoc]
    apply ih
    cases piece with
    | mark c hc =>
      by_cases hnewline : c = '\n'
      · -- A line end begins a new last line, on which no mark stands yet.
        subst hnewline
        rw [Piece.text, lastRow_newline]
        exact paired_nil
      · rw [Piece.text, lastRow_append (by simpa using Ne.symm hnewline)]
        intro sign hsign
        have hnone : [c].count sign = 0 := count_plain (by simpa using hc) hsign
        rw [List.count_append, hnone]
        exact h sign hsign
    | quoted q hne =>
      have hline : '\n' ∉ q.sign :: (q.content ++ [q.sign]) := by
        have hcontent : '\n' ∉ q.content := fun hmem => (q.plain _ hmem).2 rfl
        simp [hcontent, q.sign_ne_newline.symm]
      rw [Piece.text, lastRow_append hline]
      intro sign hsign
      have hplain := count_plain (fun c hc => (q.plain c hc).1) hsign
      have hbefore := h sign hsign
      rw [List.count_append, List.count_cons, List.count_append, hplain, List.count_singleton]
      omega

theorem Paired.count_opened (h : Paired cs) (q : Quotation) {sign : Char}
    (hsign : isQuote sign = true) :
    (cs ++ q.sign :: q.content).count sign % 2 = if q.sign = sign then 1 else 0 := by
  have hbefore := h sign hsign
  have hplain := count_plain (fun c hc => (q.plain c hc).1) hsign
  rw [List.count_append, List.count_cons, hplain]
  by_cases heq : q.sign = sign
  · rw [if_pos (beq_iff_eq.mpr heq), if_pos heq]
    omega
  · rw [if_neg (mt beq_iff_eq.mp heq), if_neg heq]
    omega

theorem Paired.afterOpenQuote?_eq_none (h : Paired cs) {sign : Char} (hsign : isQuote sign = true) :
    afterOpenQuote? sign (String.ofList cs) = none := by
  have hcount := h sign hsign
  rw [afterOpenQuote?, Text.count, String.toList_ofList, if_neg (by omega)]

theorem Paired.afterOpenQuote?_opened (h : Paired cs) (q : Quotation) {sign : Char}
    (hsign : isQuote sign = true) :
    afterOpenQuote? sign (String.ofList (cs ++ q.sign :: q.content)) =
      if q.sign = sign then some (String.ofList q.content) else none := by
  have hcount := h.count_opened q hsign
  rw [afterOpenQuote?, Text.count, String.toList_ofList, hcount]
  by_cases heq : q.sign = sign
  · have hall : ∀ c ∈ q.content.reverse, (c != sign) = true := by
      intro c hc
      rw [bne_iff_ne]
      rintro rfl
      simp [(q.plain c (List.mem_reverse.mp hc)).1] at hsign
    have hlast : (cs ++ q.sign :: q.content).reverse.takeWhile (· != sign) = q.content.reverse := by
      rw [List.reverse_append, List.reverse_cons, List.append_assoc,
        takeWhile_append_apart hall (by simp [heq])]
    rw [if_pos heq, if_pos rfl, hlast, List.reverse_reverse]
    rw [if_pos heq]
  · rw [if_neg heq, if_neg (by decide), if_neg heq]

end

/-! ### The text of a decorator up to the cursor -/

theorem findSome?_visibleFrom_blanks {α : Type} {f : List Char → Option α} {blanks : List Char}
    (h : ∀ c ∈ blanks, isBlank c = true) (hf : ∀ c rest, isBlank c = true → f (c :: rest) = none)
    (tail : List Char) :
    (visibleFrom false (blanks ++ tail)).findSome? f = (visibleFrom false tail).findSome? f := by
  induction blanks with
  | nil => rfl
  | cons c rest ih =>
    have hc : isBlank c = true := h c List.mem_cons_self
    have hcomment : c ≠ '#' := by
      rintro rfl
      exact absurd hc (by decide)
    rw [List.cons_append, visibleFrom, if_neg (by simp), List.findSome?_cons, hf c _ hc]
    simpa [hcomment] using ih fun d hd => h d (List.mem_cons_of_mem c hd)

/-- A dependency decorator from the start of its line up to the cursor in its parentheses, where a
quotation may be open. -/
structure Decorator where
  indent : List Char
  gap : List Char
  pieces : List Piece
  opened : Option Quotation
  blank : ∀ c ∈ indent ++ gap, isBlank c = true ∧ c ≠ '\n'

namespace Decorator

variable (d : Decorator)

/-- The text up to the opening parenthesis. -/
def head : List Char := d.indent ++ ("@param.depends".toList ++ (d.gap ++ ['(']))

/-- The text between the opening parenthesis and the cursor. -/
def inside : List Char :=
  d.pieces.flatMap Piece.text ++ (d.opened.map fun q => q.sign :: q.content).getD []

def text : List Char := d.head ++ d.inside

/-- The names that are quoted before the cursor. -/
def names : List String := d.pieces.filterMap Piece.name?

/-- What is written of a name in the open quotation. -/
def part : String := (d.opened.map fun q => String.ofList q.content).getD ""

theorem isQuote_head : ∀ c ∈ d.head, isQuote c = false := by
  have hblank (c : Char) (hc : c ∈ d.indent ++ d.gap) : isQuote c = false := by
    by_contra hquote
    rcases isQuote_iff.mp (Bool.not_eq_false _ |>.mp hquote) with rfl | rfl
    · exact absurd (d.blank _ hc).1 (by decide)
    · exact absurd (d.blank _ hc).1 (by decide)
  have hword : "@param.depends(".toList.all (fun c => !isQuote c) = true := by decide
  intro c hc
  simp only [head, List.mem_append, List.mem_singleton] at hc
  rcases hc with hc | hc | hc | rfl
  · exact hblank c (List.mem_append_left _ hc)
  · have hall := List.all_eq_true.mp hword c (by simp at hc ⊢; tauto)
    simpa using hall
  · exact hblank c (List.mem_append_right _ hc)
  · decide

theorem newline_notMem_head : '\n' ∉ d.head := by
  have hblank : '\n' ∉ d.indent ++ d.gap := fun hmem => (d.blank _ hmem).2 rfl
  rw [List.mem_append, not_or] at hblank
  simp [head, hblank]

theorem quoted_text : quotedFrom none (d.text.map blanked ++ [' ']) = d.names := by
  have hhead : ∀ c ∈ d.head.map blanked, isQuote c = false := by
    simpa [isQuote_blanked] using d.isQuote_head
  rw [text, inside, List.map_append, List.append_assoc, quotedFrom_plain hhead, List.map_append,
    List.append_assoc, quotedFrom_pieces, names]
  cases d.opened with
  | none => exact List.append_nil _
  | some q =>
    -- Nothing closes the open quotation, so it gives no name.
    have hcontent : ∀ c ∈ q.content ++ [' '], isQuote c = false := by
      intro c hc
      rcases List.mem_append.mp hc with hc | hc
      · exact (q.plain c hc).1
      · rw [List.mem_singleton.mp hc]
        decide
    have hsign : blanked q.sign = q.sign := if_neg q.sign_ne_newline
    have hopens : quotedFrom none (q.sign :: (q.content ++ [' '])) = [] := by
      rw [← quotedFrom_opened_end hcontent []]
      simp [quotedFrom, q.isQuote_sign]
    simp [hsign, q.map_blanked, hopens]

theorem exists_lastRow_text : ∃ before, Paired before ∧ lastRow d.text =
    before ++ (d.opened.map fun q => q.sign :: q.content).getD [] := by
  have hhead : Paired (lastRow d.head) := by
    intro sign hsign
    have hrow : lastRow d.head = d.head := lastRow_append d.newline_notMem_head []
    rw [hrow, count_plain d.isQuote_head hsign]
  refine ⟨lastRow (d.head ++ d.pieces.flatMap Piece.text), hhead.lastRow_pieces d.pieces, ?_⟩
  rw [text, inside, ← List.append_assoc, lastRow_append]
  cases d.opened with
  | none => simp
  | some q =>
    have hcontent : '\n' ∉ q.content := fun hmem => (q.plain _ hmem).2 rfl
    simp [hcontent, q.sign_ne_newline.symm]

theorem quotedPart_lastRow : quotedPart (String.ofList (lastRow d.text)) = d.part := by
  obtain ⟨before, hpaired, hrow⟩ := d.exists_lastRow_text
  rw [hrow, quotedPart, part]
  cases d.opened with
  | none =>
    rw [Option.map_none, Option.getD_none, List.append_nil,
      hpaired.afterOpenQuote?_eq_none (by decide), hpaired.afterOpenQuote?_eq_none (by decide)]
    rfl
  | some q =>
    rw [Option.map_some, Option.getD_some, hpaired.afterOpenQuote?_opened q (by decide),
      hpaired.afterOpenQuote?_opened q (by decide)]
    -- Double marks are looked at first; they are paired if the open mark is a single one.
    rcases isQuote_iff.mp q.isQuote_sign with hsign | hsign
    · rw [if_pos hsign]
      rfl
    · rw [if_neg (by rw [hsign]; decide), if_pos hsign]
      rfl

theorem endsQuoted_lastRow : endsQuoted (String.ofList (lastRow d.text)) = d.opened.isSome := by
  obtain ⟨before, hpaired, hrow⟩ := d.exists_lastRow_text
  rw [hrow, endsQuoted, Text.count, Text.count, String.toList_ofList]
  cases d.opened with
  | none =>
    rw [Option.map_none, Option.getD_none, List.append_nil, hpaired '"' (by decide),
      hpaired (Char.ofNat 39) (by decide)]
    rfl
  | some q =>
    rw [Option.map_some, Option.getD_some, hpaired.count_opened q (by decide),
      hpaired.count_opened q (by decide)]
    rcases isQuote_iff.mp q.isQuote_sign with hsign | hsign <;> simp [hsign]

theorem count_head : d.head.count ')' = 0 ∧ 1 ≤ d.head.count '(' := by
  have hblank : ')' ∉ d.indent ++ d.gap := fun hmem => absurd (d.blank _ hmem).1 (by decide)
  rw [List.mem_append, not_or] at hblank
  refine ⟨List.count_eq_zero.mpr (by simp [head, hblank]), List.one_le_count_iff.mpr ?_⟩
  simp [head]

theorem dependsEnd?_eq {line : String} {more : List Char} (h : line.toList = d.head ++ more) :
    dependsEnd? line = some d.head.length := by
  have hword : "@param.depends".toList = '@' :: "param.depends".toList := rfl
  have hblank {c : Char} (hc : isBlank c = true) (rest : List Char) :
      strip? "@param.depends" (c :: rest) = none := by
    refine Option.eq_none_iff_forall_ne_some.mpr fun more hmore => ?_
    rw [strip?_eq_some_iff, hword] at hmore
    obtain ⟨rfl, -⟩ := List.cons.inj hmore
    exact absurd hc (by decide)
  have hgap : skipBlanks (d.gap ++ '(' :: more) = '(' :: more :=
    dropWhile_append_apart (fun c hc => (d.blank c (List.mem_append_right _ hc)).1)
      (by simp; decide)
  have hline : line.toList = d.indent ++ ("@param.depends".toList ++ (d.gap ++ '(' :: more)) := by
    rw [h, head]
    simp
  have hindent : ∀ c ∈ d.indent, isBlank c = true :=
    fun c hc => (d.blank c (List.mem_append_left _ hc)).1
  have hlength : Text.length line - more.length = d.head.length := by
    rw [Text.length, h, List.length_append, Nat.add_sub_cancel]
  rw [dependsEnd?, hline, visible, findSome?_visibleFrom_blanks hindent
      (fun c rest hc => by rw [hblank hc rest]; rfl), hword, List.cons_append,
    visibleFrom, if_neg (by simp), List.findSome?_cons, ← List.cons_append, ← hword,
    strip?_eq_some_iff.mpr rfl, Option.map_some, hgap]
  exact congrArg some hlength

end Decorator

end ParamLens.Editor
