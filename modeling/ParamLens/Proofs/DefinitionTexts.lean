import ParamLens.Parameter.Declaration
import ParamLens.Proofs.ShownRows

/-! The definitions that are shown as they stand in the text. The brackets of a definition are
counted character by character, by rules for strings that are not those of the language: comments
are counted too, every quotation mark begins or ends a string, and a mark behind a backslash never
does. The main statement says when the rows of a definition are shown, and that they are for the
definitions on which the two rules agree. -/

namespace ParamLens.Source

open Text Syntax

/-! ### The count, character by character -/

namespace Nesting

/-- The count after one more character; the flag says that a backslash stands before it. -/
def step (state : Nesting × Bool) (c : Char) : Nesting × Bool :=
  let t := if isQuote c && !state.2 then
    { state.1 with quote := quoted state.1.quote c } else state.1
  (if t.quote.isNone then t.count c else t, c == '\\')

theorem advance_eq (s : Nesting) (escaped : Bool) (cs : List Char) :
    s.advance escaped cs = (cs.foldl step (s, escaped)).1 := by
  induction cs generalizing s escaped with
  | nil => rfl
  | cons c rest ih => exact ih _ _

theorem count_eq_self (s : Nesting) {c : Char}
    (h : c ∉ ['(', ')', '[', ']', '\x7b', '\x7d']) : s.count c = s := by
  unfold count
  split <;> simp_all

theorem step_of_plain (s : Nesting) (escaped : Bool) {c : Char} (hquote : isQuote c = false)
    (hbracket : c ∉ ['(', ')', '[', ']', '\x7b', '\x7d']) :
    step (s, escaped) c = (s, c == '\\') := by
  simp [step, hquote, count_eq_self s hbracket]

theorem step_newline (s : Nesting) (escaped : Bool) : step (s, escaped) '\n' = (s, false) :=
  step_of_plain s escaped (by decide) (by decide)

theorem advance_append_newline (s : Nesting) (escaped : Bool) (cs rest : List Char) :
    s.advance escaped (cs ++ '\n' :: rest) = (s.advance escaped cs).advance false rest := by
  rw [advance_eq, advance_eq, advance_eq, List.foldl_append, List.foldl_cons]
  obtain ⟨t, flag⟩ := cs.foldl step (s, escaped)
  rw [step_newline]

theorem foldl_step_of_blank (s : Nesting) {cs : List Char} (h : ∀ c ∈ cs, isBlank c = true) :
    cs.foldl step (s, false) = (s, false) := by
  induction cs with
  | nil => rfl
  | cons c rest ih =>
    have hc := h c List.mem_cons_self
    have hquote : isQuote c = false := by
      cases hquote : isQuote c with
      | false => rfl
      | true =>
        simp only [isQuote, Bool.or_eq_true, beq_iff_eq] at hquote
        rcases hquote with rfl | rfl
        · exact absurd hc (by decide)
        · exact absurd hc (by decide)
    have hbracket : c ∉ ['(', ')', '[', ']', '\x7b', '\x7d'] := by
      intro hmem
      simp only [List.mem_cons, List.not_mem_nil, or_false] at hmem
      rcases hmem with rfl | rfl | rfl | rfl | rfl | rfl <;> exact absurd hc (by decide)
    have hslash : (c == '\\') = false := by
      simp only [beq_eq_false_iff_ne, ne_eq]
      rintro rfl
      exact absurd hc (by decide)
    rw [List.foldl_cons, step_of_plain s false hquote hbracket, hslash]
    exact ih fun c hmem => h c (List.mem_cons_of_mem _ hmem)

/-- The brackets of both together, in the string of the second. -/
def add (s t : Nesting) : Nesting :=
  ⟨s.parens + t.parens, s.brackets + t.brackets, s.braces + t.braces, t.quote⟩

theorem count_add (s t : Nesting) (c : Char) : (s.add t).count c = s.add (t.count c) := by
  unfold count
  split <;> simp [add] <;> omega

theorem step_add (s t : Nesting) (escaped : Bool) (c : Char) :
    step (s.add t, escaped) c = (s.add (step (t, escaped) c).1, c == '\\') := by
  have hcount (u : Nesting) : (if (s.add u).quote.isNone then (s.add u).count c else s.add u) =
      s.add (if u.quote.isNone then u.count c else u) := by
    rw [count_add]
    cases h : u.quote.isNone with
    | true => simp [add, h]
    | false => simp [add, h]
  cases hbegins : isQuote c && !escaped with
  | true =>
    simp only [step, hbegins, if_true]
    exact congrArg (·, c == '\\') (hcount { t with quote := quoted t.quote c })
  | false =>
    simp only [step, hbegins, Bool.false_eq_true, if_false]
    exact congrArg (·, c == '\\') (hcount t)

theorem foldl_step_add (s t : Nesting) (escaped : Bool) (cs : List Char) :
    cs.foldl step (s.add t, escaped) =
      (s.add (cs.foldl step (t, escaped)).1, (cs.foldl step (t, escaped)).2) := by
  induction cs generalizing t escaped with
  | nil => rfl
  | cons c rest ih =>
    rw [List.foldl_cons, List.foldl_cons, step_add, ih]
    rfl

/-! ### Strings -/

/-- No quotation mark of the kind stands in the text without a backslash before it. -/
def isInert (mark : Char) (escaped : Bool) : List Char → Bool
  | [] => true
  | c :: rest => (c != mark || escaped) && isInert mark (c == '\\') rest

theorem isInert_of_append {mark : Char} {escaped : Bool} {cs rest : List Char}
    (h : isInert mark escaped (cs ++ rest) = true) : isInert mark escaped cs = true := by
  induction cs generalizing escaped with
  | nil => rfl
  | cons c cs ih =>
    simp only [List.cons_append, isInert, Bool.and_eq_true] at h ⊢
    exact ⟨h.1, ih h.2⟩

theorem foldl_step_of_inert (s : Nesting) {mark : Char} {escaped : Bool} {cs : List Char}
    (h : isInert mark escaped cs = true) :
    (cs.foldl step ({ s with quote := some mark }, escaped)).1 = { s with quote := some mark } := by
  induction cs generalizing escaped with
  | nil => rfl
  | cons c rest ih =>
    simp only [isInert, Bool.and_eq_true, Bool.or_eq_true, bne_iff_ne] at h
    have hstep : step ({ s with quote := some mark }, escaped) c =
        ({ s with quote := some mark }, c == '\\') := by
      rcases h.1 with hne | rfl
      · simp [step, quoted, hne]
      · simp [step]
    rw [List.foldl_cons, hstep]
    exact ih h.2

end Nesting

/-! ### Rows in which a bracket stays open -/

/-- At every end of a row in the text a bracket is open. -/
def Opens (state : Nesting × Bool) (cs : List Char) : Prop :=
  ∀ before after, cs = before ++ '\n' :: after →
    (before.foldl Nesting.step state).1.isClosed = false

theorem opens_of_notMem {state : Nesting × Bool} {cs : List Char} (h : '\n' ∉ cs) :
    Opens state cs := by
  rintro before after rfl
  exact absurd (by simp) h

theorem opens_newline {s : Nesting} {escaped : Bool} (h : s.isClosed = false) :
    Opens (s, escaped) ['\n'] := by
  intro before after hsplit
  cases before with
  | nil => exact h
  | cons c rest => simp at hsplit

theorem Opens.append {state : Nesting × Bool} {cs rest : List Char} (h : Opens state cs)
    (hrest : Opens (cs.foldl Nesting.step state) rest) : Opens state (cs ++ rest) := by
  intro before after hsplit
  rcases List.append_eq_append_iff.mp hsplit with ⟨middle, rfl, hmiddle⟩ | ⟨middle, rfl, hmiddle⟩
  · rw [List.foldl_append]
    exact hrest middle after hmiddle
  · cases middle with
    | nil =>
      rw [List.append_nil] at h hrest
      exact hrest [] after hmiddle.symm
    | cons c middle =>
      obtain ⟨rfl, rfl⟩ := List.cons.inj hmiddle
      exact h before middle rfl

theorem closingLines_of_opens {s : Nesting} {first : String} {others : List String}
    (h : Opens (s, false) (unlines (first :: others)).toList)
    (hclosed : (s.advance false (unlines (first :: others)).toList).isClosed = true)
    (rest : List String) : closingLines s (first :: others ++ rest) = first :: others := by
  induction others generalizing s first with
  | nil =>
    rw [toList_unlines_cons, List.flatMap_nil, List.append_nil] at hclosed
    rw [List.cons_append, closingLines, if_pos hclosed]
  | cons next others ih =>
    have htext : (unlines (first :: next :: others)).toList =
        first.toList ++ '\n' :: (unlines (next :: others)).toList := by
      rw [toList_unlines_cons, toList_unlines_cons, List.flatMap_cons]
      simp
    rw [htext] at h hclosed
    rw [Nesting.advance_append_newline] at hclosed
    have hopen : (s.advance false first.toList).isClosed = false := by
      rw [Nesting.advance_eq]
      exact h first.toList _ rfl
    rw [List.cons_append, closingLines, if_neg (by simp [hopen])]
    refine congrArg _ (ih ?_ hclosed)
    intro before after hsplit
    have hall := h (first.toList ++ '\n' :: before) after (by rw [hsplit]; simp)
    rw [← Nesting.advance_eq, Nesting.advance_append_newline, Nesting.advance_eq] at hall
    exact hall

/-! ### Definitions -/

/-- A part of what stands in a string: a character, or one with a backslash before it. -/
inductive Part where
  | char (c : Char)
  | escape (c : Char)
deriving DecidableEq

def Part.text : Part → List Char
  | .char c => [c]
  | .escape c => ['\\', c]

/-- The part can stand in a string between marks of the kind. -/
def Part.isWithin (mark : Char) : Part → Bool
  | .char c => c != mark && c != '\\'
  | .escape _ => true

/-- A piece of the text of a definition. -/
inductive Piece where
  | code (c : Char)
  /-- A string between single marks. -/
  | string (mark : Char) (body : List Part)
  /-- A string between three marks on either side. -/
  | block (mark : Char) (body : List Part)
  /-- A comment and the end of its row. -/
  | comment (note : List Char)
  | lineEnd
  /-- A backslash that joins the next row to this one. -/
  | joint
deriving DecidableEq

namespace Piece

def text : Piece → List Char
  | .code c => [c]
  | .string mark body => mark :: body.flatMap Part.text ++ [mark]
  | .block mark body => mark :: mark :: mark :: body.flatMap Part.text ++ [mark, mark, mark]
  | .comment note => '#' :: note ++ ['\n']
  | .lineEnd => ['\n']
  | .joint => ['\\', '\n']

/-- Three marks in a row end a string between three marks, and so does one behind its last
character. -/
def endsEarly (mark : Char) : List Part → Bool
  | [] => false
  | [last] => last == .char mark
  | first :: second :: rest =>
    (first == .char mark && second == .char mark && rest.head? == some (.char mark)) ||
      endsEarly mark (second :: rest)

/-- The piece is one of the language. -/
def isValid : Piece → Bool
  | .code c => !Nesting.isQuote c && c != '#' && c != '\\' && c != '\n'
  | .string mark body =>
    Nesting.isQuote mark && body.all fun part => part.isWithin mark && part != .char '\n'
  | .block mark body =>
    Nesting.isQuote mark && body.all (· != .char '\\') && !endsEarly mark body
  | .comment note => !note.contains '\n'
  | .lineEnd | .joint => true

/-- The bracket that a closing one belongs to. -/
def partner? : Char → Option Char
  | ')' => some '('
  | ']' => some '['
  | '\x7d' => some '\x7b'
  | _ => none

/-- The open brackets without the latest one, if the character closes it. -/
def close? (opened : List Char) (c : Char) : Option (List Char) :=
  match partner? c with
  | none => some opened
  | some mark => if opened.head? = some mark then some opened.tail else none

/-- The open brackets after the piece, the latest first. A row ends between brackets only, unless it
is joined to the next one. -/
def nest (opened : List Char) : Piece → Option (List Char)
  | .code c =>
    if c == '(' || c == '[' || c == '\x7b' then some (c :: opened) else close? opened c
  | .comment _ | .lineEnd => if opened.isEmpty then none else some opened
  | .string _ _ | .block _ _ | .joint => some opened

/-- The count of brackets takes the piece for what it is: no string ends behind a backslash, one
between three marks holds none of them, and a comment leaves no bracket or string open. -/
def isPlain : Piece → Bool
  | .string _ body => body.getLast? != some (.escape '\\')
  | .block mark body => !body.contains (.char mark) && body.getLast? != some (.escape '\\')
  | .comment note => (({} : Nesting).advance false note) == {}
  | .code _ | .lineEnd | .joint => true

end Piece

/-- The pieces are plain, and rows end between brackets only. -/
def isLegible (opened : List Char) : List Piece → Bool
  | [] => true
  | piece :: rest =>
    piece.isPlain && (!piece.text.contains '\n' || !opened.isEmpty) &&
      (piece.nest opened).any fun opened => isLegible opened rest

/-- A syntactically complete definition. -/
structure Definition where
  pieces : List Piece
  valid : pieces.all Piece.isValid = true
  nested : pieces.foldlM Piece.nest [] = some []
  visible : ((pieces.flatMap Piece.text).head?.any fun c => !isBlank c) = true
  endsVisible : ((pieces.flatMap Piece.text).getLast?.any fun c => !isBlank c) = true

def Definition.text (d : Definition) : List Char := d.pieces.flatMap Piece.text

/-! ### How the pieces are counted -/

/-- The count when these brackets are open, outside of strings. -/
def nesting (opened : List Char) : Nesting :=
  ⟨opened.count '(', opened.count '[', opened.count '\x7b', none⟩

/-- The count goes through the text to the given brackets, and at the ends of rows one is open. -/
def Reads (opened : List Char) (cs : List Char) (opened' : List Char) : Prop :=
  cs.foldl Nesting.step (nesting opened, false) = (nesting opened', false) ∧
    Opens (nesting opened, false) cs

theorem partner?_eq_some {c mark : Char} (h : Piece.partner? c = some mark) :
    c = ')' ∧ mark = '(' ∨ c = ']' ∧ mark = '[' ∨ c = '\x7d' ∧ mark = '\x7b' := by
  unfold Piece.partner? at h
  split at h <;> simp_all [eq_comm]

theorem nest_code_cases {opened opened' : List Char} {c : Char}
    (h : (Piece.code c).nest opened = some opened') :
    c ∈ ['(', '[', '\x7b'] ∧ opened' = c :: opened ∨
      c ∉ ['(', ')', '[', ']', '\x7b', '\x7d'] ∧ opened' = opened ∨
      ∃ mark, Piece.partner? c = some mark ∧ opened = mark :: opened' := by
  rw [Piece.nest] at h
  by_cases hopening : (c == '(' || c == '[' || c == '\x7b') = true
  · rw [if_pos hopening] at h
    simp only [Bool.or_eq_true, beq_iff_eq, or_assoc] at hopening
    exact .inl ⟨by simpa using hopening, (Option.some.inj h).symm⟩
  · rw [if_neg hopening] at h
    rw [Piece.close?] at h
    cases hpartner : Piece.partner? c with
    | none =>
      simp only [hpartner] at h
      refine .inr (.inl ⟨fun hmem => ?_, (Option.some.inj h).symm⟩)
      simp only [List.mem_cons, List.not_mem_nil, or_false] at hmem
      rcases hmem with rfl | rfl | rfl | rfl | rfl | rfl <;> simp_all [Piece.partner?]
    | some mark =>
      simp only [hpartner] at h
      split at h
      · next htop =>
        obtain ⟨rest, rfl⟩ := List.head?_eq_some_iff.mp htop
        obtain rfl := Option.some.inj h
        exact .inr (.inr ⟨mark, rfl, rfl⟩)
      · cases h

theorem reads_code {opened opened' : List Char} {c : Char}
    (hvalid : (Piece.code c).isValid = true) (hnest : (Piece.code c).nest opened = some opened') :
    Reads opened [c] opened' := by
  simp only [Piece.isValid, Bool.and_eq_true, Bool.not_eq_true', bne_iff_ne] at hvalid
  obtain ⟨⟨⟨hquote, -⟩, hslash⟩, hline⟩ := hvalid
  have hstep : Nesting.step (nesting opened, false) c = ((nesting opened).count c, false) := by
    simp [Nesting.step, hquote, nesting, hslash]
  have hcount : (nesting opened).count c = nesting opened' := by
    rcases nest_code_cases hnest with ⟨hopening, rfl⟩ | ⟨hbracket, rfl⟩ | ⟨mark, hmark, rfl⟩
    · simp only [List.mem_cons, List.not_mem_nil, or_false] at hopening
      rcases hopening with rfl | rfl | rfl <;> simp [nesting, Nesting.count]
    · exact Nesting.count_eq_self _ hbracket
    · rcases partner?_eq_some hmark with ⟨rfl, rfl⟩ | ⟨rfl, rfl⟩ | ⟨rfl, rfl⟩ <;>
        simp [nesting, Nesting.count]
  refine ⟨?_, opens_of_notMem (by simpa using Ne.symm hline)⟩
  rw [List.foldl_cons, List.foldl_nil, hstep, hcount]

theorem isInert_parts {mark : Char} (hmark : Nesting.isQuote mark = true) {body : List Part}
    (h : ∀ part ∈ body, part.isWithin mark = true) (escaped : Bool) :
    Nesting.isInert mark escaped (body.flatMap Part.text) = true := by
  have hslash : '\\' ≠ mark := by
    rintro rfl
    cases hmark
  induction body generalizing escaped with
  | nil => rfl
  | cons part rest ih =>
    have hrest := ih fun part hmem => h part (List.mem_cons_of_mem _ hmem)
    have hpart := h part List.mem_cons_self
    cases part with
    | char c =>
      simp only [Part.isWithin, Bool.and_eq_true] at hpart
      simp [Part.text, Nesting.isInert, hpart.1, hrest]
    | escape c => simp [Part.text, Nesting.isInert, hslash, hrest]

/-- What stands in a string is not counted, and the mark behind it is seen. -/
theorem foldl_step_parts (s : Nesting) {mark : Char} (hmark : Nesting.isQuote mark = true)
    {body : List Part} (h : ∀ part ∈ body, part.isWithin mark = true)
    (hlast : body.getLast? ≠ some (.escape '\\')) :
    (body.flatMap Part.text).foldl Nesting.step ({ s with quote := some mark }, false) =
      ({ s with quote := some mark }, false) := by
  have hcount := Nesting.foldl_step_of_inert s (isInert_parts hmark h false)
  refine Prod.ext hcount ?_
  rcases List.eq_nil_or_concat body with rfl | ⟨before, part, rfl⟩
  · rfl
  · rw [List.concat_eq_append] at h hlast ⊢
    have hpart := h part (by simp)
    cases part with
    | char c =>
      simp only [Part.isWithin, Bool.and_eq_true, bne_iff_ne] at hpart
      simp [Part.text, List.foldl_append, Nesting.step, hpart.2]
    | escape c =>
      have hc : c ≠ '\\' := fun heq => hlast (by simp [heq])
      simp [Part.text, List.foldl_append, Nesting.step, hc]

theorem opens_parts {s : Nesting} (hopen : s.isClosed = false) {mark : Char}
    (hmark : Nesting.isQuote mark = true) {body : List Part}
    (h : ∀ part ∈ body, part.isWithin mark = true) :
    Opens ({ s with quote := some mark }, false) (body.flatMap Part.text) := by
  intro before after hsplit
  have hinert := isInert_parts hmark h false
  rw [hsplit] at hinert
  rw [Nesting.foldl_step_of_inert s (Nesting.isInert_of_append hinert)]
  exact hopen

theorem step_of_opening {s : Nesting} (hs : s.quote = none) {mark : Char}
    (hmark : Nesting.isQuote mark = true) :
    Nesting.step (s, false) mark = ({ s with quote := some mark }, false) := by
  have hslash : mark ≠ '\\' := by
    rintro rfl
    cases hmark
  simp [Nesting.step, Nesting.quoted, hmark, hs, hslash]

theorem step_of_closing {s : Nesting} (hs : s.quote = none) {mark : Char}
    (hmark : Nesting.isQuote mark = true) :
    Nesting.step ({ s with quote := some mark }, false) mark = (s, false) := by
  have hslash : mark ≠ '\\' := by
    rintro rfl
    cases hmark
  have hbracket : mark ∉ ['(', ')', '[', ']', '\x7b', '\x7d'] := by
    intro hmem
    simp only [List.mem_cons, List.not_mem_nil, or_false] at hmem
    rcases hmem with rfl | rfl | rfl | rfl | rfl | rfl <;> cases hmark
  have hnone : ({ s with quote := none } : Nesting) = s := by rw [← hs]
  simp [Nesting.step, Nesting.quoted, hmark, hslash, hnone, Nesting.count_eq_self s hbracket]

theorem reads_quotation {opened : List Char} {mark : Char} (hmark : Nesting.isQuote mark = true)
    {body : List Part} (hbody : ∀ part ∈ body, part.isWithin mark = true)
    (hlast : body.getLast? ≠ some (.escape '\\')) {marks : List Char}
    (hmarks : marks = [mark] ∨ marks = [mark, mark, mark])
    (hopen : '\n' ∈ body.flatMap Part.text → (nesting opened).isClosed = false) :
    Reads opened (marks ++ body.flatMap Part.text ++ marks) opened := by
  have hline : '\n' ∉ marks := by
    have hne : '\n' ≠ mark := by
      rintro rfl
      cases hmark
    rcases hmarks with rfl | rfl <;> simp [hne]
  have hopening := step_of_opening (s := nesting opened) rfl hmark
  have hclosing := step_of_closing (s := nesting opened) rfl hmark
  have hbegin : marks.foldl Nesting.step (nesting opened, false) =
      ({ nesting opened with quote := some mark }, false) := by
    rcases hmarks with rfl | rfl
    · exact hopening
    · simp only [List.foldl_cons, List.foldl_nil, hopening, hclosing]
  have hend : marks.foldl Nesting.step ({ nesting opened with quote := some mark }, false) =
      (nesting opened, false) := by
    rcases hmarks with rfl | rfl
    · exact hclosing
    · simp only [List.foldl_cons, List.foldl_nil, hopening, hclosing]
  refine ⟨?_, ((opens_of_notMem hline).append ?_).append (opens_of_notMem hline)⟩
  · rw [List.foldl_append, List.foldl_append, hbegin, foldl_step_parts _ hmark hbody hlast, hend]
  · rw [hbegin]
    by_cases hmem : '\n' ∈ body.flatMap Part.text
    · exact opens_parts (hopen hmem) hmark hbody
    · exact opens_of_notMem hmem

theorem reads_comment {opened note : List Char} (hvalid : '\n' ∉ note)
    (hplain : ({} : Nesting).advance false note = {}) (hopen : (nesting opened).isClosed = false) :
    Reads opened ('#' :: note ++ ['\n']) opened := by
  have hnote : (('#' :: note).foldl Nesting.step (nesting opened, false)).1 = nesting opened := by
    have hadd := Nesting.foldl_step_add (nesting opened) {} false note
    rw [Nesting.advance_eq] at hplain
    rw [List.foldl_cons, Nesting.step_of_plain _ _ (by decide) (by decide)]
    have hself : (nesting opened).add {} = nesting opened := by simp [Nesting.add, nesting]
    rw [hself] at hadd
    show (note.foldl Nesting.step (nesting opened, false)).1 = nesting opened
    rw [hadd, hplain, hself]
  obtain ⟨t, flag, hstate⟩ : ∃ t flag,
      ('#' :: note).foldl Nesting.step (nesting opened, false) = (t, flag) := ⟨_, _, rfl⟩
  rw [hstate] at hnote
  obtain rfl : t = nesting opened := hnote
  refine ⟨?_, (opens_of_notMem (by simpa using hvalid)).append ?_⟩
  · rw [List.foldl_append, hstate, List.foldl_cons, List.foldl_nil, Nesting.step_newline]
  · rw [hstate]
    exact opens_newline hopen

theorem Piece.reads {piece : Piece} {opened opened' : List Char} (hvalid : piece.isValid = true)
    (hplain : piece.isPlain = true) (hnest : piece.nest opened = some opened')
    (hopen : '\n' ∈ piece.text → (nesting opened).isClosed = false) :
    Reads opened piece.text opened' := by
  cases piece with
  | code c => exact reads_code hvalid hnest
  | string mark body =>
    obtain rfl := Option.some.inj hnest
    simp only [isValid, Bool.and_eq_true, List.all_eq_true] at hvalid
    refine reads_quotation hvalid.1 (fun part hmem => (hvalid.2 part hmem).1)
      (by simpa [isPlain] using hplain) (.inl rfl) fun hmem => hopen ?_
    simp [Piece.text, hmem]
  | block mark body =>
    obtain rfl := Option.some.inj hnest
    simp only [isValid, Bool.and_eq_true, List.all_eq_true] at hvalid
    simp only [isPlain, Bool.and_eq_true, Bool.not_eq_true', bne_iff_ne] at hplain
    refine reads_quotation hvalid.1.1 (fun part hmem => ?_) hplain.2 (.inr rfl)
      fun hmem => hopen ?_
    · cases part with
      | char c =>
        have hmark : c ≠ mark := by
          rintro rfl
          simp [hmem] at hplain
        have hslash : c ≠ '\\' := by simpa using hvalid.1.2 (.char c) hmem
        simp [Part.isWithin, hmark, hslash]
      | escape c => rfl
    · simp [Piece.text, hmem]
  | comment note =>
    rw [nest] at hnest
    split at hnest
    · cases hnest
    · obtain rfl := Option.some.inj hnest
      exact reads_comment (by simpa [isValid] using hvalid) (by simpa [isPlain] using hplain)
        (hopen (by simp [Piece.text]))
  | lineEnd =>
    rw [nest] at hnest
    split at hnest
    · cases hnest
    · obtain rfl := Option.some.inj hnest
      refine ⟨Nesting.step_newline _ _, opens_newline ?_⟩
      exact hopen (by simp [Piece.text])
  | joint =>
    obtain rfl := Option.some.inj hnest
    have hslash : Nesting.step (nesting opened, false) '\\' = (nesting opened, true) :=
      Nesting.step_of_plain _ _ (by decide) (by decide)
    have hjoint : Opens (nesting opened, false) (['\\'] ++ ['\n']) := by
      refine (opens_of_notMem (by decide)).append ?_
      rw [List.foldl_cons, List.foldl_nil, hslash]
      exact opens_newline (hopen (by simp [Piece.text]))
    refine ⟨?_, hjoint⟩
    rw [text, List.foldl_cons, hslash]
    exact Nesting.step_newline _ _

theorem Reads.append {opened opened' opened'' cs rest : List Char} (h : Reads opened cs opened')
    (hrest : Reads opened' rest opened'') : Reads opened (cs ++ rest) opened'' :=
  ⟨by rw [List.foldl_append, h.1, hrest.1], h.2.append (h.1 ▸ hrest.2)⟩

/-- The brackets are opening ones. -/
def AllOpening (opened : List Char) : Prop := ∀ c ∈ opened, c ∈ ['(', '[', '\x7b']

theorem isClosed_nesting {opened : List Char} (h : AllOpening opened) (hne : opened ≠ []) :
    (nesting opened).isClosed = false := by
  obtain ⟨c, rest, rfl⟩ := List.exists_cons_of_ne_nil hne
  have hc := h c List.mem_cons_self
  simp only [List.mem_cons, List.not_mem_nil, or_false] at hc
  have hcount (mark : Char) : decide ((((mark :: rest).count mark : Nat) : Int) ≤ 0) = false := by
    rw [List.count_cons_self]
    exact decide_eq_false (by omega)
  rw [Nesting.isClosed, nesting]
  rcases hc with rfl | rfl | rfl
  · simp only [hcount, Bool.false_and]
  · simp only [hcount, Bool.and_false, Bool.false_and]
  · simp only [hcount, Bool.and_false]

theorem AllOpening.nest {opened opened' : List Char} (h : AllOpening opened) {piece : Piece}
    (hnest : piece.nest opened = some opened') : AllOpening opened' := by
  cases piece with
  | code c =>
    rcases nest_code_cases hnest with ⟨hopening, rfl⟩ | ⟨-, rfl⟩ | ⟨mark, -, rfl⟩
    · intro other hmem
      rcases List.mem_cons.mp hmem with rfl | hmem
      · exact hopening
      · exact h other hmem
    · exact h
    · exact fun c hmem => h c (List.mem_cons_of_mem _ hmem)
  | string | block | joint => exact Option.some.inj hnest ▸ h
  | comment | lineEnd =>
    rw [Piece.nest] at hnest
    split at hnest
    · cases hnest
    · exact Option.some.inj hnest ▸ h

theorem reads_pieces {pieces : List Piece} {opened opened' : List Char}
    (hopened : AllOpening opened) (hvalid : pieces.all Piece.isValid = true)
    (hnested : pieces.foldlM Piece.nest opened = some opened')
    (hlegible : isLegible opened pieces = true) :
    Reads opened (pieces.flatMap Piece.text) opened' := by
  induction pieces generalizing opened with
  | nil =>
    obtain rfl := Option.some.inj hnested
    exact ⟨rfl, opens_of_notMem List.not_mem_nil⟩
  | cons piece rest ih =>
    rw [List.all_cons, Bool.and_eq_true] at hvalid
    rw [List.foldlM_cons] at hnested
    obtain ⟨next, hnest, hrest⟩ := Option.bind_eq_some_iff.mp hnested
    simp only [isLegible, hnest, Option.any_some, Bool.and_eq_true] at hlegible
    obtain ⟨⟨hplain, hline⟩, hlegible⟩ := hlegible
    have hopen (hmem : '\n' ∈ piece.text) : (nesting opened).isClosed = false := by
      refine isClosed_nesting hopened ?_
      simpa [hmem] using hline
    rw [List.flatMap_cons]
    exact (Piece.reads hvalid.1 hplain hnest hopen).append
      (ih (hopened.nest hnest) hvalid.2 hrest hlegible)

/-! ### Definitions in a text -/

/-- The rows of the text on which the node stands. -/
def rowsOf (content : String) (n : Node) : List String :=
  ((lines content).drop n.span.start.row).take (n.span.stop.row + 1 - n.span.start.row)

/-- What may stand behind a definition on its last row: blanks and a comment. -/
def isTrail (cs : List Char) : Bool :=
  !cs.contains '\n' && (cs.dropWhile isBlank).head?.all (· == '#')

/-- The definition is the text of the node, with nothing before it on its first row but indentation,
and nothing behind it on its last row but the trail. -/
structure Definition.Stands (d : Definition) (content : String) (n : Node) (trail : List Char) :
    Prop where
  start_le : n.span.start.row ≤ n.span.stop.row
  stop_lt : n.span.stop.row < (lines content).length
  text_eq : n.text.toList = d.text
  trail_ok : isTrail trail = true
  rows_eq : ∃ indent : List Char, (indent.all fun c => isBlank c && c != '\n') = true ∧
    (unlines (rowsOf content n)).toList = indent ++ d.text ++ trail

theorem ne_newline_of_visible {c : Char} (h : isBlank c = false) : c ≠ '\n' := by
  rintro rfl
  cases h

theorem isBlankRow_head {first : String} {others : List String} {before rest : List Char} {c : Char}
    (hbefore : '\n' ∉ before) (hc : isBlank c = false)
    (h : (unlines (first :: others)).toList = before ++ c :: rest) : isBlankRow first = false := by
  -- What follows the first row begins with the end of it.
  have hfollows (middle more : List Char)
      (heq : (others.flatMap fun row => '\n' :: row.toList) = middle ++ c :: more) :
      '\n' ∈ middle := by
    cases others with
    | nil => simp at heq
    | cons next others =>
      cases middle with
      | nil => exact absurd (List.cons.inj heq).1.symm (ne_newline_of_visible hc)
      | cons first middle => exact (List.cons.inj heq).1 ▸ List.mem_cons_self
  have hmem : c ∈ first.toList := by
    rw [toList_unlines_cons] at h
    rcases List.append_eq_append_iff.mp h with ⟨middle, rfl, heq⟩ | ⟨middle, hfirst, heq⟩
    · exact absurd (List.mem_append_right _ (hfollows middle rest heq)) hbefore
    · cases middle with
      | nil => exact absurd (hfollows [] rest heq.symm) List.not_mem_nil
      | cons first middle => simp [hfirst, (List.cons.inj heq).1]
  simpa [isBlankRow] using ⟨c, hmem, hc⟩

theorem isBlankRow_last {above : List String} {last : String} {before rest : List Char} {c : Char}
    (hrest : '\n' ∉ rest) (hc : isBlank c = false)
    (h : (unlines (above ++ [last])).toList = before ++ c :: rest) : isBlankRow last = false := by
  have htext : (unlines (above ++ [last])).toList =
      (above.flatMap fun row => row.toList ++ ['\n']) ++ last.toList := by
    have hjoin := intercalate_append_cons '\n' (above.map String.toList) [] last.toList
    rw [unlines, join, String.toList_intercalate, List.map_append]
    simpa [List.flatMap_map] using hjoin
  have hmem : c ∈ last.toList := by
    rw [htext] at h
    rcases List.append_eq_append_iff.mp h with ⟨middle, -, hlast⟩ | ⟨middle, habove, heq⟩
    · simp [hlast]
    · rcases List.eq_nil_or_concat middle with rfl | ⟨_, mark, rfl⟩
      · simp [← show c :: rest = last.toList from heq]
      · -- The rows above end with the end of a row, which does not stand behind the character.
        obtain rfl : mark = '\n' := by
          rcases List.eq_nil_or_concat above with rfl | ⟨rows, row, rfl⟩
          · simp at habove
          · simp only [List.concat_eq_append, List.flatMap_append, List.flatMap_singleton,
              ← List.append_assoc] at habove
            exact (List.singleton_inj.mp (List.append_inj' habove rfl).2).symm
        have hline : '\n' ∈ c :: rest := by simp [heq]
        rcases List.mem_cons.mp hline with hnewline | hline
        · exact absurd hnewline.symm (ne_newline_of_visible hc)
        · exact absurd hline hrest
  simpa [isBlankRow] using ⟨c, hmem, hc⟩

variable {content : String} {n : Node} {d : Definition} {trail : List Char}

namespace Definition

theorem exists_head (d : Definition) : ∃ c rest, d.text = c :: rest ∧ isBlank c = false := by
  obtain ⟨c, hhead, hc⟩ := (Option.any_eq_true _ _).mp d.visible
  obtain ⟨rest, hrest⟩ := List.head?_eq_some_iff.mp hhead
  exact ⟨c, rest, hrest, by simpa using hc⟩

theorem exists_last (d : Definition) : ∃ before c, d.text = before ++ [c] ∧ isBlank c = false := by
  obtain ⟨c, hlast, hc⟩ := (Option.any_eq_true _ _).mp d.endsVisible
  obtain ⟨before, hbefore⟩ := List.getLast?_eq_some_iff.mp hlast
  exact ⟨before, c, hbefore, by simpa using hc⟩

namespace Stands

variable (stands : d.Stands content n trail)

include stands

theorem newline_notMem_trail : '\n' ∉ trail := by
  have h := stands.trail_ok
  simp only [isTrail, Bool.and_eq_true] at h
  simpa using h.1

theorem exists_indent : ∃ indent, (∀ c ∈ indent, isBlank c = true ∧ c ≠ '\n') ∧
    (unlines (rowsOf content n)).toList = indent ++ d.text ++ trail := by
  obtain ⟨indent, hindent, htext⟩ := stands.rows_eq
  exact ⟨indent, by simpa using hindent, htext⟩

theorem rows_ne_nil : rowsOf content n ≠ [] := by
  have hle := stands.start_le
  have hlt := stands.stop_lt
  rw [rowsOf, ← List.length_pos_iff, List.length_take, List.length_drop]
  omega

theorem head_visible : ∀ row ∈ (rowsOf content n).head?, isBlankRow row = false := by
  intro row hmem
  obtain ⟨others, hrows⟩ := List.head?_eq_some_iff.mp hmem
  obtain ⟨indent, hindent, htext⟩ := stands.exists_indent
  obtain ⟨c, rest, hd, hc⟩ := d.exists_head
  rw [hrows, hd, List.append_assoc, List.cons_append] at htext
  exact isBlankRow_head (fun hmem => (hindent _ hmem).2 rfl) hc htext

theorem last_visible : ∀ row ∈ (rowsOf content n).getLast?, isBlankRow row = false := by
  intro row hmem
  obtain ⟨above, hrows⟩ := List.getLast?_eq_some_iff.mp hmem
  obtain ⟨indent, hindent, htext⟩ := stands.exists_indent
  obtain ⟨before, c, hd, hc⟩ := d.exists_last
  rw [hrows, hd, ← List.append_assoc, List.append_assoc, List.singleton_append] at htext
  exact isBlankRow_last stands.newline_notMem_trail hc htext

theorem closingLines_eq (hlegible : isLegible [] d.pieces = true)
    (htrail : (({} : Nesting).advance false trail).isClosed = true) (rest : List String) :
    closingLines {} (rowsOf content n ++ rest) = rowsOf content n := by
  obtain ⟨first, others, hrows⟩ := List.exists_cons_of_ne_nil stands.rows_ne_nil
  obtain ⟨indent, hindent, htext⟩ := stands.exists_indent
  have hblank := Nesting.foldl_step_of_blank {} fun c hmem => (hindent c hmem).1
  have hreads : Reads [] d.text [] :=
    reads_pieces (by simp [AllOpening]) d.valid d.nested hlegible
  have hstate : (indent ++ d.text).foldl Nesting.step ({}, false) = ({}, false) := by
    rw [List.foldl_append, hblank]
    exact hreads.1
  rw [hrows] at htext ⊢
  refine closingLines_of_opens ?_ ?_ rest
  · rw [htext]
    refine Opens.append (Opens.append (opens_of_notMem fun hmem => (hindent _ hmem).2 rfl) ?_) ?_
    · rw [hblank]
      exact hreads.2
    · exact opens_of_notMem stands.newline_notMem_trail
  · rw [htext, Nesting.advance_eq, List.foldl_append, hstate, ← Nesting.advance_eq]
    exact htrail

theorem content_ne : content ≠ "" := by
  rintro rfl
  obtain ⟨first, others, hrows⟩ := List.exists_cons_of_ne_nil stands.rows_ne_nil
  have hmem : first ∈ lines "" :=
    List.mem_of_mem_drop (List.mem_of_mem_take (hrows ▸ List.mem_cons_self : first ∈ rowsOf "" n))
  obtain rfl : first = "" := by simpa [lines, split, splitChars] using hmem
  cases stands.head_visible "" (by rw [hrows]; rfl)

end Stands

end Definition

theorem location_parameter (imports : Imports) (content : String) (n : Node) (name : String) :
    (Declaration.parameter imports content n name).location = Declaration.location? content n := by
  unfold Declaration.parameter
  split <;> rfl

theorem Definition.Stands.location_eq (stands : d.Stands content n trail) (imports : Imports)
    (name : String) : (Declaration.parameter imports content n name).location =
      some ⟨some (n.row + 1), some (indentedDefinition (lines content) n.row)⟩ := by
  have hrow : n.row < (lines content).length := lt_of_le_of_lt stands.start_le stands.stop_lt
  rw [location_parameter, Declaration.location?]
  exact if_pos ⟨stands.content_ne, hrow⟩

/-- The rows of a definition are shown exactly if the count of brackets goes through all of them,
and beyond them through blank rows only. It does for a legible definition with a trail that leaves
no bracket open. -/
theorem definition_shown_iff {content : String} {n : Node} {d : Definition} {trail : List Char}
    (stands : d.Stands content n trail) (imports : Imports) (name : String) :
    ∃ shown, (Declaration.parameter imports content n name).location =
        some ⟨some (n.row + 1), some shown⟩ ∧
      (Shows shown (rowsOf content n) ↔ ∃ blanks, (∀ row ∈ blanks, isBlankRow row = true) ∧
        closingLines {} ((lines content).drop n.row) = rowsOf content n ++ blanks) ∧
      (isLegible [] d.pieces = true → (({} : Nesting).advance false trail).isClosed = true →
        Shows shown (rowsOf content n)) := by
  have hls : ∀ row ∈ lines content, '\n' ∉ row.toList := by
    intro row hmem
    obtain ⟨cs, hcs, rfl⟩ := List.mem_map.mp hmem
    rw [String.toList_ofList]
    exact separator_notMem_of_mem_splitChars hcs
  have hdrop : (lines content).drop n.row = rowsOf content n ++
      ((lines content).drop n.row).drop (n.span.stop.row + 1 - n.span.start.row) :=
    (List.take_append_drop _ _).symm
  have hshows := shows_iff hls hdrop stands.head_visible stands.last_visible stands.rows_ne_nil
  refine ⟨indentedDefinition (lines content) n.row, stands.location_eq imports name, hshows, ?_⟩
  intro hlegible htrail
  refine hshows.mpr ⟨[], by simp, ?_⟩
  rw [hdrop, stands.closingLines_eq hlegible htrail, List.append_nil]

section Lines

variable {above rows below : List String} (hlines : lines content = above ++ rows ++ below)
  (hstart : n.span.start.row = above.length)
  (hstop : n.span.stop.row + 1 = above.length + rows.length)

include hlines hstart hstop

theorem rowsOf_eq : rowsOf content n = rows := by
  have htake : n.span.stop.row + 1 - n.span.start.row = rows.length := by omega
  rw [rowsOf, htake, hstart, hlines, List.append_assoc, List.drop_left, List.take_left]

theorem stands_of_lines (hne : rows ≠ []) (hdefinition : n.text = String.ofList d.text)
    (indent : List Char) (hindent : (indent.all fun c => isBlank c && c != '\n') = true)
    (htrail : isTrail trail = true) (htext : (unlines rows).toList = indent ++ d.text ++ trail) :
    d.Stands content n trail := by
  have hpos := List.length_pos_of_ne_nil hne
  refine ⟨by omega, ?_, ?_, htrail, indent, hindent, ?_⟩
  · rw [hlines, List.length_append, List.length_append]
    omega
  · rw [hdefinition, String.toList_ofList]
  · rw [rowsOf_eq hlines hstart hstop, htext]

end Lines

/-- Pieces of code, one for each character. -/
def codes (code : String) : List Piece := code.toList.map .code

/-- The assignment of a parameter of the type to `x`, on these rows. -/
def assignmentNode (d : Definition) (type call : String) (start stop : Nat) : Node :=
  ⟨.assignment, ⟨0, 0, ⟨start, 4⟩, ⟨stop, 0⟩⟩, String.ofList d.text, none,
    [⟨.identifier, default, "x", some .left, []⟩,
     ⟨.call, default, call, some .right,
      [⟨.attribute, default, "param." ++ type, some .function,
        [⟨.identifier, default, "param", some .object, []⟩,
         ⟨.identifier, default, type, some .attribute, []⟩]⟩]⟩]⟩

/-- A definition on two rows, with brackets in a string and in a comment. -/
def pairsDefinition : Definition where
  pieces := codes "x = param.List(default=[(1, 2)],  " ++ [.comment " pairs, f(x)".toList] ++
    codes "        doc=" ++ [.string '"' [.escape '"', .char ')']] ++ codes ")"
  valid := by decide +kernel
  nested := by decide +kernel
  visible := by decide +kernel
  endsVisible := by decide +kernel

def pairsText : String :=
  "class P(param.Parameterized):\n    x = param.List(default=[(1, 2)],  # pairs, f(x)\n" ++
    "        doc=\"\\\")\")  # don't\n    y = param.Integer()\n"

def pairsNode : Node :=
  assignmentNode pairsDefinition "List"
    "param.List(default=[(1, 2)],  # pairs, f(x)\n        doc=\"\\\")\")" 1 2

theorem definition_shown_pairs :
    pairsDefinition.Stands pairsText pairsNode "  # don't".toList ∧
      ∃ shown, (Declaration.parameter ∅ pairsText pairsNode "x").location =
          some ⟨some 2, some shown⟩ ∧
        Shows shown ["    x = param.List(default=[(1, 2)],  # pairs, f(x)",
          "        doc=\"\\\")\")  # don't"] := by
  have hlines : lines pairsText = ["class P(param.Parameterized):"] ++
      ["    x = param.List(default=[(1, 2)],  # pairs, f(x)", "        doc=\"\\\")\")  # don't"] ++
      ["    y = param.Integer()", ""] := by decide +kernel
  have stands : pairsDefinition.Stands pairsText pairsNode "  # don't".toList :=
    stands_of_lines hlines rfl rfl (by simp) rfl "    ".toList (by decide) (by decide)
      (by decide +kernel)
  obtain ⟨shown, hlocation, -, hshows⟩ := definition_shown_iff stands ∅ "x"
  have hrows : rowsOf pairsText pairsNode = ["    x = param.List(default=[(1, 2)],  # pairs, f(x)",
      "        doc=\"\\\")\")  # don't"] := rowsOf_eq hlines rfl rfl
  exact ⟨stands, shown, hlocation, hrows ▸ hshows (by decide +kernel) (by decide +kernel)⟩

/-! ### Definitions that are misread -/

/-- A comment with an apostrophe. -/
def notedDefinition : Definition where
  pieces := codes "x = param.Integer(" ++ [.lineEnd] ++ codes "        default=1,  " ++
    [.comment " don't change".toList] ++ codes "    )"
  valid := by decide +kernel
  nested := by decide +kernel
  visible := by decide +kernel
  endsVisible := by decide +kernel

def notedText : String :=
  "import param\nclass P(param.Parameterized):\n    x = param.Integer(\n" ++
    "        default=1,  # don't change\n    )\n    y = param.Integer()\n"

def notedNode : Node :=
  assignmentNode notedDefinition "Integer"
    "param.Integer(\n        default=1,  # don't change\n    )" 2 4

/-- A string that ends with a backslash. -/
def slashDefinition : Definition where
  pieces := codes "x = param.String(default=" ++ [.string '"' [.escape '\\']] ++ codes ")"
  valid := by decide +kernel
  nested := by decide +kernel
  visible := by decide +kernel
  endsVisible := by decide +kernel

def slashText : String :=
  "import param\nclass P(param.Parameterized):\n    x = param.String(default=\"\\\\\")\n" ++
    "    y = param.Integer()\n"

def slashNode : Node :=
  assignmentNode slashDefinition "String" "param.String(default=\"\\\\\")" 2 2

/-- A row that is joined to the next one outside of brackets. -/
def joinedDefinition : Definition where
  pieces := codes "x = " ++ [.joint] ++ codes "        param.Integer()"
  valid := by decide +kernel
  nested := by decide +kernel
  visible := by decide +kernel
  endsVisible := by decide +kernel

def joinedText : String :=
  "import param\nclass P(param.Parameterized):\n    x = \\\n        param.Integer()\n"

def joinedNode : Node := assignmentNode joinedDefinition "Integer" "param.Integer()" 2 3

/-- The definition stands alone on its rows, and the text that is shown does not show them. -/
def Definition.IsMisread (d : Definition) (content : String) (n : Node) (shown : String) : Prop :=
  d.Stands content n [] ∧
    (Declaration.parameter ∅ content n "x").location = some ⟨some (n.row + 1), some shown⟩ ∧
    ¬ Shows shown (rowsOf content n)

theorem isMisread_of_lines {above rows below : List String} {shown : String}
    (hlines : lines content = above ++ rows ++ below) (hstart : n.span.start.row = above.length)
    (hstop : n.span.stop.row + 1 = above.length + rows.length) (hne : rows ≠ [])
    (hdefinition : n.text = String.ofList d.text) (indent : List Char)
    (hindent : (indent.all fun c => isBlank c && c != '\n') = true)
    (htext : (unlines rows).toList = indent ++ d.text)
    (hshown : indentedDefinition (above ++ rows ++ below) above.length = shown)
    (hmisread : ¬ Shows shown rows) : d.IsMisread content n shown := by
  have stands : d.Stands content n [] :=
    stands_of_lines hlines hstart hstop hne hdefinition indent hindent rfl
      (by rw [htext, List.append_nil])
  refine ⟨stands, ?_, ?_⟩
  · rw [stands.location_eq, hlines, Node.row, hstart, hshown]
  · rwa [rowsOf_eq hlines hstart hstop]

/-- An apostrophe in a comment, or a backslash at the end of a string, takes the rows that follow
along; a row that is joined to the next one is shown without it. -/
theorem definition_misread :
    notedDefinition.IsMisread notedText notedNode
      ("    x = param.Integer(\n        default=1,  # don't change\n    )\n" ++
        "    y = param.Integer()") ∧
    slashDefinition.IsMisread slashText slashNode
      "    x = param.String(default=\"\\\\\")\n    y = param.Integer()" ∧
    joinedDefinition.IsMisread joinedText joinedNode "    x = \\" := by
  refine ⟨?_, ?_, ?_⟩
  · have hlines : lines notedText = ["import param", "class P(param.Parameterized):"] ++
        ["    x = param.Integer(", "        default=1,  # don't change", "    )"] ++
        ["    y = param.Integer()", ""] := by decide +kernel
    exact isMisread_of_lines hlines rfl rfl (by simp) rfl "    ".toList (by decide)
      (by decide +kernel) (by decide +kernel) (by decide +kernel)
  · have hlines : lines slashText = ["import param", "class P(param.Parameterized):"] ++
        ["    x = param.String(default=\"\\\\\")"] ++ ["    y = param.Integer()", ""] := by
      decide +kernel
    exact isMisread_of_lines hlines rfl rfl (by simp) rfl "    ".toList (by decide)
      (by decide +kernel) (by decide +kernel) (by decide +kernel)
  · have hlines : lines joinedText = ["import param", "class P(param.Parameterized):"] ++
        ["    x = \\", "        param.Integer()"] ++ [""] := by decide +kernel
    exact isMisread_of_lines hlines rfl rfl (by simp) rfl "    ".toList (by decide)
      (by decide +kernel) (by decide +kernel) (by decide +kernel)

end ParamLens.Source
