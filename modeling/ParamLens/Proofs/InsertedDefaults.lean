import ParamLens.Editor.Completion
import ParamLens.Proofs.Documents
import ParamLens.Proofs.Steps
import ParamLens.Proofs.Tables
import ParamLens.Text.Quoted

/-! Defaults as completions write them into a call. Between single quotation marks the marks alone
are exchanged, so what stands between them has to be fit for double ones; and a default that is not
quoted but holds a letter is quoted, unless it is a number or one of three names. The main statement
says for which defaults an argument with the same value is written. -/

namespace ParamLens.Editor

open Text Analysis Steps

/-! ### String literals -/

/-- The characters can stand between the two marks of a string literal: a backslash takes the
character behind it along, and neither the mark nor the end of a line stands there otherwise. -/
def isLiteralBody (mark : Char) : List Char → Bool
  | [] => true
  | ['\\'] => false
  | '\\' :: _ :: rest => isLiteralBody mark rest
  | c :: rest => c != mark && c != '\n' && isLiteralBody mark rest

/-- The text is a string literal: the body between two of the marks. -/
def IsLiteral (mark : Char) (text : String) (body : List Char) : Prop :=
  text.toList = mark :: body ++ [mark] ∧ isLiteralBody mark body = true

/-- What is left of a text without its first and its last character. -/
def inside (text : String) : List Char := text.toList.tail.dropLast

theorem inside_of_toList {mark : Char} {text : String} {body : List Char}
    (h : text.toList = mark :: body ++ [mark]) : inside text = body := by
  rw [inside, h, List.cons_append, List.tail_cons, List.dropLast_concat]

theorem isQuotedWith_iff {mark : Char} {text : String} :
    isQuotedWith mark text = true ↔ text.toList = mark :: inside text ++ [mark] := by
  rw [isQuotedWith, Bool.and_eq_true, Bool.and_eq_true, decide_eq_true_eq, beq_iff_eq, beq_iff_eq]
  constructor
  · rintro ⟨⟨hlength, hfirst⟩, hlast⟩
    obtain ⟨rest, hrest⟩ := List.head?_eq_some_iff.mp hfirst
    have hne : rest ≠ [] := by
      rintro rfl
      simp [Text.length, hrest] at hlength
    have hend : rest.getLast hne = mark := by
      rw [hrest, List.getLast?_cons, List.getLast?_eq_some_getLast hne] at hlast
      simpa using hlast
    have hsplit : text.toList = mark :: rest.dropLast ++ [mark] := by
      rw [hrest, List.cons_append, ← hend, List.dropLast_concat_getLast]
    rw [inside_of_toList hsplit]
    exact hsplit
  · intro h
    rw [Text.length, h]
    exact ⟨by simp, List.getLast?_concat⟩

theorem exists_isLiteral_iff {mark : Char} {text : String} :
    (∃ body, IsLiteral mark text body) ↔
      isQuotedWith mark text = true ∧ isLiteralBody mark (inside text) = true := by
  constructor
  · rintro ⟨body, htext, hbody⟩
    rw [isQuotedWith_iff, inside_of_toList htext]
    exact ⟨htext, hbody⟩
  · rintro ⟨hquoted, hbody⟩
    exact ⟨inside text, isQuotedWith_iff.mp hquoted, hbody⟩

/-- The text is a string literal between marks of either kind. -/
def IsStringLiteral (text : String) : Prop :=
  (∃ body, IsLiteral singleQuote text body) ∨ ∃ body, IsLiteral '"' text body

instance (text : String) : Decidable (IsStringLiteral text) :=
  decidable_of_iff _ (or_congr exists_isLiteral_iff exists_isLiteral_iff).symm

/-! ### What a default is written as -/

/-- The default is read as a sentence and put between quotation marks. -/
def isTakenForText (text : String) : Bool := !isQuotedWith '"' text && looksLikeText text

theorem displayDefault_of_single {text : String} (h : isQuotedWith singleQuote text = true) :
    (displayDefault text).toList = '"' :: inside text ++ ['"'] := by
  have hmark : isQuotedWith (Char.ofNat 39) text = true := h
  rw [displayDefault, if_pos hmark]
  simp [inside]

theorem displayDefault_of_text {text : String} (h : isQuotedWith singleQuote text = false)
    (htext : isTakenForText text = true) :
    (displayDefault text).toList = '"' :: text.toList ++ ['"'] := by
  have hmark : isQuotedWith (Char.ofNat 39) text = false := h
  obtain ⟨hdouble, hlooks⟩ : isQuotedWith '"' text = false ∧ looksLikeText text = true := by
    simpa [isTakenForText] using htext
  simp [displayDefault, hmark, hdouble, hlooks]

theorem displayDefault_of_other {text : String} (h : isQuotedWith singleQuote text = false)
    (htext : isTakenForText text = false) : displayDefault text = text := by
  have hmark : isQuotedWith (Char.ofNat 39) text = false := h
  rw [displayDefault, if_neg (by simp [hmark])]
  cases hdouble : isQuotedWith '"' text with
  | true => rfl
  | false =>
    have hlooks : looksLikeText text = false := by simpa [isTakenForText, hdouble] using htext
    simp [hlooks]

/-- The written text has the value of the default: it is the same text, or both are string literals
and only the marks differ in kind. What is no string literal does not become one. `value` tells
what the characters between two marks stand for, which does not depend on the kind of the marks. -/
structure Denotes {V : Type} (value : List Char → V) (default written : String) : Prop where
  same : written = default ∨ ∃ body body', IsLiteral singleQuote default body ∧
    IsLiteral '"' written body' ∧ value body' = value body
  literal : IsStringLiteral written → IsStringLiteral default

/-- The defaults that are written with their value: between single quotation marks stands what fits
between marks of either kind, and what holds a letter is quoted as a whole, a number or a constant
that has a name. -/
structure IsKept (default : String) : Prop where
  marks : isQuotedWith singleQuote default = true →
    isLiteralBody singleQuote (inside default) = true ∧ isLiteralBody '"' (inside default) = true
  letters : default.toList.any isLetter = true →
    isQuotedWith singleQuote default = true ∨ isQuotedWith '"' default = true ∨
      (Number.readFloat? default).isSome = true ∨ default ∈ ["None", "True", "False"]

instance (default : String) : Decidable (IsKept default) :=
  decidable_of_iff (_ ∧ _) ⟨fun h => ⟨h.1, h.2⟩, fun h => ⟨h.marks, h.letters⟩⟩

theorem Denotes.of_same {V : Type} {value : List Char → V} {default written : String}
    (h : written = default ∨ ∃ body body', IsLiteral singleQuote default body ∧
      IsLiteral '"' written body' ∧ value body' = value body) : Denotes value default written where
  same := h
  literal hwritten := by
    rcases h with rfl | ⟨body, -, hbody, -, -⟩
    · exact hwritten
    · exact .inl ⟨body, hbody⟩

/-- Of the texts that are taken as they are, those with a letter are the names of constants. -/
theorem isPlainDefault_iff_of_letter {text : String} (h : text.toList.any isLetter = true) :
    isPlainDefault text = true ↔ text ∈ ["None", "True", "False"] := by
  rw [isPlainDefault, List.contains_iff_mem]
  constructor
  · intro hmem
    have hbrackets : ∀ other ∈ ["[]", "\x7b\x7d", "()"], other.toList.any isLetter = false := by
      decide
    have hparts : text ∈ ["None", "True", "False"] ++ ["[]", "\x7b\x7d", "()"] := hmem
    rcases List.mem_append.mp hparts with hname | hbracket
    · exact hname
    · simp [hbrackets text hbracket] at h
  · exact fun hmem => List.mem_append_left ["[]", "\x7b\x7d", "()"] hmem

theorem isTakenForText_iff {text : String} : isTakenForText text = true ↔
    text.toList.any isLetter = true ∧ isQuotedWith '"' text = false ∧
      (Number.readFloat? text).isSome = false ∧ text ∉ ["None", "True", "False"] := by
  by_cases hletter : text.toList.any isLetter = true
  · rw [← isPlainDefault_iff_of_letter hletter]
    simp only [isTakenForText, looksLikeText, hletter]
    cases isQuotedWith '"' text <;> cases isPlainDefault text <;>
      cases Number.readFloat? text <;> simp
  · simp [isTakenForText, looksLikeText, hletter]

theorem isKept_iff_of_single {text : String} (h : isQuotedWith singleQuote text = true) :
    IsKept text ↔ isLiteralBody singleQuote (inside text) = true ∧
      isLiteralBody '"' (inside text) = true :=
  ⟨fun hkept => hkept.marks h, fun hbody => ⟨fun _ => hbody, fun _ => .inl h⟩⟩

theorem isKept_iff_of_not_single {text : String} (h : isQuotedWith singleQuote text = false) :
    IsKept text ↔ isTakenForText text = false := by
  rw [← Bool.not_eq_true, isTakenForText_iff]
  constructor
  · rintro hkept ⟨hletter, hdouble, hnumber, hnamed⟩
    rcases hkept.letters hletter with hmark | hmark | hfloat | hname
    · simp [h] at hmark
    · simp [hdouble] at hmark
    · simp [hnumber] at hfloat
    · exact hnamed hname
  · intro hnot
    refine ⟨fun hmark => by simp [h] at hmark, fun hletter => ?_⟩
    by_contra hnone
    rw [not_or, not_or, not_or] at hnone
    exact hnot ⟨hletter, by simpa using hnone.2.1, by simpa using hnone.2.2.1, hnone.2.2.2⟩

section

variable {V : Type} (value : List Char → V) {text : String}

theorem denotes_iff_of_single (h : isQuotedWith singleQuote text = true) :
    Denotes value text (displayDefault text) ↔
      isLiteralBody singleQuote (inside text) = true ∧ isLiteralBody '"' (inside text) = true := by
  have htext := isQuotedWith_iff.mp h
  have hwritten := displayDefault_of_single h
  constructor
  · rintro ⟨hsame | ⟨body, body', hbody, hbody', -⟩, -⟩
    · rw [hsame, htext] at hwritten
      exact absurd (List.cons.inj hwritten).1 (by decide)
    · rw [inside_of_toList hbody.1]
      refine ⟨hbody.2, ?_⟩
      rw [← inside_of_toList hbody.1, ← inside_of_toList hwritten, inside_of_toList hbody'.1]
      exact hbody'.2
  · rintro ⟨hbody, hbody'⟩
    exact .of_same (.inr ⟨inside text, inside text, ⟨htext, hbody⟩, ⟨hwritten, hbody'⟩, rfl⟩)

theorem not_denotes_of_text (h : isQuotedWith singleQuote text = false)
    (htext : isTakenForText text = true) : ¬ Denotes value text (displayDefault text) := by
  have hwritten := displayDefault_of_text h htext
  rintro ⟨hsame | ⟨body, -, hbody, -⟩, -⟩
  · -- The marks make the text longer.
    have hlength := congrArg List.length hwritten
    rw [hsame] at hlength
    simp only [List.length_append, List.length_cons, List.length_nil] at hlength
    omega
  · have hmark := (exists_isLiteral_iff.mp ⟨body, hbody⟩).1
    simp [h] at hmark

theorem denotes_displayDefault_iff : Denotes value text (displayDefault text) ↔ IsKept text := by
  cases hsingle : isQuotedWith singleQuote text with
  | true => rw [denotes_iff_of_single value hsingle, isKept_iff_of_single hsingle]
  | false =>
    rw [isKept_iff_of_not_single hsingle]
    cases htext : isTakenForText text with
    | true => simp [not_denotes_of_text value hsingle htext]
    | false => simpa using Denotes.of_same (.inl (displayDefault_of_other hsingle htext))

end

/-! ### Completions that write defaults -/

/-- What accepting the completion writes: the replacement if there is one, else the text to insert,
else what is shown. -/
def Item.written (item : Item) : String :=
  ((item.replacement.map Replacement.text).or item.insertText).getD item.label

/-- Accepting the completion behind `before` gives the argument the text. The name and the equals
sign are written with the text, or they stand before the cursor already. -/
def Item.Assigns (item : Item) (before name text : String) : Prop :=
  item.written = name ++ "=" ++ text ∨ Phrase.assigns before name = true ∧ item.written = text

/-- The completion is one to a parameter of the class, and gives it its default if it has one. -/
def Item.Completes (item : Item) (c : ParamClass) (before : String) : Prop :=
  ∃ name p, c.get? name = some p ∧ item.filterText = some name ∧
    ∀ text, p.defaultText = some text → item.Assigns before name (displayDefault text)

theorem completes_of_mem_keywordItems {owner described before : String} {used : List String}
    {c : ParamClass} {item : Item} (h : item ∈ keywordItems owner described used c) :
    item.Completes c before := by
  obtain ⟨entry, hentry, rfl⟩ := List.mem_map.mp h
  refine ⟨entry.1, entry.2, Table.get?_of_mem_entries (List.mem_filter.mp hentry).1, rfl, ?_⟩
  intro text htext
  left
  show keywordText entry.1 entry.2 = _
  rw [keywordText, htext]
  rfl

theorem completes_of_mem_argumentItems {before className : String} {place : Cursor} {c : ParamClass}
    {item : Item} (h : item ∈ argumentItems before className place c) :
    item.Completes c before := by
  unfold argumentItems at h
  split at h
  · next name hname =>
    cases hp : c.get? name with
    | none => simp [hp] at h
    | some p =>
      rw [hp, Option.map_some, Option.getD_some, defaultItems] at h
      split at h
      · cases h
      · next text htext =>
        obtain rfl := List.mem_singleton.mp h
        refine ⟨name, p, hp, rfl, fun text' htext' => .inr ⟨List.find?_some hname, ?_⟩⟩
        obtain rfl : text = text' := Option.some.inj (htext.symm.trans htext')
        rfl
  · split at h
    · next short hshort =>
      cases hp : c.get? short.name with
      | none => simp [hp] at h
      | some p =>
        rw [hp, Option.map_some, Option.toList_some, List.mem_singleton] at h
        subst h
        refine ⟨short.name, p, hp, rfl, fun text htext => .inl ?_⟩
        show keywordText short.name p = _
        rw [keywordText, htext]
        rfl
    · exact completes_of_mem_keywordItems h

/-- The contexts in which arguments are completed, with the text before the cursor and the search
for the class whose parameters are offered. -/
inductive ArgumentContext (w : World) :
    String → AnalysisM (Option ParamClass) → AnalysisM (List Item) → Prop
  | update (content line : String) (character : Nat) {owner : String}
      (called : Phrase.updateCall? (Text.take line character) = some owner) :
      ArgumentContext w (Text.take line character) (referredClass w content owner)
        (updateItems w content line character)
  | call (line : String) (place : Cursor) {name : String}
      (called : Phrase.constructor? (Text.take line place.character) = some name) :
      ArgumentContext w (Text.take line place.character) (constructedClass w name)
        (constructorItems w line place)
  | openCall (lines : List String) (place : Cursor) (name : String) :
      ArgumentContext w (beforeCursor lines place) (constructedClass w name)
        (multilineItems w lines place name)

variable {w : World} {before : String} {search : AnalysisM (Option ParamClass)}
  {context : AnalysisM (List Item)}

/-- A context searches for its class, and all its completions are to parameters of that class. -/
theorem ArgumentContext.exists_items (h : ArgumentContext w before search context) :
    ∃ items : ParamClass → List Item, (∀ c, ∀ item ∈ items c, item.Completes c before) ∧
      context = search >>= fun found => pure ((found.map items).getD []) := by
  cases h with
  | @update content line character owner called =>
    refine ⟨fun c => keywordItems owner c.name (Phrase.assigned (Text.take line character)) c,
      fun c item => completes_of_mem_keywordItems, ?_⟩
    rw [updateItems]
    simp only [called]
    refine congrArg _ (funext fun found => ?_)
    cases found <;> rfl
  | @call line place name called =>
    refine ⟨argumentItems (Text.take line place.character) name place,
      fun c item => completes_of_mem_argumentItems, ?_⟩
    rw [constructorItems]
    simp only [called]
    refine congrArg _ (funext fun found => ?_)
    cases found <;> rfl
  | openCall lines place name =>
    refine ⟨keywordItems name name (assignedInConstructor lines place name),
      fun c item => completes_of_mem_keywordItems, ?_⟩
    rw [multilineItems]
    refine congrArg _ (funext fun found => ?_)
    cases found <;> rfl

/-- Wherever the arguments of a found class are completed, each completion is to one of its
parameters, and what it gives the argument has the value of the parameter's default exactly if the
default is one of those that are kept. -/
theorem inserted_default_denotes_iff {V : Type} (value : List Char → V) {c : ParamClass}
    {s next : AnalysisState} (hcontext : ArgumentContext w before search context)
    (hfound : search.run s = (.ok (some c), next)) :
    ∃ items, context.run s = (.ok items, next) ∧ ∀ item ∈ items,
      ∃ name p, c.get? name = some p ∧ item.filterText = some name ∧
        ∀ default, p.defaultText = some default → ∃ written,
          item.Assigns before name written ∧ (Denotes value default written ↔ IsKept default) := by
  obtain ⟨items, hcompletes, rfl⟩ := hcontext.exists_items
  refine ⟨items c, by rw [run_bind, hfound]; rfl, fun item hitem => ?_⟩
  obtain ⟨name, p, hp, hname, hassigns⟩ := hcompletes c item hitem
  refine ⟨name, p, hp, hname, fun default hdefault => ?_⟩
  exact ⟨displayDefault default, hassigns default hdefault, denotes_displayDefault_iff value⟩

/-- A parameter for texts with a default. -/
def noteParameter (name text : String) : Parameter :=
  { name, typeName := "String", defaultText := some text }

/-- An analysis that found a class of notes with the parameters. -/
def noteState (parameters : List Parameter) : AnalysisState :=
  let c := parameters.foldl ParamClass.add (ParamClass.ofName "Note")
  let latest : Analysis := { classes := (∅ : Table ParamClass).insert "Note:0" c }
  ⟨{ workspace := none, extra := [], session := { allowed := [], infos := ∅ }, types := [],
     latest }, {}⟩

theorem inserted_default_denotes_iff_apostrophe :
    let s := noteState [noteParameter "text" "'it\\'s'"]
    ∃ item, (constructorItems Server.bareWorld "Note(" ⟨0, 5⟩).run s = (.ok [item], s) ∧
      ∃ written, item.Assigns "Note(" "text" written ∧ Denotes id "'it\\'s'" written := by
  intro s
  have hcontext : ArgumentContext Server.bareWorld "Note("
      (constructedClass Server.bareWorld "Note")
      (constructorItems Server.bareWorld "Note(" ⟨0, 5⟩) :=
    .call "Note(" ⟨0, 5⟩ (by decide +kernel)
  have hfound : (constructedClass Server.bareWorld "Note").run s =
      (.ok (some ((ParamClass.ofName "Note").add (noteParameter "text" "'it\\'s'"))), s) := rfl
  obtain ⟨items, hrun, hitems⟩ := inserted_default_denotes_iff id hcontext hfound
  have hwritten : ((constructorItems Server.bareWorld "Note(" ⟨0, 5⟩).run s).1 =
      .ok [keywordItem "Note" "Note" "text" (noteParameter "text" "'it\\'s'")] := by
    decide +kernel
  rw [hrun] at hwritten
  obtain rfl := Except.ok.inj hwritten
  obtain ⟨name, p, hp, hname, hdefault⟩ := hitems _ (List.mem_singleton_self _)
  obtain rfl : "text" = name := Option.some.inj hname
  obtain rfl : noteParameter "text" "'it\\'s'" = p := Option.some.inj hp
  obtain ⟨written, hassigns, hdenotes⟩ := hdefault _ rfl
  exact ⟨_, hrun, written, hassigns, hdenotes.mpr (by decide +kernel)⟩

/-- A list that holds a text becomes a text, and a text with double quotation marks in it is no
string literal any more. -/
theorem list_and_quotation_mistaken :
    ((constructorItems Server.bareWorld "Note(" ⟨0, 5⟩).run (noteState
      [noteParameter "tags" "['a']", noteParameter "text" "'say \"hi\"'"])).1.map
        (·.map Item.written) = .ok ["tags=\"['a']\"", "text=\"say \"hi\"\""] ∧
    (¬ IsStringLiteral "['a']" ∧ IsStringLiteral "\"['a']\"") ∧
    (IsStringLiteral "'say \"hi\"'" ∧ ¬ IsStringLiteral "\"say \"hi\"\"") ∧
    ∀ value : List Char → String, ¬ Denotes value "['a']" "\"['a']\"" ∧
      ¬ Denotes value "'say \"hi\"'" "\"say \"hi\"\"" := by
  refine ⟨by decide +kernel, by decide +kernel, by decide +kernel, fun value => ⟨?_, ?_⟩⟩
  · intro h
    exact absurd (h.literal (by decide +kernel)) (by decide +kernel)
  · rintro ⟨hsame | ⟨-, body', -, hbody', -⟩, -⟩
    · exact absurd hsame (by decide +kernel)
    · exact absurd (exists_isLiteral_iff.mp ⟨body', hbody'⟩) (by decide +kernel)

end ParamLens.Editor
