import Mathlib.Data.List.Infix
import Mathlib.Data.List.TakeWhile
import ParamLens.Editor.Phrase
import ParamLens.Proofs.Splitting

/-! Scanning the text before the cursor. The scans look at every rest of the text, so each is
described by how it goes on over the characters that come first. -/

namespace ParamLens.Text

theorem isWordChar_of_isBlank {c : Char} (h : isBlank c = true) : isWordChar c = false := by
  have hcode : c.toNat ∈ List.range' 9 5 ++ List.range' 28 5 ++ [0x85, 0xa0, 0x1680] ++
      List.range' 0x2000 11 ++ [0x2028, 0x2029, 0x202f, 0x205f, 0x3000] := by
    simp only [isBlank, Bool.or_eq_true, Bool.and_eq_true, decide_eq_true_eq, beq_iff_eq] at h
    simp only [List.mem_append, List.mem_range'_1, List.mem_cons, List.not_mem_nil, or_false]
    omega
  have hall : ∀ n ∈ List.range' 9 5 ++ List.range' 28 5 ++ [0x85, 0xa0, 0x1680] ++
      List.range' 0x2000 11 ++ [0x2028, 0x2029, 0x202f, 0x205f, 0x3000],
      isWordChar (Char.ofNat n) = false := by decide +kernel
  simpa using hall c.toNat hcode

theorem intercalate_isPrefix {α : Type} (separator : α) {l l' : List (List α)} (h : l <+: l') :
    [separator].intercalate l <+: [separator].intercalate l' := by
  obtain ⟨more, rfl⟩ := h
  cases l with
  | nil => simp
  | cons piece rest =>
    have hfirst := intercalate_append_cons separator [] rest piece
    have hboth := intercalate_append_cons separator [] (rest ++ more) piece
    simp only [List.nil_append, List.flatMap_nil, List.flatMap_append] at hfirst hboth
    rw [List.cons_append, hfirst, hboth, ← List.append_assoc]
    exact List.prefix_append _ _

theorem infix_append_cons {part second : List Char} {c : Char} (first : List Char) (hc : c ∉ part)
    (h : part <:+: first ++ c :: second) : part <:+: first ∨ part <:+: second := by
  obtain ⟨before, after, h⟩ := h
  rcases List.append_eq_append_iff.mp h with ⟨middle, hfirst, -⟩ | ⟨middle, hpart, hsecond⟩
  · exact .inl ⟨before, middle, hfirst.symm⟩
  · cases middle with
    | nil => exact .inl ⟨before, [], by simpa using hpart⟩
    | cons d middle =>
      obtain ⟨rfl, rfl⟩ := List.cons.inj hsecond
      rcases List.append_eq_append_iff.mp hpart with ⟨start, -, hstart⟩ | ⟨start, hbefore, hstart⟩
      · exact absurd (hstart ▸ by simp) hc
      · cases start with
        | nil =>
          have hpart : part = c :: middle := by simpa using hstart.symm
          exact absurd (hpart ▸ List.mem_cons_self) hc
        | cons e start =>
          obtain ⟨-, rfl⟩ := List.cons.inj hstart
          exact .inr ⟨start, after, rfl⟩

end ParamLens.Text

namespace ParamLens.Editor.Scan

open Text

/-! ### Rests -/

theorem visibleFrom_eq_rests {cs : List Char} (h : '#' ∉ cs) : visibleFrom false cs = rests cs := by
  induction cs with
  | nil => rfl
  | cons c rest ih =>
    obtain ⟨hc, hrest⟩ := not_or.mp (mt List.mem_cons.mpr h)
    simp [visibleFrom, rests, Ne.symm hc, ih hrest]

theorem mem_rests {t cs : List Char} : t ∈ rests cs ↔ t <:+ cs := by
  induction cs with
  | nil => simp [rests]
  | cons c rest ih => rw [rests, List.mem_cons, ih, List.suffix_cons_iff]

theorem findSome?_rests_append {α : Type} {f : List Char → Option α} {cs tail : List Char}
    (h : ∀ t, t ≠ [] → t <:+ cs → f (t ++ tail) = none) :
    (rests (cs ++ tail)).findSome? f = (rests tail).findSome? f := by
  induction cs with
  | nil => rfl
  | cons c rest ih =>
    rw [List.cons_append, rests, List.findSome?_cons, ← List.cons_append,
      h (c :: rest) (List.cons_ne_nil c rest) (List.suffix_refl _)]
    exact ih fun t hne ht => h t hne (ht.trans (List.suffix_cons c rest))

/-! ### Words -/

/-- The characters form a word. -/
def IsWord (cs : List Char) : Prop := cs ≠ [] ∧ ∀ c ∈ cs, isWordChar c = true

instance (cs : List Char) : Decidable (IsWord cs) :=
  decidable_of_iff (cs ≠ [] ∧ cs.all isWordChar = true) (by simp [IsWord])

section

variable {name rest cs : List Char}

theorem takeWhile_append_apart {p : Char → Bool} (hname : ∀ c ∈ name, p c = true)
    (hrest : ∀ c ∈ rest.head?, p c = false) : (name ++ rest).takeWhile p = name := by
  rw [List.takeWhile_append_of_pos hname]
  cases rest with
  | nil => simp
  | cons c rest => simp [hrest c rfl]

theorem dropWhile_append_apart {p : Char → Bool} (hname : ∀ c ∈ name, p c = true)
    (hrest : ∀ c ∈ rest.head?, p c = false) : (name ++ rest).dropWhile p = rest := by
  rw [List.dropWhile_append_of_pos hname]
  cases rest with
  | nil => simp
  | cons c rest => simp [hrest c rfl]

theorem span_append {p : Char → Bool} (h : ∃ c ∈ name, p c = false) (rest : List Char) :
    (name ++ rest).takeWhile p = name.takeWhile p ∧
      (name ++ rest).dropWhile p = name.dropWhile p ++ rest := by
  induction name with
  | nil => simp at h
  | cons c cs ih =>
    by_cases hc : p c = true
    · have hcs : ∃ d ∈ cs, p d = false := by simpa [hc] using h
      simp [hc, ih hcs]
    · simp [hc]

theorem IsWord.notMem (hname : IsWord name) {c : Char} (hc : isWordChar c = false) : c ∉ name :=
  fun hmem => by simp [hname.2 c hmem] at hc

theorem IsWord.not_isBlank (hname : IsWord name) {c : Char} (hc : c ∈ name) :
    isBlank c = false := by
  by_contra hblank
  have hword := isWordChar_of_isBlank (Bool.not_eq_false _ |>.mp hblank)
  exact hname.notMem hword hc

theorem names_word (hname : IsWord name)
    (hrest : ∀ c ∈ rest.head?, isWordChar c = false ∧ c ≠ '.') :
    names (name ++ rest) = [(name, rest)] := by
  have htake : (name ++ rest).takeWhile (fun c => isWordChar c || c == '.') = name := by
    refine takeWhile_append_apart (fun c hc => by simp [hname.2 c hc]) fun c hc => ?_
    obtain ⟨hword, hdot⟩ := hrest c hc
    simp [hword, hdot]
  have hcomponents : nameComponents (name ++ rest) = [name] := by
    have hdot : '.' ∉ name := hname.notMem (by decide)
    have hne : name.isEmpty = false := by simpa using hname.1
    rw [nameComponents, htake, splitChars_of_notMem '.' hdot]
    simp [hne]
  rw [names, hcomponents]
  simp [nameOf, hcomponents, List.intercalate]

theorem append_of_mem_names {entry : List Char × List Char} (h : entry ∈ names cs) :
    entry.1 ++ entry.2 = cs ∧ ∀ c ∈ entry.1, isWordChar c = true ∨ c = '.' := by
  obtain ⟨count, -, rfl⟩ := List.mem_map.mp h
  have hstart : ['.'].intercalate ((nameComponents cs).take (count + 1)) <+:
      cs.takeWhile fun c => isWordChar c || c == '.' := by
    rw [← intercalate_splitChars '.' (cs.takeWhile _)]
    exact intercalate_isPrefix '.' ((List.take_prefix _ _).trans (List.takeWhile_prefix _))
  refine ⟨List.prefix_iff_eq_append.mp (hstart.trans (List.takeWhile_prefix _)), fun c hc => ?_⟩
  simpa using List.mem_takeWhile_imp (hstart.subset hc)

theorem opensCall_cons (c : Char) (cs : List Char) :
    opensCall (c :: cs) =
      if isBlank c then opensCall cs else if c = '(' then isOpen cs else false := by
  unfold opensCall skipBlanks
  by_cases hblank : isBlank c = true
  · rw [List.dropWhile_cons_of_pos hblank, if_pos hblank]
  · rw [List.dropWhile_cons_of_neg hblank, if_neg hblank]
    by_cases hopen : c = '('
    · subst hopen
      rfl
    · rw [if_neg hopen]
      split
      · simp_all
      · rfl

theorem isOpen_eq_false {inside : List Char} (hclosed : ')' ∈ inside) (hline : '\n' ∉ inside) :
    isOpen inside = false := by
  have hbefore : '\n' ∉ inside.takeWhile (· != ')') :=
    fun hmem => hline (List.takeWhile_subset _ hmem)
  simp [isOpen, hclosed, hbefore]

theorem opensCall_append_eq_false {tail : List Char}
    (hclosed : ∀ inside, '(' :: inside <:+ cs → ')' ∈ inside) (hline : '\n' ∉ cs ++ tail)
    (htail : ∀ c ∈ tail.head?, isBlank c = false ∧ c ≠ '(') : opensCall (cs ++ tail) = false := by
  induction cs with
  | nil =>
    cases tail with
    | nil => rfl
    | cons c tail =>
      obtain ⟨hblank, hopen⟩ := htail c rfl
      simp [opensCall_cons, hblank, hopen]
  | cons c rest ih =>
    have hrest : opensCall (rest ++ tail) = false :=
      ih (fun inside h => hclosed inside (h.trans (List.suffix_cons c rest)))
        fun hmem => hline (List.mem_cons_of_mem c hmem)
    rw [List.cons_append, opensCall_cons, hrest]
    by_cases hopen : c = '('
    · subst hopen
      have hinside : ')' ∈ rest ++ tail :=
        List.mem_append_left _ (hclosed rest (List.suffix_refl _))
      simp [isOpen_eq_false hinside fun hmem => hline (List.mem_cons_of_mem _ hmem)]
    · simp [hopen]

end

end ParamLens.Editor.Scan

namespace ParamLens.Editor.Phrase

open Text Scan

/-! ### Open calls -/

/-- What may stand before a call on its line: it closes its own parentheses, it does not run into
the name of the class, and it has no comment sign. -/
structure Lead (lead : List Char) : Prop where
  uncommented : '#' ∉ lead
  apart : ∀ c ∈ lead.getLast?, isWordChar c = false ∧ c ≠ '.'
  closed : ∀ inside, '(' :: inside <:+ lead → ')' ∈ inside

theorem Lead.suffix {lead t : List Char} (h : Lead lead) (ht : t <:+ lead) : Lead t := by
  obtain ⟨first, rfl⟩ := ht
  refine ⟨fun hmem => h.uncommented (List.mem_append_right _ hmem), fun c hc => h.apart c ?_,
    fun inside hinside => h.closed inside (hinside.trans (List.suffix_append _ _))⟩
  rw [List.getLast?_append, Option.mem_def.mp hc]
  rfl

section

variable {lead name inside : List Char}

theorem Lead.not_opensCall (h : Lead lead) (hne : lead ≠ []) (hname : IsWord name)
    (hline : '\n' ∉ lead ++ (name ++ '(' :: inside)) {entry : List Char × List Char}
    (hentry : entry ∈ names (lead ++ (name ++ '(' :: inside))) : opensCall entry.2 = false := by
  obtain ⟨hsplit, hchars⟩ := append_of_mem_names hentry
  have htail : ∀ c ∈ (name ++ '(' :: inside).head?, isBlank c = false ∧ c ≠ '(' := by
    intro c hc
    obtain ⟨first, rest, rfl⟩ := List.exists_cons_of_ne_nil hname.1
    obtain rfl : first = c := by simpa using hc
    refine ⟨hname.not_isBlank List.mem_cons_self, ?_⟩
    rintro rfl
    exact hname.notMem (by decide) List.mem_cons_self
  rcases List.append_eq_append_iff.mp hsplit with ⟨middle, hlead, hrest⟩ | ⟨middle, hfound, -⟩
  · rw [hrest]
    refine opensCall_append_eq_false (fun within hwithin => h.closed within ?_) ?_ htail
    · exact hlead ▸ hwithin.trans (List.suffix_append _ _)
    · intro hmem
      apply hline
      rw [hlead, List.append_assoc]
      exact List.mem_append_right _ hmem
  · -- The lead does not end in a character of a name, so no name covers it.
    obtain ⟨hword, hdot⟩ := h.apart _ (List.getLast?_eq_some_getLast hne)
    have hlast := hchars (lead.getLast hne)
      (hfound ▸ List.mem_append_left _ (List.getLast_mem hne))
    simp [hword, hdot] at hlast

theorem constructor?_of_lead (h : Lead lead) (hname : IsWord name) (hclosing : ')' ∉ inside)
    (hcomment : '#' ∉ inside) (hline : '\n' ∉ lead ++ (name ++ '(' :: inside)) :
    constructor? (String.ofList (lead ++ (name ++ '(' :: inside))) = some (String.ofList name) := by
  have huncommented : '#' ∉ lead ++ (name ++ '(' :: inside) := by
    simp [h.uncommented, hname.notMem (c := '#') (by decide), hcomment]
  rw [constructor?, String.toList_ofList, visible, visibleFrom_eq_rests huncommented,
    findSome?_rests_append]
  · obtain ⟨first, rest, hfirst⟩ := List.exists_cons_of_ne_nil hname.1
    have hnames : names (name ++ '(' :: inside) = [(name, '(' :: inside)] :=
      names_word hname (by simp; decide)
    have hopen : opensCall ('(' :: inside) = true := by
      simp [opensCall_cons, isOpen, hclosing, show isBlank '(' = false by decide]
    have hrests : rests (name ++ '(' :: inside) =
        (name ++ '(' :: inside) :: rests (rest ++ '(' :: inside) := by
      rw [hfirst, List.cons_append, rests]
    rw [hrests, List.findSome?_cons, hnames]
    simp [hopen]
  · intro t hne ht
    have hline' : '\n' ∉ t ++ (name ++ '(' :: inside) := by
      obtain ⟨first, rfl⟩ := ht
      exact fun hmem => hline (by rw [List.append_assoc]; exact List.mem_append_right _ hmem)
    split
    · next found rest more hnames =>
      have hopen := (h.suffix ht).not_opensCall hne hname hline'
        (hnames ▸ List.mem_cons_self : (found, rest) ∈ names (t ++ (name ++ '(' :: inside)))
      rw [if_neg (by simpa using hopen)]
    · rfl

end

/-! ### Parameter namespaces -/

theorem suffix_of_mem_visibleFrom {hidden : Bool} {t cs : List Char}
    (h : t ∈ visibleFrom hidden cs) : t <:+ cs := by
  induction cs generalizing hidden with
  | nil => cases hidden <;> simp_all [visibleFrom]
  | cons c rest ih =>
    have hrest {hidden : Bool} (h : t ∈ visibleFrom hidden rest) : t <:+ c :: rest :=
      (ih h).trans (List.suffix_cons c rest)
    rw [visibleFrom] at h
    split at h
    · exact hrest h
    · rcases List.mem_cons.mp h with rfl | h
      · exact List.suffix_refl _
      · exact hrest h

theorem skipArguments_suffix (cs : List Char) : skipArguments cs <:+ cs := by
  have hblanks (t : List Char) : skipBlanks t <:+ t := List.dropWhile_suffix _
  unfold skipArguments
  split
  · next inside hinside =>
    have hcall : '(' :: inside <:+ cs := hinside ▸ hblanks cs
    split
    · next c rest hrest =>
      have hclose : c :: rest <:+ inside := hrest ▸ List.dropWhile_suffix _
      exact ((hblanks rest).trans (List.suffix_cons c rest)).trans
        (hclose.trans ((List.suffix_cons '(' inside).trans hcall))
    · exact hcall
  · exact hblanks cs

theorem paramAccess?_eq_none {α : Type} {text : String} (h : ¬ ".param".toList <:+: text.toList)
    (accept : List Char → Option α) : paramAccess? text accept = none := by
  rw [paramAccess?, List.findSome?_eq_none_iff]
  intro cs hcs
  rw [List.findSome?_eq_none_iff]
  intro entry hentry
  have hstrip : strip? ".param" (skipArguments entry.2) = none := by
    refine if_neg fun hstart => h ?_
    have hrest : entry.2 <:+ cs := ⟨entry.1, (append_of_mem_names hentry).1⟩
    exact (List.isPrefixOf_iff_prefix.mp hstart).isInfix.trans
      (((skipArguments_suffix _).trans hrest).trans (suffix_of_mem_visibleFrom hcs)).isInfix
  obtain ⟨name, rest⟩ := entry
  dsimp only at hstrip ⊢
  rw [hstrip]
  rfl

/-! ### Arguments given by name -/

section

variable {lead tail name inside : List Char}

theorem head?_skipBlanks_append (htail : ∀ c ∈ tail.head?, isBlank c = false ∧ c ≠ '=') :
    ((skipBlanks (lead ++ tail)).head? == some '=') = ((skipBlanks lead).head? == some '=') := by
  unfold skipBlanks
  induction lead with
  | nil =>
    cases tail with
    | nil => rfl
    | cons c tail =>
      obtain ⟨hblank, hequals⟩ := htail c rfl
      simp [hblank, hequals]
  | cons c rest ih =>
    by_cases hblank : isBlank c = true
    · simpa [hblank] using ih
    · simp [hblank]

theorem assignedFrom_append (hlead : ∀ c ∈ lead.getLast?, isWordChar c = false)
    (htail : ∀ c ∈ tail.head?, isBlank c = false ∧ c ≠ '=') (inWord : Bool) :
    assignedFrom inWord (lead ++ tail) =
      assignedFrom inWord lead ++ assignedFrom (lead.isEmpty && inWord) tail := by
  induction lead generalizing inWord with
  | nil => simp [assignedFrom]
  | cons c rest ih =>
    have hrest : ∀ d ∈ rest.getLast?, isWordChar d = false := by
      intro d hd
      apply hlead
      cases rest with
      | nil => cases hd
      | cons e rest => simpa using hd
    have hstops : ∃ d ∈ c :: rest, isWordChar d = false :=
      ⟨_, List.getLast_mem (List.cons_ne_nil c rest),
        hlead _ (List.getLast?_eq_some_getLast (List.cons_ne_nil c rest))⟩
    obtain ⟨hword, hafter⟩ := span_append hstops tail
    rw [← word, ← word, List.cons_append] at hword
    rw [← afterWord, ← afterWord, List.cons_append] at hafter
    rw [List.cons_append, assignedFrom, assignedFrom, hword, hafter, head?_skipBlanks_append htail,
      ih hrest]
    cases rest with
    | nil => simp [assignedFrom, hlead c rfl]
    | cons d rest => simp

theorem assignedFrom_of_apart {c : Char} (hc : isWordChar c = false) (inWord : Bool)
    (cs : List Char) : assignedFrom inWord (c :: cs) = assignedFrom false cs := by
  simp [assignedFrom, hc]

theorem assignedFrom_within (hname : ∀ c ∈ name, isWordChar c = true) (tail : List Char) :
    assignedFrom true (name ++ tail) = assignedFrom true tail := by
  induction name with
  | nil => rfl
  | cons c rest ih =>
    rw [List.cons_append, assignedFrom, hname c List.mem_cons_self,
      ih fun d hd => hname d (List.mem_cons_of_mem c hd)]
    simp

theorem assignedFrom_word (hname : IsWord name) (htail : ∀ c ∈ tail.head?, isWordChar c = false) :
    assignedFrom false (name ++ tail) =
      (if (skipBlanks tail).head? == some '=' then [String.ofList name] else []) ++
        assignedFrom true tail := by
  have hword : word (name ++ tail) = name := takeWhile_append_apart hname.2 htail
  have hafter : afterWord (name ++ tail) = tail := dropWhile_append_apart hname.2 htail
  obtain ⟨c, rest, rfl⟩ := List.exists_cons_of_ne_nil hname.1
  rw [List.cons_append] at hword hafter ⊢
  have hc : isWordChar c = true := hname.2 c List.mem_cons_self
  rw [assignedFrom, hword, hafter, hc, assignedFrom_within fun d hd => hname.2 d (by simp [hd])]
  simp

theorem assignedFrom_value {value : List Char} (hvalue : '=' ∉ value) (inWord : Bool)
    (tail : List Char) : assignedFrom inWord (value ++ ',' :: tail) = assignedFrom false tail := by
  have hnext (cs : List Char) (hcs : '=' ∉ cs) :
      (skipBlanks (afterWord (cs ++ ',' :: tail))).head? ≠ some '=' := by
    have hstop (p : Char → Bool) (hp : p ',' = false) (cs : List Char) :
        ∃ cs', cs' <:+ cs ∧ (cs ++ ',' :: tail).dropWhile p = cs' ++ ',' :: tail := by
      induction cs with
      | nil => exact ⟨[], List.suffix_refl _, by simp [hp]⟩
      | cons c rest ih =>
        by_cases hc : p c = true
        · obtain ⟨cs', hsuffix, heq⟩ := ih
          exact ⟨cs', hsuffix.trans (List.suffix_cons c rest), by simpa [hc] using heq⟩
        · exact ⟨c :: rest, List.suffix_refl _, by simp [hc]⟩
    obtain ⟨first, hfirst, heq⟩ := hstop isWordChar (by decide) cs
    obtain ⟨second, hsecond, heq'⟩ := hstop isBlank (by decide) first
    rw [afterWord, heq, skipBlanks, heq']
    cases second with
    | nil => simp
    | cons c rest =>
      have hmem : c ∈ cs := (hsecond.trans hfirst).subset List.mem_cons_self
      rintro hhead
      obtain rfl : c = '=' := by simpa using hhead
      exact hcs hmem
  induction value generalizing inWord with
  | nil => exact assignedFrom_of_apart (by decide) inWord tail
  | cons c rest ih =>
    have hhere : (skipBlanks (afterWord (c :: (rest ++ ',' :: tail)))).head? ≠ some '=' :=
      hnext (c :: rest) hvalue
    rw [List.cons_append, assignedFrom, ih fun hmem => hvalue (List.mem_cons_of_mem c hmem)]
    simp [hhere]

/-- No equals sign ends the text, blanks aside. -/
def NotAssigning (cs : List Char) : Prop :=
  ∀ rest, '=' :: rest <:+ cs → ∃ c ∈ rest, isBlank c = false

theorem notAssigning_of_last {cs blanks : List Char} {c : Char} (hc : isBlank c = false)
    (hne : c ≠ '=') (hblanks : ∀ d ∈ blanks, isBlank d = true) :
    NotAssigning (cs ++ c :: blanks) := by
  intro rest hrest
  refine ⟨c, ?_, hc⟩
  obtain ⟨first, hfirst⟩ := hrest
  rcases List.append_eq_append_iff.mp hfirst with ⟨middle, -, hmiddle⟩ | ⟨middle, -, hmiddle⟩
  · cases middle with
    | nil => exact absurd (List.cons.inj hmiddle).1.symm hne
    | cons d middle =>
      obtain ⟨-, hrest⟩ := List.cons.inj hmiddle
      simp [hrest]
  · cases middle with
    | nil => exact absurd (List.cons.inj hmiddle).1 hne
    | cons d middle =>
      obtain ⟨-, hrest⟩ := List.cons.inj hmiddle
      have hequals : isBlank '=' = true := hblanks '=' (by simp [hrest])
      exact absurd hequals (by decide)

section

variable {text : List Char}

theorem strip?_eq_some_iff {mark : String} {cs rest : List Char} :
    strip? mark cs = some rest ↔ cs = mark.toList ++ rest := by
  unfold strip?
  rw [Option.ite_none_right_eq_some, List.isPrefixOf_iff_prefix, Option.some.injEq]
  constructor
  · rintro ⟨hstart, rfl⟩
    exact (List.prefix_iff_eq_append.mp hstart).symm
  · rintro rfl
    simp

theorem assigns_iff (hcomment : '#' ∉ text) (hline : '\n' ∉ text) (name : String) :
    assigns (String.ofList text) name = true ↔ ∃ blanks rest,
      name.toList ++ (blanks ++ '=' :: rest) <:+ text ∧ (∀ c ∈ blanks, isBlank c = true) ∧
        ∀ c ∈ rest, isBlank c = true := by
  rw [assigns, String.toList_ofList, visible, visibleFrom_eq_rests hcomment, List.any_eq_true]
  constructor
  · rintro ⟨cs, hcs, htest⟩
    have hsuffix := mem_rests.mp hcs
    split at htest
    · next rest hrest =>
      obtain ⟨after, hafter, hskip⟩ := Option.map_eq_some_iff.mp hrest
      obtain rfl := strip?_eq_some_iff.mp hafter
      have hsplit : after.takeWhile isBlank ++ '=' :: rest = after := by
        rw [← hskip, skipBlanks, List.takeWhile_append_dropWhile]
      refine ⟨after.takeWhile isBlank, rest, hsplit.symm ▸ hsuffix,
        fun c hc => List.mem_takeWhile_imp hc, ?_⟩
      rcases Bool.or_eq_true_iff.mp htest with hall | hend
      · simpa using hall
      · -- A line end would belong to the text.
        have hmem : '\n' ∈ rest := List.takeWhile_subset _ (List.contains_iff_mem.mp hend)
        refine absurd (hsuffix.subset (List.mem_append_right _ ?_)) hline
        exact hsplit ▸ List.mem_append_right _ (List.mem_cons_of_mem _ hmem)
    · cases htest
  · rintro ⟨blanks, rest, hsuffix, hblanks, hrest⟩
    refine ⟨_, mem_rests.mpr hsuffix, ?_⟩
    have hskip : skipBlanks (blanks ++ '=' :: rest) = '=' :: rest :=
      dropWhile_append_apart hblanks (by simp; decide)
    have hall : rest.all isBlank = true := by simpa using hrest
    rw [strip?_eq_some_iff.mpr rfl, Option.map_some, hskip]
    simp [hall]

theorem assigns_eq_false (h : NotAssigning text) (hcomment : '#' ∉ text) (hline : '\n' ∉ text)
    (name : String) : assigns (String.ofList text) name = false := by
  rw [Bool.eq_false_iff]
  intro hassigns
  obtain ⟨blanks, rest, hsuffix, -, hrest⟩ := (assigns_iff hcomment hline name).mp hassigns
  have hequals : '=' :: rest <:+ text := by
    refine .trans ?_ hsuffix
    rw [← List.append_assoc]
    exact List.suffix_append _ _
  obtain ⟨c, hc, hblank⟩ := h rest hequals
  simp [hrest c hc] at hblank

/-- Where an equals sign ends the text right behind a word, the names ending there are assigned. -/
theorem assigns_append_iff {before : List Char} (hcomment : '#' ∉ before) (hline : '\n' ∉ before)
    (hlast : ∀ c ∈ before.getLast?, isBlank c = false) (name : String) :
    assigns (String.ofList (before ++ ['='])) name = true ↔ name.toList <:+ before := by
  rw [assigns_iff (by simp [hcomment]) (by simp [hline])]
  constructor
  · rintro ⟨blanks, rest, ⟨first, hsplit⟩, hblanks, hrest⟩
    rcases rest.eq_nil_or_concat with rfl | ⟨more, c, rfl⟩
    · have hbefore : first ++ (name.toList ++ blanks) = before := by
        apply (List.append_left_inj ['=']).mp
        simpa using hsplit
      rcases blanks.eq_nil_or_concat with rfl | ⟨more, c, rfl⟩
      · exact ⟨first, by simpa using hbefore⟩
      · -- A blank would end what stands before the equals sign.
        have hblank := hlast c (by simp [← hbefore])
        simp [hblanks c (by simp)] at hblank
    · have hends : first ++ (name.toList ++ (blanks ++ '=' :: more)) ++ [c] = before ++ ['='] := by
        simpa using hsplit
      have hequals : c = '=' := by
        have hlast := congrArg List.getLast? hends
        rw [List.getLast?_concat, List.getLast?_concat] at hlast
        exact Option.some.inj hlast
      exact absurd (hequals ▸ hrest c (by simp) : isBlank '=' = true) (by decide)
  · rintro ⟨first, rfl⟩
    exact ⟨[], [], ⟨first, by simp⟩, by simp, by simp⟩

theorem openAssignment?_eq_none (h : NotAssigning text) :
    openAssignment? (String.ofList text) = none := by
  have hscan (cs : List Char) (inWord : Bool) (position : Nat) (hcs : cs <:+ text) :
      openAssignmentFrom inWord position cs = none := by
    induction cs generalizing inWord position with
    | nil => rfl
    | cons c rest ih =>
      rw [openAssignmentFrom, ih _ _ ((List.suffix_cons c rest).trans hcs), ite_eq_right_iff]
      intro hhere
      have hmatch := (Bool.and_eq_true_iff.mp hhere).2
      split at hmatch
      · next more hmore =>
        have hequals : '=' :: more <:+ c :: rest := by
          rw [← hmore]
          exact (List.dropWhile_suffix _).trans (List.dropWhile_suffix _)
        obtain ⟨d, hd, hblank⟩ := h more (hequals.trans hcs)
        simp [List.all_eq_true.mp hmatch d hd] at hblank
      · cases hmatch
  rw [openAssignment?, String.toList_ofList]
  exact hscan text false 0 (List.suffix_refl _)

end

end

end ParamLens.Editor.Phrase
