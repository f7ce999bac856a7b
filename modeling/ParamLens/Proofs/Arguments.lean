import ParamLens.Proofs.Documents
import ParamLens.Proofs.Phrases
import ParamLens.Proofs.Tables

/-! Completions in a constructor call on one line. The arguments offered are the parameters of the
class that are not given yet. What is taken for given are all words of the line before an equals
sign, the target of an assignment before the call included. The name before the equals sign at the
cursor is taken for the first parameter with which the text ends. -/

namespace ParamLens.Editor

open Text Scan Phrase Analysis Steps

/-! ### The line of a call -/

/-- The characters of numbers as they are written: digits, letters of a base or an exponent, points
and signs. -/
def isNumeralChar (c : Char) : Bool := c.isDigit || "_.+-eEjJxXoObBaAcCdDfF".toList.contains c

/-- Arguments that are given by name as numbers. -/
def AreNumerals (given : List (String × String)) : Prop :=
  ∀ entry ∈ given, IsWord entry.1.toList ∧ ∀ c ∈ entry.2.toList, isNumeralChar c = true

instance (given : List (String × String)) : Decidable (AreNumerals given) :=
  decidable_of_iff (given.all fun entry =>
    decide (IsWord entry.1.toList) && entry.2.toList.all isNumeralChar) (by simp [AreNumerals])

/-- The arguments as they are written, each with a comma behind it. -/
def givenText : List (String × String) → List Char
  | [] => []
  | entry :: rest =>
    entry.1.toList ++ '=' :: (entry.2.toList ++ ',' :: ' ' :: givenText rest)

/-- What may stand before a call so that the call is seen: it closes its own parentheses, does not
run into the name of the class, has no comment sign and names no parameter namespace. -/
structure CallLead (lead : List Char) : Prop extends Lead lead where
  balanced : lead.count ')' ≤ lead.count '('
  noNamespace : ¬ ".param".toList <:+: lead

theorem givenText_append (given more : List (String × String)) :
    givenText (given ++ more) = givenText given ++ givenText more := by
  induction given with
  | nil => rfl
  | cons entry rest ih => simp [givenText, ih]

section

variable {given : List (String × String)} {tail : List Char}

theorem notMem_givenText (h : AreNumerals given) {c : Char} (hword : isWordChar c = false)
    (hnumeral : isNumeralChar c = false) (hmarks : c ∉ ['=', ',', ' ']) : c ∉ givenText given := by
  induction given with
  | nil => simp [givenText]
  | cons entry rest ih =>
    obtain ⟨hname, hvalue⟩ := h entry List.mem_cons_self
    have hrest := ih fun e he => h e (List.mem_cons_of_mem _ he)
    have hc : c ∉ entry.2.toList := fun hmem => by simp [hvalue c hmem] at hnumeral
    simp only [List.mem_cons, List.not_mem_nil, or_false, not_or] at hmarks
    simp [givenText, hname.notMem hword, hc, hrest, hmarks]

theorem assignedFrom_givenText (h : AreNumerals given) (tail : List Char) :
    assignedFrom false (givenText given ++ tail) =
      given.map Prod.fst ++ assignedFrom false tail := by
  induction given with
  | nil => rfl
  | cons entry rest ih =>
    obtain ⟨hname, hvalue⟩ := h entry List.mem_cons_self
    have hequals : '=' ∉ entry.2.toList := by
      intro hmem
      exact absurd (hvalue '=' hmem) (by decide)
    have hskip (more : List Char) : (skipBlanks ('=' :: more)).head? = some '=' := by
      simp [skipBlanks, show isBlank '=' = false by decide]
    have hrest := ih fun e he => h e (List.mem_cons_of_mem _ he)
    rw [givenText, List.append_assoc, List.cons_append, List.append_assoc, List.cons_append,
      List.cons_append, assignedFrom_word hname (by simp; decide), hskip,
      assignedFrom_of_apart (by decide), assignedFrom_value hequals,
      assignedFrom_of_apart (by decide), hrest]
    simp

theorem not_namespace_givenText (h : AreNumerals given) (htail : ¬ ".param".toList <:+: tail) :
    ¬ ".param".toList <:+: givenText given ++ tail := by
  induction given with
  | nil => exact htail
  | cons entry rest ih =>
    obtain ⟨hname, hvalue⟩ := h entry List.mem_cons_self
    have hrest := ih fun e he => h e (List.mem_cons_of_mem _ he)
    rw [givenText, List.append_assoc, List.cons_append, List.append_assoc, List.cons_append,
      List.cons_append]
    intro hinfix
    rcases infix_append_cons _ (by decide) hinfix with hin | hin
    · exact hname.notMem (by decide) (hin.subset (by decide : '.' ∈ ".param".toList))
    · rcases infix_append_cons _ (by decide) hin with hin | hin
      · exact absurd (hvalue 'p' (hin.subset (by decide))) (by decide)
      · rcases infix_append_cons [] (by decide) hin with hin | hin
        · exact absurd hin (by decide)
        · exact hrest hin

end

/-- The line of an open call behind a lead, with arguments given by name. -/
def callLine (lead : List Char) (className : String) (given : List (String × String))
    (last : List Char) : List Char :=
  lead ++ (className.toList ++ '(' :: (givenText given ++ last))

section

variable {lead last : List Char} {className : String} {given : List (String × String)}
  (hlead : CallLead lead) (hclass : IsWord className.toList) (hgiven : AreNumerals given)
  (hlast : ∀ c ∈ last, isWordChar c = true ∨ c = '=')

include hgiven hlast

theorem notMem_inside {c : Char} (hword : isWordChar c = false) (hnumeral : isNumeralChar c = false)
    (hmarks : c ∉ ['=', ',', ' ']) : c ∉ givenText given ++ last := by
  rw [List.mem_append, not_or]
  refine ⟨notMem_givenText hgiven hword hnumeral hmarks, fun hmem => ?_⟩
  rcases hlast c hmem with h | rfl
  · simp [h] at hword
  · simp at hmarks

include hclass

theorem notMem_callLine {c : Char} (hc : c ∉ lead) (hword : isWordChar c = false)
    (hnumeral : isNumeralChar c = false) (hmarks : c ∉ ['=', ',', ' ']) (hopen : c ≠ '(') :
    c ∉ callLine lead className given last := by
  have hinside := notMem_inside hgiven hlast hword hnumeral hmarks
  rw [List.mem_append, not_or] at hinside
  simp [callLine, hc, hclass.notMem hword, hopen, hinside]

include hlead

theorem constructor?_callLine (hline : '\n' ∉ callLine lead className given last) :
    constructor? (String.ofList (callLine lead className given last)) = some className := by
  have hclosing : ')' ∉ givenText given ++ last :=
    notMem_inside hgiven hlast (by decide) (by decide) (by decide)
  have hcomment : '#' ∉ givenText given ++ last :=
    notMem_inside hgiven hlast (by decide) (by decide) (by decide)
  rw [callLine, constructor?_of_lead hlead.toLead hclass hclosing hcomment hline,
    String.ofList_toList]

theorem not_namespace_callLine : ¬ ".param".toList <:+: callLine lead className given last := by
  have hafter : ¬ ".param".toList <:+: className.toList ++ '(' :: (givenText given ++ last) := by
    intro hinfix
    rcases infix_append_cons _ (by decide) hinfix with hin | hin
    · exact hclass.notMem (by decide) (hin.subset (by decide : '.' ∈ ".param".toList))
    · refine not_namespace_givenText hgiven (fun hin => ?_) hin
      rcases hlast '.' (hin.subset (by decide)) with h | h
      · exact absurd h (by decide)
      · cases h
  rcases lead.eq_nil_or_concat' with rfl | ⟨more, c, rfl⟩
  · exact hafter
  · -- The last character of the lead stands in no name, and so not in the word.
    obtain ⟨hword, hdot⟩ := hlead.apart c (by simp)
    have hc : c ∉ ".param".toList := by
      intro hmem
      have hchars : ∀ d ∈ ".param".toList, isWordChar d = true ∨ d = '.' := by
        simp
        decide
      rcases hchars c hmem with h | h
      · simp [h] at hword
      · exact hdot h
    rw [callLine, List.append_assoc, List.singleton_append]
    intro hinfix
    rcases infix_append_cons _ hc hinfix with hin | hin
    · exact hlead.noNamespace (hin.trans (List.prefix_append _ _).isInfix)
    · exact hafter hin

theorem leavesOpen_callLine :
    leavesOpen [String.ofList (callLine lead className given last)] = true := by
  have hcount (c : Char) : (callLine lead className given last).count c =
      lead.count c + (className.toList.count c +
        ((givenText given ++ last).count c + if '(' == c then 1 else 0)) := by
    rw [callLine, List.count_append, List.count_append, List.count_cons]
  have hopen : className.toList.count '(' = 0 ∧ (givenText given ++ last).count '(' = 0 :=
    ⟨List.count_eq_zero.mpr (hclass.notMem (by decide)), List.count_eq_zero.mpr
      (notMem_inside hgiven hlast (by decide) (by decide) (by decide))⟩
  have hclose : className.toList.count ')' = 0 ∧ (givenText given ++ last).count ')' = 0 :=
    ⟨List.count_eq_zero.mpr (hclass.notMem (by decide)), List.count_eq_zero.mpr
      (notMem_inside hgiven hlast (by decide) (by decide) (by decide))⟩
  have hbalanced := hlead.balanced
  rw [leavesOpen, decide_eq_true_eq]
  simp only [Text.count, String.toList_ofList, List.foldr_cons, List.foldr_nil, hcount, hopen,
    hclose]
  simp
  omega

omit hlast in
theorem assigned_callLine : assigned (String.ofList (callLine lead className given last)) =
    assigned (String.ofList lead) ++ given.map Prod.fst ++ assignedFrom false last := by
  have hstart : ∀ c ∈ (className.toList ++ '(' :: (givenText given ++ last)).head?,
      isBlank c = false ∧ c ≠ '=' := by
    intro c hc
    obtain ⟨first, rest, hfirst⟩ := List.exists_cons_of_ne_nil hclass.1
    obtain rfl : first = c := by simpa [hfirst] using hc
    have hmem : first ∈ className.toList := hfirst ▸ List.mem_cons_self
    exact ⟨hclass.not_isBlank hmem, fun h => hclass.notMem (c := '=') (by decide) (h ▸ hmem)⟩
  have hskip : (skipBlanks ('(' :: (givenText given ++ last))).head? ≠ some '=' := by
    simp [skipBlanks, show isBlank '(' = false by decide]
  rw [assigned, assigned, String.toList_ofList, String.toList_ofList, callLine,
    assignedFrom_append (fun c hc => (hlead.apart c hc).1) hstart, Bool.and_false,
    assignedFrom_word hclass (by simp; decide), assignedFrom_of_apart (by decide),
    assignedFrom_givenText hgiven]
  simp [hskip]

end

/-! ### The contexts of a completion -/

/-- The items of a context, or those of the next if it has none. -/
def orNext (items next : List Item) : List Item := if items = [] then next else items

theorem orNext_self (items : List Item) : orNext items items = items := ite_self items

theorem orNext_nil (items : List Item) : orNext items [] = items := by
  unfold orNext
  split
  · next h => exact h.symm
  · rfl

/-- The completions to the parameters of a class inside a dependency decorator, where a part of a
name may be written already. -/
def dependencyItems (className : String) (used : List String) (part : String) (isOpen : Bool)
    (c : ParamClass) : List Item :=
  (c.parameters.entries.filter fun entry =>
    !used.contains entry.1 && entry.1 != "name" && continues part entry.1).map
      fun entry => dependencyItem className isOpen entry.1 entry.2

/-- What is offered at a place for being inside a dependency decorator. -/
def decoratorItems (w : World) (classes : Classes) (lines : List String) (place : Cursor) :
    List Item :=
  if isInDepends lines place then
    ((classAround? w (Text.unlines lines) place.line).bind fun name =>
      (classes.named? name).map (dependencyItems name (quotedInDepends lines place)
        (quotedPart (beforeCursor lines place)) (endsQuoted (beforeCursor lines place)))).getD []
  else []

section

variable {w : World} {s : AnalysisState} {lines : List String} {place : Cursor}
  {line content className : String} {c : ParamClass}

theorem run_firstItems_nil : (firstItems []).run s = (.ok [], s) := rfl

theorem run_firstItems_cons {context : AnalysisM (List Item)} {items : List Item}
    (h : context.run s = (.ok items, s)) (rest : List (AnalysisM (List Item))) :
    (firstItems (context :: rest)).run s =
      if items = [] then (firstItems rest).run s else (.ok items, s) := by
  rw [firstItems, run_bind, h]
  cases items with
  | nil => rfl
  | cons item more => rfl

theorem run_firstItems_orNext {context : AnalysisM (List Item)} {items next : List Item}
    {rest : List (AnalysisM (List Item))} (h : context.run s = (.ok items, s))
    (hrest : (firstItems rest).run s = (.ok next, s)) :
    (firstItems (context :: rest)).run s = (.ok (orNext items next), s) := by
  rw [run_firstItems_cons h, hrest, orNext]
  split <;> rfl

theorem run_dependsItems (w : World) (s : AnalysisState) (lines : List String) (place : Cursor) :
    (dependsItems w lines place).run s =
      (.ok (decoratorItems w s.analyzer.latest.classes lines place), s) := by
  unfold dependsItems decoratorItems
  by_cases hinside : isInDepends lines place = true
  · rw [if_neg (by simp [hinside]), if_pos hinside]
    cases classAround? w (Text.unlines lines) place.line with
    | none => rfl
    | some name =>
      dsimp only
      rw [run_bind, run_get, Option.bind_some]
      dsimp only
      cases s.analyzer.latest.classes.named? name with
      | none => rfl
      | some c => rfl
  · rw [if_pos (by simpa using hinside), if_neg hinside]
    rfl

theorem run_constructedClass (h : s.analyzer.latest.classes.named? className = some c) :
    (constructedClass w className).run s = (.ok (some c), s) := by
  rw [constructedClass, run_bind, run_get]
  dsimp only
  rw [h]
  rfl

theorem lineNumbers_eq (hplace : place.line < lines.length) (first : Nat) :
    lineNumbers lines first place = List.range' first (place.line + 1 - first) := by
  have hmin : min (place.line + 1) lines.length = place.line + 1 := by omega
  rw [lineNumbers, hmin, List.range_eq_range', List.drop_range']
  congr 1
  omega

theorem constructorLines_eq (hplace : place.line < lines.length) :
    ∃ above, constructorLines lines place = place.line :: above := by
  obtain ⟨count, hcount⟩ : ∃ count,
      place.line + 1 - (place.line + 1 - constructorReach) = count + 1 :=
    ⟨place.line - (place.line + 1 - constructorReach), by unfold constructorReach; omega⟩
  refine ⟨(List.range' (place.line + 1 - constructorReach) count).reverse, ?_⟩
  rw [constructorLines, lineNumbers_eq hplace, hcount, List.range'_concat, List.reverse_append]
  have hlast : place.line + 1 - constructorReach + 1 * count = place.line := by omega
  rw [hlast]
  rfl

variable (hline : lines[place.line]? = some line) (hcursor : place.character = Text.length line)
  (hconstructor : constructor? line = some className)
  (hnamed : s.analyzer.latest.classes.named? className = some c)

theorem getD_of_getElem? (hline : lines[place.line]? = some line) :
    lines.getD place.line "" = line := by
  rw [List.getD_eq_getElem?_getD, hline]
  rfl

theorem take_length (line : String) : Text.take line (Text.length line) = line := by
  rw [Text.take, Text.length, List.take_length, String.ofList_toList]

include hline hconstructor hnamed

theorem run_openConstructor? (hopen : leavesOpen [line] = true) :
    (openConstructor? w lines place).run s = (.ok (some className), s) := by
  have hplace : place.line < lines.length := (List.getElem?_eq_some_iff.mp hline).1
  obtain ⟨above, habove⟩ := constructorLines_eq hplace
  have hfrom : isOpenFrom lines place place.line = true := by
    rw [isOpenFrom, getD_of_getElem? hline, lineNumbers_eq hplace, Nat.sub_self]
    exact hopen
  rw [openConstructor?, habove, List.findSomeM?_cons, run_bind, getD_of_getElem? hline,
    hconstructor]
  dsimp only
  rw [run_bind, run_constructedClass hnamed]
  dsimp only
  rw [hfrom]
  rfl

include hcursor

omit hnamed in
theorem assignedInConstructor_eq :
    assignedInConstructor lines place className = assigned line := by
  have hplace : place.line < lines.length := (List.getElem?_eq_some_iff.mp hline).1
  obtain ⟨above, habove⟩ := constructorLines_eq hplace
  have hwritten : written lines place place.line = line := by
    rw [written, getD_of_getElem? hline, if_pos rfl, hcursor, take_length]
  have hhere : (constructor? (lines.getD place.line "") == some className) = true := by
    rw [getD_of_getElem? hline, hconstructor]
    exact beq_self_eq_true _
  rw [assignedInConstructor, habove, List.find?_cons, hhere]
  dsimp only
  rw [lineNumbers_eq hplace, Nat.add_sub_cancel_left]
  simp [hwritten]

theorem run_fallbackItems (hopen : leavesOpen [line] = true) (types : List String) :
    (fallbackItems w types lines line place).run s =
      (.ok (keywordItems className className (assigned line) c), s) := by
  have hmultiline : (multilineItems w lines place className).run s =
      (.ok (keywordItems className className (assigned line) c), s) := by
    rw [multilineItems, run_bind, run_constructedClass hnamed]
    dsimp only
    rw [assignedInConstructor_eq hline hcursor hconstructor]
    rfl
  rw [fallbackItems, run_bind, run_openConstructor? hline hconstructor hnamed hopen]
  dsimp only
  rw [run_bind, hmultiline]
  dsimp only
  by_cases hempty : keywordItems className className (assigned line) c = []
  · -- Nothing is left to give, and in a call no declaration is completed either.
    have hinside : (isInConstructor w line place.character).run s = (.ok true, s) := by
      rw [isInConstructor, hcursor, take_length, hconstructor]
      dsimp only
      rw [run_bind, run_constructedClass hnamed]
      rfl
    rw [hempty, if_neg (by simp), run_bind, hinside]
    rfl
  · rw [if_pos (by simpa using hempty)]
    rfl

/-- Behind the items of a decorator, the completions in an open call are its arguments, or what is
left to give if there are none. -/
theorem run_complete_of_call (hnamespace : ¬ ".param".toList <:+: line.toList)
    (hopen : leavesOpen [line] = true) (hlines : Text.lines content = lines) (types : List String) :
    (complete w types content place).run s =
      (.ok (orNext (decoratorItems w s.analyzer.latest.classes lines place)
        (orNext (argumentItems line className place c)
          (keywordItems className className (assigned line) c))), s) := by
  have haccess {α : Type} (accept : List Char → Option α) : paramAccess? line accept = none :=
    paramAccess?_eq_none hnamespace accept
  have hupdate : (updateItems w content line place.character).run s = (.ok [], s) := by
    rw [updateItems, hcursor, take_length, updateCall?, haccess]
    rfl
  have hreactive : (reactiveItems w content line place.character).run s = (.ok [], s) := by
    rw [reactiveItems, hcursor, take_length, reactiveAccess?, haccess]
    rfl
  have hparameter : (parameterItems w content line place.character).run s = (.ok [], s) := by
    rw [parameterItems, hcursor, take_length, parameterAccess?, haccess]
    rfl
  have hmember : (namespaceItems w content line place.character).run s = (.ok [], s) := by
    rw [namespaceItems, hcursor, take_length, attributeAccess?, haccess]
    rfl
  have hcall : (constructorItems w line place).run s =
      (.ok (argumentItems line className place c), s) := by
    rw [constructorItems, hcursor, take_length, hconstructor]
    dsimp only
    rw [run_bind, run_constructedClass hnamed]
    rfl
  have hfallback := run_fallbackItems (w := w) hline hcursor hconstructor hnamed hopen types
  rw [complete, hlines, hline]
  have hrun := run_firstItems_orNext (run_dependsItems w s lines place)
    (run_firstItems_orNext hupdate (run_firstItems_orNext hreactive
      (run_firstItems_orNext hparameter (run_firstItems_orNext hmember
        (run_firstItems_orNext hcall (run_firstItems_orNext hfallback run_firstItems_nil))))))
  rw [orNext_nil] at hrun
  exact hrun

end

/-! ### The items in a call -/

section

variable {owner described className : String} {used : List String} {c : ParamClass}

theorem map_filter_entries_eq_iff {t : Table Parameter} {f : String × Parameter → Item}
    (hf : ∀ entry, (f entry).filterText = some entry.1) {p q : String × Parameter → Bool} :
    (t.entries.filter p).map f = (t.entries.filter q).map f ↔
      ∀ entry ∈ t.entries, p entry = q entry := by
  -- An item that both lists have stands for the same entry in both.
  have hsub {p q : String × Parameter → Bool}
      (h : (t.entries.filter p).map f = (t.entries.filter q).map f) {entry : String × Parameter}
      (hentry : entry ∈ t.entries) (hp : p entry = true) : q entry = true := by
    have hmem : f entry ∈ (t.entries.filter q).map f :=
      h ▸ List.mem_map_of_mem (List.mem_filter.mpr ⟨hentry, hp⟩)
    obtain ⟨other, hother, heq⟩ := List.mem_map.mp hmem
    obtain ⟨hmem, hq⟩ := List.mem_filter.mp hother
    have hname : other.1 = entry.1 := by
      have hboth := congrArg Item.filterText heq
      rw [hf, hf] at hboth
      exact Option.some.inj hboth
    rwa [List.inj_on_of_nodup_map t.distinct hmem hentry hname] at hq
  constructor
  · intro h entry hentry
    rw [Bool.eq_iff_iff]
    exact ⟨hsub h hentry, hsub h.symm hentry⟩
  · intro h
    rw [List.filter_congr h]

theorem keywordItems_eq_nil_iff : keywordItems owner described used c = [] ↔
    ∀ name ∈ c.parameterNames, name ≠ "name" → name ∈ used := by
  rw [keywordItems, List.map_eq_nil_iff, List.filter_eq_nil_iff, ParamClass.parameterNames,
    Table.names, List.forall_mem_map]
  refine forall₂_congr fun entry _ => ?_
  by_cases hused : entry.1 ∈ used <;> simp [hused]

theorem keywordItems_append_eq_iff {more : List String} :
    keywordItems owner described (more ++ used) c = keywordItems owner described used c ↔
      ∀ name ∈ c.parameterNames, name ≠ "name" → name ∈ more → name ∈ used := by
  rw [keywordItems, keywordItems, map_filter_entries_eq_iff fun _ => rfl, ParamClass.parameterNames,
    Table.names, List.forall_mem_map]
  refine forall₂_congr fun entry _ => ?_
  by_cases hname : entry.1 = "name"
  · simp [hname]
  · by_cases hused : entry.1 ∈ used <;> simp [hname, hused]

theorem preselect_of_mem_decoratorItems {w : World} {classes : Classes} {lines : List String}
    {place : Cursor} {item : Item} (h : item ∈ decoratorItems w classes lines place) :
    item.preselect = none := by
  unfold decoratorItems at h
  split at h
  · cases hitems : (classAround? w (Text.unlines lines) place.line).bind fun name =>
        (classes.named? name).map (dependencyItems name (quotedInDepends lines place)
          (quotedPart (beforeCursor lines place)) (endsQuoted (beforeCursor lines place))) with
    | none => simp [hitems] at h
    | some items =>
      obtain ⟨name, -, hitems'⟩ := Option.bind_eq_some_iff.mp hitems
      obtain ⟨c, -, rfl⟩ := Option.map_eq_some_iff.mp hitems'
      rw [hitems] at h
      obtain ⟨entry, -, rfl⟩ := List.mem_map.mp h
      rfl
  · cases h

theorem preselect_of_mem_keywordItems {item : Item}
    (h : item ∈ keywordItems owner described used c) : item.preselect = some false := by
  obtain ⟨entry, -, rfl⟩ := List.mem_map.mp h
  rfl

theorem preselect_of_mem_defaultItems {name : String} {p : Parameter} {item : Item}
    (h : item ∈ defaultItems className name p) : item.preselect = some true := by
  unfold defaultItems at h
  split at h
  · cases h
  · rw [List.mem_singleton.mp h]

theorem orNext_decoratorItems_eq_iff {w : World} {classes : Classes} {lines : List String}
    {place : Cursor} {items claimed : List Item} (h : ∀ item ∈ claimed, item.preselect ≠ none) :
    orNext (decoratorItems w classes lines place) items = claimed ↔
      decoratorItems w classes lines place = [] ∧ items = claimed := by
  unfold orNext
  split
  · next hnil => simp [hnil]
  · next hne =>
    refine ⟨fun heq => ?_, fun heq => absurd heq.1 hne⟩
    obtain ⟨item, more, hitem⟩ := List.exists_cons_of_ne_nil hne
    have hclaimed : item ∈ claimed := heq ▸ hitem ▸ List.mem_cons_self
    refine absurd ?_ (h item hclaimed)
    have hmem : item ∈ decoratorItems w classes lines place := hitem ▸ List.mem_cons_self
    exact preselect_of_mem_decoratorItems hmem

/-- The default of the parameter that is found is what the name asks for exactly if it is the
named one; two parameters without a default are told apart by nothing. -/
theorem orNext_defaultItems_eq_iff {first name : String} {q p : Parameter}
    (hq : c.get? first = some q) (hp : c.get? name = some p) :
    orNext (defaultItems className first q) (keywordItems owner described used c) =
        defaultItems className name p ↔
      (first = name ∧ p.defaultText.isSome = true) ∨
        (q.defaultText = none ∧ p.defaultText = none ∧
          keywordItems owner described used c = []) := by
  have hsame (h : first = name) : q = p := by
    subst h
    exact Option.some.inj (hq.symm.trans hp)
  cases hfound : q.defaultText with
  | none =>
    have hleft : orNext (defaultItems className first q) (keywordItems owner described used c) =
        keywordItems owner described used c := by
      simp [orNext, defaultItems, hfound]
    rw [hleft]
    cases hasked : p.defaultText with
    | none => simp [defaultItems, hasked]
    | some text =>
      have hother : first ≠ name := by
        intro h
        simp [hsame h, hasked] at hfound
      have hdefault : ∃ item, item ∈ defaultItems className name p := by
        simp [defaultItems, hasked]
      simp only [hother, false_and, reduceCtorEq, and_false, or_self, iff_false]
      intro heq
      obtain ⟨item, hitem⟩ := hdefault
      have htrue := preselect_of_mem_defaultItems hitem
      simp [preselect_of_mem_keywordItems (heq ▸ hitem)] at htrue
  | some text =>
    have hleft : orNext (defaultItems className first q) (keywordItems owner described used c) =
        defaultItems className first q := by
      simp [orNext, defaultItems, hfound]
    rw [hleft]
    constructor
    · intro heq
      have hnames := congrArg (List.map Item.filterText) heq
      cases hasked : p.defaultText with
      | none => simp [defaultItems, hfound, hasked] at hnames
      | some other => simpa [defaultItems, hfound, hasked] using hnames
    · rintro (⟨rfl, -⟩ | ⟨hnone, -⟩)
      · rw [hsame rfl]
      · cases hnone

section

variable {text : List Char} {place : Cursor}

theorem argumentItems_of_notAssigning (h : NotAssigning text) (hcomment : '#' ∉ text)
    (hline : '\n' ∉ text) : argumentItems (String.ofList text) className place c =
      keywordItems className className (assigned (String.ofList text)) c := by
  have hnone : assignedName? (String.ofList text) c.parameterNames = none := by
    rw [assignedName?, List.find?_eq_none]
    intro name _
    simp [assigns_eq_false h hcomment hline name]
  rw [argumentItems, hnone, abbreviation?, openAssignment?_eq_none h]
  rfl

theorem argumentItems_of_assigning {first : String} {q : Parameter} (hcomment : '#' ∉ text)
    (hline : '\n' ∉ text) (hlast : ∀ c ∈ text.getLast?, isBlank c = false)
    (hfirst : c.parameterNames.find? (·.toList.isSuffixOf text) = some first)
    (hq : c.get? first = some q) :
    argumentItems (String.ofList (text ++ ['='])) className place c =
      defaultItems className first q := by
  have hfound : assignedName? (String.ofList (text ++ ['='])) c.parameterNames = some first := by
    rw [assignedName?, ← hfirst]
    congr 1
    funext name
    rw [Bool.eq_iff_iff, assigns_append_iff hcomment hline hlast, List.isSuffixOf_iff_suffix]
  rw [argumentItems, hfound]
  dsimp only
  rw [hq]
  rfl

end

end

/-! ### Completions at the end of a call -/

/-- The line of the cursor is the text, and the cursor stands at its end. -/
def AtEndOf (lines : List String) (place : Cursor) (text : List Char) : Prop :=
  lines[place.line]? = some (String.ofList text) ∧ place.character = text.length

section

variable {w : World} {s : AnalysisState} {content : String} {place : Cursor} {lead last : List Char}
  {className : String} {given : List (String × String)} {c : ParamClass}

theorem newline_notMem_of_mem_lines {line : String} (h : line ∈ Text.lines content) :
    '\n' ∉ line.toList := by
  have hpiece := List.mem_map_of_mem (f := String.toList) h
  rw [map_toList_lines] at hpiece
  exact separator_notMem_of_mem_splitChars hpiece

theorem newline_notMem_of_atEndOf {text : List Char}
    (h : AtEndOf (Text.lines content) place text) : '\n' ∉ text := by
  have hline := newline_notMem_of_mem_lines (List.mem_of_getElem? h.1)
  rwa [String.toList_ofList] at hline

theorem run_complete_callLine (hlead : CallLead lead) (hname : IsWord className.toList)
    (hgiven : AreNumerals given) (hlast : ∀ c ∈ last, isWordChar c = true ∨ c = '=')
    (hnamed : s.analyzer.latest.classes.named? className = some c)
    (h : AtEndOf (Text.lines content) place (callLine lead className given last))
    (types : List String) :
    (complete w types content place).run s =
      (.ok (orNext (decoratorItems w s.analyzer.latest.classes (Text.lines content) place)
        (orNext
          (argumentItems (String.ofList (callLine lead className given last)) className place c)
          (keywordItems className className (assigned (String.ofList lead) ++ given.map Prod.fst ++
            assignedFrom false last) c))), s) := by
  rw [← assigned_callLine hlead hname hgiven]
  refine run_complete_of_call h.1 ?_ ?_ hnamed ?_ ?_ rfl types
  · rw [h.2, Text.length, String.toList_ofList]
  · exact constructor?_callLine hlead hname hgiven hlast (newline_notMem_of_atEndOf h)
  · have hline := not_namespace_callLine hlead hname hgiven hlast
    rwa [← String.toList_ofList (l := callLine lead className given last)] at hline
  · exact leavesOpen_callLine hlead hname hgiven hlast

theorem notAssigning_callLine : NotAssigning (callLine lead className given []) := by
  rcases given.eq_nil_or_concat' with rfl | ⟨more, entry, rfl⟩
  · have hline : callLine lead className [] [] = lead ++ className.toList ++ '(' :: [] := by
      simp [callLine, givenText]
    rw [hline]
    exact notAssigning_of_last (by decide) (by decide) (by simp)
  · have hline : callLine lead className (more ++ [entry]) [] = lead ++ className.toList ++ '(' ::
        (givenText more ++ entry.1.toList ++ '=' :: entry.2.toList) ++ ',' :: [' '] := by
      simp [callLine, givenText_append, givenText]
    rw [hline]
    exact notAssigning_of_last (by decide) (by decide) (by simp; decide)

theorem run_complete_unused (hlead : CallLead lead) (hname : IsWord className.toList)
    (hgiven : AreNumerals given) (hnamed : s.analyzer.latest.classes.named? className = some c)
    (h : AtEndOf (Text.lines content) place (callLine lead className given []))
    (types : List String) :
    (complete w types content place).run s =
      (.ok (orNext (decoratorItems w s.analyzer.latest.classes (Text.lines content) place)
        (keywordItems className className
          (assigned (String.ofList lead) ++ given.map Prod.fst) c)), s) := by
  have hcomment : '#' ∉ callLine lead className given [] :=
    notMem_callLine hname hgiven (by simp) hlead.uncommented (by decide) (by decide) (by decide)
      (by decide)
  rw [run_complete_callLine hlead hname hgiven (by simp) hnamed h,
    argumentItems_of_notAssigning notAssigning_callLine hcomment (newline_notMem_of_atEndOf h),
    assigned_callLine hlead hname hgiven, orNext_self, assignedFrom, List.append_nil]

/-- Behind an equals sign the default of the first parameter is offered with which the text before
it ends. -/
theorem run_complete_assigned {name first : String} {q : Parameter} (hlead : CallLead lead)
    (hname : IsWord className.toList) (hgiven : AreNumerals given)
    (hnamed : s.analyzer.latest.classes.named? className = some c) (hword : IsWord name.toList)
    (hfirst : c.parameterNames.find?
      (·.toList.isSuffixOf (callLine lead className given name.toList)) = some first)
    (hq : c.get? first = some q)
    (h : AtEndOf (Text.lines content) place (callLine lead className given (name.toList ++ ['='])))
    (types : List String) :
    (complete w types content place).run s =
      (.ok (orNext (decoratorItems w s.analyzer.latest.classes (Text.lines content) place)
        (orNext (defaultItems className first q) (keywordItems className className
          (assigned (String.ofList lead) ++ given.map Prod.fst ++ [name]) c))), s) := by
  have hline : callLine lead className given (name.toList ++ ['=']) =
      callLine lead className given name.toList ++ ['='] := by
    simp [callLine]
  have hend : '\n' ∉ callLine lead className given name.toList := by
    have hnewline := newline_notMem_of_atEndOf h
    rw [hline] at hnewline
    exact fun hmem => hnewline (List.mem_append_left _ hmem)
  have hcomment : '#' ∉ callLine lead className given name.toList :=
    notMem_callLine hname hgiven (fun d hd => .inl (hword.2 d hd)) hlead.uncommented (by decide)
      (by decide) (by decide) (by decide)
  have hlast : ∀ d ∈ (callLine lead className given name.toList).getLast?, isBlank d = false := by
    intro d hd
    have hsplit : callLine lead className given name.toList =
        lead ++ (className.toList ++ '(' :: givenText given) ++ name.toList := by
      simp [callLine]
    rw [hsplit, List.getLast?_append, List.getLast?_eq_some_getLast hword.1, Option.some_or,
      Option.mem_some_iff] at hd
    exact hword.not_isBlank (hd ▸ List.getLast_mem hword.1)
  have hused : assignedFrom false (name.toList ++ ['=']) = [name] := by
    rw [assignedFrom_word hword (by simp; decide), assignedFrom_of_apart (by decide)]
    simp [skipBlanks, assignedFrom, show isBlank '=' = false by decide]
  have hchars : ∀ d ∈ name.toList ++ ['='], isWordChar d = true ∨ d = '=' := by
    intro d hd
    rcases List.mem_append.mp hd with hd | hd
    · exact .inl (hword.2 d hd)
    · exact .inr (List.mem_singleton.mp hd)
  rw [run_complete_callLine hlead hname hgiven hchars hnamed h, hused, hline,
    argumentItems_of_assigning hcomment hend hlast hfirst hq]

end

theorem callLead_target {target : List Char} (hcomment : '#' ∉ target) (hopen : '(' ∉ target)
    (hclose : ')' ∉ target) (hnamespace : ¬ ".param".toList <:+: target) :
    CallLead (target ++ [' ', '=', ' ']) where
  uncommented := by simp [hcomment]
  apart := by simp; decide
  closed := by
    intro inside hinside
    have hmem := hinside.subset List.mem_cons_self
    simp [hopen] at hmem
  balanced := by
    have hnone : (target ++ [' ', '=', ' ']).count ')' = 0 :=
      List.count_eq_zero.mpr (by simp [hclose])
    omega
  noNamespace := by
    intro hinfix
    rcases infix_append_cons target (by decide) hinfix with hin | hin
    · exact hnamespace hin
    · exact absurd hin (by decide)

theorem Server.fst_run_complete {w : World} {server : Server} {address : String}
    {document : Document} {place : Cursor}
    (hopen : server.documents.get? address = some document) :
    ((Server.complete w address place).run server).1 =
      ((Editor.complete w server.types document.content place).run
        ⟨server.analyzerOf document.owner, server.store⟩).1 := by
  rw [Server.run_complete, hopen]
  rfl

/-- Completions at the end of an open call of a class of the document, after arguments that are
given as numbers. Behind a comma, or right behind the parenthesis, the parameters that are not used
are offered; these are the ones not given exactly if no decorator has items there and no other
parameter is assigned before the call. Behind a parameter and an equals sign, the text is taken for
the first parameter with which it ends, and where that has no default the unused parameters are
offered. -/
theorem completions_at_end_of_call (w : World) (place : Cursor) {server : Server}
    {address : String} {document : Document} {lead : List Char} {className : String}
    {given : List (String × String)} {c : ParamClass}
    (hopen : server.documents.get? address = some document)
    (hclass : (server.analyzerOf document.owner).latest.classes.named? className = some c)
    (hname : IsWord className.toList) (hlead : CallLead lead) (hgiven : AreNumerals given) :
    let lines := Text.lines document.content
    let decorator := decoratorItems w (server.analyzerOf document.owner).latest.classes lines place
    let offered := ((Server.complete w address place).run server).1
    let target := assigned (String.ofList lead)
    let names := given.map Prod.fst
    (AtEndOf lines place (callLine lead className given []) →
      offered = .ok (orNext decorator (keywordItems className className (target ++ names) c)) ∧
      (offered = .ok (keywordItems className className names c) ↔
        decorator = [] ∧
          ∀ other ∈ c.parameterNames, other ≠ "name" → other ∈ target → other ∈ names)) ∧
    ∀ name p, IsWord name.toList → c.get? name = some p →
      AtEndOf lines place (callLine lead className given (name.toList ++ ['='])) →
      ∃ first q,
        c.parameterNames.find?
          (·.toList.isSuffixOf (callLine lead className given name.toList)) = some first ∧
        c.get? first = some q ∧
        offered = .ok (orNext decorator (orNext (defaultItems className first q)
          (keywordItems className className (target ++ names ++ [name]) c))) ∧
        (offered = .ok (defaultItems className name p) ↔
          decorator = [] ∧
            ((first = name ∧ p.defaultText.isSome = true) ∨
              (q.defaultText = none ∧ p.defaultText = none ∧ ∀ other ∈ c.parameterNames,
                other ≠ "name" → other ∈ target ++ names ++ [name]))) := by
  intro lines decorator offered target names
  have hoffered : offered = ((complete w server.types document.content place).run
      ⟨server.analyzerOf document.owner, server.store⟩).1 := Server.fst_run_complete hopen
  constructor
  · intro hend
    have hitems : offered =
        .ok (orNext decorator (keywordItems className className (target ++ names) c)) := by
      rw [hoffered, run_complete_unused hlead hname hgiven hclass hend]
    refine ⟨hitems, ?_⟩
    rw [hitems, Except.ok.injEq, orNext_decoratorItems_eq_iff, keywordItems_append_eq_iff]
    intro item hitem
    simp [preselect_of_mem_keywordItems hitem]
  · intro name p hword hp hend
    -- The name itself ends the text, so some parameter is found.
    obtain ⟨first, hfirst⟩ : ∃ first, c.parameterNames.find?
        (·.toList.isSuffixOf (callLine lead className given name.toList)) = some first := by
      rw [← Option.isSome_iff_exists, List.find?_isSome]
      refine ⟨name, Table.mem_names_of_get? hp, List.isSuffixOf_iff_suffix.mpr ?_⟩
      exact ⟨lead ++ (className.toList ++ '(' :: givenText given), by simp [callLine]⟩
    obtain ⟨q, hq⟩ : ∃ q, c.get? first = some q :=
      Table.mem_names_iff.mp (List.mem_of_find?_eq_some hfirst)
    have hitems : offered = .ok (orNext decorator (orNext (defaultItems className first q)
        (keywordItems className className (target ++ names ++ [name]) c))) := by
      rw [hoffered,
        run_complete_assigned hlead hname hgiven hclass hword hfirst hq hend]
    refine ⟨first, q, hfirst, hq, hitems, ?_⟩
    rw [hitems, Except.ok.injEq, orNext_decoratorItems_eq_iff, orNext_defaultItems_eq_iff hq hp,
      keywordItems_eq_nil_iff]
    intro item hitem
    simp [preselect_of_mem_defaultItems hitem]

/-- A parameter that is a whole number with a default. -/
def sizeParameter (name text : String) : Parameter :=
  { name, typeName := "Integer", defaultText := some text }

/-- A class with two parameters that have a default, and one that has none. -/
def plotClass : ParamClass :=
  ⟨"Plot", Table.ofList [("width", sizeParameter "width" "3"),
    ("line_width", sizeParameter "line_width" "1"),
    ("title", { name := "title", typeName := "String" })]⟩

/-- A server with an open document for which the class is known. -/
def plotServer (content : String) : Server :=
  let server := Server.serverWith "/a" content
  let latest : Analysis := { classes := (∅ : Table ParamClass).insert "Plot:0" plotClass }
  { server with detached := { server.detached with latest } }

/-- Two calls, one behind a target and one at the start of its line. -/
def plotCalls : String := "p.q = Plot(width=-1, \nPlot(line_width=1, width="

theorem completions_at_end_of_call_plot :
    ((Server.complete Server.bareWorld "/a" ⟨0, 21⟩).run (plotServer plotCalls)).1 =
      .ok (keywordItems "Plot" "Plot" ["width"] plotClass) ∧
    ((Server.complete Server.bareWorld "/a" ⟨1, 25⟩).run (plotServer plotCalls)).1 =
      .ok (defaultItems "Plot" "width" (sizeParameter "width" "3")) := by
  have hopen : (plotServer plotCalls).documents.get? "/a" = some ⟨plotCalls, .detached⟩ := rfl
  have hclass : ((plotServer plotCalls).analyzerOf .detached).latest.classes.named? "Plot" =
      some plotClass := rfl
  have hword : IsWord "Plot".toList := by decide +kernel
  have htarget : CallLead ("p.q".toList ++ [' ', '=', ' ']) :=
    callLead_target (by decide) (by decide) (by decide) (by decide)
  have hstart : CallLead [] := ⟨⟨by simp, by simp, by simp⟩, by simp, by decide⟩
  constructor
  · have hcall := (completions_at_end_of_call Server.bareWorld ⟨0, 21⟩ hopen hclass hword htarget
      (by decide +kernel : AreNumerals [("width", "-1")])).1 ⟨by decide +kernel, by decide +kernel⟩
    exact hcall.2.mpr ⟨by decide +kernel, by decide +kernel⟩
  · obtain ⟨first, q, hfirst, -, -, hexact⟩ :=
      (completions_at_end_of_call Server.bareWorld ⟨1, 25⟩ hopen hclass hword hstart
        (by decide +kernel : AreNumerals [("line_width", "1")])).2 "width"
        (sizeParameter "width" "3") (by decide +kernel) rfl ⟨by decide +kernel, by decide +kernel⟩
    have hwidth : plotClass.parameterNames.find? (·.toList.isSuffixOf
        (callLine [] "Plot" [("line_width", "1")] "width".toList)) = some "width" := by
      decide +kernel
    have hname : first = "width" := Option.some.inj (hfirst.symm.trans hwidth)
    exact hexact.mpr ⟨by decide +kernel, .inl ⟨hname, rfl⟩⟩

/-- A target that is called like a parameter hides it, and the default of a parameter is offered for
another one whose name ends in its name. -/
theorem target_and_ending_mistaken :
    ((Server.complete Server.bareWorld "/a" ⟨0, 13⟩).run (plotServer "width = Plot(")).1 =
      .ok (keywordItems "Plot" "Plot" ["width"] plotClass) ∧
    keywordItems "Plot" "Plot" ["width"] plotClass ≠ keywordItems "Plot" "Plot" [] plotClass ∧
    ((Server.complete Server.bareWorld "/a" ⟨0, 16⟩).run (plotServer "Plot(line_width=")).1 =
      .ok (defaultItems "Plot" "width" (sizeParameter "width" "3")) := by
  decide +kernel

end ParamLens.Editor
