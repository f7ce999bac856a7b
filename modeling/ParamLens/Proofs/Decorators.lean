import ParamLens.Proofs.Arguments
import ParamLens.Proofs.Places
import ParamLens.Proofs.Quotations
import ParamLens.Proofs.Sites

/-! Completions in the parentheses of a dependency decorator. The parameters offered are those of
the class around the cursor that searches find first, which is the outermost one, without the names
that are quoted since the first decorator near the cursor. The main statement says when these are
the names that the decorator itself leaves over. -/

namespace ParamLens.Editor

open Text Scan Phrase Syntax Analysis Steps

/-! ### The cursor in a decorator -/

/-- The text from the start of a line to the cursor. -/
def textFrom (lines : List String) (first : Nat) (place : Cursor) : String :=
  Text.unlines ((lineNumbers lines first place).map (written lines place))

/-- The cursor stands in the parentheses of a decorator that begins on a line near enough. -/
structure InDecorator (content : String) (place : Cursor) (first : Nat) (d : Decorator) : Prop where
  onLine : place.line < (Text.lines content).length
  above : first ≤ place.line
  near : place.line ≤ first + decoratorReach
  text : (textFrom (Text.lines content) first place).toList = d.text
  unclosed : d.inside.count ')' ≤ d.inside.count '('

section

variable {content : String} {place : Cursor} {first : Nat} {d : Decorator}

theorem newline_notMem_written (content : String) (place : Cursor) (number : Nat) :
    '\n' ∉ (written (Text.lines content) place number).toList := by
  have hline : '\n' ∉ ((Text.lines content).getD number "").toList := by
    rw [List.getD_eq_getElem?_getD]
    cases hline : (Text.lines content)[number]? with
    | none => simp
    | some line => exact newline_notMem_of_mem_lines (List.mem_of_getElem? hline)
  unfold written
  split
  · rw [Text.toList_take]
    exact fun hmem => hline (List.mem_of_mem_take hmem)
  · exact hline

namespace InDecorator

variable (h : InDecorator content place first d)

include h

theorem lineNumbers_eq_append : lineNumbers (Text.lines content) first place =
    List.range' first (place.line - first) ++ [place.line] := by
  have habove := h.above
  have hcount : place.line + 1 - first = place.line - first + 1 := by omega
  rw [lineNumbers_eq h.onLine, hcount, List.range'_concat]
  congr 2
  omega

theorem rows_eq : ((lineNumbers (Text.lines content) first place).map
    (written (Text.lines content) place)).map String.toList = splitChars '\n' d.text := by
  rw [← h.text, textFrom, Text.unlines, Text.join, String.toList_intercalate]
  refine (splitChars_intercalate '\n' ?_ ?_).symm
  · simp [h.lineNumbers_eq_append]
  · intro row hrow
    simp only [List.map_map, List.mem_map, Function.comp_apply] at hrow
    obtain ⟨number, -, rfl⟩ := hrow
    exact newline_notMem_written content place number

theorem beforeCursor_eq :
    beforeCursor (Text.lines content) place = String.ofList (lastRow d.text) := by
  have hwritten : beforeCursor (Text.lines content) place =
      written (Text.lines content) place place.line := by
    rw [written, if_pos rfl]
    rfl
  have htext : d.text = ['\n'].intercalate ((List.range' first (place.line - first)).map
      (String.toList ∘ written (Text.lines content) place) ++
        [(beforeCursor (Text.lines content) place).toList]) := by
    rw [← h.text, textFrom, Text.unlines, Text.join, String.toList_intercalate,
      h.lineNumbers_eq_append, hwritten]
    simp
  rw [htext, lastRow_intercalate, String.ofList_toList]
  rw [hwritten]
  exact newline_notMem_written content place place.line

theorem leavesOpen_rows : leavesOpen ((lineNumbers (Text.lines content) first place).map
    (written (Text.lines content) place)) = true := by
  have htotal {c : Char} (hc : c ≠ '\n') :
      ((lineNumbers (Text.lines content) first place).map
        (written (Text.lines content) place)).foldr
          (fun text count => Text.count text c + count) 0 = d.text.count c := by
    rw [← foldr_count_splitChars hc, ← h.rows_eq, List.foldr_map (f := String.toList)]
    rfl
  obtain ⟨hclosing, hopening⟩ := d.count_head
  have hinside := h.unclosed
  rw [leavesOpen, decide_eq_true_eq]
  dsimp only
  rw [htotal (by decide), htotal (by decide), Decorator.text, List.count_append, List.count_append]
  omega

theorem exists_line_eq : ∃ found more, (written (Text.lines content) place first).toList =
    d.head ++ found ∧ ((Text.lines content).getD first "").toList = d.head ++ (found ++ more) := by
  obtain ⟨found, rest, hinside⟩ := List.exists_cons_of_ne_nil (splitChars_ne_nil '\n' d.inside)
  have hhead : splitChars '\n' d.head = [] ++ [d.head] :=
    splitChars_of_notMem '\n' d.newline_notMem_head
  have hsplit := splitChars_append hhead hinside
  have hwritten : (written (Text.lines content) place first).toList = d.head ++ found := by
    have habove := h.above
    have hcount : place.line + 1 - first = place.line - first + 1 := by omega
    have hrows := h.rows_eq
    rw [lineNumbers_eq h.onLine, hcount, List.range'_succ, Decorator.text, hsplit,
      List.nil_append] at hrows
    exact (List.cons.inj hrows).1
  refine ⟨found, ((Text.lines content).getD first "").toList.drop
    (written (Text.lines content) place first).toList.length, hwritten, ?_⟩
  rw [← List.append_assoc, ← hwritten]
  refine List.prefix_iff_eq_append.mp ?_ |>.symm
  unfold written
  split
  · rw [Text.toList_take]
    exact List.take_prefix _ _
  · exact List.prefix_refl _

theorem dependsEnd?_line :
    dependsEnd? ((Text.lines content).getD first "") = some d.head.length := by
  obtain ⟨found, more, -, hline⟩ := h.exists_line_eq
  exact d.dependsEnd?_eq hline

theorem isOpenDecorator_first : isOpenDecorator (Text.lines content) place first = true := by
  rw [isOpenDecorator, h.dependsEnd?_line]
  dsimp only
  split
  · next hsame =>
    -- The decorator begins on the line of the cursor.
    obtain ⟨found, more, hwritten, -⟩ := h.exists_line_eq
    have hrows := h.leavesOpen_rows
    rw [h.lineNumbers_eq_append, ← hsame, Nat.sub_self] at hrows
    have hlength : d.head.length ≤ place.character := by
      rw [written, if_pos hsame, Text.toList_take] at hwritten
      have hle := congrArg List.length hwritten
      rw [List.length_take, List.length_append] at hle
      omega
    rw [Bool.and_eq_true, decide_eq_true_eq]
    exact ⟨hlength, hrows⟩
  · next hother =>
    have hwritten : written (Text.lines content) place first = (Text.lines content).getD first "" :=
      if_neg hother
    have hrows := h.leavesOpen_rows
    have habove := h.above
    have hcount : place.line + 1 - first = place.line + 1 - (first + 1) + 1 := by omega
    rw [lineNumbers_eq h.onLine, hcount, List.range'_succ, List.map_cons, hwritten] at hrows
    rw [isOpenFrom, lineNumbers_eq h.onLine]
    exact hrows

theorem mem_decoratorLines : first ∈ decoratorLines (Text.lines content) place := by
  have habove := h.above
  have hnear := h.near
  rw [decoratorLines, lineNumbers_eq h.onLine, List.mem_range'_1]
  omega

theorem isInDepends_eq_true : isInDepends (Text.lines content) place = true :=
  List.any_eq_true.mpr ⟨first, h.mem_decoratorLines, h.isOpenDecorator_first⟩

theorem find?_decoratorLines
    (hfirst : ∀ number ∈ decoratorLines (Text.lines content) place, number < first →
      dependsEnd? ((Text.lines content).getD number "") = none) :
    (decoratorLines (Text.lines content) place).find? (fun number =>
      (dependsEnd? ((Text.lines content).getD number "")).isSome) = some first := by
  have habove := h.above
  have hnear := h.near
  have hsplit : decoratorLines (Text.lines content) place =
      List.range' (place.line - decoratorReach) (first - (place.line - decoratorReach)) ++
        first :: List.range' (first + 1) (place.line - first) := by
    have hstart : first = place.line - decoratorReach +
        1 * (first - (place.line - decoratorReach)) := by omega
    have hcount : place.line + 1 - (place.line - decoratorReach) =
        first - (place.line - decoratorReach) + (place.line - first + 1) := by omega
    rw [decoratorLines, lineNumbers_eq h.onLine, ← List.range'_succ, hcount, ← List.range'_append,
      ← hstart]
  refine List.find?_eq_some_iff_append.mpr ⟨by rw [h.dependsEnd?_line]; rfl, _, _, hsplit, ?_⟩
  intro number hnumber
  have hlt : number < first := by
    rw [List.mem_range'_1] at hnumber
    omega
  rw [hfirst number (hsplit ▸ List.mem_append_left _ hnumber) hlt]
  rfl

theorem toList_join_rows :
    (Text.join "" ((lineNumbers (Text.lines content) first place).map fun number =>
      written (Text.lines content) place number ++ " ")).toList = d.text.map blanked ++ [' '] := by
  have hjoin := flatMap_splitChars '\n' ' ' d.text
  rw [← h.rows_eq, List.map_map, List.flatMap_map] at hjoin
  rw [Text.join, String.toList_intercalate, String.toList_empty, intercalate_nil_eq_flatten,
    List.map_map, ← List.flatMap_def]
  refine Eq.trans (congrArg (List.flatMap · _) (funext fun number => ?_)) hjoin
  exact String.toList_append

theorem quotedInDepends_eq
    (hfirst : ∀ number ∈ decoratorLines (Text.lines content) place, number < first →
      dependsEnd? ((Text.lines content).getD number "") = none) :
    quotedInDepends (Text.lines content) place = d.names := by
  rw [quotedInDepends, h.find?_decoratorLines hfirst]
  dsimp only
  rw [Phrase.quoted, h.toList_join_rows, d.quoted_text]

end InDecorator

end

/-! ### The classes around the cursor -/

/-- The line is one of those on which the node stands. -/
def Around (line : Nat) (n : Node) : Prop := n.span.start.row ≤ line ∧ line ≤ n.span.stop.row

instance (line : Nat) (n : Node) : Decidable (Around line n) := inferInstanceAs (Decidable (_ ∧ _))

/-- The name of a class definition that has one. -/
def givenName? (n : Node) : Option String := ((n.child? .name).map Node.text).filter (· != "")

/-- The names of the classes around a line, in the order in which they are found. -/
def classesAround (f : Finder) (root : Node) (line : Nat) : List String :=
  (f.classes root).filterMap fun n => if Around line n then givenName? n else none

/-- The classes that are found in a node, apart from itself. -/
def classesIn (f : Finder) (n : Node) : List Node := n.children.flatMap f.classes

/-- A class around the line with no class around the line in it. -/
structure Innermost (f : Finder) (root : Node) (line : Nat) (n : Node) : Prop where
  found : n ∈ f.classes root
  around : Around line n
  least : ∀ m ∈ classesIn f n, ¬ Around line m

theorem classAround?_eq {w : World} {content : String} {root : Node}
    (hparse : w.parse? content = some root) (line : Nat) :
    classAround? w content line = (classesAround w.finder root line).head? := by
  rw [classAround?, hparse, Option.bind_some, classesAround, List.head?_filterMap]
  rfl

section

variable {f : Finder} {root m n : Node} {line : Nat} {className : String}

theorem head?_classesAround_of_only (hn : n ∈ f.classes root) (haround : Around line n)
    (hname : givenName? n = some className)
    (honly : ∀ m ∈ f.classes root, Around line m → m = n) :
    (classesAround f root line).head? = some className := by
  have hmem : className ∈ classesAround f root line :=
    List.mem_filterMap.mpr ⟨n, hn, by rw [if_pos haround, hname]⟩
  have hall : ∀ name ∈ classesAround f root line, name = className := by
    intro name hfound
    obtain ⟨m, hm, hgiven⟩ := List.mem_filterMap.mp hfound
    split at hgiven
    · next hline =>
      rw [honly m hm hline, hname] at hgiven
      exact (Option.some.inj hgiven).symm
    · cases hgiven
  obtain ⟨name, rest, hnames⟩ := List.exists_cons_of_ne_nil (List.ne_nil_of_mem hmem)
  rw [hnames, List.head?_cons, hall name (hnames ▸ List.mem_cons_self)]

/-- A class is found before those that stand in it. -/
theorem exists_split_of_mem_classesIn (hm : m ∈ f.classes root) (hn : n ∈ classesIn f m) :
    ∃ before after, f.classes root = before ++ n :: after ∧ m ∈ before := by
  obtain ⟨⟨m, up⟩, hplace, rfl⟩ := List.mem_map.mp hm
  obtain ⟨hlocated, hfinds⟩ := Finder.mem_found_iff.mp hplace
  obtain ⟨child, hchild, hinside⟩ := List.mem_flatMap.mp hn
  obtain ⟨place, hfound, rfl⟩ := List.mem_map.mp hinside
  obtain ⟨hbelow, hshape⟩ := Finder.mem_found_iff.mp hfound
  have hseen : ⟨place.node, place.ancestors ++ m :: up⟩ ∈ f.found .classes root :=
    Finder.mem_found_iff.mpr ⟨Node.mem_located_of_mem_child hlocated hchild hbelow, hshape⟩
  obtain ⟨before, after, hsplit⟩ := List.mem_iff_append.mp hseen
  have hbefore := f.outer_first hsplit m up (List.suffix_append _ _) hfinds
  refine ⟨before.map (·.node), after.map (·.node), ?_, List.mem_map.mpr ⟨_, hbefore, rfl⟩⟩
  rw [Finder.classes, Finder.nodes, hsplit, List.map_append, List.map_cons]

theorem head?_classesAround_ne (hm : m ∈ f.classes root) (haround : Around line m)
    (hnamed : (givenName? m).isSome = true) (hn : n ∈ classesIn f m)
    (hname : givenName? n = some className)
    (hunique : ((f.classes root).filterMap givenName?).count className = 1) :
    (classesAround f root line).head? ≠ some className := by
  obtain ⟨outer, houter⟩ := Option.isSome_iff_exists.mp hnamed
  obtain ⟨before, after, hsplit, hmem⟩ := exists_split_of_mem_classesIn hm hn
  have hbefore : className ∉ before.filterMap givenName? := by
    rw [hsplit, List.filterMap_append, List.filterMap_cons_some hname, List.count_append,
      List.count_cons_self] at hunique
    exact List.count_eq_zero.mp (by omega)
  let given (n : Node) : Option String := if Around line n then givenName? n else none
  have houter : outer ∈ before.filterMap given :=
    List.mem_filterMap.mpr ⟨m, hmem, by rw [← houter]; exact if_pos haround⟩
  intro hhead
  rw [classesAround, hsplit, List.filterMap_append,
    List.head?_append_of_ne_nil _ (List.ne_nil_of_mem houter)] at hhead
  obtain ⟨a, ha, hfound⟩ := List.mem_filterMap.mp (List.mem_of_head? hhead)
  refine hbefore (List.mem_filterMap.mpr ⟨a, ha, ?_⟩)
  dsimp only [given] at hfound
  split at hfound
  · exact hfound
  · cases hfound

end

/-! ### The items in a decorator -/

section

variable {className part : String} {used names : List String} {isOpen : Bool} {c : ParamClass}

theorem dependencyItems_eq_iff :
    dependencyItems className used part isOpen c = dependencyItems className names part isOpen c ↔
      ∀ name ∈ c.parameterNames, name ≠ "name" → continues part name = true →
        (name ∈ used ↔ name ∈ names) := by
  rw [dependencyItems, dependencyItems, map_filter_entries_eq_iff fun _ => rfl,
    ParamClass.parameterNames, Table.names, List.forall_mem_map]
  refine forall₂_congr fun entry _ => ?_
  by_cases hname : entry.1 = "name"
  · simp [hname]
  · by_cases hpart : continues part entry.1 = true
    · by_cases hused : entry.1 ∈ used <;> by_cases hnames : entry.1 ∈ names <;>
        simp [hname, hpart, hused, hnames]
    · simp [hpart]

theorem detail_of_mem_dependencyItems {item : Item}
    (h : item ∈ dependencyItems className used part isOpen c) :
    item.detail = "Parameter of " ++ className := by
  obtain ⟨entry, -, rfl⟩ := List.mem_map.mp h
  rfl

theorem eq_of_dependencyItems_eq {otherName : String} {other : ParamClass}
    (h : dependencyItems otherName used part isOpen other =
      dependencyItems className names part isOpen c)
    (hne : dependencyItems className names part isOpen c ≠ []) : otherName = className := by
  obtain ⟨item, more, hitem⟩ := List.exists_cons_of_ne_nil hne
  have hmem : item ∈ dependencyItems className names part isOpen c := hitem ▸ List.mem_cons_self
  have hdetail := detail_of_mem_dependencyItems hmem
  rw [← h] at hmem
  rw [detail_of_mem_dependencyItems hmem] at hdetail
  simpa using hdetail

end

theorem InDecorator.decoratorItems_eq {w : World} {classes : Classes} {content : String}
    {place : Cursor} {first : Nat} {d : Decorator} {root : Node}
    (h : InDecorator content place first d) (hparse : w.parse? content = some root) :
    decoratorItems w classes (Text.lines content) place =
      ((classesAround w.finder root place.line).head?.bind fun name =>
        (classes.named? name).map (dependencyItems name (quotedInDepends (Text.lines content) place)
          d.part d.opened.isSome)).getD [] := by
  rw [decoratorItems, if_pos h.isInDepends_eq_true, unlines_lines, classAround?_eq hparse,
    h.beforeCursor_eq, d.quotedPart_lastRow, d.endsQuoted_lastRow]

/-- The completions of the contexts after the one of decorators. -/
def laterItems (w : World) (types : List String) (content : String) (place : Cursor) :
    AnalysisM (List Item) :=
  let lines := Text.lines content
  let line := lines.getD place.line ""
  firstItems
    [updateItems w content line place.character,
     reactiveItems w content line place.character,
     parameterItems w content line place.character,
     namespaceItems w content line place.character,
     constructorItems w line place,
     fallbackItems w types lines line place]

theorem run_complete_eq {w : World} {types : List String} {content : String} {place : Cursor}
    {s : AnalysisState} (hplace : place.line < (Text.lines content).length) :
    (complete w types content place).run s =
      if decoratorItems w s.analyzer.latest.classes (Text.lines content) place = [] then
        (laterItems w types content place).run s
      else (.ok (decoratorItems w s.analyzer.latest.classes (Text.lines content) place), s) := by
  obtain ⟨line, hline⟩ : ∃ line, (Text.lines content)[place.line]? = some line :=
    ⟨_, List.getElem?_eq_getElem hplace⟩
  rw [laterItems, getD_of_getElem? hline, ← run_firstItems_cons (run_dependsItems w s _ place),
    complete, hline]

/-- Completions in the parentheses of a dependency decorator, in a class whose name no other class
has. What is offered are the parameters of the class that searches find first around the cursor,
without the names quoted since the first decorator within reach; if there are none, the other
contexts decide. These are the parameters that the decorator leaves over exactly if its class is the
one found first and the names quoted are the same among them, or if there are none on both sides.
The names are the same if no other decorator begins above within reach. A class is found first if it
is the only one around the cursor, and never if it stands in another one. -/
theorem completions_in_decorator (w : World) (place : Cursor) {server : Server} {address : String}
    {document : Document} {first : Nat} {d : Decorator} {root n : Node} {className : String}
    {c : ParamClass} (hopen : server.documents.get? address = some document)
    (hd : InDecorator document.content place first d)
    (hparse : w.parse? document.content = some root) (hn : Innermost w.finder root place.line n)
    (hname : givenName? n = some className)
    (hunique : ((w.finder.classes root).filterMap givenName?).count className = 1)
    (hclass : (server.analyzerOf document.owner).latest.classes.named? className = some c) :
    let lines := Text.lines document.content
    let found := decoratorItems w (server.analyzerOf document.owner).latest.classes lines place
    let left := dependencyItems className d.names d.part d.opened.isSome c
    ((Server.complete w address place).run server).1 =
      (if found = [] then
        ((laterItems w server.types document.content place).run
          ⟨server.analyzerOf document.owner, server.store⟩).1
      else .ok found) ∧
    (found = left ↔
      ((classesAround w.finder root place.line).head? = some className ∧
        ∀ name ∈ c.parameterNames, name ≠ "name" → continues d.part name = true →
          (name ∈ quotedInDepends lines place ↔ name ∈ d.names)) ∨
      (found = [] ∧ left = [])) ∧
    ((∀ number ∈ decoratorLines lines place, number < first →
        dependsEnd? (lines.getD number "") = none) → quotedInDepends lines place = d.names) ∧
    ((∀ m ∈ w.finder.classes root, Around place.line m → m = n) →
      (classesAround w.finder root place.line).head? = some className) ∧
    ∀ m ∈ w.finder.classes root, Around place.line m → (givenName? m).isSome = true →
      n ∈ classesIn w.finder m →
        (classesAround w.finder root place.line).head? ≠ some className := by
  intro lines found left
  have hfound : found = ((classesAround w.finder root place.line).head?.bind fun name =>
      ((server.analyzerOf document.owner).latest.classes.named? name).map
        (dependencyItems name (quotedInDepends lines place) d.part d.opened.isSome)).getD [] :=
    hd.decoratorItems_eq hparse
  refine ⟨?_, ?_, hd.quotedInDepends_eq, head?_classesAround_of_only hn.found hn.around hname,
    fun m hm haround hnamed hinside =>
      head?_classesAround_ne hm haround hnamed hinside hname hunique⟩
  · rw [Server.fst_run_complete hopen, run_complete_eq hd.onLine, apply_ite Prod.fst]
  constructor
  · intro heq
    by_cases hleft : left = []
    · exact .inr ⟨heq.trans hleft, hleft⟩
    · -- Some class has been found first, and its items name it.
      rw [hfound] at heq
      cases hhead : (classesAround w.finder root place.line).head? with
      | none =>
        rw [hhead] at heq
        exact absurd heq.symm hleft
      | some outer =>
        rw [hhead, Option.bind_some] at heq
        cases hnamed : (server.analyzerOf document.owner).latest.classes.named? outer with
        | none =>
          rw [hnamed] at heq
          exact absurd heq.symm hleft
        | some other =>
          rw [hnamed, Option.map_some, Option.getD_some] at heq
          obtain rfl : outer = className := eq_of_dependencyItems_eq heq hleft
          obtain rfl : other = c := Option.some.inj (hnamed.symm.trans hclass)
          exact .inl ⟨rfl, dependencyItems_eq_iff.mp heq⟩
  · rintro (⟨hhead, hagree⟩ | ⟨hnone, hleft⟩)
    · rw [hfound, hhead, Option.bind_some, hclass]
      exact dependencyItems_eq_iff.mpr hagree
    · exact hnone.trans hleft.symm

section

open Sketch

/-- A class with methods that depend on names. -/
def plotFile (methods : List Statement) : Sketch := file [classed "Plot" [rootBase] methods]

/-- A method whose decorator has this in its parentheses. -/
def dependent (inside : List Sketch) : Statement :=
  decorated (phrase .call none [(member "param" "depends").inRole .function,
    phrase .argumentList (some .arguments) (mark "(" :: inside ++ [mark ")"])])
    (function "f" ["self"] [])

/-- A decorator over two lines. -/
def wideFile : Sketch :=
  plotFile [dependent [quoted "width", mark ",", (Sketch.quoted "line_width").behind (.line 8)]]

/-- A decorator above one with nothing in its parentheses. -/
def closedFile : Sketch := plotFile [dependent [quoted "width"], dependent []]

end

/-- The decorator of the wide file, up to a place in its second quotation. -/
def plotDecorator : Decorator where
  indent := "    ".toList
  gap := []
  pieces :=
    [.quoted ⟨'"', "width".toList, rfl, by simp; decide⟩ (by decide), .mark ',' rfl,
      .mark '\n' rfl] ++ List.replicate 8 (.mark ' ' rfl)
  opened := some ⟨'"', "li".toList, rfl, by simp; decide⟩
  blank := by simp; decide

theorem completions_in_decorator_plot :
    ((Server.complete (World.sketched [(["a.py"], wideFile)]) "/a" ⟨2, 11⟩).run
      (plotServer wideFile.written)).1 =
        .ok (dependencyItems "Plot" ["width"] "li" true plotClass) := by
  let w := World.sketched [(["a.py"], wideFile)]
  have hopen : (plotServer wideFile.written).documents.get? "/a" =
      some ⟨wideFile.written, .detached⟩ := rfl
  have hd : InDecorator wideFile.written ⟨2, 11⟩ 1 plotDecorator :=
    ⟨by decide +kernel, by decide, by decide, by decide +kernel, by decide +kernel⟩
  have hparse : w.parse? wideFile.written = some wideFile.node := rfl
  have hn : Innermost .inText wideFile.node 2 (wideFile.nodeAt [0]) :=
    ⟨List.mem_singleton_self _, by decide, fun m hm => by cases hm⟩
  have hname : givenName? (wideFile.nodeAt [0]) = some "Plot" := rfl
  have hclass : ((plotServer wideFile.written).analyzerOf .detached).latest.classes.named? "Plot" =
      some plotClass := rfl
  obtain ⟨hoffered, hexact, hquoted, hfirst, -⟩ := completions_in_decorator
    w ⟨2, 11⟩ hopen hd hparse hn hname (by decide +kernel) hclass
  have hhead := hfirst fun m hm _ => List.mem_singleton.mp hm
  have hagree := hquoted fun number _ hlt => by
    obtain rfl : number = 0 := by omega
    decide +kernel
  have hfound := hexact.mpr (.inl ⟨hhead, fun name _ _ _ => by rw [hagree]⟩)
  rw [hoffered, hfound]
  decide +kernel

/-- A decorator above that is closed hides the parameter that it names. -/
theorem closed_decorator_hides_parameter :
    ((Server.complete (World.sketched [(["a.py"], closedFile)]) "/a" ⟨4, 19⟩).run
      (plotServer closedFile.written)).1 =
        .ok (dependencyItems "Plot" ["width"] "" false plotClass) ∧
    dependencyItems "Plot" ["width"] "" false plotClass ≠
      dependencyItems "Plot" [] "" false plotClass := by
  decide +kernel

end ParamLens.Editor
