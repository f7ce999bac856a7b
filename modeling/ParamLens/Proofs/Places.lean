import Mathlib.Data.List.Induction
import ParamLens.Proofs.Splicing
import ParamLens.Syntax.Outline

/-! Places in a text. A place counts line ends and then bytes. The main statement cuts a text into
the part before a node, the node and the rest, and says where the two cuts lie: on the line with the
number that is the row, behind as many bytes of it as the column tells. -/

namespace ParamLens.Text

theorem splitChars_append {separator : Char} {xs ys piece first : List Char}
    {before rest : List (List Char)} (hx : splitChars separator xs = before ++ [piece])
    (hy : splitChars separator ys = first :: rest) :
    splitChars separator (xs ++ ys) = before ++ (piece ++ first) :: rest := by
  induction xs generalizing before piece with
  | nil =>
    cases before with
    | nil =>
      obtain rfl : piece = [] := by simpa [splitChars] using hx.symm
      exact hy
    | cons head others => simp [splitChars] at hx
  | cons c xs ih =>
    by_cases hc : c = separator
    · simp only [splitChars, if_pos hc] at hx
      cases before with
      | nil =>
        have hnil : splitChars separator xs = [] := by simpa using (List.cons.inj hx).2
        exact absurd hnil (splitChars_ne_nil separator xs)
      | cons head others =>
        obtain ⟨rfl, htail⟩ := List.cons.inj hx
        simp only [List.cons_append, splitChars, if_pos hc]
        rw [ih htail]
    · simp only [splitChars, if_neg hc] at hx
      cases hsplit : splitChars separator xs with
      | nil => exact absurd hsplit (splitChars_ne_nil separator xs)
      | cons head others =>
        rw [hsplit] at hx
        cases before with
        | nil =>
          obtain ⟨rfl, rfl⟩ : c :: head = piece ∧ others = [] := by simpa using hx
          have hrest := ih (show splitChars separator xs = [] ++ [head] from hsplit)
          simp only [List.cons_append, List.nil_append, splitChars, if_neg hc] at hrest ⊢
          rw [hrest]
        | cons line lines =>
          obtain ⟨rfl, rfl⟩ := List.cons.inj hx
          have hrest := ih (show splitChars separator xs = (head :: lines) ++ [piece] from hsplit)
          simp only [List.cons_append, splitChars, if_neg hc] at hrest ⊢
          rw [hrest]

theorem exists_splitChars_eq (separator : Char) (cs : List Char) :
    ∃ before piece, splitChars separator cs = before ++ [piece] ∧
      before.length = cs.count separator := by
  have hne := splitChars_ne_nil separator cs
  refine ⟨_, _, (List.dropLast_concat_getLast hne).symm, ?_⟩
  rw [List.length_dropLast, length_splitChars, Nat.add_sub_cancel]

/-! ### Bytes of characters -/

/-- The bytes of characters. -/
def encoded (cs : List Char) : List UInt8 := cs.flatMap String.utf8EncodeChar

/-- The number of bytes of characters. -/
def size (cs : List Char) : Nat := (encoded cs).length

@[simp] theorem encoded_append (xs ys : List Char) :
    encoded (xs ++ ys) = encoded xs ++ encoded ys :=
  List.flatMap_append

theorem size_append (xs ys : List Char) : size (xs ++ ys) = size xs + size ys := by
  simp [size]

theorem size_cons (c : Char) (cs : List Char) : size (c :: cs) = c.utf8Size + size cs := by
  simp [size, encoded]

theorem ten_notMem_utf8EncodeChar {c : Char} (h : c ≠ '\n') : 10 ∉ String.utf8EncodeChar c := by
  have hval : c.val.toNat ≠ 10 := fun h10 => h (Char.ext (UInt32.toNat_inj.mp h10))
  have hbyte {n : Nat} (hn : n % 256 ≠ 10) : (10 : UInt8) ≠ UInt8.ofNat n := by
    intro heq
    have := congrArg UInt8.toNat heq
    simp at this
    omega
  unfold String.utf8EncodeChar
  simp only []
  split
  · simp only [List.mem_singleton]
    exact hbyte (by omega)
  · split
    · simp only [List.mem_cons, List.not_mem_nil, or_false, not_or]
      exact ⟨hbyte (by omega), hbyte (by omega)⟩
    · split
      · simp only [List.mem_cons, List.not_mem_nil, or_false, not_or]
        exact ⟨hbyte (by omega), hbyte (by omega), hbyte (by omega)⟩
      · simp only [List.mem_cons, List.not_mem_nil, or_false, not_or]
        exact ⟨hbyte (by omega), hbyte (by omega), hbyte (by omega), hbyte (by omega)⟩

/-- All characters of the text take one byte. -/
def IsAscii (s : String) : Prop := ∀ c ∈ s.toList, c.utf8Size = 1

instance (s : String) : Decidable (IsAscii s) := List.decidableBAll _ s.toList

theorem size_eq_length_iff (cs : List Char) :
    size cs = cs.length ↔ ∀ c ∈ cs, c.utf8Size = 1 := by
  have hle (cs : List Char) : cs.length ≤ size cs := by
    induction cs with
    | nil => exact Nat.zero_le _
    | cons c rest ih =>
      rw [size_cons, List.length_cons]
      have := c.utf8Size_pos
      omega
  induction cs with
  | nil => simp [size, encoded]
  | cons c rest ih =>
    rw [size_cons, List.length_cons, List.forall_mem_cons]
    have hpos := c.utf8Size_pos
    have hrest := hle rest
    constructor
    · intro h
      exact ⟨by omega, ih.mp (by omega)⟩
    · rintro ⟨hc, hall⟩
      have := ih.mpr hall
      omega

theorem toList_eq_data (bytes : ByteArray) : bytes.toList = bytes.data.toList := by
  have hloop : ∀ k i read, bytes.size - i = k →
      ByteArray.toList.loop bytes i read = read.reverse ++ bytes.data.toList.drop i := by
    intro k
    induction k with
    | zero =>
      intro i read hk
      have hi : bytes.data.toList.length ≤ i := by
        rw [Array.length_toList]
        exact Nat.sub_eq_zero_iff_le.mp hk
      rw [ByteArray.toList.loop, if_neg (by omega), List.drop_eq_nil_of_le hi, List.append_nil]
    | succ k ih =>
      intro i read hk
      have hi : i < bytes.size := by omega
      have hget : bytes.get! i = bytes.data.toList[i] := getElem!_pos bytes.data i hi
      rw [ByteArray.toList.loop, if_pos hi, ih (i + 1) _ (by omega), hget, List.reverse_cons,
        List.append_assoc, List.singleton_append, ← List.drop_eq_getElem_cons]
  exact hloop _ 0 [] rfl

theorem toByteArray_toList (s : String) : s.toByteArray.toList = encoded s.toList := by
  rw [toList_eq_data, ← String.utf8Encode_toList, List.utf8Encode, List.toList_data_toByteArray]
  rfl

theorem size_toList (s : String) : size s.toList = s.utf8ByteSize := by
  rw [size, ← toByteArray_toList, toList_eq_data]
  rfl

end ParamLens.Text

namespace ParamLens.Syntax

open Text

/-! ### The place of an offset -/

/-- The place after some bytes. -/
def Point.advance (p : Point) (bytes : List UInt8) : Point :=
  bytes.foldl (fun p b => if b = 10 then ⟨p.row + 1, 0⟩ else ⟨p.row, p.column + 1⟩) p

theorem getElem?_placesFrom (p : Point) {bytes : List UInt8} {offset : Nat}
    (h : offset ≤ bytes.length) :
    (placesFrom p bytes)[offset]? = some (p.advance (bytes.take offset)) := by
  induction bytes generalizing p offset with
  | nil =>
    obtain rfl : offset = 0 := Nat.le_zero.mp h
    rfl
  | cons b rest ih =>
    cases offset with
    | zero => rfl
    | succ offset =>
      rw [placesFrom, List.getElem?_cons_succ, ih _ (Nat.le_of_succ_le_succ h)]
      rfl

theorem place_ofText {s : String} {offset : Nat} (h : offset ≤ s.utf8ByteSize) :
    (Source.ofText s).place offset =
      Point.advance ⟨0, 0⟩ ((encoded s.toList).take offset) := by
  have hsize : offset ≤ (encoded s.toList).length := by rwa [← size_toList] at h
  rw [Source.place, Source.ofText, List.getElem?_toArray, toByteArray_toList,
    getElem?_placesFrom _ hsize, Option.getD_some]

theorem advance_of_ten_notMem (p : Point) {bytes : List UInt8} (h : 10 ∉ bytes) :
    p.advance bytes = ⟨p.row, p.column + bytes.length⟩ := by
  induction bytes generalizing p with
  | nil => rfl
  | cons b rest ih =>
    rw [List.mem_cons, not_or] at h
    show Point.advance (if b = 10 then _ else _) rest = _
    rw [if_neg (Ne.symm h.1), ih _ h.2, List.length_cons, Nat.add_right_comm, Nat.add_assoc]

theorem advance_encoded {cs piece : List Char} {before : List (List Char)}
    (h : splitChars '\n' cs = before ++ [piece]) :
    Point.advance ⟨0, 0⟩ (encoded cs) = ⟨before.length, size piece⟩ := by
  induction cs using List.reverseRecOn generalizing before piece with
  | nil =>
    cases before with
    | nil =>
      obtain rfl : piece = [] := by simpa [splitChars] using h.symm
      rfl
    | cons head others => simp [splitChars] at h
  | append_singleton cs c ih =>
    obtain ⟨lines, last, hlines, -⟩ := exists_splitChars_eq '\n' cs
    rw [encoded_append, Point.advance, List.foldl_append]
    show Point.advance (Point.advance ⟨0, 0⟩ (encoded cs)) (encoded [c]) = _
    rw [ih hlines]
    by_cases hc : c = '\n'
    · subst hc
      have hbreak : splitChars '\n' ['\n'] = [] :: [[]] := by decide
      rw [splitChars_append hlines hbreak] at h
      have hlast : (lines ++ [last]) ++ [[]] = before ++ [piece] := by simpa using h
      obtain ⟨hbefore, hpiece⟩ := List.append_inj' hlast rfl
      obtain rfl : piece = [] := by simpa using hpiece.symm
      rw [← hbefore, List.length_append]
      rfl
    · have hsingle : splitChars '\n' [c] = [c] :: [] := by simp [splitChars, hc]
      rw [splitChars_append hlines hsingle] at h
      obtain ⟨rfl, hpiece⟩ := List.append_inj' h rfl
      obtain rfl : last ++ [c] = piece := by simpa using hpiece
      have hencoded : encoded [c] = String.utf8EncodeChar c := by simp [encoded]
      rw [hencoded, advance_of_ten_notMem _ (ten_notMem_utf8EncodeChar hc), size_append, size,
        size, hencoded]

theorem slice_ofText (a b c : String) :
    (Source.ofText (a ++ b ++ c)).slice a.utf8ByteSize (a ++ b).utf8ByteSize = b := by
  have hextract : (a ++ b ++ c).toByteArray.extract a.utf8ByteSize (a ++ b).utf8ByteSize =
      b.toByteArray := by
    have hstart := ByteArray.extract_append_size_add (a := a.toByteArray)
      (b := b.toByteArray ++ c.toByteArray) (i := 0) (j := b.toByteArray.size)
    rw [ByteArray.extract_append_eq_left rfl] at hstart
    rw [String.append_assoc, String.toByteArray_append, String.toByteArray_append,
      String.utf8ByteSize_append]
    exact hstart
  rw [Source.slice, Source.ofText, hextract, String.fromUTF8?, dif_pos b.isValidUTF8]
  rfl

/-! ### Outlines -/

mutual

/-- The outline and all outlines below it. -/
def Outline.parts : Outline → List Outline
  | ⟨kind, start, stop, role, children⟩ =>
    ⟨kind, start, stop, role, children⟩ :: Outline.partsOfAll children

/-- All outlines of several ones. -/
def Outline.partsOfAll : List Outline → List Outline
  | [] => []
  | child :: rest => child.parts ++ Outline.partsOfAll rest

end

/-- The offsets of the outline cut the text between characters. -/
def Outline.Cuts (content : String) (o : Outline) : Prop :=
  ∃ a b c : String, content = a ++ b ++ c ∧ o.start = a.utf8ByteSize ∧
    o.stop = (a ++ b).utf8ByteSize

theorem take_eq_append_drop {cs : List Char} {i j : Nat} (h : i ≤ j) :
    cs.take j = cs.take i ++ (cs.take j).drop i := by
  conv_lhs => rw [← List.take_append_drop i (cs.take j), List.take_take, Nat.min_eq_left h]

theorem size_take_lt {cs : List Char} {i j : Nat} (h : i < j) (hj : j ≤ cs.length) :
    size (cs.take i) < size (cs.take j) := by
  have hpos : 0 < size ((cs.take j).drop i) := by
    cases hdrop : (cs.take j).drop i with
    | nil =>
      have := List.drop_eq_nil_iff.mp hdrop
      rw [List.length_take] at this
      omega
    | cons c rest =>
      rw [size_cons]
      have := c.utf8Size_pos
      omega
  rw [take_eq_append_drop (Nat.le_of_lt h), size_append]
  omega

/-- The offsets are those of two places between characters, the earlier one first. -/
theorem Outline.cuts_iff {content : String} {o : Outline} :
    o.Cuts content ↔ o.start ≤ o.stop ∧
      o.start ∈ (List.range (content.toList.length + 1)).map (size <| content.toList.take ·) ∧
      o.stop ∈ (List.range (content.toList.length + 1)).map (size <| content.toList.take ·) := by
  simp only [List.mem_map, List.mem_range, Nat.lt_succ_iff]
  constructor
  · rintro ⟨a, b, c, rfl, hstart, hstop⟩
    rw [hstart, hstop]
    refine ⟨?_, ⟨a.toList.length, ?_, ?_⟩, ⟨(a ++ b).toList.length, ?_, ?_⟩⟩
    · rw [String.utf8ByteSize_append]
      omega
    · simp only [String.toList_append, List.length_append]
      omega
    · rw [String.append_assoc, String.toList_append, List.take_left, size_toList]
    · simp only [String.toList_append, List.length_append]
      omega
    · rw [String.toList_append (s := a ++ b), List.take_left, size_toList]
  · rintro ⟨hle, ⟨i, hi, hstart⟩, ⟨j, hj, hstop⟩⟩
    have hij : i ≤ j := by
      by_contra hlt
      have := size_take_lt (Nat.lt_of_not_le hlt) hi
      omega
    refine ⟨String.ofList (content.toList.take i),
      String.ofList ((content.toList.take j).drop i), String.ofList (content.toList.drop j),
      ?_, ?_, ?_⟩
    · refine String.toList_injective ?_
      simp only [String.toList_append, String.toList_ofList]
      rw [← take_eq_append_drop hij, List.take_append_drop]
    · rw [← size_toList, String.toList_ofList, hstart]
    · rw [← size_toList, String.toList_append, String.toList_ofList, String.toList_ofList,
        ← take_eq_append_drop hij, hstop]

instance (content : String) (o : Outline) : Decidable (o.Cuts content) :=
  decidable_of_iff' _ Outline.cuts_iff

/-- All offsets in the outline cut the text between characters, the earlier one first. -/
def Outline.Fits (content : String) (outline : Outline) : Prop :=
  ∀ o ∈ outline.parts, o.Cuts content

instance (content : String) (outline : Outline) : Decidable (outline.Fits content) :=
  inferInstanceAs (Decidable (∀ o ∈ outline.parts, _))

mutual

theorem Outline.exists_part_of_mem_walk (source : Source) : ∀ (outline : Outline) (n : Node),
    n ∈ (outline.build source).walk → ∃ o ∈ outline.parts,
      n.span = ⟨o.start, o.stop, source.place o.start, source.place o.stop⟩ ∧
      n.text = source.slice o.start o.stop
  | ⟨kind, start, stop, role, children⟩, n, h => by
    rw [Outline.build, Node.walk, List.mem_cons] at h
    rw [Outline.parts]
    rcases h with rfl | h
    · exact ⟨_, List.mem_cons_self, rfl, rfl⟩
    · obtain ⟨o, ho, hrest⟩ := Outline.exists_part_of_mem_walkAll source children n h
      exact ⟨o, List.mem_cons_of_mem _ ho, hrest⟩

theorem Outline.exists_part_of_mem_walkAll (source : Source) :
    ∀ (outlines : List Outline) (n : Node),
    n ∈ Node.walkAll (Outline.buildAll source outlines) → ∃ o ∈ Outline.partsOfAll outlines,
      n.span = ⟨o.start, o.stop, source.place o.start, source.place o.stop⟩ ∧
      n.text = source.slice o.start o.stop
  | [], n, h => by simp [Outline.buildAll, Node.walkAll] at h
  | child :: rest, n, h => by
    rw [Outline.buildAll, Node.walkAll, List.mem_append] at h
    rw [Outline.partsOfAll]
    rcases h with h | h
    · obtain ⟨o, ho, hrest⟩ := Outline.exists_part_of_mem_walk source child n h
      exact ⟨o, List.mem_append_left _ ho, hrest⟩
    · obtain ⟨o, ho, hrest⟩ := Outline.exists_part_of_mem_walkAll source rest n h
      exact ⟨o, List.mem_append_right _ ho, hrest⟩

end

/-- Where a node of a tree on one line stands in the text: its line has a part before the node, the
node's text and a part after it, and the columns count the bytes before the node and up to its
end. -/
theorem exists_line_of_mem_walk {outline : Outline} {content : String} (fits : outline.Fits content)
    {n : Node} (hn : n ∈ (outline.toNode content).walk)
    (hrow : n.span.start.row = n.span.stop.row) :
    ∃ before after : String,
      (lines content)[n.span.start.row]? = some (before ++ n.text ++ after) ∧
      n.span.start.column = before.utf8ByteSize ∧
      n.span.stop.column = (before ++ n.text).utf8ByteSize := by
  obtain ⟨o, ho, hspan, htext⟩ := Outline.exists_part_of_mem_walk _ outline n hn
  obtain ⟨a, b, c, rfl, hstart, hstop⟩ := fits o ho
  rw [hstart, hstop, slice_ofText] at htext
  -- The places of the two cuts, by the last lines of what stands before them.
  obtain ⟨linesBefore, lastBefore, hbefore, hcount⟩ := exists_splitChars_eq '\n' a.toList
  obtain ⟨linesUpTo, lastUpTo, hupTo, hcountUpTo⟩ := exists_splitChars_eq '\n' (a ++ b).toList
  have htakeStart : (encoded (a ++ b ++ c).toList).take a.utf8ByteSize = encoded a.toList := by
    rw [String.append_assoc, String.toList_append, encoded_append, ← size_toList, size,
      List.take_left]
  have htakeStop : (encoded (a ++ b ++ c).toList).take (a ++ b).utf8ByteSize =
      encoded (a ++ b).toList := by
    rw [String.toList_append, encoded_append, ← size_toList, size, List.take_left]
  have hplaceStart : n.span.start = ⟨linesBefore.length, size lastBefore⟩ := by
    rw [hspan]
    dsimp only
    rw [hstart, place_ofText (by simp only [String.utf8ByteSize_append]; omega), htakeStart,
      advance_encoded hbefore]
  have hplaceStop : n.span.stop = ⟨linesUpTo.length, size lastUpTo⟩ := by
    rw [hspan]
    dsimp only
    rw [hstop, place_ofText (by simp only [String.utf8ByteSize_append]; omega), htakeStop,
      advance_encoded hupTo]
  -- On one line, the text of the node has no line end.
  have hline : '\n' ∉ b.toList := by
    rw [hplaceStart, hplaceStop] at hrow
    rw [String.toList_append, List.count_append] at hcountUpTo
    refine List.count_eq_zero.mp ?_
    have : linesBefore.length = linesUpTo.length := hrow
    omega
  have hsame := splitChars_append hbefore (splitChars_of_notMem '\n' hline)
  rw [String.toList_append, hsame] at hupTo
  obtain ⟨-, hlast⟩ := List.append_inj' hupTo rfl
  obtain rfl : lastBefore ++ b.toList = lastUpTo := by simpa using hlast
  obtain ⟨first, rest, hc⟩ := List.exists_cons_of_ne_nil (splitChars_ne_nil '\n' c.toList)
  have hwhole : splitChars '\n' (a ++ b ++ c).toList =
      linesBefore ++ (lastBefore ++ b.toList ++ first) :: rest := by
    rw [String.toList_append, String.toList_append]
    exact splitChars_append hsame hc
  refine ⟨String.ofList lastBefore, String.ofList first, ?_, ?_, ?_⟩
  · rw [lines, split, List.getElem?_map, hwhole, hplaceStart]
    simp only [List.getElem?_append_right (Nat.le_refl _), Nat.sub_self, List.getElem?_cons_zero,
      Option.map_some, htext]
    congr 1
    refine String.toList_injective ?_
    simp
  · rw [hplaceStart, ← size_toList, String.toList_ofList]
  · rw [hplaceStop, ← size_toList, htext]
    simp

end ParamLens.Syntax
