/-! Texts as sequences of code points: slices that clip at the end, pieces between separators,
and tests on the ends and the inside of a text. -/

namespace ParamLens.Text

/-- The first `n` characters, fewer if the text is shorter. -/
def take (s : String) (n : Nat) : String := String.ofList (s.toList.take n)

/-- What follows the first `n` characters. -/
def drop (s : String) (n : Nat) : String := String.ofList (s.toList.drop n)

/-- The characters from index `start` up to index `stop`. -/
def slice (s : String) (start stop : Nat) : String :=
  String.ofList ((s.toList.take stop).drop start)

@[simp] theorem toList_take (s : String) (n : Nat) : (take s n).toList = s.toList.take n := by
  simp [take]

@[simp] theorem toList_drop (s : String) (n : Nat) : (drop s n).toList = s.toList.drop n := by
  simp [drop]

/-- The number of characters. -/
def length (s : String) : Nat := s.toList.length

/-- `s` begins with `start`. -/
def startsWith (s start : String) : Bool := start.toList.isPrefixOf s.toList

/-- `s` ends with `ending`. -/
def endsWith (s ending : String) : Bool := ending.toList.isSuffixOf s.toList

/-- The characters `part` stand somewhere in the given ones, without a gap. -/
def hasInside (part : List Char) : List Char → Bool
  | [] => part.isEmpty
  | c :: rest => part.isPrefixOf (c :: rest) || hasInside part rest

/-- `part` stands somewhere in `s`. -/
def contains (s part : String) : Bool := hasInside part.toList s.toList

/-- The pieces between the separators: one more piece than there are separators. -/
def splitChars (separator : Char) : List Char → List (List Char)
  | [] => [[]]
  | c :: rest =>
    if c = separator then [] :: splitChars separator rest
    else match splitChars separator rest with
      | [] => [[c]]
      | piece :: pieces => (c :: piece) :: pieces

theorem splitChars_ne_nil (separator : Char) (cs : List Char) : splitChars separator cs ≠ [] := by
  cases cs with
  | nil => simp [splitChars]
  | cons c rest =>
    simp only [splitChars]
    split
    · simp
    · split <;> simp

/-- The pieces of a text between the separators. -/
def split (separator : Char) (s : String) : List String :=
  (splitChars separator s.toList).map String.ofList

/-- The pieces put together with the separator between them. -/
def join (separator : String) (pieces : List String) : String := separator.intercalate pieces

/-- The lines of a text: what stands between its line ends. -/
def lines (s : String) : List String := split '\n' s

/-- Lines put together to a text. -/
def unlines (ls : List String) : String := join "\n" ls

/-- How often a character occurs. -/
def count (s : String) (c : Char) : Nat := s.toList.count c

/-- The text with every occurrence of the character left out. -/
def without (s : String) (c : Char) : String := String.ofList (s.toList.filter (· != c))

/-- The text padded at its start to at least `width` characters. -/
def padStart (s : String) (fill : Char) (width : Nat) : String :=
  String.ofList (List.replicate (width - length s) fill ++ s.toList)

end ParamLens.Text
