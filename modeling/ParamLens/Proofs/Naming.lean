import ParamLens.Library.Matching
import ParamLens.Proofs.Marking
import ParamLens.Proofs.Reexports

/-! What the name of a base class, as it is written, can stand for. A plain name stands for the
classes of that last component, and a name with dots for the classes whose path holds its components
one after another. Both matchers say just that; the one for parameter types also takes members of
`param` for those of the module that defines the types. -/

namespace ParamLens.Text

theorem splitChars_append_separator (separator : Char) (before after : List Char) :
    splitChars separator (before ++ separator :: after) =
      splitChars separator before ++ splitChars separator after := by
  induction before with
  | nil => simp [splitChars]
  | cons c rest ih =>
    rw [List.cons_append, splitChars, splitChars, ih]
    split
    · rfl
    · cases hsplit : splitChars separator rest with
      | nil => exact absurd hsplit (splitChars_ne_nil separator rest)
      | cons piece pieces => rfl

theorem suffix_iff_splitChars {separator : Char} {cs piece : List Char} (h : separator ∉ piece) :
    separator :: piece <:+ cs ↔
      2 ≤ (splitChars separator cs).length ∧ (splitChars separator cs).getLastD [] = piece := by
  constructor
  · rintro ⟨before, rfl⟩
    have hpos := List.length_pos_iff.mpr (splitChars_ne_nil separator before)
    rw [splitChars_append_separator, splitChars_of_notMem separator h]
    refine ⟨?_, by simp⟩
    rw [List.length_append, List.length_singleton]
    omega
  · rintro ⟨hlength, hlast⟩
    obtain ⟨before, last, hsplit⟩ : ∃ before last, splitChars separator cs = before ++ [last] :=
      ⟨_, _, (List.dropLast_append_getLast (splitChars_ne_nil separator cs)).symm⟩
    rw [hsplit] at hlength hlast
    obtain rfl : last = piece := by simpa using hlast
    obtain ⟨front, next, rfl⟩ : ∃ front next, before = front ++ [next] := by
      have hne : before ≠ [] := by
        rintro rfl
        simp at hlength
      exact ⟨_, _, (List.dropLast_append_getLast hne).symm⟩
    rw [← intercalate_splitChars separator cs, hsplit, intercalate_append_cons]
    exact ⟨front.flatMap (· ++ [separator]) ++ next, by simp⟩

end ParamLens.Text

namespace ParamLens.Dotted

theorem last_eq (name : String) :
    last name = String.ofList ((Text.splitChars '.' name.toList).getLastD []) := by
  rw [last, components, Text.split, List.getLastD_eq_getLast?, List.getLastD_eq_getLast?,
    List.getLast?_map]
  cases (Text.splitChars '.' name.toList).getLast? <;> rfl

theorem length_components (name : String) :
    (components name).length = (Text.splitChars '.' name.toList).length := by
  rw [components, Text.split, List.length_map]

theorem endsWith_dot_iff {full part : String} (h : '.' ∉ part.toList) :
    Text.endsWith full ("." ++ part) = true ↔
      2 ≤ (components full).length ∧ last full = part := by
  rw [Text.endsWith, List.isSuffixOf_iff_suffix, String.toList_append,
    show ".".toList = ['.'] from rfl, List.singleton_append, Text.suffix_iff_splitChars h,
    length_components, last_eq]
  refine and_congr_right fun _ => ⟨fun hlast => ?_, fun hlast => ?_⟩
  · rw [hlast, String.ofList_toList]
  · rw [← hlast, String.toList_ofList]

theorem last_withoutLeadingDots (name : String) : last (withoutLeadingDots name) = last name := by
  rw [last_eq, last_eq, withoutLeadingDots, String.toList_ofList]
  congr 1
  induction name.toList with
  | nil => rfl
  | cons c rest ih =>
    by_cases hc : c = '.'
    · subst hc
      rw [List.dropWhile_cons_of_pos (by simp), ih, Text.splitChars, if_pos rfl]
      cases hsplit : Text.splitChars '.' rest with
      | nil => exact absurd hsplit (Text.splitChars_ne_nil '.' rest)
      | cons piece pieces => simp
    · rw [List.dropWhile_cons_of_neg (by simpa using hc)]

end ParamLens.Dotted

namespace ParamLens.Library

/-- What the name of a base class can stand for: the class of this very name; for a plain name, a
class of a module with this last component; for a name that begins with dots, such a class whose
module's path holds the components before the last one; and for another dotted name, a class whose
path holds the components. -/
inductive Denotes (base : String) : String → Prop
  | itself : Denotes base base
  | plain {full : String} (single : Dotted.isDotted base = false)
      (inModule : 2 ≤ (Dotted.components full).length) (sameLast : Dotted.last full = base) :
      Denotes base full
  | relative {full : String} (dots : Text.startsWith base "." = true)
      (inModule : 2 ≤ (Dotted.components full).length)
      (sameLast : Dotted.last full = Dotted.last base)
      (run : (Dotted.components (Dotted.withoutLeadingDots base)).dropLast <:+:
        (Dotted.components full).dropLast) : Denotes base full
  | qualified {full : String} (dotted : Dotted.isDotted base = true)
      (noDots : Text.startsWith base "." = false)
      (sameLast : Dotted.last full = Dotted.last base)
      (run : Dotted.components base <:+: Dotted.components full) : Denotes base full

/-- The search over the indexes that leave room for the parts among the first `n` of a list finds
them exactly if they stand there one after another. -/
theorem any_standsAt_iff {n : Nat} (parts path : List String) (hn : n ≤ path.length) :
    (List.range (n + 1 - parts.length)).any (standsAt parts path) = true ↔
      parts <:+: path.take n := by
  simp only [List.any_eq_true, List.mem_range, standsAt, beq_iff_eq]
  constructor
  · rintro ⟨i, hi, h⟩
    have hrun : ((path.take n).drop i).take parts.length = parts := by
      rw [List.drop_take, List.take_take, Nat.min_eq_left (by omega), h]
    rw [← hrun]
    exact (List.take_prefix _ _).isInfix.trans (List.drop_suffix _ _).isInfix
  · rintro ⟨before, after, h⟩
    have hlength := congrArg List.length h
    simp only [List.length_append, List.length_take] at hlength
    refine ⟨before.length, by omega, ?_⟩
    calc (path.drop before.length).take parts.length
        = ((path.take n).drop before.length).take parts.length := by
          rw [List.drop_take, List.take_take, Nat.min_eq_left (by omega)]
      _ = parts := by rw [← h, List.append_assoc, List.drop_left, List.take_left]

theorem getElem?_of_agreesBackFrom {parts path : List String} {i j shift : Nat}
    (hj : j + 1 = i + shift) (h : agreesBackFrom parts path i j = true) {k : Nat} (hk : k < i) :
    parts[k]? = path[k + shift]? := by
  induction i generalizing j with
  | zero => omega
  | succ i ih =>
    rw [agreesBackFrom, Bool.and_eq_true, beq_iff_eq] at h
    by_cases hlast : k = i
    · rw [hlast, h.1]
      congr 1
      omega
    · exact ih (by omega) h.2 (by omega)

/-- What the comparison from the end finds, the search over the indexes finds, too. -/
theorem suffix_of_agreesBackFrom {parts path : List String} (hle : parts.length ≤ path.length)
    (h : agreesBackFrom parts path parts.length (path.length - 1) = true) : parts <:+ path := by
  have hdrop : path.drop (path.length - parts.length) = parts := by
    apply List.ext_getElem?
    intro k
    rw [List.getElem?_drop, Nat.add_comm]
    by_cases hk : k < parts.length
    · exact (getElem?_of_agreesBackFrom (by omega) h hk).symm
    · rw [List.getElem?_eq_none (by omega), List.getElem?_eq_none (by omega)]
  rw [← hdrop]
  exact List.drop_suffix _ _
/-- The indexes end one before those of the whole path, so that the class itself is not among the
components found. A name with a single component has none before it, and these stand everywhere. -/
theorem relativeMatches_iff (base full : String) :
    relativeMatches base full = true ↔
      2 ≤ (Dotted.components full).length ∧ Dotted.last full = Dotted.last base ∧
        (Dotted.components (Dotted.withoutLeadingDots base)).dropLast <:+:
          (Dotted.components full).dropLast := by
  have hlast : (Dotted.components (Dotted.withoutLeadingDots base)).getLastD "" =
      Dotted.last base := Dotted.last_withoutLeadingDots base
  simp only [relativeMatches, hlast, Bool.and_eq_true, Bool.or_eq_true, decide_eq_true_eq,
    Dotted.endsWith_dot_iff (Dotted.dot_notMem_last base), and_assoc]
  refine and_congr_right fun hfull => and_congr_right fun _ => ?_
  generalize Dotted.components (Dotted.withoutLeadingDots base) = parts
  generalize Dotted.components full = path at hfull ⊢
  by_cases hsingle : parts.length ≤ 1
  · have hnone : parts.dropLast = [] := by
      rw [← List.length_eq_zero_iff, List.length_dropLast]
      omega
    simp [hsingle, hnone]
  · have hrange : path.length + 1 - parts.length =
        path.length - 1 + 1 - parts.dropLast.length := by
      rw [List.length_dropLast]
      omega
    rw [or_iff_right hsingle, hrange, any_standsAt_iff parts.dropLast path (by omega),
      ← List.dropLast_eq_take]

theorem qualifiedMatches_iff (base full : String) :
    qualifiedMatches base full = true ↔
      Dotted.last full = Dotted.last base ∧ Dotted.components base <:+: Dotted.components full := by
  simp only [qualifiedMatches, Bool.and_eq_true, Bool.or_eq_true, beq_iff_eq, decide_eq_true_eq,
    and_assoc, any_standsAt_iff _ _ le_rfl, List.take_length]
  refine and_congr_right fun _ => ⟨?_, fun hrun => ⟨hrun.length_le, .inr hrun⟩⟩
  rintro ⟨hle, hagree | hrun⟩
  · exact (suffix_of_agreesBackFrom hle hagree).isInfix
  · exact hrun

theorem isDotted_of_startsWith {base : String} (h : Text.startsWith base "." = true) :
    Dotted.isDotted base = true := by
  obtain ⟨rest, hrest⟩ := List.isPrefixOf_iff_prefix.mp h
  simp [Dotted.isDotted, ← hrest]

theorem denotes_iff (base full : String) :
    Denotes base full ↔ full = base ∨ writtenMatches base full = true := by
  constructor
  · intro h
    cases h with
    | itself => exact .inl rfl
    | plain single inModule sameLast =>
      right
      have hdot : '.' ∉ base.toList := by simpa [Dotted.isDotted] using single
      rw [writtenMatches, if_pos (by simp [single]), Dotted.endsWith_dot_iff hdot]
      exact ⟨inModule, sameLast⟩
    | relative dots inModule sameLast run =>
      right
      rw [writtenMatches, if_neg (by simp [isDotted_of_startsWith dots]), if_pos dots,
        relativeMatches_iff]
      exact ⟨inModule, sameLast, run⟩
    | qualified dotted noDots sameLast run =>
      right
      rw [writtenMatches, if_neg (by simp [dotted]), if_neg (by simp [noDots]),
        qualifiedMatches_iff]
      exact ⟨sameLast, run⟩
  · rintro (rfl | h)
    · exact .itself
    · rw [writtenMatches] at h
      split at h
      · next single =>
        have hdot : '.' ∉ base.toList := by simpa [Dotted.isDotted] using single
        rw [Dotted.endsWith_dot_iff hdot] at h
        exact .plain (by simpa using single) h.1 h.2
      · next dotted =>
        split at h
        · next dots =>
          obtain ⟨inModule, sameLast, run⟩ := (relativeMatches_iff base full).mp h
          exact .relative dots inModule sameLast run
        · next noDots =>
          obtain ⟨sameLast, run⟩ := (qualifiedMatches_iff base full).mp h
          exact .qualified (by simpa using dotted) (by simpa using noDots) sameLast run

theorem matchesParameterized_iff (known : List String) (base : String) :
    matchesParameterized known base = true ↔ ∃ full ∈ known, Denotes base full := by
  simp only [matchesParameterized, Bool.or_eq_true, List.contains_iff_mem, List.any_eq_true,
    denotes_iff, and_or_left, exists_or, exists_eq_right]

theorem matchesParameter_iff (known : List String) (base : String) :
    matchesParameter known base = true ↔
      matchesParameterized known base = true ∨
        isShorthand base = true ∧ canonicalType base ∈ known := by
  simp only [matchesParameter, matchesParameterized, Bool.or_eq_true, Bool.and_eq_true,
    List.contains_iff_mem]
  tauto

/-- For every name of a base class, both matchers find what the name can stand for among the known
names, and more of these never lose a match. The matcher for parameter types differs from the other
one by the members of `param` alone. -/
theorem matchers_denote :
    (∀ known base, matchesParameterized known base = true ↔ ∃ full ∈ known, Denotes base full) ∧
    (∀ known base, matchesParameter known base = true ↔
      matchesParameterized known base = true ∨
        Text.startsWith base "param." = true ∧ Text.startsWith base "param.parameters." = false ∧
          "param.parameters." ++ Dotted.last base ∈ known) ∧
    ∀ known more base, known ⊆ more →
      (matchesParameterized known base = true → matchesParameterized more base = true) ∧
        (matchesParameter known base = true → matchesParameter more base = true) := by
  refine ⟨matchesParameterized_iff, fun known base => ?_, fun known more base hsub => ⟨?_, ?_⟩⟩
  · rw [matchesParameter_iff, isShorthand, canonicalType, Bool.and_eq_true, Bool.not_eq_true',
      and_assoc]
  · exact monotone_matchesParameterized known more base hsub
  · exact monotone_matchesParameter known more base hsub

/-- A relative name stands for a class of a module below the one that it names, also among more
classes; and a member of `param` stands for a parameter type, but not for a class. -/
theorem matchers_denote_feed :
    Denotes "..layout.Feed" "panel.layout.feed.Feed" ∧
      matchesParameterized ["panel.viewable.Viewer", "panel.layout.feed.Feed"]
        "..layout.Feed" = true ∧
      matchesParameter ["param.parameters.List"] "param.List" = true ∧
      matchesParameterized ["param.parameters.List"] "param.List" = false := by
  obtain ⟨hdenotes, hshort, hmono⟩ := matchers_denote
  have hfeed : Denotes "..layout.Feed" "panel.layout.feed.Feed" :=
    .relative (by decide) (by decide +kernel) (by decide +kernel) (by decide +kernel)
  have hone : matchesParameterized ["panel.layout.feed.Feed"] "..layout.Feed" = true :=
    (hdenotes _ _).mpr ⟨_, List.mem_singleton_self _, hfeed⟩
  refine ⟨hfeed, (hmono _ _ _ (List.subset_cons_self _ _)).1 hone, ?_, by decide +kernel⟩
  exact (hshort _ _).mpr (.inr ⟨by decide, by decide, by decide +kernel⟩)

end ParamLens.Library
