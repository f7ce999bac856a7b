import Mathlib.Data.List.Nodup
import Mathlib.Data.List.Perm.Subperm
import ParamLens.Parameter.Basic

/-! Tables as partial functions: what an entry reads after an entry is erased, and how look-ups
speak about the names and the entries of a table. -/

namespace ParamLens.Table

variable {α β : Type}

@[simp] theorem get?_emptyCollection (name : String) : (∅ : Table α).get? name = none := rfl

theorem get?_insert (t : Table α) (name asked : String) (value : α) :
    (t.insert name value).get? asked = if asked = name then some value else t.get? asked := by
  split
  · next h => rw [h, get?_insert_self]
  · next h => exact get?_insert_ne t h value

theorem lookup_filter (keep : String → Bool) (entries : List (String × α)) (asked : String) :
    (entries.filter fun entry => keep entry.1).lookup asked =
      if keep asked then entries.lookup asked else none := by
  induction entries with
  | nil => simp
  | cons entry rest ih =>
    obtain ⟨other, value⟩ := entry
    by_cases heq : asked = other
    · subst heq
      cases hkeep : keep asked with
      | false => simpa [hkeep] using ih
      | true => simp [hkeep]
    · have hbeq : (asked == other) = false := by simpa using heq
      cases hkeep : keep other <;> simp [hkeep, hbeq, List.lookup_cons, ih]

theorem get?_filterNames (t : Table α) (keep : String → Bool) (asked : String) :
    (t.filterNames keep).get? asked = if keep asked then t.get? asked else none :=
  lookup_filter keep t.entries asked

theorem get?_of_get?_filterNames {t : Table α} {keep : String → Bool} {name : String} {value : α}
    (h : (t.filterNames keep).get? name = some value) : t.get? name = some value := by
  rw [get?_filterNames] at h
  split at h
  · exact h
  · cases h

theorem get?_eq_none_iff (t : Table α) (name : String) : t.get? name = none ↔ name ∉ t.names := by
  simp only [get?, List.lookup_eq_none_iff, names, List.mem_map, not_exists, not_and, bne_iff_ne]
  exact forall₂_congr fun entry _ => ne_comm

theorem mem_names_of_get? {t : Table α} {name : String} {value : α}
    (h : t.get? name = some value) : name ∈ t.names := by
  by_contra hn
  rw [← get?_eq_none_iff, h] at hn
  exact absurd hn (by simp)

theorem mem_names_iff {t : Table α} {name : String} :
    name ∈ t.names ↔ ∃ value, t.get? name = some value := by
  rw [← Option.isSome_iff_exists, Option.isSome_iff_ne_none, Ne, get?_eq_none_iff, not_not]

@[simp] theorem get?_erase_self (t : Table α) (name : String) :
    (t.erase name).get? name = none := by
  rw [get?_eq_none_iff]
  simp [names, erase]

theorem get?_erase_ne (t : Table α) {name asked : String} (h : asked ≠ name) :
    (t.erase name).get? asked = t.get? asked :=
  (get?_filterNames t (· != name) asked).trans (if_pos (bne_iff_ne.mpr h))

theorem get?_of_get?_erase {t : Table α} {name asked : String} {value : α}
    (h : (t.erase name).get? asked = some value) : t.get? asked = some value := by
  have hkept : (t.filterNames (· != name)).get? asked = some value := h
  exact get?_of_get?_filterNames hkept

theorem isEmpty_eq_false_iff (t : Table α) :
    t.isEmpty = false ↔ ∃ name value, t.get? name = some value := by
  obtain ⟨entries, distinct⟩ := t
  cases entries with
  | nil => simp [isEmpty, get?]
  | cons entry rest =>
    simp only [isEmpty, List.isEmpty_cons, true_iff]
    obtain ⟨name, value⟩ := entry
    exact ⟨name, value, by simp [get?]⟩

theorem length_le_size (t : Table α) {asked : List String} (distinct : asked.Nodup)
    (known : ∀ name ∈ asked, name ∈ t.names) : asked.length ≤ t.size := by
  have h := (List.subperm_of_subset distinct known).length_le
  simpa [names, size] using h

theorem contains_eq_isSome (t : Table α) (name : String) :
    t.contains name = (t.get? name).isSome := by
  rw [Bool.eq_iff_iff, contains, List.any_eq_true, Option.isSome_iff_ne_none, Ne,
    get?_eq_none_iff, not_not, names, List.mem_map]
  simp only [beq_iff_eq]

theorem contains_insert (t : Table α) (name asked : String) (value : α) :
    (t.insert name value).contains asked = true ↔ t.contains asked = true ∨ name = asked := by
  rw [contains_eq_isSome, contains_eq_isSome, get?_insert]
  split
  · next h => simp [h]
  · next h => simp [Ne.symm h]

theorem mem_names_of_contains {t : Table α} {name : String} (h : t.contains name = true) :
    name ∈ t.names := by
  rw [contains_eq_isSome, Option.isSome_iff_exists] at h
  obtain ⟨value, hvalue⟩ := h
  exact mem_names_of_get? hvalue

theorem mem_names_of_findName? {t : Table α} {test : String → Bool} {entry : String × α}
    (h : t.findName? test = some entry) : entry.1 ∈ t.names :=
  List.mem_map_of_mem (List.mem_of_find?_eq_some h)

/-! ### Entries -/

theorem find?_put_of_not {test : String → Bool} {name : String} (h : test name = false) (value : α)
    (entries : List (String × α)) :
    (put name value entries).find? (fun entry => test entry.1) =
      entries.find? (fun entry => test entry.1) := by
  induction entries with
  | nil => simp [put, h]
  | cons entry rest ih =>
    by_cases hname : entry.1 = name
    · simp [put, hname, h]
    · rw [put, if_neg hname, List.find?_cons, List.find?_cons, ih]

theorem findName?_insert_of_not {test : String → Bool} {name : String} (h : test name = false)
    {t : Table α} {value : α} : (t.insert name value).findName? test = t.findName? test :=
  find?_put_of_not h value t.entries

theorem mem_entries_of_get? {t : Table α} {name : String} {value : α}
    (h : t.get? name = some value) : (name, value) ∈ t.entries := by
  obtain ⟨before, after, hsplit, -⟩ := List.lookup_eq_some_iff.mp h
  rw [hsplit]
  simp

theorem get?_of_mem_entries {t : Table α} {name : String} {value : α}
    (h : (name, value) ∈ t.entries) : t.get? name = some value := by
  cases hget : t.get? name with
  | none =>
    rw [get?_eq_none_iff] at hget
    exact absurd (List.mem_map_of_mem h) hget
  | some other =>
    have hother := mem_entries_of_get? hget
    have heq : (name, value) = (name, other) := List.inj_on_of_nodup_map t.distinct h hother rfl
    rw [(Prod.mk.inj heq).2]

theorem mem_of_get?_update {t : Table α} {written : List (String × α)} {name : String} {value : α}
    (h : (t.update written).get? name = some value) :
    (name, value) ∈ written ∨ t.get? name = some value := by
  induction written generalizing t with
  | nil => exact .inr h
  | cons entry rest ih =>
    rcases ih h with hrest | hfirst
    · exact .inl (List.mem_cons_of_mem _ hrest)
    · rw [get?_insert] at hfirst
      split at hfirst
      · next heq => exact .inl (by simp [heq, ← Option.some.inj hfirst])
      · exact .inr hfirst

theorem mem_of_get?_ofList {entries : List (String × α)} {name : String} {value : α}
    (h : (ofList entries).get? name = some value) : (name, value) ∈ entries :=
  (mem_of_get?_update h).resolve_right (by simp)

theorem contains_update (t : Table α) (written : List (String × α)) (name : String) :
    (t.update written).contains name = true ↔
      name ∈ written.map Prod.fst ∨ t.contains name = true := by
  induction written generalizing t with
  | nil => simp [update]
  | cons entry rest ih =>
    show ((t.insert entry.1 entry.2).update rest).contains name = true ↔ _
    rw [ih, contains_insert, List.map_cons, List.mem_cons, eq_comm (a := entry.1)]
    tauto

theorem contains_ofList (entries : List (String × α)) (name : String) :
    (ofList entries).contains name = true ↔ name ∈ entries.map Prod.fst :=
  (contains_update empty entries name).trans (by simp [contains])

theorem size_erase_lt {t : Table α} {name : String} {value : α} (h : t.get? name = some value) :
    (t.erase name).size < t.size :=
  List.length_filter_lt_length_iff_exists.mpr ⟨(name, value), mem_entries_of_get? h, by simp⟩

theorem get?_mapEntries (t : Table α) (f : String → α → β) (name : String) :
    (t.mapEntries f).get? name = (t.get? name).map (f name) := by
  show (t.entries.map fun entry => (entry.1, f entry.1 entry.2)).lookup name =
    (t.entries.lookup name).map (f name)
  induction t.entries with
  | nil => rfl
  | cons entry rest ih =>
    rw [List.map_cons, List.lookup_cons, List.lookup_cons, ih]
    cases hname : name == entry.1 with
    | true => rw [eq_of_beq hname]; rfl
    | false => rfl

theorem put_of_notMem {name : String} {entries : List (String × α)}
    (h : name ∉ entries.map Prod.fst) (value : α) :
    put name value entries = entries ++ [(name, value)] := by
  induction entries with
  | nil => rfl
  | cons entry rest ih =>
    rw [List.map_cons, List.mem_cons, not_or] at h
    rw [put, if_neg (Ne.symm h.1), ih h.2, List.cons_append]

theorem entries_insert_of_not_contains {t : Table α} {name : String} (h : t.contains name = false)
    (value : α) : (t.insert name value).entries = t.entries ++ [(name, value)] := by
  refine put_of_notMem ?_ value
  rw [contains_eq_isSome, Option.isSome_eq_false_iff, Option.isNone_iff_eq_none,
    get?_eq_none_iff] at h
  exact h

theorem entries_fill_of_nodup {t : Table α} {other : List (String × α)}
    (h : ((t.entries ++ other).map Prod.fst).Nodup) :
    (t.fill other).entries = t.entries ++ other := by
  induction other generalizing t with
  | nil => rw [List.append_nil]; rfl
  | cons entry rest ih =>
    have hnew : t.contains entry.1 = false := by
      rw [contains_eq_isSome, Option.isSome_eq_false_iff, Option.isNone_iff_eq_none,
        get?_eq_none_iff]
      intro hmem
      rw [List.map_append, List.map_cons] at h
      exact (List.nodup_append.mp h).2.2 _ hmem _ List.mem_cons_self rfl
    have hentries : (t.insert entry.1 entry.2).entries = t.entries ++ [entry] :=
      entries_insert_of_not_contains hnew entry.2
    show ((if t.contains entry.1 then t else t.insert entry.1 entry.2).fill rest).entries = _
    rw [if_neg (by rw [hnew]; exact Bool.false_ne_true), ih, hentries, List.append_assoc,
      List.singleton_append]
    rwa [hentries, List.append_assoc, List.singleton_append]

theorem fill_empty_entries (t : Table α) : (∅ : Table α).fill t.entries = t := by
  have hentries : ((∅ : Table α).fill t.entries).entries = t.entries :=
    entries_fill_of_nodup t.distinct
  generalize (∅ : Table α).fill t.entries = filled at hentries
  cases filled
  cases t
  congr

theorem get?_fill (t other : Table α) (name : String) :
    (t.fill other.entries).get? name = (t.get? name).or (other.get? name) := by
  have hlist (entries : List (String × α)) (t : Table α) :
      (t.fill entries).get? name = (t.get? name).or (entries.lookup name) := by
    induction entries generalizing t with
    | nil => exact Option.or_none.symm
    | cons entry rest ih =>
      show ((if t.contains entry.1 then t else t.insert entry.1 entry.2).fill rest).get? name = _
      rw [ih, List.lookup_cons, contains_eq_isSome]
      by_cases heq : name = entry.1
      · subst heq
        cases hget : t.get? entry.1 with
        | none => simp
        | some value => simp [hget]
      · have hbeq : (name == entry.1) = false := by simpa using heq
        rw [hbeq]
        split
        · rfl
        · rw [get?_insert_ne _ heq]
  exact hlist other.entries t

theorem get?_update (t other : Table α) (name : String) :
    (t.update other.entries).get? name = (other.get? name).or (t.get? name) := by
  have hlist (entries : List (String × α)) (hnodup : (entries.map Prod.fst).Nodup)
      (t : Table α) : (t.update entries).get? name = (entries.lookup name).or (t.get? name) := by
    induction entries generalizing t with
    | nil => rfl
    | cons entry rest ih =>
      rw [List.map_cons, List.nodup_cons] at hnodup
      show ((t.insert entry.1 entry.2).update rest).get? name = _
      rw [ih hnodup.2, List.lookup_cons, get?_insert]
      by_cases heq : name = entry.1
      · subst heq
        have hnone : rest.lookup entry.1 = none := by
          rw [List.lookup_eq_none_iff]
          intro other hother
          have hne : entry.1 ≠ other.1 := fun heq => hnodup.1 (heq ▸ List.mem_map_of_mem hother)
          simpa using hne
        simp [hnone]
      · have hbeq : (name == entry.1) = false := by simpa using heq
        rw [hbeq, if_neg heq]
  exact hlist other.entries other.distinct t

theorem get?_update_list (t : Table α) (entries : List (String × α)) (name : String) :
    (t.update entries).get? name = ((ofList entries).get? name).or (t.get? name) := by
  induction entries generalizing t with
  | nil => rfl
  | cons entry rest ih =>
    show ((t.insert entry.1 entry.2).update rest).get? name =
      (((∅ : Table α).insert entry.1 entry.2).update rest |>.get? name).or _
    rw [ih, ih (Table.insert ∅ _ _), get?_insert, get?_insert, Option.or_assoc]
    split <;> rfl

end ParamLens.Table

namespace ParamLens.ParamClass

theorem parameters_foldl_add (own : List Parameter) (c : ParamClass) :
    (own.foldl ParamClass.add c).parameters =
      c.parameters.update (own.map fun p => (p.name, p)) := by
  induction own generalizing c with
  | nil => rfl
  | cons p rest ih => exact ih (c.add p)

theorem get?_merge (c : ParamClass) (t : Table Parameter) (asked : String) :
    (c.merge t).parameters.get? asked = (c.parameters.get? asked).or (t.get? asked) :=
  Table.get?_fill c.parameters t asked

theorem parameters_foldl_merge (maps : List (Table Parameter)) (c : ParamClass) :
    (maps.foldl ParamClass.merge c).parameters =
      maps.foldl (fun found t => found.fill t.entries) c.parameters := by
  induction maps generalizing c with
  | nil => rfl
  | cons t rest ih => exact ih (c.merge t)

end ParamLens.ParamClass
