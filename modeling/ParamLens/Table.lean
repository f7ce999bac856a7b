/-! Tables: named entries in the order in which their names were first entered. Writing a name
again keeps its place. The main statements give what an entry reads after a write, and the names of
the table after a write. -/

namespace ParamLens

variable {α β : Type}

/-- Named entries with distinct names. -/
structure Table (α : Type) where
  entries : List (String × α)
  distinct : (entries.map Prod.fst).Nodup

namespace Table

/-- The entries after a write of `value` under `name`. -/
def put (name : String) (value : α) : List (String × α) → List (String × α)
  | [] => [(name, value)]
  | (other, old) :: rest =>
    if other = name then (name, value) :: rest else (other, old) :: put name value rest

theorem names_put (name : String) (value : α) (entries : List (String × α)) :
    (put name value entries).map Prod.fst =
      if name ∈ entries.map Prod.fst then entries.map Prod.fst
      else entries.map Prod.fst ++ [name] := by
  induction entries with
  | nil => simp [put]
  | cons entry rest ih =>
    obtain ⟨other, old⟩ := entry
    by_cases h : other = name
    · simp [put, h]
    · have h' : ¬ name = other := fun e => h e.symm
      simp only [put, if_neg h, List.map_cons, ih, List.mem_cons, h', false_or]
      split <;> simp

theorem distinct_put (name : String) (value : α) {entries : List (String × α)}
    (h : (entries.map Prod.fst).Nodup) : ((put name value entries).map Prod.fst).Nodup := by
  rw [names_put]
  split
  · exact h
  · rename_i hn
    rw [List.nodup_append]
    refine ⟨h, by simp, ?_⟩
    intro a ha b hb
    rw [List.mem_singleton] at hb
    subst hb
    intro e
    exact hn (e ▸ ha)

/-- The table without entries. -/
def empty : Table α := ⟨[], by simp⟩

instance : Inhabited (Table α) := ⟨empty⟩

instance : EmptyCollection (Table α) := ⟨empty⟩

/-- The table with `value` under `name`. -/
def insert (t : Table α) (name : String) (value : α) : Table α :=
  ⟨put name value t.entries, distinct_put name value t.distinct⟩

/-- The entry under a name. -/
def get? (t : Table α) (name : String) : Option α := t.entries.lookup name

/-- The table has an entry under the name. -/
def contains (t : Table α) (name : String) : Bool := t.entries.any (·.1 == name)

/-- The names in the order of their first entry. -/
def names (t : Table α) : List String := t.entries.map Prod.fst

/-- The values in the order of their names. -/
def values (t : Table α) : List α := t.entries.map Prod.snd

/-- The number of entries. -/
def size (t : Table α) : Nat := t.entries.length

/-- The table has no entry. -/
def isEmpty (t : Table α) : Bool := t.entries.isEmpty

/-- The table without the entry under a name. -/
def erase (t : Table α) (name : String) : Table α :=
  ⟨t.entries.filter (·.1 != name),
    t.distinct.sublist (List.filter_sublist.map Prod.fst)⟩

/-- The table with the entries whose name satisfies the test. -/
def filterNames (t : Table α) (keep : String → Bool) : Table α :=
  ⟨t.entries.filter fun entry => keep entry.1,
    t.distinct.sublist (List.filter_sublist.map Prod.fst)⟩

/-- The table with each value replaced by a function of its name and itself. -/
def mapEntries (t : Table α) (f : String → α → β) : Table β :=
  ⟨t.entries.map fun entry => (entry.1, f entry.1 entry.2), by
    simpa [List.map_map, Function.comp_def] using t.distinct⟩

/-- All entries of `other` written into the table, in their order. -/
def update (t : Table α) (other : List (String × α)) : Table α :=
  other.foldl (fun acc entry => acc.insert entry.1 entry.2) t

/-- The entries of `other` whose names are new written into the table, in their order. -/
def fill (t : Table α) (other : List (String × α)) : Table α :=
  other.foldl (fun acc entry => if acc.contains entry.1 then acc else acc.insert entry.1 entry.2) t

/-- The table of a list of entries; of two with the same name the later one counts, at the place of
the earlier one. -/
def ofList (entries : List (String × α)) : Table α := update empty entries

/-- The first entry whose name satisfies the test. -/
def findName? (t : Table α) (test : String → Bool) : Option (String × α) :=
  t.entries.find? fun entry => test entry.1

@[simp] theorem entries_empty : (empty : Table α).entries = [] := rfl

@[simp] theorem get?_empty (name : String) : (empty : Table α).get? name = none := rfl

theorem lookup_put_self (name : String) (value : α) (entries : List (String × α)) :
    (put name value entries).lookup name = some value := by
  induction entries with
  | nil => simp [put]
  | cons entry rest ih =>
    obtain ⟨other, old⟩ := entry
    by_cases h : other = name
    · simp [put, h]
    · have h' : (name == other) = false := by simpa using fun e => h e.symm
      simp [put, h, List.lookup_cons, h', ih]

theorem lookup_put_ne {name asked : String} (h : asked ≠ name) (value : α)
    (entries : List (String × α)) :
    (put name value entries).lookup asked = entries.lookup asked := by
  induction entries with
  | nil =>
    have hb : (asked == name) = false := by simpa using h
    simp [put, List.lookup_cons, hb]
  | cons entry rest ih =>
    obtain ⟨other, old⟩ := entry
    by_cases ho : other = name
    · subst ho
      have hb : (asked == other) = false := by simpa using h
      simp [put, List.lookup_cons, hb]
    · simp only [put, if_neg ho, List.lookup_cons, ih]

@[simp] theorem get?_insert_self (t : Table α) (name : String) (value : α) :
    (t.insert name value).get? name = some value :=
  lookup_put_self name value t.entries

theorem get?_insert_ne (t : Table α) {name asked : String} (h : asked ≠ name) (value : α) :
    (t.insert name value).get? asked = t.get? asked :=
  lookup_put_ne h value t.entries

/-- A write adds its name at the end, unless the name is there. -/
theorem names_insert (t : Table α) (name : String) (value : α) :
    (t.insert name value).names =
      if name ∈ t.names then t.names else t.names ++ [name] :=
  names_put name value t.entries

end Table

end ParamLens
