import ParamLens.Proofs.Stores

/-! Records of different libraries and versions in one store. Memory is kept by the text of a
version and files by its first three numbers, and the two do not mix: calls about other libraries,
or about versions with other numbers, leave the answers about a library as they are. A file that
cannot be read, or that was made for something else, counts as no file. -/

namespace ParamLens.Library

/-! ### Names of files -/

theorem split_versionText {numbers : List Nat} (ne : numbers ≠ []) :
    Text.split '_' (versionText numbers "_") = numbers.map fun n => toString n := by
  refine Text.split_join rfl (by simpa using ne) fun piece hpiece => ?_
  obtain ⟨n, -, rfl⟩ := List.mem_map.mp hpiece
  rw [Nat.toString_eq_repr, Nat.toList_repr]
  exact Nat.underscore_not_in_toDigits

theorem eq_of_toString_eq {m n : Nat} (h : toString m = toString n) : m = n := by
  have hdigits := congrArg (fun text : String => Nat.ofDigitChars 10 text.toList 0) h
  simpa only [Nat.toString_eq_repr, Nat.toList_repr, Nat.ofDigitChars_ten_toDigits] using hdigits

theorem versionText_ne_empty {numbers : List Nat} (ne : numbers ≠ []) :
    versionText numbers "_" ≠ "" := by
  intro hempty
  have hsplit := split_versionText ne
  rw [hempty] at hsplit
  obtain ⟨n, rest, rfl⟩ := List.exists_cons_of_ne_nil ne
  have hfirst : "" = toString n := (List.cons.inj hsplit).1
  have hdigits : Nat.toDigits 10 n = [] := by
    rw [← Nat.toList_repr, ← Nat.toString_eq_repr, ← hfirst]
    rfl
  exact Nat.toDigits_ne_nil hdigits

theorem eq_of_versionText_eq {a b : List Nat} (h : versionText a "_" = versionText b "_") :
    a = b := by
  by_cases ha : a = []
  · by_cases hb : b = []
    · rw [ha, hb]
    · rw [ha] at h
      exact absurd h.symm (versionText_ne_empty hb)
  · by_cases hb : b = []
    · rw [hb] at h
      exact absurd h (versionText_ne_empty ha)
    · have hpieces := congrArg (Text.split '_') h
      rw [split_versionText ha, split_versionText hb] at hpieces
      exact List.map_injective_iff.mpr (fun _ _ => eq_of_toString_eq) hpieces

namespace Store

theorem fileName_eq_iff {library library' version version' : String} :
    fileName library version = fileName library' version' ↔
      library = library' ∧ versionNumbers version = versionNumbers version' := by
  constructor
  · intro h
    obtain rfl := eq_of_fileName_eq h
    refine ⟨rfl, eq_of_versionText_eq ?_⟩
    have hchars := congrArg String.toList h
    simp only [fileName, String.toList_append] at hchars
    exact String.toList_injective
      (List.append_cancel_left (List.append_cancel_right hchars))
  · rintro ⟨rfl, hnumbers⟩
    rw [fileName, fileName, hnumbers]

theorem eq_of_key_eq_key {library version version' : String}
    (h : key library version = key library version') : version = version' := by
  have hchars := congrArg String.toList h
  simp only [key, String.toList_append] at hchars
  exact String.toList_injective (List.append_cancel_left hchars)

theorem stored?_congr (s : Store) (library : String) {version version' : String}
    (h : versionNumbers version = versionNumbers version') :
    s.stored? library version = s.stored? library version' := by
  have hname : fileName library version = fileName library version' := by
    rw [fileName, fileName, h]
  have hfor (r : Record) : r.isFor library version = r.isFor library version' := by
    rw [Record.isFor, Record.isFor, Label.current, Label.current, h]
  simp only [stored?, hname, hfor]

/-! ### Calls -/

/-- A call of the store. Clearing without the name of a library clears everything; a store that is
opened again has nothing in memory. -/
inductive Call where
  | alter (library version : String) (change : Change)
  | ask (library version : String) (query : Query)
  | flush (library version : String)
  | clear (library : String) (version : Option String)
  | reopen

namespace Call

/-- The answer to a call, if it is a question, and the store after it. -/
def step : Call → Store → Option Answer × Store
  | .alter library version change, s => (none, s.apply library version change)
  | .ask library version query, s => Prod.map some id (Store.ask library version query s)
  | .flush library version, s => (none, s.flush library version)
  | .clear library version, s =>
    (none, if library = "" then s.clear else s.clearLibrary library version)
  | .reopen, s => (none, s.reopen)

/-- The library that a call is about. -/
def library? : Call → Option String
  | .alter library _ _ | .ask library _ _ | .flush library _ | .clear library _ => some library
  | .reopen => none

/-- The library and version whose record a call reads. -/
def place? : Call → Option (String × String)
  | .alter library version _ | .ask library version _ | .flush library version =>
    some (library, version)
  | .clear _ _ | .reopen => none

/-- The call is about the library, and about the numbers of the version unless it clears the
library. -/
def concerns (library version : String) : Call → Bool
  | .alter library' version' _ | .ask library' version' _ | .flush library' version' =>
    library' == library && versionNumbers version' == versionNumbers version
  | .clear library' _ => library' == library
  | .reopen => true

end Call

/-- The calls, one after another, each with its answer. -/
def trace : Store → List Call → List (Call × Option Answer)
  | _, [] => []
  | s, call :: rest => (call, (call.step s).1) :: trace (call.step s).2 rest

/-! ### Two stores -/

theorem Agrees.keeps {library version : String} {s t : Store} (h : Agrees library version s t) :
    t.keeps version = s.keeps version := by
  rw [Store.keeps, Store.keeps, h.enabled]

/-- The stores have the same of everything that the property selects. -/
def AgreeOn (about : String → String → Prop) (s t : Store) : Prop :=
  ∀ library version, about library version → Agrees library version s t

namespace AgreeOn

variable {about : String → String → Prop} {s t : Store} {library version : String}

theorem refl (s : Store) : AgreeOn about s s := fun _ _ _ => ⟨rfl, rfl, rfl⟩

theorem trans {u : Store} (h : AgreeOn about s t) (h' : AgreeOn about t u) : AgreeOn about s u := by
  intro library version hsel
  obtain ⟨henabled, hmemory, hfile⟩ := h library version hsel
  obtain ⟨henabled', hmemory', hfile'⟩ := h' library version hsel
  exact ⟨henabled'.trans henabled, hmemory'.trans hmemory, hfile'.trans hfile⟩

theorem symm (h : AgreeOn about s t) : AgreeOn about t s := by
  intro library version hsel
  obtain ⟨henabled, hmemory, hfile⟩ := h library version hsel
  exact ⟨henabled.symm, hmemory.symm, hfile.symm⟩

theorem load (h : AgreeOn about s t) (library version : String) (r : Record) :
    AgreeOn about (s.load library version r) (t.load library version r) := by
  intro library' version' hsel
  obtain ⟨henabled, hmemory, hfile⟩ := h library' version' hsel
  refine ⟨henabled, ?_, hfile⟩
  simp only [Store.load, Table.get?_insert, hmemory]

theorem ask (h : AgreeOn about s t) (hsel : about library version) (query : Query) :
    (Store.ask library version query s).1 = (Store.ask library version query t).1 ∧
      AgreeOn about (Store.ask library version query s).2
        (Store.ask library version query t).2 := by
  have hkeeps := (h library version hsel).keeps
  obtain ⟨-, hmemory, hfile⟩ := h library version hsel
  cases query with
  | find name =>
    simp only [Store.ask, find?, hkeeps, hmemory, hfile]
    cases s.keeps version with
    | false => exact ⟨rfl, h⟩
    | true =>
      cases (s.pending.get? (key library version)).bind (·.find? name) with
      | some c => exact ⟨rfl, h⟩
      | none =>
        cases s.stored? library version with
        | none => exact ⟨rfl, h⟩
        | some r => exact ⟨rfl, h.load library version r⟩
  | hasClasses | types =>
    simp only [Store.ask, hasClasses, types, hkeeps, hmemory, hfile]
    cases s.keeps version with
    | false => exact ⟨rfl, h⟩
    | true =>
      cases s.pending.get? (key library version) with
      | some r => exact ⟨rfl, h⟩
      | none =>
        cases s.stored? library version with
        | none => exact ⟨rfl, h⟩
        | some r => exact ⟨rfl, h.load library version r⟩

theorem apply (h : AgreeOn about s t) (hsel : about library version) (change : Change) :
    AgreeOn about (s.apply library version change) (t.apply library version change) := by
  have hkeeps := (h library version hsel).keeps
  obtain ⟨-, hmemory, hfile⟩ := h library version hsel
  have hcurrent : t.current library version = s.current library version := by
    rw [current, current, hmemory, hfile]
  rw [apply_eq_change, Store.change, Store.change, hkeeps, hcurrent]
  split
  · exact h.load library version _
  · exact h

theorem flush (h : AgreeOn about s t) (hsel : about library version) :
    AgreeOn about (s.flush library version) (t.flush library version) := by
  have hkeeps := (h library version hsel).keeps
  obtain ⟨-, hmemory, -⟩ := h library version hsel
  simp only [Store.flush, hkeeps, hmemory]
  split
  · cases s.pending.get? (key library version) with
    | none => exact h
    | some r =>
      intro library' version' hsel'
      obtain ⟨henabled', hmemory', hfile'⟩ := h library' version' hsel'
      refine ⟨henabled', ?_, ?_⟩
      · by_cases hkey : key library' version' = key library version
        · simp [hkey]
        · simp only [Table.get?_erase_ne _ hkey, hmemory']
      · by_cases hname : fileName library' version' = fileName library version
        · simp only [stored?, Table.get?_insert, hname, if_true]
        · simpa only [stored?, Table.get?_insert, if_neg hname] using hfile'
  · exact h

theorem clearLibrary (h : AgreeOn about s t) (library : String) (version : Option String) :
    AgreeOn about (s.clearLibrary library version) (t.clearLibrary library version) := by
  intro library' version' hsel
  obtain ⟨henabled, hmemory, hfile⟩ := h library' version' hsel
  rw [Store.clearLibrary, Store.clearLibrary]
  cases version.filter (· != "") with
  | none => exact ⟨henabled, by simp only [Table.get?_filterNames, hmemory], hfile⟩
  | some v =>
    refine ⟨henabled, by simp only [Table.get?_filterNames, hmemory], ?_⟩
    by_cases hname : fileName library' version' = fileName library v
    · simp only [stored?, hname, Table.get?_erase_self]
    · simpa only [stored?, Table.get?_erase_ne _ hname] using hfile

theorem clear (h : AgreeOn about s t) : AgreeOn about s.clear t.clear := by
  intro library version hsel
  obtain ⟨henabled, -, hfile⟩ := h library version hsel
  refine ⟨henabled, rfl, ?_⟩
  simp only [stored?, Store.clear, Table.get?_filterNames] at hfile ⊢
  cases Text.endsWith (fileName library version) fileEnding with
  | true => rfl
  | false => exact hfile

theorem reopen (h : AgreeOn about s t) : AgreeOn about s.reopen t.reopen :=
  fun library version hsel => ⟨(h library version hsel).enabled, rfl, (h library version hsel).file⟩

/-- A call has the same answer on both stores if they agree on the record that it reads, and
afterwards they agree on as much as before. -/
theorem step (h : AgreeOn about s t) (call : Call)
    (hplace : ∀ place ∈ call.place?, about place.1 place.2) :
    (call.step s).1 = (call.step t).1 ∧ AgreeOn about (call.step s).2 (call.step t).2 := by
  cases call with
  | alter library version change => exact ⟨rfl, h.apply (hplace _ rfl) change⟩
  | ask library version query =>
    obtain ⟨hanswer, hafter⟩ := h.ask (hplace _ rfl) query
    exact ⟨congrArg some hanswer, hafter⟩
  | flush library version => exact ⟨rfl, h.flush (hplace _ rfl)⟩
  | clear library version =>
    refine ⟨rfl, ?_⟩
    simp only [Call.step]
    split
    · exact h.clear
    · exact h.clearLibrary library version
  | reopen => exact ⟨rfl, h.reopen⟩

end AgreeOn

/-- Runs of the same calls have the same answers on stores that agree on all that the calls read. -/
theorem trace_eq_of_agreeOn {about : String → String → Prop} {s t : Store} (h : AgreeOn about s t)
    {calls : List Call} (hplace : ∀ call ∈ calls, ∀ place ∈ call.place?, about place.1 place.2) :
    trace s calls = trace t calls := by
  induction calls generalizing s t with
  | nil => rfl
  | cons call rest ih =>
    obtain ⟨hanswer, hafter⟩ := h.step call (hplace call List.mem_cons_self)
    have hrest := ih hafter fun call hcall => hplace call (List.mem_cons_of_mem _ hcall)
    rw [trace, trace, hanswer, hrest]

/-! ### Calls about other libraries and versions -/

/-- A name that stands for a library: there is one, its keys in memory end at the first colon, and
its files are not in another directory. -/
structure PlainName (name : String) : Prop where
  nonempty : name ≠ ""
  colon : ':' ∉ name.toList
  slash : '/' ∉ name.toList

/-- The two have one file. -/
def SharesFile (library version library' version' : String) : Prop :=
  library' = library ∧ versionNumbers version' = versionNumbers version

section

variable {library version library' version' other number : String}

theorem Call.concerns_iff {call : Call} {place : String × String} (h : place ∈ call.place?) :
    call.concerns library version = true ↔ SharesFile library version place.1 place.2 := by
  cases call with
  | alter | ask | flush =>
    cases h
    simp [Call.concerns, SharesFile]
  | clear | reopen => cases h

theorem key_ne_of_not_sharesFile (plain : PlainName library) (plain' : PlainName other)
    (hforeign : ¬ SharesFile library version other number)
    (h : SharesFile library version library' version') :
    key library' version' ≠ key other number := by
  obtain ⟨rfl, hnumbers⟩ := h
  intro hkey
  obtain rfl := eq_of_key_eq plain'.colon plain.colon hkey
  obtain rfl := eq_of_key_eq_key hkey
  exact hforeign ⟨rfl, hnumbers⟩

theorem fileName_ne_of_not_sharesFile (hforeign : ¬ SharesFile library version other number)
    (h : SharesFile library version library' version') :
    fileName library' version' ≠ fileName other number := by
  intro hname
  obtain ⟨rfl, hnumbers⟩ := fileName_eq_iff.mp hname
  exact hforeign ⟨h.1, hnumbers.symm.trans h.2⟩

theorem not_startsWith_of_ne (plain : PlainName library) (plain' : PlainName other)
    (hne : other ≠ library) : Text.startsWith (key library version) (other ++ ":") = false := by
  rw [Bool.eq_false_iff, Text.startsWith, Ne, List.isPrefixOf_iff_prefix]
  rintro ⟨rest, hrest⟩
  have hkey : key other (String.ofList rest) = key library version := by
    apply String.toList_injective
    rw [← hrest, key, String.toList_append, String.toList_ofList]
  exact hne (eq_of_key_eq plain.colon plain'.colon hkey)

end

namespace AgreeOn

variable {library version other number : String} (s : Store)

theorem load_frame (plain : PlainName library) (plain' : PlainName other)
    (hforeign : ¬ SharesFile library version other number) (r : Record) :
    AgreeOn (SharesFile library version) s (s.load other number r) := by
  intro library' version' h
  have hkey := key_ne_of_not_sharesFile plain plain' hforeign h
  exact ⟨rfl, Table.get?_insert_ne _ hkey r, rfl⟩

theorem flush_frame (plain : PlainName library) (plain' : PlainName other)
    (hforeign : ¬ SharesFile library version other number) :
    AgreeOn (SharesFile library version) s (s.flush other number) := by
  rw [Store.flush]
  split
  · split
    · intro library' version' h
      have hkey := key_ne_of_not_sharesFile plain plain' hforeign h
      have hname := fileName_ne_of_not_sharesFile hforeign h
      refine ⟨rfl, Table.get?_erase_ne _ hkey, ?_⟩
      simp only [stored?, Table.get?_insert_ne _ hname]
    · exact refl s
  · exact refl s

theorem clearLibrary_frame (plain : PlainName library) (plain' : PlainName other)
    (hne : other ≠ library) (number : Option String) :
    AgreeOn (SharesFile library version) s (s.clearLibrary other number) := by
  rintro library' version' ⟨rfl, -⟩
  have hkey : (s.pending.filterNames fun name => !Text.startsWith name (other ++ ":")).get?
      (key library' version') = s.pending.get? (key library' version') := by
    rw [Table.get?_filterNames, not_startsWith_of_ne plain plain' hne]
    rfl
  rw [Store.clearLibrary]
  split
  · next v _ =>
    refine ⟨rfl, hkey, ?_⟩
    have hname : fileName library' version' ≠ fileName other v := fun h =>
      hne (fileName_eq_iff.mp h).1.symm
    simp only [stored?, Table.get?_erase_ne _ hname]
  · exact ⟨rfl, hkey, rfl⟩

theorem ask_frame (plain : PlainName library) (plain' : PlainName other)
    (hforeign : ¬ SharesFile library version other number) (query : Query) :
    AgreeOn (SharesFile library version) s (Store.ask other number query s).2 := by
  cases hkeeps : s.keeps number with
  | false =>
    cases query <;> simpa [Store.ask, find?, hasClasses, types, hkeeps] using refl s
  | true =>
    obtain ⟨r, -, hask⟩ | ⟨r, -, -, hask⟩ | ⟨-, -, hask⟩ := @ask_cases s other number query hkeeps
    · rw [hask]; exact refl s
    · rw [hask]; exact load_frame s plain plain' hforeign r
    · rw [hask]; exact refl s

theorem step_frame {call : Call} (plain : PlainName library)
    (hplain : ∀ name ∈ call.library?, PlainName name)
    (hforeign : call.concerns library version = false) :
    AgreeOn (SharesFile library version) s (call.step s).2 := by
  have hshares : ∀ place ∈ call.place?, ¬ SharesFile library version place.1 place.2 := by
    intro place hplace hshared
    rw [(Call.concerns_iff hplace).mpr hshared] at hforeign
    cases hforeign
  cases call with
  | alter other number change =>
    simp only [Call.step, apply_eq_change, Store.change]
    split
    · exact load_frame s plain (hplain _ rfl) (hshares _ rfl) _
    · exact refl s
  | ask other number query =>
    exact ask_frame s plain (hplain _ rfl) (hshares _ rfl) query
  | flush other number =>
    exact flush_frame s plain (hplain _ rfl) (hshares _ rfl)
  | clear other number =>
    have hne : other ≠ library := by simpa [Call.concerns] using hforeign
    simp only [Call.step, if_neg (hplain _ rfl).nonempty]
    exact clearLibrary_frame s plain (hplain _ rfl) hne number
  | reopen => exact absurd hforeign (by simp [Call.concerns])

end AgreeOn

/-- The calls about other libraries, or about other numbers of the version, can be left out of a
run: the answers about the library stay. -/
theorem filter_trace_concerns (s : Store) {library version : String} (plain : PlainName library)
    {calls : List Call} (hplain : ∀ call ∈ calls, ∀ name ∈ call.library?, PlainName name) :
    (trace s calls).filter (·.1.concerns library version) =
      trace s (calls.filter (·.concerns library version)) := by
  -- The run without the other calls has a store of its own, which has the same of the library.
  suffices h : ∀ t, AgreeOn (SharesFile library version) s t →
      (trace s calls).filter (·.1.concerns library version) =
        trace t (calls.filter (·.concerns library version)) from h s (.refl s)
  induction calls generalizing s with
  | nil => exact fun _ _ => rfl
  | cons call rest ih =>
    intro t h
    have hrest : ∀ call ∈ rest, ∀ name ∈ call.library?, PlainName name := fun call hcall =>
      hplain call (List.mem_cons_of_mem _ hcall)
    cases hconcerns : call.concerns library version with
    | true =>
      obtain ⟨hanswer, hafter⟩ := h.step call fun place hplace =>
        (Call.concerns_iff hplace).mp hconcerns
      simp only [trace, List.filter_cons, hconcerns, if_true, hanswer]
      rw [ih _ hrest _ hafter]
    | false =>
      have hframe := AgreeOn.step_frame s plain (hplain call List.mem_cons_self) hconcerns
      simp only [trace, List.filter_cons, hconcerns, Bool.false_eq_true, if_false]
      exact ih _ hrest t (hframe.symm.trans h)

/-- A library whose name ends like a version, another version and a clear of a name that the library
begins with come between the calls about the library. -/
theorem filter_trace_concerns_panel :
    PlainName "panel" ∧ PlainName "panel-1_0" ∧ PlainName "pane" ∧
    (trace { enabled := true }
      [.alter "panel" "1.0" (.setTypes ["A"]), .alter "panel-1_0" "2" (.setTypes ["B"]),
        .alter "panel" "1.0.1" (.setTypes ["C"]), .flush "panel" "1.0", .flush "panel-1_0" "2",
        .clear "pane" (some "1.0"), .ask "panel" "v1.0" .types]).filter
        (·.1.concerns "panel" "1.0") =
      trace { enabled := true }
        [.alter "panel" "1.0" (.setTypes ["A"]), .flush "panel" "1.0",
          .ask "panel" "v1.0" .types] := by
  have plain : PlainName "panel" := ⟨by decide, by decide, by decide⟩
  have plain' : PlainName "panel-1_0" := ⟨by decide, by decide, by decide⟩
  have plain'' : PlainName "pane" := ⟨by decide, by decide, by decide⟩
  have hnumbers : versionNumbers "1.0" = [1, 0] := by decide +kernel
  have hother : versionNumbers "1.0.1" = [1, 0, 1] := by decide +kernel
  have hsame : versionNumbers "v1.0" = [1, 0] := by decide +kernel
  refine ⟨plain, plain', plain'', (filter_trace_concerns _ plain ?_).trans ?_⟩
  · simp [Call.library?, plain, plain', plain'']
  · simp [Call.concerns, hnumbers, hother, hsame]

/-! ### Files of no use -/

/-- The file is of no use for the library: it cannot be read, or it was made for another library,
another version or in another form. -/
def Useless (library version : String) : StoredFile → Prop
  | .unreadable => True
  | .record r => r.label ≠ Label.current library version

theorem agreeOn_insert_useless (s : Store) {library version : String} {file : StoredFile}
    (h : Useless library version file) :
    AgreeOn (fun _ _ => True) { s with files := s.files.insert (fileName library version) file }
      { s with files := s.files.erase (fileName library version) } := by
  intro library' version' _
  refine ⟨rfl, rfl, ?_⟩
  by_cases hname : fileName library' version' = fileName library version
  · obtain ⟨rfl, hnumbers⟩ := fileName_eq_iff.mp hname
    rw [stored?_congr _ _ hnumbers, stored?_congr _ _ hnumbers]
    simp only [stored?, Table.get?_erase_self, Table.get?_insert_self]
    cases file with
    | unreadable => rfl
    | record r =>
      have hfor : r.isFor library' version = false := by simpa [Record.isFor, Useless] using h
      simp only [hfor, Bool.false_eq_true, if_false]
  · simp only [stored?, Table.get?_erase_ne _ hname, Table.get?_insert_ne _ hname]

/-- With a file of no use in the place of a library's file, every run of calls has the answers that
it has without a file there. -/
theorem trace_insert_useless (s : Store) {library version : String} {file : StoredFile}
    (useless : Useless library version file) (calls : List Call) :
    trace { s with files := s.files.insert (fileName library version) file } calls =
      trace { s with files := s.files.erase (fileName library version) } calls :=
  trace_eq_of_agreeOn (agreeOn_insert_useless s useless) fun _ _ _ _ => trivial

/-- The file of a library, written in an older form. -/
def olderFile : StoredFile :=
  .record { label := ⟨"panel", [1, 0], [1, 1, 0]⟩, types := ["Old"] }

/-- Calls that would bring the types of the older form into memory and write them back. -/
theorem trace_insert_olderFile :
    Useless "panel" "1.0" olderFile ∧
    trace { enabled := true, files := .insert ∅ (fileName "panel" "1.0") olderFile }
        [.ask "panel" "1.0" .types, .alter "panel" "1.0" (.setClass "A" (.ofName "A")),
          .flush "panel" "1.0", .reopen, .ask "panel" "1.0" .types] =
      trace { enabled := true, files := .erase ∅ (fileName "panel" "1.0") }
        [.ask "panel" "1.0" .types, .alter "panel" "1.0" (.setClass "A" (.ofName "A")),
          .flush "panel" "1.0", .reopen, .ask "panel" "1.0" .types] := by
  have useless : Useless "panel" "1.0" olderFile := by
    rw [olderFile, Useless]
    decide +kernel
  exact ⟨useless, trace_insert_useless { enabled := true } useless _⟩

end Store

end ParamLens.Library
