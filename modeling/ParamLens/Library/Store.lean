import ParamLens.Library.Record

/-! The store of library records: records in memory, and files to which they are written. A look-up
that fails in memory loads the file. -/

namespace ParamLens.Library

/-- What a file of the store holds. -/
inductive StoredFile where
  | unreadable
  | record (value : Record)

/-- The store of library records. -/
structure Store where
  enabled : Bool := false
  pending : Table Record := ∅
  files : Table StoredFile := ∅

namespace Store

/-- The key of a library's record in memory. -/
def key (library version : String) : String := library ++ ":" ++ version

/-- What every file name of the present form ends with. -/
def fileEnding : String := "-" ++ versionText formatVersion "_" ++ ".msgpack"

/-- The name of the file of a library's record. -/
def fileName (library version : String) : String :=
  library ++ "-" ++ versionText (versionNumbers version) "_" ++ fileEnding

/-- The store keeps records of this version. -/
def keeps (s : Store) (version : String) : Bool := s.enabled && version != ""

/-- The record in the file of a library, if there is one for this library and version. -/
def stored? (s : Store) (library version : String) : Option Record :=
  match s.files.get? (fileName library version) with
  | some (.record r) => if r.isFor library version then some r else none
  | _ => none

/-- The store with a record in memory. -/
def load (s : Store) (library version : String) (r : Record) : Store :=
  { s with pending := s.pending.insert (key library version) r }

/-- Whether the store holds classes of a library. -/
def hasClasses (library version : String) : StateM Store Bool := fun s =>
  if s.keeps version then
    match s.pending.get? (key library version) with
    | some r => (r.hasClasses, s)
    | none =>
      match s.stored? library version with
      | some r => (r.hasClasses, s.load library version r)
      | none => (false, s)
  else (false, s)

/-- The class with a name, from memory or else from the file. -/
def find? (library name version : String) : StateM Store (Option ParamClass) := fun s =>
  if s.keeps version then
    match (s.pending.get? (key library version)).bind (·.find? name) with
    | some found => (some found, s)
    | none =>
      match s.stored? library version with
      | some r => (r.find? name, s.load library version r)
      | none => (none, s)
  else (none, s)

/-- The parameter types of a library, from memory or else from the file. -/
def types (library version : String) : StateM Store (List String) := fun s =>
  if s.keeps version then
    match s.pending.get? (key library version) with
    | some r => (r.types, s)
    | none =>
      match s.stored? library version with
      | some r => (r.types, s.load library version r)
      | none => ([], s)
  else ([], s)

/-- The record of a library to which a change applies: the one in memory, else the one in the
file, else a fresh one. -/
def current (s : Store) (library version : String) : Record :=
  ((s.pending.get? (key library version)).or (s.stored? library version)).getD
    (.fresh library version)

/-- The store after a change of a library's record in memory. -/
def change (library version : String) (f : Record → Record) (s : Store) : Store :=
  if s.keeps version then s.load library version (f (s.current library version)) else s

/-- Puts a class into a library's record. -/
def setClass (library name : String) (c : ParamClass) (version : String) : Store → Store :=
  change library version (·.setClass name c)

/-- Puts an alias into a library's record. -/
def setAlias (library name target version : String) : Store → Store :=
  change library version (·.setAlias name target)

/-- Puts parameter types into a library's record. -/
def setTypes (library : String) (types : List String) (version : String) : Store → Store :=
  change library version (·.setTypes types)

/-- Writes a library's record to its file and drops it from memory. -/
def flush (library version : String) (s : Store) : Store :=
  if s.keeps version then
    match s.pending.get? (key library version) with
    | some r =>
      { s with
        pending := s.pending.erase (key library version)
        files := s.files.insert (fileName library version) (.record r) }
    | none => s
  else s

/-- Drops the records of a library from memory, and for a given version also its file. -/
def clearLibrary (library : String) (version : Option String) (s : Store) : Store :=
  let remaining := s.pending.filterNames fun name => !Text.startsWith name (library ++ ":")
  match version.filter (· != "") with
  | some v => { s with pending := remaining, files := s.files.erase (fileName library v) }
  | none => { s with pending := remaining }

/-- Drops all records from memory, and all files of the present form. -/
def clear (s : Store) : Store :=
  { s with pending := ∅, files := s.files.filterNames fun name => !Text.endsWith name fileEnding }

/-- The store of a new session on the same files. -/
def reopen (s : Store) : Store := { s with pending := ∅ }

end Store

end ParamLens.Library
