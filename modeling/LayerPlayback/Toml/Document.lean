import LayerPlayback.Toml.Value

namespace LayerPlayback

/-!
# TOML tables

A table can come into being in three ways, and the way decides what may still be
added.  A table with a header of its own, or in braces, is closed to dotted keys
from elsewhere.  A table on the way to another header may get its own header
later.  A table made by a dotted key takes further dotted keys, but no header.
-/

/-- How a table came into being. -/
inductive TableOrigin where
  /-- By its own header, or in braces. -/
  | declared
  /-- On the way to another header. -/
  | passed
  /-- By a dotted key. -/
  | dotted
  deriving Repr, DecidableEq

/-- What a key holds while a document is read. -/
inductive TomlItem where
  | value (value : Toml)
  | table (origin : TableOrigin) (entries : List (String × TomlItem))
  /-- Tables with one header in double brackets; only the last one can grow. -/
  | tables (elements : List (List (String × TomlItem)))
  deriving Repr

/-- The contents of a table while a document is read. -/
abbrev TomlEntries : Type :=
  List (String × TomlItem)

namespace TomlEntries

/-- Change what a key holds, or refuse. -/
def alter (key : String) (change : Option TomlItem → Option TomlItem) :
    TomlEntries → Option TomlEntries
  | [] => do
      let item ← change none
      some [(key, item)]
  | (other, held) :: rest =>
      if other = key then do
        let item ← change (some held)
        some ((key, item) :: rest)
      else do
        let changed ← alter key change rest
        some ((other, held) :: changed)

/--
Follow a path of keys and change the table at its end.  Missing tables are made;
keys of arrays of tables lead into the last table.  Dotted keys may not enter a
table that was declared.
-/
def descend
    (byKey : Bool)
    (change : TableOrigin → TomlEntries → Option TomlEntries) :
    List String → TableOrigin → TomlEntries → Option TomlEntries
  | [], origin, entries => change origin entries
  | key :: path, _, entries =>
      alter key
        (fun
          | none =>
              let origin := if byKey then .dotted else .passed
              (descend byKey change path origin []).map (.table origin)
          | some (.value _) => none
          | some (.tables elements) => do
              let last ← elements.getLast?
              let changed ← descend byKey change path .declared last
              some (.tables (elements.dropLast ++ [changed]))
          | some (.table origin inner) =>
              if byKey && origin = .declared then
                none
              else
                (descend byKey change path origin inner).map (.table origin))
        entries

/-- Put a value at a key that is free. -/
def put (key : String) (value : Toml) : TomlEntries → Option TomlEntries :=
  alter key fun
    | none => some (.value value)
    | some _ => none

/-- Put a value at a dotted key, whose last table must have come from dotted keys. -/
def putDotted (path : List String) (key : String) (value : Toml) :
    TableOrigin → TomlEntries → Option TomlEntries :=
  descend true
    (fun origin entries =>
      if (origin = .dotted) ↔ path ≠ [] then put key value entries else none)
    path

/-- The entries of a table with a header at a key. -/
def declare (key : String) : TomlEntries → Option TomlEntries :=
  alter key fun
    | none => some (.table .declared [])
    | some (.table .passed inner) => some (.table .declared inner)
    | some _ => none

/-- One more table in the array of tables at a key. -/
def declareElement (key : String) : TomlEntries → Option TomlEntries :=
  alter key fun
    | none => some (.tables [[]])
    | some (.tables elements) => some (.tables (elements ++ [[]]))
    | some _ => none

end TomlEntries

mutual

/-- The value that an item stands for. -/
def TomlItem.toValue : TomlItem → Toml
  | .value value => value
  | .table _ entries => .table (TomlEntries.toValues entries)
  | .tables elements => .array (TomlEntries.toTables elements)

/-- The values of all entries. -/
def TomlEntries.toValues : List (String × TomlItem) → List (String × Toml)
  | [] => []
  | (key, item) :: rest => (key, item.toValue) :: TomlEntries.toValues rest

/-- The values of all tables of an array. -/
def TomlEntries.toTables : List (List (String × TomlItem)) → List Toml
  | [] => []
  | entries :: rest =>
      .table (TomlEntries.toValues entries) :: TomlEntries.toTables rest

end

/-- One statement of a document. -/
inductive TomlStatement where
  | assign (path : List String) (key : String) (value : Toml)
  | header (path : List String) (key : String)
  | elementHeader (path : List String) (key : String)
  deriving Repr

/-- A document that is read statement by statement. -/
structure TomlDocument where
  root : TomlEntries := []
  /-- The path of the table that takes assignments. -/
  current : List String := []
  deriving Repr

namespace TomlDocument

/-- Change the table at a path of headers. -/
def change
    (document : TomlDocument)
    (path : List String)
    (action : TableOrigin → TomlEntries → Option TomlEntries) :
    Option TomlEntries :=
  TomlEntries.descend false action path .declared document.root

/-- Take in one statement. -/
def add (document : TomlDocument) : TomlStatement → Option TomlDocument
  | .assign path key value => do
      let root ← document.change document.current (TomlEntries.putDotted path key value)
      some { document with root := root }
  | .header path key => do
      let root ← document.change path fun _ => TomlEntries.declare key
      some ⟨root, path ++ [key]⟩
  | .elementHeader path key => do
      let root ← document.change path fun _ => TomlEntries.declareElement key
      some ⟨root, path ++ [key]⟩

/-- The value of a document of some statements. -/
def value? (statements : List TomlStatement) : Option Toml :=
  (statements.foldlM add {}).map fun document =>
    .table (TomlEntries.toValues document.root)

end TomlDocument

end LayerPlayback
