/-
Module: StyleAudit.Toml.Namespace
Purpose: The table that a TOML document builds, and which parts of it may still grow.
Trusted boundary: none
Main exports: Toml.Document, Document.openTable?, Document.openItem?, Document.assign?
-/
import StyleAudit.Value.Basic

namespace StyleAudit.Toml

/-!
### Tables under construction

A document adds to one nested table.  A path is closed when an array or an inline
table was assigned there: nothing may be added at or below it.  A path is
declared when a header named it, or when a dotted key of an earlier section went
through it: no header may name it again, and no dotted key may go through it.
Opening a new item of an array of tables frees everything that was known at and
below the array's path.
-/

/-- A path of names from the top of the document. -/
abbrev KeyPath := List String

/-- The table so far and the paths whose use is restricted. -/
structure Document where
  table : Mapping
  closed : List KeyPath
  declared : List KeyPath
  pending : List KeyPath
  header : KeyPath
deriving Inhabited

/-- The document before its first line. -/
def Document.empty : Document := ⟨[], [], [], [], []⟩

/-- Changes the table at a path.  Tables that are missing on the way are made;
an array of tables is entered at its last item if `arrays` allows it. -/
def updateAt? (arrays : Bool) (change : Mapping → Option Mapping) :
    KeyPath → Mapping → Option Mapping
  | [], table => change table
  | name :: path, table =>
      let store (v : Value) : Mapping := Table.put (Key.str name) v table
      match table.find? name with
      | none => (updateAt? arrays change path []).map fun inner => store (.map inner)
      | some (.map inner) =>
          (updateAt? arrays change path inner).map fun inner => store (.map inner)
      | some (.seq items) =>
          match arrays, items.getLast? with
          | true, some (.map inner) =>
              (updateAt? arrays change path inner).map fun inner =>
                store (.seq (items.dropLast ++ [.map inner]))
          | _, _ => none
      | some _ => none

/-- Nothing may be added at the path or below it. -/
def Document.isClosed (d : Document) (path : KeyPath) : Bool :=
  d.closed.any fun closed => closed.isPrefixOf path

/-- A header or an earlier dotted key has used the path. -/
def Document.isDeclared (d : Document) (path : KeyPath) : Bool :=
  !path.isEmpty && d.declared.contains path

/-- Dotted keys of the section that ends here count from now on. -/
def Document.endSection (d : Document) : Document :=
  { d with declared := d.pending ++ d.declared, pending := [] }

/-- Opens the table that a header names. -/
def Document.openTable? (d : Document) (path : KeyPath) : Option Document :=
  if d.isDeclared path || d.isClosed path then none
  else
    (updateAt? true some path d.table).map fun table =>
      { d with table := table, declared := path :: d.declared, header := path }

/-- Adds a table to the array behind a name, or makes the array. -/
def appendItem? (name : String) (table : Mapping) : Option Mapping :=
  match table.find? name with
  | none => some (Table.put (Key.str name) (.seq [.map []]) table)
  | some (.seq items) => some (Table.put (Key.str name) (.seq (items ++ [.map []])) table)
  | some _ => none

/-- Opens a new item of the array of tables that a header names. -/
def Document.openItem? (d : Document) (path : KeyPath) : Option Document :=
  if d.isClosed path then none
  else do
    let last ← path.getLast?
    let table ← updateAt? true (appendItem? last) path.dropLast d.table
    let kept (paths : List KeyPath) : List KeyPath := paths.filter fun p => !path.isPrefixOf p
    return { d with
      table := table
      closed := kept d.closed
      declared := path :: kept d.declared
      header := path }

/-- The paths of the tables that a dotted key goes through. -/
def throughPaths (header path : KeyPath) : List KeyPath :=
  (List.range (path.length - 1)).map fun i => header ++ path.take (i + 1)

/-- The value is an array or a table. -/
def isContainer : Value → Bool
  | .seq _ => true
  | .map _ => true
  | _ => false

/-- Writes a value under a name that has none yet. -/
def assignNew? (name : String) (v : Value) (table : Mapping) : Option Mapping :=
  match table.find? name with
  | none => some (Table.put (Key.str name) v table)
  | some _ => none

/-- Assigns a value to a key of the current section. -/
def Document.assign? (d : Document) (path : KeyPath) (v : Value) : Option Document := do
  let name ← path.getLast?
  let through := throughPaths d.header path
  if through.any d.isDeclared then none
  else
    let parent := d.header ++ path.dropLast
    if d.isClosed parent then none
    else
      let table ← updateAt? true (assignNew? name v) parent d.table
      return { d with
        table := table
        pending := through ++ d.pending
        closed := if isContainer v then (d.header ++ path) :: d.closed else d.closed }

/-- Assigns a value inside an inline table; `closed` holds the paths of the
containers assigned before. -/
def assignInline? (table : Mapping) (closed : List KeyPath) (path : KeyPath) (v : Value) :
    Option Mapping := do
  let name ← path.getLast?
  if closed.any fun c => c.isPrefixOf path then none
  else updateAt? false (assignNew? name v) path.dropLast table

end StyleAudit.Toml
