import Mathlib.Data.List.Basic

/-!
This module contains the rows of an SQLite database, what an `INSERT` checks of the row it adds, and
the condition under which it adds it.
-/

namespace OpenWA.Sqlite

inductive Cell where
  | null
  | number (n : Rat)
  | text (s : String)
deriving DecidableEq

/-- How SQLite reads a text as a number and writes a number as a text. -/
structure Numerals where
  ofText : String → Option Rat
  toText : Rat → String

inductive Affinity where
  | text
  | numeric
deriving DecidableEq

/-- The form a column keeps a cell in. -/
def Affinity.store (numerals : Numerals) (affinity : Affinity) (cell : Cell) : Cell :=
  match affinity, cell with
  | .text, .number n => .text (numerals.toText n)
  | .numeric, .text s =>
    match numerals.ofText s with
    | some n => .number n
    | none => .text s
  | _, cell => cell

inductive Default where
  | literal (cell : Cell)
  | datetimeNow
deriving DecidableEq

structure Column where
  name : String
  affinity : Affinity
  notNull : Bool
  default : Default
deriving DecidableEq

structure Reference (T : Type) where
  column : String
  table : T
  target : String

structure Schema (T : Type) where
  name : String
  columns : List Column
  unique : List (List String)
  references : List (Reference T)

abbrev Record := List (String × Cell)

def Record.get (record : Record) (column : String) : Cell :=
  (record.lookup column).getD .null

/-- `UPDATE … SET column = cell` -/
def Record.set (record : Record) (column : String) (cell : Cell) : Record :=
  record.map fun entry => if entry.1 = column then (column, cell) else entry

abbrev Tables (T : Type) := T → List Record

/-- `NULL` differs from every cell, itself included. -/
def conflicts (key : List String) (a b : Record) : Bool :=
  key.all fun column => a.get column != .null && a.get column == b.get column

section Insert

variable {T : Type} [DecidableEq T] (numerals : Numerals) (schemas : T → Schema T) (now : String)

def refers (tables : Tables T) (record : Record) (reference : Reference T) : Bool :=
  record.get reference.column == .null ||
    (tables reference.table).any fun parent =>
      parent.get reference.target == record.get reference.column

def Default.cell (default : Default) : Cell :=
  match default with
  | .literal cell => cell
  | .datetimeNow => .text now

/-- The row an `INSERT` makes of the cells it names; the other columns take their default. -/
def Schema.row (schema : Schema T) (cells : List (String × Cell)) : Record :=
  schema.columns.map fun column =>
    (column.name,
      column.affinity.store numerals ((cells.lookup column.name).getD (column.default.cell now)))

def insert (tables : Tables T) (table : T) (cells : List (String × Cell)) :
    Except String (Tables T) :=
  let schema := schemas table
  match cells.find? fun entry => !(schema.columns.any fun column => column.name == entry.1) with
  | some entry => .error ("table " ++ schema.name ++ " has no column named " ++ entry.1)
  | none =>
    let record := schema.row numerals now cells
    match schema.columns.find? fun column => column.notNull && record.get column.name == .null with
    | some column =>
      .error ("NOT NULL constraint failed: " ++ schema.name ++ "." ++ column.name)
    | none =>
      match schema.unique.find? fun key => (tables table).any fun row => conflicts key row record with
      | some key =>
        .error ("UNIQUE constraint failed: " ++
          ", ".intercalate (key.map fun column => schema.name ++ "." ++ column))
      | none =>
        if schema.references.all fun reference => refers tables record reference then
          .ok (Function.update tables table (tables table ++ [record]))
        else
          .error "FOREIGN KEY constraint failed"

/-- What the constraints of a table ask of a row. -/
structure Admits (tables : Tables T) (table : T) (record : Record) : Prop where
  notNull : ∀ column ∈ (schemas table).columns, column.notNull → record.get column.name ≠ .null
  unique : ∀ key ∈ (schemas table).unique, ∀ row ∈ tables table, conflicts key row record = false
  references : ∀ reference ∈ (schemas table).references, refers tables record reference

/-- What the constraints of a database ask of its rows. -/
structure Valid (tables : Tables T) : Prop where
  columns : ∀ table, ∀ record ∈ tables table,
    record.map Prod.fst = (schemas table).columns.map Column.name
  stored : ∀ table, ∀ record ∈ tables table, ∀ column ∈ (schemas table).columns,
    column.affinity.store numerals (record.get column.name) = record.get column.name
  notNull : ∀ table, ∀ record ∈ tables table, ∀ column ∈ (schemas table).columns,
    column.notNull → record.get column.name ≠ .null
  unique : ∀ table, ∀ key ∈ (schemas table).unique,
    (tables table).Pairwise fun a b => conflicts key a b = false
  references : ∀ table, ∀ record ∈ tables table, ∀ reference ∈ (schemas table).references,
    refers tables record reference

variable {numerals schemas now} {tables : Tables T} {table : T} {cells : List (String × Cell)}

theorem insert_of_admits
    (hcells : ∀ entry ∈ cells, entry.1 ∈ (schemas table).columns.map Column.name)
    (hadmits : Admits schemas tables table ((schemas table).row numerals now cells)) :
    insert numerals schemas now tables table cells =
      .ok (Function.update tables table
        (tables table ++ [(schemas table).row numerals now cells])) := by
  have hknown : (cells.find? fun entry =>
      !((schemas table).columns.any fun column => column.name == entry.1)) = none := by
    rw [List.find?_eq_none]
    intro entry hentry
    have h := hcells entry hentry
    simp only [List.mem_map] at h
    simpa using h
  have hnull : ((schemas table).columns.find? fun column => column.notNull &&
      ((schemas table).row numerals now cells).get column.name == .null) = none := by
    rw [List.find?_eq_none]
    intro column hcolumn
    have h := hadmits.notNull column hcolumn
    simpa using h
  have hunique : ((schemas table).unique.find? fun key => (tables table).any fun row =>
      conflicts key row ((schemas table).row numerals now cells)) = none := by
    rw [List.find?_eq_none]
    intro key hkey
    simpa using hadmits.unique key hkey
  have hrefs : ((schemas table).references.all fun reference =>
      refers tables ((schemas table).row numerals now cells) reference) = true := by
    rw [List.all_eq_true]
    exact hadmits.references
  simp only [insert, hknown, hnull, hunique, hrefs, if_true]

end Insert

namespace Record

variable {record : Record} {columns : List Column}

@[simp] theorem get_nil (column : String) : Record.get [] column = .null := rfl

theorem get_cons (name column : String) (cell : Cell) (rest : Record) :
    Record.get ((name, cell) :: rest) column = if column = name then cell else rest.get column := by
  by_cases h : column = name
  . simp [Record.get, h]
  . have hbeq : (column == name) = false := by simpa using h
    simp [Record.get, List.lookup_cons, h, hbeq]

theorem get_map (f : Column → Cell) {column : Column} (hnodup : (columns.map Column.name).Nodup)
    (hcolumn : column ∈ columns) :
    Record.get (columns.map fun c => (c.name, f c)) column.name = f column := by
  induction columns with
  | nil => simp at hcolumn
  | cons head rest ih =>
    simp only [List.map_cons, List.nodup_cons] at hnodup
    simp only [List.map_cons, get_cons]
    rcases List.mem_cons.mp hcolumn with rfl | hrest
    . exact if_pos rfl
    . have hne : column.name ≠ head.name := by
        intro heq
        exact hnodup.1 (heq ▸ List.mem_map_of_mem hrest)
      rw [if_neg hne]
      exact ih hnodup.2 hrest

theorem set_map (columns : List Column) (f : String → Cell) (name : String) (cell : Cell) :
    Record.set (columns.map fun column => (column.name, f column.name)) name cell =
      columns.map fun column => (column.name, if column.name = name then cell else f column.name) := by
  unfold Record.set
  rw [List.map_map]
  refine List.map_congr_left fun column _ => ?_
  simp only [Function.comp_apply]
  split
  . next heq => rw [heq]
  . rfl

end Record
end OpenWA.Sqlite
