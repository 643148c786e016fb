import TwinStore.Fault
import TwinStore.Model.Basic
import TwinStore.Primary.Condition

/-!
# Tables

A table keeps its rows in the order of insertion and returns them in the order of its key.

Main definitions:

- `Table`: the rows of a model.
- `Table.insert`, `Table.update`, `Table.delete`: the changes; the first two keep keys unique and
  required columns filled.
- `Table.select`: the rows that a clause selects.
-/

namespace TwinStore.Primary

/-- The rows of a model in the order of insertion. -/
structure Table where
  model : Model
  rows : List Row := []

namespace Table

/-! ## Constraints -/

/-- The column whose missing values the table generates: the key, if it is one integer. -/
def generated? (m : Model) : Option String :=
  match m.attributes.filter (·.primaryKey) with
  | [a] => if a.type = .int then some a.name else none
  | _ => none

/-- The cells of the key of a row. -/
def keyOf (m : Model) (row : Row) : List Cell := m.primaryKeys.map row.cell

/-- Whether two rows have the same key; without key columns no two rows have. -/
def sameKey (m : Model) (a b : Row) : Bool :=
  !m.primaryKeys.isEmpty && m.primaryKeys.all fun name => (a.cell name).sameKey (b.cell name)

/-- Whether a row fills all columns that must be filled, a generated key with an integer; integers
have 64 bits. -/
def isFilled (m : Model) (row : Row) : Bool :=
  m.attributes.all fun a =>
    match row.cell a.name with
    | .null => a.isNullable
    | .int n => fitsWord n
    | _ => generated? m != some a.name

/-- Whether a row may stand beside others. -/
def admits (m : Model) (others : List Row) (row : Row) : Bool :=
  isFilled m row && !others.any (sameKey m row)

/-! ## Insertion -/

/-- The least positive integer that is not among some integers. -/
def leastUnused (keys : List Int) : Int :=
  let candidates : List Int := (List.range (keys.length + 1)).map fun n => Int.ofNat (n + 1)
  (candidates.find? (!keys.contains ·)).getD 1

/-- One more than the greatest integer in a column, or one; if that is the last integer of 64 bits,
one that is not in the column. -/
def nextKey (column : String) (rows : List Row) : Int :=
  let keys := rows.filterMap fun row =>
    match row.cell column with
    | .int n => some n
    | _ => none
  match keys with
  | [] => 1
  | first :: rest =>
    let greatest := rest.foldl max first
    if fitsWord (greatest + 1) then greatest + 1 else leastUnused keys

/-- A row of the table with the given cells; what is not given is null. -/
def rowOf (m : Model) (values : Entries Cell) : Row :=
  m.attributes.map fun a =>
    (a.name, (Affinity.ofType a.type).store ((Entries.get? values a.name).getD .null))

/-- A row with its key generated if it is missing. -/
def withKey (t : Table) (row : Row) : Row :=
  match generated? t.model with
  | some column =>
    if (row.cell column).isNull then Entries.set row column (.int (nextKey column t.rows)) else row
  | none => row

/-- Inserts a row: the table afterwards and the row as it stands in it. -/
def insert (t : Table) (values : Entries Cell) : Except StatementError (Table × Row) :=
  let row := t.withKey (rowOf t.model values)
  if admits t.model t.rows row then .ok ({ t with rows := t.rows ++ [row] }, row)
  else .error .violation

/-- Inserts rows one after another. -/
def insertAll (t : Table) : List (Entries Cell) → Except StatementError (Table × List Row)
  | [] => .ok (t, [])
  | values :: rest => do
    let (t, row) ← t.insert values
    let (t, rows) ← t.insertAll rest
    return (t, row :: rows)

/-! ## Selection -/

/-- Order of two keys by their first cells that differ. -/
def keyOrder : List Cell → List Cell → Ordering
  | a :: as, b :: bs => (a.order b).then (keyOrder as bs)
  | _, _ => .eq

/-- Rows in the order of their keys. -/
def sorted (m : Model) (rows : List Row) : List Row :=
  rows.mergeSort fun a b => keyOrder (keyOf m a) (keyOf m b) != .gt

/-- The rows that a test selects, in the order of their keys. -/
def select (t : Table) (test : Test) : List Row := sorted t.model (t.rows.filter test.selects)

/-! ## Change -/

/-- Changes rows one after another; every changed row must be admitted beside all others. -/
def updateRows (m : Model) (test : Test) (change : Row → Row) :
    (before after : List Row) → Except StatementError (List Row)
  | before, [] => .ok before
  | before, row :: rest =>
    if test.selects row then
      let changed := change row
      if admits m (before ++ rest) changed then updateRows m test change (before ++ [changed]) rest
      else .error .violation
    else updateRows m test change (before ++ [row]) rest

/-- The row with new cells in some columns. -/
def changed (m : Model) (values : Row → Entries Cell) (row : Row) : Row :=
  let new := values row
  m.attributes.map fun a =>
    match Entries.get? new a.name with
    | some cell => (a.name, (Affinity.ofType a.type).store cell)
    | none => (a.name, row.cell a.name)

/-- Changes the rows that a test selects. -/
def update (t : Table) (test : Test) (values : Row → Entries Cell) :
    Except StatementError Table := do
  return { t with rows := ← updateRows t.model test (changed t.model values) [] t.rows }

/-- Deletes the rows that a test selects: the table afterwards and the number of rows deleted. -/
def delete (t : Table) (test : Test) : Table × Nat :=
  let kept := t.rows.filter fun row => !test.selects row
  ({ t with rows := kept }, t.rows.length - kept.length)

end Table

end TwinStore.Primary
