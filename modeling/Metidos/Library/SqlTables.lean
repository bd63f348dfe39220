import Mathlib.Data.List.Nodup
import Mathlib.Logic.Function.Basic
import Metidos.Library.OrderedMap

/-!
Tables of a relational database as rows of values under named columns, with the statements that
change a schema: create, rename, drop, add a column, and copy chosen columns of one table into
another.
-/

namespace SqlTables

inductive SqlValue
  | null
  | integer (value : Int)
  | text (value : List Char)
  deriving DecidableEq

structure SqlTable where
  columns : List String
  rows : List (List SqlValue)
  deriving DecidableEq

structure SqlDatabase where
  table : String → Option SqlTable

@[ext] theorem SqlDatabase.ext {one other : SqlDatabase}
    (same : ∀ name, one.table name = other.table name) : one = other := by
  cases one
  cases other
  exact congrArg SqlDatabase.mk (funext same)

namespace SqlTable

def empty (columns : List String) : SqlTable := { columns, rows := [] }

def valueOf (columns : List String) (row : List SqlValue) (column : String) : SqlValue :=
  ((columns.zip row).lookup column).getD .null

def project (table : SqlTable) (columns : List String) (row : List SqlValue) : List SqlValue :=
  columns.map (valueOf table.columns row)

def place (table : SqlTable) (columns : List String) (values : List SqlValue) : List SqlValue :=
  table.columns.map (valueOf columns values)

end SqlTable

namespace SqlDatabase

variable {database : SqlDatabase} {name other : String} {table : SqlTable}

def set (database : SqlDatabase) (name : String) (table : Option SqlTable) : SqlDatabase :=
  { table := Function.update database.table name table }

@[simp] theorem table_set (database : SqlDatabase) (name other : String)
    (table : Option SqlTable) :
    (database.set name table).table other = if other = name then table else database.table other := by
  simp only [set, Function.update_apply]

def tableInfo (database : SqlDatabase) (name : String) : List String :=
  ((database.table name).map SqlTable.columns).getD []

def createTable (database : SqlDatabase) (name : String) (columns : List String) : SqlDatabase :=
  match database.table name with
  | some _ => database
  | none => database.set name (some (SqlTable.empty columns))

def dropTable (database : SqlDatabase) (name : String) : SqlDatabase := database.set name none

def renameTable (database : SqlDatabase) (name other : String) : SqlDatabase :=
  (database.set other (database.table name)).set name none

def addColumn (database : SqlDatabase) (name column : String) : SqlDatabase :=
  match database.table name with
  | none => database
  | some table =>
    database.set name (some
      { columns := table.columns ++ [column], rows := table.rows.map (· ++ [SqlValue.null]) })

/-- `INSERT INTO target (columns) SELECT columns FROM source`. -/
def insertSelect (database : SqlDatabase) (target source : String) (columns : List String) :
    SqlDatabase :=
  match database.table target, database.table source with
  | some into, some origin =>
    database.set target (some
      { into with
        rows := into.rows ++
          origin.rows.map fun row => into.place columns (origin.project columns row) })
  | _, _ => database

theorem createTable_of_some (found : database.table name = some table) (columns : List String) :
    database.createTable name columns = database := by
  rw [createTable, found]

theorem tableInfo_of_some (found : database.table name = some table) :
    database.tableInfo name = table.columns := by
  rw [tableInfo, found]
  rfl

end SqlDatabase

namespace SqlTable

variable {columns rest : List String} {values more : List SqlValue}

theorem map_valueOf_append (distinct : columns.Nodup) (width : columns.length = values.length)
    (rest : List String) (more : List SqlValue) :
    columns.map (valueOf (columns ++ rest) (values ++ more)) = values := by
  induction columns generalizing values with
  | nil =>
    rw [List.length_nil] at width
    exact (List.eq_nil_of_length_eq_zero width.symm).symm
  | cons column columns ih =>
    cases values with
    | nil => simp at width
    | cons value values =>
      have parts := List.nodup_cons.mp distinct
      have tail := ih parts.2 (by simpa using width)
      rw [List.map_cons]
      congr 1
      · simp [valueOf]
      · rw [← tail]
        apply List.map_congr_left
        intro other member
        have differs : other ≠ column := by
          intro same
          exact parts.1 (same ▸ member)
        have miss : (other == column) = false := beq_eq_false_iff_ne.mpr differs
        rw [tail]
        simp [valueOf, List.lookup_cons, miss]

theorem map_valueOf_self (distinct : columns.Nodup) (width : columns.length = values.length) :
    columns.map (valueOf columns values) = values := by
  simpa using map_valueOf_append distinct width [] []

end SqlTable

end SqlTables

/-!
Tables whose rows are values under column names, by row id, and what the statements that add, drop
and fill columns do to them.
-/

namespace SqlTables

abbrev Row := String → SqlValue

structure RowTable where
  columns : OrderedSet String
  rows : OrderedMap Int Row

namespace RowTable

variable (table : RowTable)

def create (columns : List String) : RowTable :=
  { columns := OrderedSet.ofList columns, rows := .empty }

def has (column : String) : Bool := decide (column ∈ table.columns)

def valueOf (row : Row) (column : String) : SqlValue :=
  if table.has column then row column else .null

def addColumn (column : String) (default : SqlValue) : RowTable where
  columns := table.columns.add column
  rows := table.rows.mapValues fun row => Function.update row column default

def dropColumn (column : String) : RowTable where
  columns := table.columns.delete column
  rows := table.rows.mapValues fun row => Function.update row column .null

@[grind =] def update (change : Row → Row) : RowTable :=
  { table with rows := table.rows.mapValues change }

def updateRow (id : Int) (change : Row → Row) : RowTable :=
  { table with rows := table.rows.modify id change }

def ensureColumn (column : String × SqlValue) : RowTable :=
  if table.has column.1 then table else table.addColumn column.1 column.2

def ensureColumns (columns : List (String × SqlValue)) : RowTable :=
  columns.foldl ensureColumn table

def dropColumns (columns : List String) : RowTable :=
  (columns.filter table.has).foldl dropColumn table

variable {table} {columns : List (String × SqlValue)} {column : String}

@[simp] theorem has_addColumn {other : String} {default : SqlValue} :
    (table.addColumn other default).has column = true ↔ column = other ∨ table.has column = true := by
  simp only [has, addColumn, decide_eq_true_eq, OrderedSet.mem_add]

@[simp] theorem has_update (change : Row → Row) :
    (table.update change).has column = table.has column := rfl

theorem has_ensureColumns : (table.ensureColumns columns).has column = true ↔
    table.has column = true ∨ (columns.lookup column).isSome = true := by
  induction columns generalizing table with
  | nil => simp [ensureColumns]
  | cons first rest ih =>
    rw [ensureColumns, List.foldl_cons, ← ensureColumns, ih, ensureColumn, List.lookup_cons]
    by_cases same : column = first.1
    · rw [same, beq_self_eq_true]
      by_cases present : table.has first.1 = true
      · simp [present]
      · rw [if_neg present, has_addColumn]
        simp
    · rw [beq_eq_false_iff_ne.mpr same]
      split
      · exact Iff.rfl
      · rw [has_addColumn]
        simp [same]

def filled (table : RowTable) (columns : List (String × SqlValue)) (row : Row) : Row :=
  fun column => if table.has column then row column else (columns.lookup column).getD (row column)

theorem rows_ensureColumns : (table.ensureColumns columns).rows =
    table.rows.mapValues (table.filled columns) := by
  induction columns generalizing table with
  | nil =>
    refine (OrderedMap.mapValues_eq_self fun entry _ => ?_).symm
    funext column
    simp [filled]
  | cons first rest ih =>
    rw [ensureColumns, List.foldl_cons, ← ensureColumns, ih, ensureColumn]
    split
    · rename_i present
      congr 1
      funext row column
      rw [filled, filled, List.lookup_cons]
      by_cases same : column = first.1
      · rw [same, if_pos present, if_pos present]
      · rw [beq_eq_false_iff_ne.mpr same]
    · rename_i absent
      rw [addColumn, OrderedMap.mapValues_mapValues]
      congr 1
      funext row column
      rw [Function.comp_apply, filled, filled, List.lookup_cons]
      by_cases same : column = first.1
      · have hasFirst : (table.addColumn first.1 first.2).has column = true :=
          has_addColumn.mpr (Or.inl same)
        rw [← addColumn, if_pos hasFirst, same, if_neg absent, Function.update_self, beq_self_eq_true]
        rfl
      · rw [beq_eq_false_iff_ne.mpr same, Function.update_of_ne same, ← addColumn]
        by_cases already : table.has column = true
        · rw [if_pos already, if_pos (has_addColumn.mpr (Or.inr already))]
        · rw [if_neg already, if_neg]
          intro added
          exact (has_addColumn.mp added).elim same already

end RowTable

end SqlTables
