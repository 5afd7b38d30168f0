import BankStatementProcessor.Infra.CrashSafe
import BankStatementProcessor.Infra.F64
import Mathlib.Logic.Function.Basic

/-!
# A database under schema changes

A database is its `user_version`, its tables and indexes, and the rows of each table. A row gives
a value to every column, and only those of the columns of its table count.

Of the constraints the unique ones are kept: a unique index and the primary key of a table that
rows are copied into.
-/

namespace Infra.Sql

inductive Value where
  | null
  | int (n : ℤ)
  | real (x : F64)
  | text (s : String)
deriving DecidableEq, Repr

abbrev Row := String → Value

structure TableDef where
  columns : List String
  primaryKey : List String
deriving DecidableEq, Repr

@[ext] structure Database where
  userVersion : ℕ
  tables : String → Option TableDef
  /-- The table an index is on. -/
  indexes : String → Option String
  rows : String → List Row

/-- The database of a new file. -/
def Database.blank : Database := ⟨0, fun _ => none, fun _ => none, fun _ => []⟩

inductive Stmt where
  | createTable (ifNotExists : Bool) (name : String) (table : TableDef)
  /-- `CREATE INDEX IF NOT EXISTS`, for a unique index with its expressions. -/
  | createIndex (name table : String) (unique : Option (Row → List Value))
  | addColumn (table column : String) (default : Value)
  /-- `DELETE`, which leaves the rows that `keep` leaves. -/
  | deleteRows (table : String) (keep : List Row → List Row)
  | insertSelect (target source : String) (columns : List String)
  | dropTable (name : String)
  | renameTable (name newName : String)
  | setVersion (version : ℕ)

/-- The values of some columns. -/
def selectColumns (columns : List String) (r : Row) : Row :=
  fun c => if c ∈ columns then r c else .null

/-- The key of a row. -/
def keyOf (columns : List String) (r : Row) : List Value := columns.map r

/-- A statement, which fails or is done. -/
def exec : Stmt → Database → Option Database
  | .createTable ifNotExists name table, db =>
    match db.tables name with
    | some _ => if ifNotExists then some db else none
    | none => some { db with
        tables := Function.update db.tables name (some table)
        rows := Function.update db.rows name [] }
  | .createIndex name table unique, db =>
    if (db.indexes name).isSome then some db
    else if (db.tables table).isNone then none
    else if unique.any (fun key => !decide ((db.rows table).map key).Nodup) then none
    else some { db with indexes := Function.update db.indexes name (some table) }
  | .addColumn table column default, db =>
    match db.tables table with
    | none => none
    | some t =>
      if column ∈ t.columns then none
      else some { db with
        tables := Function.update db.tables table (some { t with columns := t.columns ++ [column] })
        rows := Function.update db.rows table
          ((db.rows table).map fun r => Function.update r column default) }
  | .deleteRows table keep, db =>
    match db.tables table with
    | none => none
    | some _ => some { db with rows := Function.update db.rows table (keep (db.rows table)) }
  | .insertSelect target source columns, db =>
    match db.tables target, db.tables source with
    | some t, some s =>
      let rows := db.rows target ++ (db.rows source).map (selectColumns columns)
      if (∀ c ∈ columns, c ∈ t.columns ∧ c ∈ s.columns) ∧ (rows.map (keyOf t.primaryKey)).Nodup then
        some { db with rows := Function.update db.rows target rows }
      else none
    | _, _ => none
  | .dropTable name, db =>
    match db.tables name with
    | none => none
    | some _ => some { db with
        tables := Function.update db.tables name none
        indexes := fun i => if db.indexes i = some name then none else db.indexes i
        rows := Function.update db.rows name [] }
  | .renameTable name newName, db =>
    match db.tables name, db.tables newName with
    | some t, none => some { db with
        tables := Function.update (Function.update db.tables name none) newName (some t)
        indexes := fun i => if db.indexes i = some name then some newName else db.indexes i
        rows := Function.update (Function.update db.rows name []) newName (db.rows name) }
    | _, _ => none
  | .setVersion version, db => some { db with userVersion := version }

section

variable {db : Database} {name newName target source : String} {columns : List String}
  {t s : TableDef}

theorem exec_createTable (h : db.tables name = none) (ifNotExists : Bool) :
    exec (.createTable ifNotExists name t) db = some { db with
      tables := Function.update db.tables name (some t)
      rows := Function.update db.rows name [] } := by
  rw [exec, h]

theorem exec_insertSelect (ht : db.tables target = some t) (hs : db.tables source = some s)
    (hcolumns : ∀ c ∈ columns, c ∈ t.columns ∧ c ∈ s.columns)
    (hkeys : ((db.rows target ++ (db.rows source).map (selectColumns columns)).map
      (keyOf t.primaryKey)).Nodup) :
    exec (.insertSelect target source columns) db = some { db with
      rows := Function.update db.rows target
        (db.rows target ++ (db.rows source).map (selectColumns columns)) } := by
  rw [exec, ht, hs]
  exact if_pos ⟨hcolumns, hkeys⟩

theorem exec_dropTable (h : db.tables name = some t) :
    exec (.dropTable name) db = some { db with
      tables := Function.update db.tables name none
      indexes := fun i => if db.indexes i = some name then none else db.indexes i
      rows := Function.update db.rows name [] } := by
  rw [exec, h]

theorem exec_renameTable (h : db.tables name = some t) (hnew : db.tables newName = none) :
    exec (.renameTable name newName) db = some { db with
      tables := Function.update (Function.update db.tables name none) newName (some t)
      indexes := fun i => if db.indexes i = some name then some newName else db.indexes i
      rows := Function.update (Function.update db.rows name []) newName (db.rows name) } := by
  rw [exec, h, hnew]

end

/-- Statements in a transaction: all of them, or none. -/
def execStep (stmts : List Stmt) (db : Database) : Option Database := execAll exec stmts db

@[simp] theorem execStep_singleton (stmt : Stmt) (db : Database) :
    execStep [stmt] db = exec stmt db := by
  cases h : exec stmt db <;> simp [execStep, h]

theorem execAll_singletons (stmts : List Stmt) (db : Database) :
    execAll execStep (stmts.map fun stmt => [stmt]) db = execAll exec stmts db := by
  induction stmts generalizing db with
  | nil => rfl
  | cons stmt stmts ih =>
    rw [List.map_cons, execAll_cons, execStep_singleton, execAll_cons]
    congr 1
    funext db'
    exact ih db'

/-! ## Statements that make what is missing -/

/-- A single statement that makes a table or an index where there is none of the name. -/
def creates : List Stmt → Bool
  | [.createTable true _ _] => true
  | [.createIndex _ _ _] => true
  | _ => false

/-- What the statement makes is there. -/
def Made (db : Database) : List Stmt → Prop
  | [.createTable _ name _] => (db.tables name).isSome
  | [.createIndex name _ _] => (db.indexes name).isSome
  | _ => False

section

variable {db db' : Database} {step step' : List Stmt} {steps : List (List Stmt)} {name : String}

/-- What such a statement changes. -/
theorem execStep_creates (hc : creates step) (h : execStep step db = some db') :
    (Made db step ∧ db' = db) ∨
      (∃ name table, step = [.createTable true name table] ∧ db.tables name = none ∧
        db' = { db with
          tables := Function.update db.tables name (some table)
          rows := Function.update db.rows name [] }) ∨
      (∃ name table unique, step = [.createIndex name table unique] ∧ db.indexes name = none ∧
        (db.tables table).isSome ∧
        db' = { db with indexes := Function.update db.indexes name (some table) }) := by
  unfold creates at hc
  split at hc
  · rename_i name table
    rw [execStep_singleton, exec] at h
    cases hname : db.tables name with
    | none =>
      rw [hname, Option.some.injEq] at h
      exact .inr (.inl ⟨name, table, rfl, hname, h.symm⟩)
    | some t =>
      rw [hname] at h
      refine .inl ⟨?_, by simpa using h.symm⟩
      show (db.tables name).isSome = true
      rw [hname]
      rfl
  · rename_i name table unique
    rw [execStep_singleton, exec] at h
    by_cases hname : (db.indexes name).isSome = true
    · rw [if_pos hname, Option.some.injEq] at h
      exact .inl ⟨hname, h.symm⟩
    · rw [if_neg hname] at h
      split at h
      · cases h
      · rename_i htable
        split at h
        · cases h
        · rw [Option.some.injEq] at h
          refine .inr (.inr ⟨name, table, unique, rfl, by simpa using hname, ?_, h.symm⟩)
          simpa [Option.isSome_iff_ne_none] using htable
  · cases hc

theorem execStep_of_made (hc : creates step) (h : Made db step) :
    execStep step db = some db := by
  unfold creates at hc
  split at hc
  · obtain ⟨t, ht⟩ := Option.isSome_iff_exists.mp h
    rw [execStep_singleton, exec, ht]
    rfl
  · rw [execStep_singleton, exec]
    exact if_pos h
  · cases hc

/-- Tables and indexes that are there stay. -/
theorem tables_of_creates (hc : creates step) (h : execStep step db = some db')
    (hname : (db.tables name).isSome) : db'.tables name = db.tables name := by
  rcases execStep_creates hc h with ⟨-, rfl⟩ | ⟨n, t, -, hn, rfl⟩ | ⟨n, t, u, -, -, -, rfl⟩
  · rfl
  · refine Function.update_of_ne ?_ _ _
    rintro rfl
    simp [hn] at hname
  · rfl

theorem indexes_of_creates (hc : creates step) (h : execStep step db = some db')
    (hname : (db.indexes name).isSome) : db'.indexes name = db.indexes name := by
  rcases execStep_creates hc h with ⟨-, rfl⟩ | ⟨n, t, -, -, rfl⟩ | ⟨n, t, u, -, hn, -, rfl⟩
  · rfl
  · rfl
  · refine Function.update_of_ne ?_ _ _
    rintro rfl
    simp [hn] at hname

theorem rows_of_creates (hc : creates step) (h : execStep step db = some db')
    (hname : (db.tables name).isSome) : db'.rows name = db.rows name := by
  rcases execStep_creates hc h with ⟨-, rfl⟩ | ⟨n, t, -, hn, rfl⟩ | ⟨n, t, u, -, -, -, rfl⟩
  · rfl
  · refine Function.update_of_ne ?_ _ _
    rintro rfl
    simp [hn] at hname
  · rfl

theorem userVersion_of_creates (hc : creates step) (h : execStep step db = some db') :
    db'.userVersion = db.userVersion := by
  rcases execStep_creates hc h with ⟨-, rfl⟩ | ⟨n, t, -, hn, rfl⟩ | ⟨n, t, u, -, -, -, rfl⟩ <;> rfl

theorem made_of_creates (hc : creates step) (h : execStep step db = some db') : Made db' step := by
  rcases execStep_creates hc h with ⟨hmade, rfl⟩ | ⟨n, t, rfl, -, rfl⟩ | ⟨n, t, u, rfl, -, -, rfl⟩
  · exact hmade
  · simp [Made]
  · simp [Made]

theorem Made.execStep (hmade : Made db step) (hc : creates step')
    (h : execStep step' db = some db') : Made db' step := by
  unfold Made at hmade ⊢
  split at hmade
  · show (db'.tables _).isSome = true
    rw [tables_of_creates hc h hmade]
    exact hmade
  · show (db'.indexes _).isSome = true
    rw [indexes_of_creates hc h hmade]
    exact hmade
  · exact hmade

theorem Made.execAll (hmade : Made db step) (hc : ∀ s ∈ steps, creates s)
    (h : execAll Sql.execStep steps db = some db') : Made db' step := by
  induction steps generalizing db with
  | nil => rw [← Option.some.inj h]; exact hmade
  | cons s steps ih =>
    rw [execAll_cons] at h
    obtain ⟨db₁, hstep, hrest⟩ := Option.bind_eq_some_iff.mp h
    exact ih (hmade.execStep (hc s List.mem_cons_self) hstep)
      (fun s' hs' => hc s' (List.mem_cons_of_mem _ hs')) hrest

theorem made_of_execAll (hc : ∀ s ∈ steps, creates s)
    (h : execAll execStep steps db = some db') : ∀ s ∈ steps, Made db' s := by
  induction steps generalizing db with
  | nil => simp
  | cons s steps ih =>
    rw [execAll_cons] at h
    obtain ⟨db₁, hstep, hrest⟩ := Option.bind_eq_some_iff.mp h
    have hcrest : ∀ s' ∈ steps, creates s' := fun s' hs' => hc s' (List.mem_cons_of_mem _ hs')
    intro s' hs'
    rcases List.mem_cons.mp hs' with rfl | hs'
    · exact (made_of_creates (hc s' List.mem_cons_self) hstep).execAll hcrest hrest
    · exact ih hcrest hrest s' hs'

/-- Once they are done, such statements change nothing any more. -/
theorem execAll_creates_settled (hc : ∀ s ∈ steps, creates s)
    (h : execAll execStep steps db = some db') : ∀ s ∈ steps, execStep s db' = some db' :=
  fun s hs => execStep_of_made (hc s hs) (made_of_execAll hc h s hs)

theorem execAll_creates_again (hc : ∀ s ∈ steps, creates s)
    (h : execAll execStep steps db = some db') : execAll execStep steps db' = some db' :=
  execAll_of_settled (execAll_creates_settled hc h)

theorem exists_createUniqueIndex {key : Row → List Value} (index : String)
    (h : (db.tables name).isSome) (hkey : ((db.rows name).map key).Nodup) :
    ∃ db', execStep [.createIndex index name (some key)] db = some db' := by
  rw [execStep_singleton, exec]
  by_cases hindex : (db.indexes index).isSome = true
  · exact ⟨db, if_pos hindex⟩
  · rw [if_neg hindex, if_neg (by simpa [Option.isSome_iff_ne_none] using h),
      if_neg (by simpa using hkey)]
    exact ⟨_, rfl⟩

/-- Indexes of one table, made where they are missing. -/
def Database.withIndexes (db : Database) (indexes : List String) (name : String) : Database :=
  { db with indexes := fun i => (db.indexes i).or (if i ∈ indexes then some name else none) }

theorem exec_createIndex (index : String) (h : (db.tables name).isSome) :
    exec (.createIndex index name none) db = some (db.withIndexes [index] name) := by
  rw [exec]
  by_cases hindex : (db.indexes index).isSome = true
  · rw [if_pos hindex, Option.some.injEq]
    ext1
    · rfl
    · rfl
    · funext i
      by_cases hi : i = index
      · obtain ⟨t, ht⟩ := Option.isSome_iff_exists.mp hindex
        simp [Database.withIndexes, hi, ht]
      · simp [Database.withIndexes, hi]
    · rfl
  · rw [if_neg hindex, if_neg (by simpa [Option.isSome_iff_ne_none] using h), Option.any_none,
      if_neg Bool.false_ne_true, Option.some.injEq]
    ext1
    · rfl
    · rfl
    · funext i
      by_cases hi : i = index
      · simp [Database.withIndexes, hi, Option.not_isSome_iff_eq_none.mp hindex]
      · simp [Database.withIndexes, hi]
    · rfl

/-- A script that makes a table first can be run if its rest can be run with the table. -/
theorem exists_execAll_createTable {table : TableDef}
    (h : ∀ db₁ : Database, (db₁.tables name).isSome → ∃ db', execAll execStep steps db₁ = some db') :
    ∃ db', execAll execStep ([.createTable true name table] :: steps) db = some db' := by
  have hstep : ∃ db₁, execStep [.createTable true name table] db = some db₁ := by
    rw [execStep_singleton, exec]
    cases db.tables name with
    | none => exact ⟨_, rfl⟩
    | some t => exact ⟨db, rfl⟩
  obtain ⟨db₁, hstep⟩ := hstep
  obtain ⟨db', hrest⟩ := h db₁ (made_of_creates rfl hstep)
  exact ⟨db', by rw [execAll_cons, hstep, Option.bind_some, hrest]⟩

theorem exists_execAll_createIndex {index : String} (hname : (db.tables name).isSome)
    (h : ∃ db', execAll execStep steps (db.withIndexes [index] name) = some db') :
    ∃ db', execAll execStep ([.createIndex index name none] :: steps) db = some db' := by
  obtain ⟨db', hrest⟩ := h
  exact ⟨db', by rw [execAll_cons, execStep_singleton, exec_createIndex index hname,
    Option.bind_some, hrest]⟩

theorem execAll_createIndexes {indexes : List String} (h : (db.tables name).isSome) :
    execAll exec (indexes.map fun i => .createIndex i name none) db =
      some (db.withIndexes indexes name) := by
  induction indexes generalizing db with
  | nil => simp [Database.withIndexes]
  | cons index indexes ih =>
    have hrest := @ih (db.withIndexes [index] name) h
    rw [List.map_cons, execAll_cons, exec_createIndex index h, Option.bind_some, hrest,
      Option.some.injEq]
    ext1
    · rfl
    · rfl
    · funext i
      by_cases hi : i = index <;> simp [Database.withIndexes, hi, Option.or_assoc]
    · rfl

/-- Tables, made where they are missing. -/
def Database.withTables (db : Database) (tables : List (String × TableDef)) : Database :=
  { db with tables := fun name => (db.tables name).or (tables.lookup name) }

theorem lookup_cons_pair {name : String} {t : String × TableDef} {ts : List (String × TableDef)} :
    (t :: ts).lookup name = if name = t.1 then some t.2 else ts.lookup name := by
  obtain ⟨key, table⟩ := t
  rw [List.lookup_cons]
  by_cases hkey : name = key
  · rw [if_pos hkey, beq_iff_eq.mpr hkey]
  · rw [if_neg hkey, beq_false_of_ne hkey]

/-- Of a database without rows nothing else changes. -/
theorem execAll_createTables {tables : List (String × TableDef)} (h : db.rows = fun _ => []) :
    execAll exec (tables.map fun t => .createTable true t.1 t.2) db =
      some (db.withTables tables) := by
  induction tables generalizing db with
  | nil => simp [Database.withTables]
  | cons t tables ih =>
    have hstep : exec (.createTable true t.1 t.2) db = some (db.withTables [t]) := by
      rw [exec]
      cases ht : db.tables t.1 with
      | some t' =>
        simp only [if_true, Option.some.injEq]
        ext1
        · rfl
        · funext name
          by_cases hname : name = t.1
          · simp [Database.withTables, hname, ht]
          · simp [Database.withTables, lookup_cons_pair, hname]
        · rfl
        · rfl
      | none =>
        rw [Option.some.injEq]
        ext1
        · rfl
        · funext name
          by_cases hname : name = t.1
          · simp [Database.withTables, hname, ht, lookup_cons_pair]
          · show Function.update db.tables t.1 (some t.2) name = _
            rw [Function.update_of_ne hname]
            simp [Database.withTables, lookup_cons_pair, hname]
        · rfl
        · show Function.update db.rows t.1 [] = db.rows
          rw [h]
          simp
    rw [List.map_cons, execAll_cons, hstep, Option.bind_some, @ih (db.withTables [t]) h,
      Option.some.injEq]
    ext1
    · rfl
    · funext name
      show ((db.tables name).or ([t].lookup name)).or (tables.lookup name) = _
      rw [Option.or_assoc, ← List.lookup_append, List.singleton_append]
      rfl
    · rfl
    · rfl

end

/-! ## Columns -/

/-- The row with the defaults of new columns. -/
def withDefaults (columns : List (String × Value)) (r : Row) : Row :=
  columns.foldl (fun r c => Function.update r c.1 c.2) r

@[simp] theorem withDefaults_nil : withDefaults [] = id := rfl

@[simp] theorem withDefaults_cons (c : String × Value) (columns : List (String × Value)) (r : Row) :
    withDefaults (c :: columns) r = withDefaults columns (Function.update r c.1 c.2) := rfl

theorem withDefaults_of_notMem {columns : List (String × Value)} {c : String} {r : Row}
    (h : c ∉ columns.map Prod.fst) : withDefaults columns r c = r c := by
  induction columns generalizing r with
  | nil => rfl
  | cons new columns ih =>
    rw [List.map_cons, List.mem_cons, not_or] at h
    rw [withDefaults_cons, ih h.2, Function.update_of_ne h.1]

theorem keyOf_withDefaults {columns : List (String × Value)} {key : List String} {r : Row}
    (h : ∀ c ∈ key, c ∉ columns.map Prod.fst) : keyOf key (withDefaults columns r) = keyOf key r :=
  List.map_congr_left fun c hc => withDefaults_of_notMem (h c hc)

/-- A table with more columns. -/
def Database.addColumns (db : Database) (name : String) (t : TableDef)
    (columns : List (String × Value)) : Database :=
  { db with
    tables := Function.update db.tables name
      (some { t with columns := t.columns ++ columns.map Prod.fst })
    rows := Function.update db.rows name ((db.rows name).map (withDefaults columns)) }

section

variable {db : Database} {name n : String} {t : TableDef} {columns : List (String × Value)}

@[simp] theorem addColumns_tables_self : (db.addColumns name t columns).tables name =
    some { t with columns := t.columns ++ columns.map Prod.fst } :=
  Function.update_self ..

theorem addColumns_tables_of_ne (h : n ≠ name) :
    (db.addColumns name t columns).tables n = db.tables n :=
  Function.update_of_ne h ..

/-- What does not read the new columns finds the same rows. -/
theorem map_rows_addColumns {α : Type*} {f : Row → α} (h : ∀ r, f (withDefaults columns r) = f r) :
    ((db.addColumns name t columns).rows n).map f = (db.rows n).map f := by
  show (Function.update db.rows name ((db.rows name).map (withDefaults columns)) n).map f = _
  by_cases hn : n = name
  · subst hn
    rw [Function.update_self, List.map_map]
    exact List.map_congr_left fun r _ => h r
  · rw [Function.update_of_ne hn]

end

theorem execAll_addColumns {db : Database} {name : String} {t : TableDef}
    (columns : List (String × Value)) (ht : db.tables name = some t)
    (hnew : ∀ c ∈ columns.map Prod.fst, c ∉ t.columns) (hnodup : (columns.map Prod.fst).Nodup) :
    execAll execStep (columns.map fun c => [.addColumn name c.1 c.2]) db =
      some (db.addColumns name t columns) := by
  induction columns generalizing db t with
  | nil => simp [Database.addColumns, ← ht]
  | cons c columns ih =>
    rw [List.map_cons, List.nodup_cons] at hnodup
    have hstep : execStep [.addColumn name c.1 c.2] db = some (db.addColumns name t [c]) := by
      rw [execStep_singleton, exec, ht]
      exact if_neg (hnew c.1 (by simp))
    have hnew' : ∀ c' ∈ columns.map Prod.fst, c' ∉ t.columns ++ [c.1] := by
      intro c' hc' hmem
      rcases List.mem_append.mp hmem with hmem | hmem
      · exact hnew c' (List.mem_cons_of_mem _ hc') hmem
      · rw [List.mem_singleton.mp hmem] at hc'
        exact hnodup.1 hc'
    rw [List.map_cons, execAll_cons, hstep, Option.bind_some,
      ih (t := { t with columns := t.columns ++ [c.1] }) (by simp [Database.addColumns]) hnew' hnodup.2]
    simp only [Database.addColumns, Function.update_self, Function.update_idem, List.map_map,
      List.append_assoc, List.map_cons, List.map_nil, List.singleton_append]
    rfl

end Infra.Sql
