import PrReviewer.Contracts
import PrReviewer.Lib.Program
import PrReviewer.Lib.Run
import Mathlib.Logic.Function.Basic

/-!
# Opening the local store

`open_local_store`, `_run_migrations` and `open_or_recover_local_store`, statement by
statement, over the file they work on.  `executescript` commits each statement by itself,
and the row of `schema_migrations` is a transaction of its own, so the process can be
killed between any two of them.

Another open connection may hold a lock on the file for longer than SQLite waits.  In WAL
mode a writer locks out writers only; the change to WAL mode needs the file for itself.

Of the schema the model keeps which tables and indexes there are.  A column a table does
not have yet reads as its default.
-/

namespace PrReviewer
namespace Runner

open Lib

inductive TableName where
  | localJobs
  | localSnapshots
  | localFindings
  | localHumanDecisions
  | localHumanDecisionsNew
  | localEvents
  | localPendingAcknowledgements
  | workflowRuns
  | workflowSteps
  | localJobBudgets
deriving DecidableEq, Repr

inductive IndexName where
  | localJobsStatusIdx
  | localFindingsJobIdx
  | localHumanDecisionsFindingIdx
  | localEventsJobIdx
  | localPendingAcknowledgementsJobIdx
  | workflowRunsJobIdx
deriving DecidableEq, Repr

inductive SqliteValue where
  | null
  | integer (n : Int)
  | real (x : Decimal)
  | text (s : String)
deriving DecidableEq, Repr

/-- A row; the two hashes are columns of `local_human_decisions` since its second version. -/
structure LocalRow where
  columns : List (String × SqliteValue)
  originalHash : String
  editedHash : String
deriving DecidableEq, Repr

/-- The `id` of a row. -/
def LocalRow.id (row : LocalRow) : Option SqliteValue :=
  row.columns.lookup "id"

/-- The row as the columns of the first version have it; the others take their default. -/
def LocalRow.withoutHashes (row : LocalRow) : LocalRow :=
  { row with originalHash := "", editedHash := "" }

/-- The statements of the migrations. -/
inductive MigrationStatement where
  | createTable (table : TableName)
  | createIndex (index : IndexName) (table : TableName)
  | insertSelect (target source : TableName)
  | dropTable (table : TableName)
  | renameTable (table target : TableName)
deriving DecidableEq, Repr

/-- The files of local_store/migrations, in the order of their names. -/
inductive Migration where
  | localState
  | humanFeedbackHashes
  | workflowRuns
  | jobBudgetReservations
deriving DecidableEq, Repr

/-- `sorted(MIGRATIONS_DIRECTORY.glob("*.sql"))`. -/
def migrations : List Migration :=
  [.localState, .humanFeedbackHashes, .workflowRuns, .jobBudgetReservations]

def Migration.script : Migration → List MigrationStatement
  | .localState =>
      [.createTable .localJobs,
        .createIndex .localJobsStatusIdx .localJobs,
        .createTable .localSnapshots,
        .createTable .localFindings,
        .createIndex .localFindingsJobIdx .localFindings,
        .createTable .localHumanDecisions,
        .createIndex .localHumanDecisionsFindingIdx .localHumanDecisions,
        .createTable .localEvents,
        .createIndex .localEventsJobIdx .localEvents,
        .createTable .localPendingAcknowledgements,
        .createIndex .localPendingAcknowledgementsJobIdx .localPendingAcknowledgements]
  | .humanFeedbackHashes =>
      [.createTable .localHumanDecisionsNew,
        .insertSelect .localHumanDecisionsNew .localHumanDecisions,
        .dropTable .localHumanDecisions,
        .renameTable .localHumanDecisionsNew .localHumanDecisions,
        .createIndex .localHumanDecisionsFindingIdx .localHumanDecisions]
  | .workflowRuns =>
      [.createTable .workflowRuns,
        .createIndex .workflowRunsJobIdx .workflowRuns,
        .createTable .workflowSteps]
  | .jobBudgetReservations => [.createTable .localJobBudgets]

/-- What the statements raise; all of them are `sqlite3.DatabaseError`. -/
inductive SqliteError where
  | notADatabase
  | locked
  | alreadyExists
  | noSuchTable
  | uniqueViolation
deriving DecidableEq, Repr

/-- A SQLite file that is one. -/
structure SqliteFile where
  wal : Bool
  tables : TableName → Option (List LocalRow)
  indexes : IndexName → Option TableName
  schemaMigrations : Option (List (Migration × String))

/-- The file `sqlite3.connect` creates. -/
def SqliteFile.empty : SqliteFile where
  wal := false
  tables := fun _ => none
  indexes := fun _ => none
  schemaMigrations := none

/-- The file after a statement. -/
def MigrationStatement.apply (f : SqliteFile) : MigrationStatement → Except SqliteError SqliteFile
  | .createTable table =>
      if (f.tables table).isSome then
        .error .alreadyExists
      else
        .ok { f with tables := Function.update f.tables table (some []) }
  | .createIndex index table =>
      if (f.tables table).isNone then
        .error .noSuchTable
      else if (f.indexes index).isSome then
        .error .alreadyExists
      else
        .ok { f with indexes := Function.update f.indexes index (some table) }
  | .insertSelect target source =>
      match f.tables target, f.tables source with
      | some rows, some selected =>
          if selected.any (fun row => rows.any (fun old => decide (old.id = row.id))) then
            .error .uniqueViolation
          else
            .ok
              { f with
                tables := Function.update f.tables target
                  (some (rows ++ selected.map LocalRow.withoutHashes)) }
      | _, _ => .error .noSuchTable
  | .dropTable table =>
      if (f.tables table).isNone then
        .error .noSuchTable
      else
        -- the indexes of a table go with it
        .ok
          { f with
            tables := Function.update f.tables table none
            indexes := fun index =>
              if f.indexes index = some table then none else f.indexes index }
  | .renameTable table target =>
      match f.tables table with
      | none => .error .noSuchTable
      | some rows =>
          if (f.tables target).isSome then
            .error .alreadyExists
          else
            .ok
              { f with
                tables :=
                  Function.update (Function.update f.tables table none) target (some rows)
                indexes := fun index =>
                  if f.indexes index = some table then some target else f.indexes index }

/-- What stands at a path: a SQLite file, or bytes that are none. -/
inductive FileContent where
  | damaged
  | sqlite (f : SqliteFile)

/-- What another connection holds on the file for longer than `connect` waits. -/
inductive FileLock where
  | unlocked
  | writing
  | exclusive
deriving DecidableEq, Repr

/-- The directory of the store: the file at the path, and the files renamed away from it. -/
structure StoreDirectory where
  path : Option FileContent
  quarantined : List FileContent
  lock : FileLock

def StoreDirectory.empty : StoreDirectory where
  path := none
  quarantined := []
  lock := .unlocked

/-- What the functions raise: an error of SQLite, or `LocalStoreCorrupted`. -/
inductive OpenError where
  | database (error : SqliteError)
  | localStoreCorrupted
deriving DecidableEq, Repr

/-- The calls of the functions on the directory. -/
inductive FileOp where
  | connect
  | journalModeWal
  | createSchemaMigrations
  | selectApplied
  | execute (statement : MigrationStatement)
  | recordMigration (m : Migration) (checksum : String)
  | renameToQuarantine
deriving DecidableEq, Repr

/-- What a call returns. -/
abbrev FileOp.Value : FileOp → Type
  | .selectApplied => List (Migration × String)
  | _ => Unit

abbrev FileOp.Result (op : FileOp) : Type :=
  Except SqliteError op.Value

abbrev FileProgram (α : Type) : Type :=
  Program FileOp.Result OpenError α

/-- A call: what SQLite raises is raised. -/
def callFile (op : FileOp) : FileProgram op.Value := do
  let result ← (Program.perform op : FileProgram op.Result)
  Program.ofExcept (result.mapError OpenError.database)

/-- `connection.executescript(sql)`. -/
def executescript (statements : List MigrationStatement) : FileProgram Unit :=
  Program.forEach statements (fun statement => callFile (.execute statement))

/-! ## The calls on the directory -/

namespace StoreDirectory

variable (d : StoreDirectory)

/-- The file at the path becomes `f`. -/
def put (f : SqliteFile) : StoreDirectory :=
  { d with path := some (.sqlite f) }

/-- A statement on the connection that reads. -/
def reading {α : Type} (read : SqliteFile → Except SqliteError α) : Except SqliteError α :=
  match d.path with
  | some (.sqlite f) => if d.lock = .exclusive then .error .locked else read f
  | _ => .error .notADatabase

/-- A statement that writes; what it raises before it writes comes before the lock. -/
def writing (write : SqliteFile → Except SqliteError SqliteFile) :
    Except SqliteError Unit × StoreDirectory :=
  match d.reading write with
  | .error e => (.error e, d)
  | .ok f =>
      if d.lock = .unlocked then
        (.ok (), d.put f)
      else
        (.error .locked, d)

/-- `pragma journal_mode=WAL`. -/
def journalModeWal : Except SqliteError Unit × StoreDirectory :=
  match d.reading (fun f => .ok f.wal) with
  | .error e => (.error e, d)
  | .ok true => (.ok (), d)
  | .ok false => d.writing (fun f => .ok { f with wal := true })

/-- `create table if not exists schema_migrations`. -/
def createSchemaMigrations : Except SqliteError Unit × StoreDirectory :=
  match d.reading (fun f => .ok f.schemaMigrations.isSome) with
  | .error e => (.error e, d)
  | .ok true => (.ok (), d)
  | .ok false => d.writing (fun f => .ok { f with schemaMigrations := some [] })

/-- `select filename, checksum from schema_migrations`. -/
def selectApplied : Except SqliteError (List (Migration × String)) :=
  d.reading (fun f =>
    match f.schemaMigrations with
    | some applied => .ok applied
    | none => .error .noSuchTable)

/-- `insert into schema_migrations`, and its commit. -/
def recordMigration (m : Migration) (checksum : String) :
    Except SqliteError Unit × StoreDirectory :=
  d.writing (fun f =>
    match f.schemaMigrations with
    | some applied =>
        if (applied.lookup m).isSome then
          .error .uniqueViolation
        else
          .ok { f with schemaMigrations := some (applied ++ [(m, checksum)]) }
    | none => .error .noSuchTable)

/-- How the directory answers a call.  The lock goes with the file that is renamed. -/
def answer : (op : FileOp) → StoreDirectory → op.Result × StoreDirectory
  | .connect, d => (.ok (), { d with path := some (d.path.getD (.sqlite .empty)) })
  | .journalModeWal, d => d.journalModeWal
  | .createSchemaMigrations, d => d.createSchemaMigrations
  | .selectApplied, d => (d.selectApplied, d)
  | .execute statement, d => d.writing statement.apply
  | .recordMigration m checksum, d => d.recordMigration m checksum
  | .renameToQuarantine, d =>
      (.ok (),
        { path := none
          quarantined := d.quarantined ++ d.path.toList
          lock := .unlocked })

end StoreDirectory

/-! ## The functions -/

section Open

variable (sha256 : Migration → String)

/-- The body of the loop of `_run_migrations`. -/
def runMigration (applied : List (Migration × String)) (m : Migration) : FileProgram Unit :=
  match applied.lookup m with
  | some checksum =>
      if checksum ≠ sha256 m then
        Program.raise .localStoreCorrupted
      else
        pure ()
  | none => do
      executescript m.script
      callFile (.recordMigration m (sha256 m))

/-- `_run_migrations`, of a version of the program with the first `version` migrations. -/
def runMigrations (version : Nat) : FileProgram Unit := do
  callFile .createSchemaMigrations
  let applied ← callFile .selectApplied
  Program.forEach (migrations.take version) (runMigration sha256 applied)

/-- `open_local_store`. -/
def openLocalStore (version : Nat) : FileProgram Unit := do
  callFile .connect
  (do
      callFile .journalModeWal
      runMigrations sha256 version).catching (fun _ => Program.raise .localStoreCorrupted)

/-- `open_or_recover_local_store`. -/
def openOrRecoverLocalStore (version : Nat) : FileProgram Unit :=
  (openLocalStore sha256 version).catching (fun e =>
    match e with
    | .localStoreCorrupted => do
        callFile .renameToQuarantine
        openLocalStore sha256 version
    | e => Program.raise e)

end Open

/-! ## Histories of a store -/

/-- `schema_migrations` has a row of the migration. -/
def SqliteFile.records (f : SqliteFile) (m : Migration) : Bool :=
  ((f.schemaMigrations.getD []).lookup m).isSome

/--
What happens at the path of the store: a version of the program opens it and may be killed
after any number of calls, rows are committed, and another connection takes or leaves its
lock.
-/
inductive FileAction where
  | openOrRecover (version killedAfter : Nat)
  | commitRows (table : TableName) (rows : List LocalRow)
  | setLock (lock : FileLock)

/-- The rows of a table become `rows`; only a program that has migrated them writes hashes. -/
def SqliteFile.commitRows (f : SqliteFile) (table : TableName) (rows : List LocalRow) :
    SqliteFile :=
  if (f.tables table).isSome ∧
      (f.records .humanFeedbackHashes = true ∨ ∀ row ∈ rows, row.withoutHashes = row) then
    { f with tables := Function.update f.tables table (some rows) }
  else
    f

/-- One step of a history. -/
def fileStep (sha256 : Migration → String) (d : StoreDirectory) : FileAction → StoreDirectory
  | .openOrRecover version killedAfter =>
      Program.killed StoreDirectory.answer killedAfter (openOrRecoverLocalStore sha256 version) d
  | .commitRows table rows =>
      match d.path with
      | some (.sqlite f) => d.put (f.commitRows table rows)
      | _ => d
  | .setLock lock => { d with lock := lock }

/-- The directory after a history. -/
def directoryAfter (sha256 : Migration → String) (actions : List FileAction) : StoreDirectory :=
  exec (fileStep sha256) .empty actions

end Runner
end PrReviewer
