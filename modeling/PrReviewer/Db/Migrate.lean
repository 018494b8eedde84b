import Mathlib.Data.List.Basic
import Mathlib.Data.List.Infix
import Mathlib.Tactic
import PrReviewer.Lib.Run
import PrReviewer.Lib.Table

/-!
# Migrating the hosted database

db/migrate.py.  A call takes an advisory lock, reads which files are recorded, and runs
the files that are not.  The connection is not in autocommit mode: a file is run in a
savepoint of one transaction, and that transaction is committed behind the release of the
lock.  Between the two another call may take the lock and read the table without the rows
that are about to be committed.

A call may be killed between any two statements.  What it has not committed is rolled
back, and its lock is free.
-/

namespace PrReviewer
namespace Db

open Lib

/-- `Migration`. -/
structure Migration where
  filename : String
  sql : String
  checksum : String
deriving DecidableEq, Repr

/-- The `*.sql` files of a release with their texts, as `sorted` lists them. -/
structure MigrationsDirectory where
  entries : List (String × String)
  sorted : entries.Pairwise (fun a b => a.1 < b.1)

/-- `load_migrations`. -/
def loadMigrations (sha256 : String → String) (directory : MigrationsDirectory) :
    List Migration :=
  directory.entries.map (fun entry =>
    { filename := entry.1, sql := entry.2, checksum := sha256 entry.2 })

/-- `get_missing_applied_migration_filenames`. -/
def getMissingAppliedMigrationFilenames
    (appliedFilenames availableFilenames : List String) : List String :=
  appliedFilenames.filter (fun filename => decide (filename ∉ availableFilenames))

/-- What `migrate` raises: its own `RuntimeError`, or an error of the database. -/
inductive MigrateError where
  | runtimeError (message : String)
  | scriptFailed (filename : String)
  | uniqueViolation (filename : String)
deriving DecidableEq, Repr

def missingFiles (missing : List String) : MigrateError :=
  .runtimeError ("Applied migration files are missing: " ++ String.intercalate ", " missing)

def checksumMismatch (filename : String) : MigrateError :=
  .runtimeError ("Migration checksum mismatch: " ++ filename)

/-- The row of `schema_migrations`: its primary key is the file name. -/
def Migration.row (m : Migration) : String × String :=
  (m.filename, m.checksum)

/--
How far a call is.  `applying` holds the dict of the applied rows and the files the loop
has not come to; `closing` is behind the release of the lock.
-/
inductive Phase where
  | waiting
  | reading
  | applying (applied : List (String × String)) (todo : List Migration)
  | closing (outcome : Except MigrateError Unit)

/-- A call of `migrate`, with the files it loaded. -/
structure Call where
  migrations : List Migration
  phase : Phase

/--
The database.  A file that is run and its row are of one savepoint, so one list holds
both: `committed` are the files that were run and recorded, in this order, `uncommitted`
those of the open transactions.  `returned` are the files of the calls that returned.
-/
structure Database where
  committed : List Migration
  uncommitted : List (Nat × Migration)
  lockHolder : Option Nat
  calls : Nat → Option Call
  returned : List (List Migration)

/-- An empty database that nobody is connected to. -/
def Database.empty : Database where
  committed := []
  uncommitted := []
  lockHolder := none
  calls := fun _ => none
  returned := []

/-- What the transaction of a call would commit. -/
def Database.own (s : Database) (id : Nat) : List Migration :=
  (s.uncommitted.filter (fun entry => entry.1 = id)).map Prod.snd

def Database.put (s : Database) (id : Nat) (call : Call) : Database :=
  { s with calls := Function.update s.calls id (some call) }

/-- `pg_advisory_unlock`, and where the call goes on. -/
def Database.release (s : Database) (id : Nat) : Database :=
  { s with lockHolder := if s.lockHolder = some id then none else s.lockHolder }

/-- The transaction of a call ends without a trace, as its connection does. -/
def Database.rollback (s : Database) (id : Nat) : Database :=
  { s.release id with
    uncommitted := s.uncommitted.filter (fun entry => entry.1 ≠ id)
    calls := Function.update s.calls id none }

/-- The last `conn.commit()` of a call, which then returns or raises. -/
def Database.commit (s : Database) (id : Nat) (call : Call) (outcome : Except MigrateError Unit) :
    Database where
  committed := s.committed ++ s.own id
  uncommitted := s.uncommitted.filter (fun entry => entry.1 ≠ id)
  lockHolder := s.lockHolder
  calls := Function.update s.calls id none
  returned :=
    match outcome with
    | .ok _ => s.returned ++ [call.migrations]
    | .error _ => s.returned

/-- The `finally` clause up to the release of the lock. -/
def Database.close (s : Database) (id : Nat) (call : Call) (outcome : Except MigrateError Unit) :
    Database :=
  (s.release id).put id { call with phase := .closing outcome }

/-- One migration in its savepoint: the script, and then the row. -/
def applyMigration
    (s : Database) (id : Nat) (call : Call) (applied : List (String × String))
    (m : Migration) (todo : List Migration) (scriptFails : Bool) : Database :=
  if scriptFails then
    s.close id call (.error (.scriptFailed m.filename))
  else if m.filename ∈ s.committed.map Migration.filename then
    s.close id call (.error (.uniqueViolation m.filename))
  -- the insertion waits for the transaction that has inserted the key
  else if m.filename ∈ s.uncommitted.map (fun entry => entry.2.filename) then
    s
  else
    { s with uncommitted := s.uncommitted ++ [(id, m)] }.put id
      { call with phase := .applying applied todo }

/-- The next statement of a call. -/
def proceed (s : Database) (id : Nat) (call : Call) (scriptFails : Bool) : Database :=
  match call.phase with
  | .waiting =>
      if s.lockHolder = none then
        { s with lockHolder := some id }.put id { call with phase := .reading }
      else
        s
  | .reading =>
      let applied := s.committed.map Migration.row
      let missing :=
        getMissingAppliedMigrationFilenames (applied.map Prod.fst)
          (call.migrations.map Migration.filename)
      if missing ≠ [] then
        s.close id call (.error (missingFiles missing))
      else
        s.put id { call with phase := .applying applied call.migrations }
  | .applying _ [] => s.close id call (.ok ())
  | .applying applied (m :: todo) =>
      match applied.lookup m.filename with
      | some checksum =>
          if checksum ≠ m.checksum then
            s.close id call (.error (checksumMismatch m.filename))
          else
            s.put id { call with phase := .applying applied todo }
      | none => applyMigration s id call applied m todo scriptFails
  | .closing outcome => s.commit id call outcome

inductive MigrateAction where
  | start (id : Nat) (directory : MigrationsDirectory)
  | proceed (id : Nat) (scriptFails : Bool)
  | kill (id : Nat)

/-- One step of any of the calls. -/
def migrateStep (sha256 : String → String) (s : Database) : MigrateAction → Database
  | .start id directory =>
      match s.calls id with
      | none =>
          s.put id { migrations := loadMigrations sha256 directory, phase := .waiting }
      | some _ => s
  | .proceed id scriptFails =>
      match s.calls id with
      | none => s
      | some call => proceed s id call scriptFails
  | .kill id => s.rollback id

/-- Some statements of one call, whose scripts do not fail. -/
def statements (n id : Nat) : List MigrateAction :=
  List.replicate n (.proceed id false)

/-! ## Small facts -/

theorem loadMigrations_initial
    {sha256 : String → String} {directory whole : MigrationsDirectory}
    (h : directory.entries <+: whole.entries) :
    loadMigrations sha256 directory <+: loadMigrations sha256 whole := by
  obtain ⟨rest, hrest⟩ := h
  refine ⟨rest.map (fun entry =>
    { filename := entry.1, sql := entry.2, checksum := sha256 entry.2 }), ?_⟩
  unfold loadMigrations
  rw [← List.map_append, hrest]

/-- The files of a directory have different names. -/
theorem loadMigrations_nodup
    (sha256 : String → String) (directory : MigrationsDirectory) :
    ((loadMigrations sha256 directory).map Migration.filename).Nodup := by
  have hnames : (loadMigrations sha256 directory).map Migration.filename =
      directory.entries.map Prod.fst := by
    simp [loadMigrations]
  rw [hnames, List.Nodup, List.pairwise_map]
  refine directory.sorted.imp (fun {a b} hlt => ?_)
  intro heq
  rw [heq] at hlt
  exact String.lt_irrefl _ hlt

section Fields

variable (s : Database) (id id' : Nat) (call : Call)

@[simp] theorem put_committed :
    (s.put id call).committed = s.committed := by
  rfl

@[simp] theorem put_uncommitted :
    (s.put id call).uncommitted = s.uncommitted := by
  rfl

@[simp] theorem put_returned :
    (s.put id call).returned = s.returned := by
  rfl

@[simp] theorem put_own :
    (s.put id call).own id' = s.own id' := by
  rfl

@[simp] theorem close_committed (outcome : Except MigrateError Unit) :
    (s.close id call outcome).committed = s.committed := by
  rfl

@[simp] theorem close_uncommitted (outcome : Except MigrateError Unit) :
    (s.close id call outcome).uncommitted = s.uncommitted := by
  rfl

@[simp] theorem close_returned (outcome : Except MigrateError Unit) :
    (s.close id call outcome).returned = s.returned := by
  rfl

@[simp] theorem close_own (outcome : Except MigrateError Unit) :
    (s.close id call outcome).own id' = s.own id' := by
  rfl

theorem put_calls :
    (s.put id call).calls id' = if id' = id then some call else s.calls id' :=
  Function.update_apply ..

theorem rollback_calls :
    (s.rollback id).calls id' = if id' = id then none else s.calls id' :=
  Function.update_apply ..

theorem commit_calls (outcome : Except MigrateError Unit) :
    (s.commit id call outcome).calls id' = if id' = id then none else s.calls id' :=
  Function.update_apply ..

theorem own_append (m : Migration) :
    ({ s with uncommitted := s.uncommitted ++ [(id, m)] } : Database).own id' =
      if id = id' then s.own id' ++ [m] else s.own id' := by
  by_cases hid : id = id'
  · simp [Database.own, List.filter_append, hid]
  · simp [Database.own, List.filter_append, hid]

theorem own_filter_ne :
    ((s.uncommitted.filter (fun entry => entry.1 ≠ id)).filter
      (fun entry => entry.1 = id')).map Prod.snd =
      if id' = id then [] else s.own id' := by
  rw [List.filter_filter]
  by_cases hid : id' = id
  · subst hid
    simp
  · rw [if_neg hid]
    unfold Database.own
    congr 1
    refine List.filter_congr ?_
    intro entry _
    by_cases hentry : entry.1 = id'
    · simp [hentry, hid]
    · simp [hentry]

theorem mem_own {m : Migration} :
    m ∈ s.own id ↔ (id, m) ∈ s.uncommitted := by
  simp [Database.own]

end Fields

/-! ## What a step does -/

/-- What the next statement of a call may do. -/
inductive Proceeds (s : Database) (id : Nat) (call : Call) : Database → Prop
  | waits :
      Proceeds s id call s
  | locked
      (hphase : call.phase = .waiting) :
      Proceeds s id call
        ({ s with lockHolder := some id }.put id { call with phase := .reading })
  | loaded
      (hphase : call.phase = .reading)
      (hknown : ∀ m ∈ s.committed, m.filename ∈ call.migrations.map Migration.filename) :
      Proceeds s id call
        (s.put id
          { call with phase := .applying (s.committed.map Migration.row) call.migrations })
  | skipped
      {applied : List (String × String)} {m : Migration} {todo : List Migration}
      (hphase : call.phase = .applying applied (m :: todo))
      (happlied : applied.lookup m.filename = some m.checksum) :
      Proceeds s id call (s.put id { call with phase := .applying applied todo })
  | inserted
      {applied : List (String × String)} {m : Migration} {todo : List Migration}
      (hphase : call.phase = .applying applied (m :: todo))
      (happlied : applied.lookup m.filename = none)
      (hcommitted : m.filename ∉ s.committed.map Migration.filename)
      (huncommitted : m.filename ∉ s.uncommitted.map (fun entry => entry.2.filename)) :
      Proceeds s id call
        ({ s with uncommitted := s.uncommitted ++ [(id, m)] }.put id
          { call with phase := .applying applied todo })
  | finished
      {applied : List (String × String)}
      (hphase : call.phase = .applying applied []) :
      Proceeds s id call (s.close id call (.ok ()))
  | failed
      {e : MigrateError}
      (hphase : ∀ outcome, call.phase ≠ .closing outcome) :
      Proceeds s id call (s.close id call (.error e))
  | closed
      {outcome : Except MigrateError Unit}
      (hphase : call.phase = .closing outcome) :
      Proceeds s id call (s.commit id call outcome)

theorem applyMigration_proceeds
    {s : Database} {id : Nat} {call : Call} {applied : List (String × String)}
    {m : Migration} {todo : List Migration}
    (hphase : call.phase = .applying applied (m :: todo))
    (happlied : applied.lookup m.filename = none)
    (scriptFails : Bool) :
    Proceeds s id call (applyMigration s id call applied m todo scriptFails) := by
  have hopen : ∀ outcome, call.phase ≠ .closing outcome := by
    intro outcome hclosing
    rw [hphase] at hclosing
    cases hclosing
  unfold applyMigration
  split
  · exact .failed hopen
  · split
    · exact .failed hopen
    · next hcommitted =>
        split
        · exact .waits
        · next huncommitted => exact .inserted hphase happlied hcommitted huncommitted

/-- **Inversion of a statement.** -/
theorem proceed_proceeds
    (s : Database) (id : Nat) (call : Call) (scriptFails : Bool) :
    Proceeds s id call (proceed s id call scriptFails) := by
  cases hphase : call.phase with
  | waiting =>
      simp only [proceed, hphase]
      split
      · exact .locked hphase
      · exact .waits
  | reading =>
      simp only [proceed, hphase]
      split
      · refine .failed (fun outcome hclosing => ?_)
        rw [hphase] at hclosing
        cases hclosing
      · next hmissing =>
          refine .loaded hphase ?_
          intro m hm
          rw [not_not, getMissingAppliedMigrationFilenames, List.filter_eq_nil_iff] at hmissing
          have hname := hmissing m.filename (by
            rw [List.map_map]
            exact List.mem_map_of_mem hm)
          simpa using hname
  | applying applied todo =>
      cases todo with
      | nil =>
          simp only [proceed, hphase]
          exact .finished hphase
      | cons m todo =>
          cases happlied : applied.lookup m.filename with
          | none =>
              simp only [proceed, hphase, happlied]
              exact applyMigration_proceeds hphase happlied scriptFails
          | some checksum =>
              simp only [proceed, hphase, happlied]
              split
              · refine .failed (fun outcome hclosing => ?_)
                rw [hphase] at hclosing
                cases hclosing
              · next hchecksum =>
                  rw [not_not] at hchecksum
                  exact .skipped hphase (by rw [happlied, hchecksum])
  | closing outcome =>
      simp only [proceed, hphase]
      exact .closed hphase

/-- The call an action is about. -/
def MigrateAction.callId : MigrateAction → Nat
  | .start id _ => id
  | .proceed id _ => id
  | .kill id => id

/-- A statement of one call leaves the other calls where they are. -/
theorem proceeds_calls
    {s s' : Database} {id id' : Nat} {call : Call}
    (hne : id' ≠ id)
    (hproceeds : Proceeds s id call s') :
    s'.calls id' = s.calls id' := by
  have hput : ∀ (s' : Database) (call : Call), s'.calls = s.calls →
      (s'.put id call).calls id' = s.calls id' := by
    intro s' call hcalls
    rw [put_calls, if_neg hne, hcalls]
  cases hproceeds with
  | waits => rfl
  | locked => exact hput _ _ rfl
  | loaded => exact hput _ _ rfl
  | skipped => exact hput _ _ rfl
  | inserted => exact hput _ _ rfl
  | finished => exact hput _ _ rfl
  | failed => exact hput _ _ rfl
  | closed => rw [commit_calls, if_neg hne]

theorem migrateStep_calls
    {sha256 : String → String} {s : Database} {action : MigrateAction} {id' : Nat}
    (h : id' ≠ action.callId) :
    (migrateStep sha256 s action).calls id' = s.calls id' := by
  cases action with
  | start id directory =>
      have hne : id' ≠ id := h
      simp only [migrateStep]
      split
      · rw [put_calls, if_neg hne]
      · rfl
  | proceed id scriptFails =>
      simp only [migrateStep]
      split
      · rfl
      · exact proceeds_calls h (proceed_proceeds s id _ scriptFails)
  | kill id =>
      have hne : id' ≠ id := h
      simp only [migrateStep]
      rw [rollback_calls, if_neg hne]

end Db
end PrReviewer
