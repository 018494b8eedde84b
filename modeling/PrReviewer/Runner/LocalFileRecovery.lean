import PrReviewer.Runner.LocalFile
import Mathlib.Data.List.Basic

/-!
# Recovery of the local store

A migration and its row in `schema_migrations` are not one transaction, and a script does
not run twice: its first `create table` fails when the table is there.  So a store whose
migration was cut off is taken for a damaged file, and so is one that another connection
keeps locked while a migration is pending.

The invariant of a file the program produced: a prefix of the migrations is recorded, at
most the next one has been started, and a started one shows by its first table.  The
exception is 202609010100, which renames its table: past the renaming it runs again.
-/

namespace PrReviewer
namespace Runner

open Lib

/-- The table the script of the migration creates first. -/
def Migration.firstTable : Migration → TableName
  | .localState => .localJobs
  | .humanFeedbackHashes => .localHumanDecisionsNew
  | .workflowRuns => .workflowRuns
  | .jobBudgetReservations => .localJobBudgets

/-- The tables the script of the migration creates. -/
def Migration.tables : Migration → List TableName
  | .localState =>
      [.localJobs, .localSnapshots, .localFindings, .localHumanDecisions, .localEvents,
        .localPendingAcknowledgements]
  | .humanFeedbackHashes => [.localHumanDecisionsNew]
  | .workflowRuns => [.workflowRuns, .workflowSteps]
  | .jobBudgetReservations => [.localJobBudgets]

/-- The table an index is on. -/
def IndexName.table : IndexName → TableName
  | .localJobsStatusIdx => .localJobs
  | .localFindingsJobIdx => .localFindings
  | .localHumanDecisionsFindingIdx => .localHumanDecisions
  | .localEventsJobIdx => .localEvents
  | .localPendingAcknowledgementsJobIdx => .localPendingAcknowledgements
  | .workflowRunsJobIdx => .workflowRuns

/-! ## When a store is kept -/

/-- The migrations the version has and the file does not record. -/
def SqliteFile.pending (f : SqliteFile) (version : Nat) : List Migration :=
  (migrations.take version).filter (fun m => !f.records m)

/-- No pending migration has its first table in the file. -/
def SqliteFile.Resumable (f : SqliteFile) (version : Nat) : Prop :=
  ∀ m ∈ f.pending version, f.tables m.firstTable = none

/-- Opening the file writes nothing. -/
def SqliteFile.UpToDate (f : SqliteFile) (version : Nat) : Prop :=
  f.wal = true ∧ f.schemaMigrations.isSome = true ∧ f.pending version = []

/-- The lock leaves the open what it needs. -/
def FileLock.Permits (lock : FileLock) (f : SqliteFile) (version : Nat) : Prop :=
  lock = .unlocked ∨ (lock = .writing ∧ f.UpToDate version)

/-- Every committed row of the file is in the other one. -/
def SqliteFile.RowsIn (f f' : SqliteFile) : Prop :=
  ∀ table rows, f.tables table = some rows → ∀ row ∈ rows,
    ∃ rows', f'.tables table = some rows' ∧ row ∈ rows'

/--
What `open_or_recover_local_store` should do with a store: nothing is renamed away, and it
returns a store with all committed rows, or raises because of the lock.
-/
def StoreKept
    (d : StoreDirectory) (f : SqliteFile) (end_ : Except OpenError Unit × StoreDirectory) :
    Prop :=
  end_.2.quarantined = d.quarantined ∧
    ((end_.1 = .ok () ∧ ∃ f', end_.2.path = some (.sqlite f') ∧ f.RowsIn f') ∨
      (d.lock ≠ .unlocked ∧ end_.1.isOk = false))

/-! ## Files the program produced -/

/-- A file with the first `k` migrations recorded, and perhaps a part of the next one run. -/
structure Traceable (sha256 : Migration → String) (k : Nat) (f : SqliteFile) : Prop where
  recorded :
    f.schemaMigrations.getD [] = (migrations.take k).map (fun m => (m, sha256 m))
  bounded : k ≤ migrations.length
  later : ∀ m ∈ migrations.drop (k + 1), ∀ table ∈ m.tables, f.tables table = none
  started : ∀ m, migrations[k]? = some m → f.tables m.firstTable = none →
    ∀ table ∈ m.tables, f.tables table = none
  decisions : k = 1 → f.tables .localHumanDecisionsNew = none →
    f.tables .localHumanDecisions ≠ none
  indexed : ∀ index table, f.indexes index = some table →
    table = index.table ∧ f.tables table ≠ none
  hashes : k ≤ 1 → ∀ table rows, f.tables table = some rows →
    ∀ row ∈ rows, row.withoutHashes = row

/-- Every store at the path of the directory is one the program produced. -/
def StoreDirectory.Good (sha256 : Migration → String) (d : StoreDirectory) : Prop :=
  ∀ f, d.path = some (.sqlite f) → ∃ k, Traceable sha256 k f

section Files

variable {sha256 : Migration → String} {k : Nat} {f f' : SqliteFile}

theorem traceable_empty :
    Traceable sha256 0 .empty := by
  refine ⟨rfl, Nat.zero_le _, fun _ _ _ _ => rfl, fun _ _ _ _ _ => rfl, ?_, ?_, ?_⟩
  · rintro ⟨⟩
  · rintro index table ⟨⟩
  · rintro _ table rows ⟨⟩

/-- The recorded migrations, looked up. -/
theorem Traceable.lookup
    (h : Traceable sha256 k f) (m : Migration) :
    (f.schemaMigrations.getD []).lookup m =
      if m ∈ migrations.take k then some (sha256 m) else none := by
  rw [h.recorded]
  generalize migrations.take k = ms
  induction ms with
  | nil => rfl
  | cons first rest ih =>
      simp only [List.map_cons, List.lookup_cons, ih, List.mem_cons]
      by_cases hm : m = first
      · subst hm
        simp
      · have hne : (m == first) = false := beq_eq_false_iff_ne.mpr hm
        simp [hne, hm]

theorem Traceable.records_iff
    (h : Traceable sha256 k f) (m : Migration) :
    f.records m = true ↔ m ∈ migrations.take k := by
  unfold SqliteFile.records
  rw [h.lookup]
  by_cases hm : m ∈ migrations.take k
  · simp [hm]
  · simp [hm]

/-- A change of the header leaves the tables and the rows as they were. -/
theorem Traceable.of_same
    (h : Traceable sha256 k f)
    (htables : f'.tables = f.tables)
    (hindexes : f'.indexes = f.indexes)
    (hrecorded : f'.schemaMigrations.getD [] = f.schemaMigrations.getD []) :
    Traceable sha256 k f' := by
  refine ⟨hrecorded.trans h.recorded, h.bounded, ?_, ?_, ?_, ?_, ?_⟩
  · rw [htables]
    exact h.later
  · rw [htables]
    exact h.started
  · rw [htables]
    exact h.decisions
  · rw [htables, hindexes]
    exact h.indexed
  · rw [htables]
    exact h.hashes

/-- The next migration is recorded when its script is through. -/
theorem Traceable.record
    (h : Traceable sha256 k f)
    {m : Migration}
    (hm : migrations[k]? = some m)
    (hdecisions : k = 0 → f.tables .localHumanDecisions ≠ none) :
    Traceable sha256 (k + 1)
      { f with
        schemaMigrations := some (f.schemaMigrations.getD [] ++ [(m, sha256 m)]) } := by
  obtain ⟨hlt, hget⟩ := List.getElem?_eq_some_iff.mp hm
  refine ⟨?_, hlt, ?_, ?_, ?_, h.indexed, ?_⟩
  · simp only [Option.getD_some, h.recorded]
    rw [List.take_succ_eq_append_getElem hlt, List.map_append, hget]
    rfl
  · intro m' hm'
    apply h.later m'
    rw [← List.drop_drop] at hm'
    exact List.mem_of_mem_drop hm'
  · intro m' hm' _
    apply h.later m'
    exact List.mem_drop_iff_getElem.mpr (by
      obtain ⟨hlt', hget'⟩ := List.getElem?_eq_some_iff.mp hm'
      exact ⟨0, by simpa using hlt', by simpa using hget'⟩)
  · intro hk _
    exact hdecisions (by omega)
  · intro hk
    exact h.hashes (by omega)

/-- Committed rows. -/
theorem Traceable.commitRows
    (h : Traceable sha256 k f) (table : TableName) (rows : List LocalRow) :
    Traceable sha256 k (f.commitRows table rows) := by
  unfold SqliteFile.commitRows
  split
  · next hcommit =>
      obtain ⟨hsome, hhashes⟩ := hcommit
      have hnone : ∀ t, Function.update f.tables table (some rows) t = none ↔
          f.tables t = none := by
        intro t
        by_cases ht : t = table
        · subst ht
          simp [Option.ne_none_iff_isSome.mpr hsome]
        · simp [Function.update_of_ne ht]
      refine ⟨h.recorded, h.bounded, ?_, ?_, ?_, ?_, ?_⟩
      · intro m hm t ht
        exact (hnone t).mpr (h.later m hm t ht)
      · intro m hm hfirst t ht
        exact (hnone t).mpr (h.started m hm ((hnone _).mp hfirst) t ht)
      · intro hk hnew
        exact (hnone _).not.mpr (h.decisions hk ((hnone _).mp hnew))
      · intro index t hindex
        obtain ⟨howner, hthere⟩ := h.indexed index t hindex
        exact ⟨howner, (hnone t).not.mpr hthere⟩
      · intro hk t rows' hrows' row hrow
        by_cases ht : t = table
        · subst ht
          simp only [Function.update_self, Option.some.injEq] at hrows'
          subst hrows'
          rcases hhashes with hrecords | hempty
          · rw [h.records_iff] at hrecords
            exfalso
            revert hrecords
            interval_cases k
            · decide
            · decide
          · exact hempty row hrow
        · simp only [Function.update_of_ne ht] at hrows'
          exact h.hashes hk t rows' hrows' row hrow
  · exact h

end Files

/-! ## Scripts -/

/-- The script runs from one file to another, and every file on the way satisfies `P`. -/
inductive Through (P : SqliteFile → Prop) :
    List MigrationStatement → SqliteFile → SqliteFile → Prop where
  | done {f : SqliteFile} (h : P f) : Through P [] f f
  | run {statement : MigrationStatement} {rest : List MigrationStatement} {f f₁ f' : SqliteFile}
      (h : P f) (happly : statement.apply f = .ok f₁) (hrest : Through P rest f₁ f') :
      Through P (statement :: rest) f f'

/-- The index a statement creates. -/
def MigrationStatement.createdIndex? : MigrationStatement → Option IndexName
  | .createIndex index _ => some index
  | _ => none

/--
The statements create tables and indexes, each once, and an index on a table that is known
or was created before.
-/
def createsInOrder : List TableName → List MigrationStatement → Bool
  | _, [] => true
  | known, .createTable table :: rest =>
      decide (.createTable table ∉ rest) && createsInOrder (table :: known) rest
  | known, .createIndex index table :: rest =>
      decide (table = index.table ∧ table ∈ known ∧
          some index ∉ rest.map MigrationStatement.createdIndex?) &&
        createsInOrder known rest
  | _, _ :: _ => false

section Scripts

variable {P : SqliteFile → Prop} {sha256 : Migration → String} {k : Nat} {m : Migration}
variable {f f' : SqliteFile} {statements : List MigrationStatement}

theorem Through.start
    (h : Through P statements f f') :
    P f := by
  cases h with
  | done h => exact h
  | run h happly hrest => exact h

theorem Through.end
    (h : Through P statements f f') :
    P f' := by
  induction h with
  | done h => exact h
  | run h happly hrest ih => exact ih

theorem Through.mono
    {P' : SqliteFile → Prop}
    (h : Through P statements f f')
    (hP : ∀ g, P g → P' g) :
    Through P' statements f f' := by
  induction h with
  | done h => exact .done (hP _ h)
  | run h happly hrest ih => exact .run (hP _ h) happly ih

/-- A statement of a migration leaves the header as it was. -/
theorem apply_header
    {statement : MigrationStatement}
    (h : statement.apply f = .ok f') :
    f'.schemaMigrations = f.schemaMigrations ∧ f'.wal = f.wal := by
  cases statement with
  | createTable table =>
      simp only [MigrationStatement.apply] at h
      split at h
      · cases h
      · cases h
        exact ⟨rfl, rfl⟩
  | createIndex index table =>
      simp only [MigrationStatement.apply] at h
      split at h
      · cases h
      · split at h
        · cases h
        · cases h
          exact ⟨rfl, rfl⟩
  | insertSelect target source =>
      simp only [MigrationStatement.apply] at h
      split at h
      · split at h
        · cases h
        · cases h
          exact ⟨rfl, rfl⟩
      · cases h
  | dropTable table =>
      simp only [MigrationStatement.apply] at h
      split at h
      · cases h
      · cases h
        exact ⟨rfl, rfl⟩
  | renameTable table target =>
      simp only [MigrationStatement.apply] at h
      split at h
      · cases h
      · split at h
        · cases h
        · cases h
          exact ⟨rfl, rfl⟩

theorem Through.header
    (h : Through P statements f f') :
    f'.schemaMigrations = f.schemaMigrations ∧ f'.wal = f.wal := by
  induction h with
  | done h => exact ⟨rfl, rfl⟩
  | run h happly hrest ih =>
      obtain ⟨hrecorded, hwal⟩ := apply_header happly
      exact ⟨ih.1.trans hrecorded, ih.2.trans hwal⟩

theorem createTable_eq_ok
    {table : TableName}
    (h : f.tables table = none) :
    MigrationStatement.apply f (.createTable table) =
      .ok { f with tables := Function.update f.tables table (some []) } := by
  simp [MigrationStatement.apply, h]

theorem createIndex_eq_ok
    {index : IndexName} {table : TableName}
    (htable : f.tables table ≠ none)
    (hindex : f.indexes index = none) :
    MigrationStatement.apply f (.createIndex index table) =
      .ok { f with indexes := Function.update f.indexes index (some table) } := by
  obtain ⟨rows, hrows⟩ := Option.ne_none_iff_exists'.mp htable
  simp [MigrationStatement.apply, hrows, hindex]

/-- A script that only creates runs where nothing of what it creates is there. -/
theorem through_creates
    {known : List TableName}
    (hcheck : createsInOrder known statements = true)
    (hknown : ∀ table ∈ known, f.tables table ≠ none)
    (htables : ∀ table, .createTable table ∈ statements → f.tables table = none)
    (hindexes : ∀ index table, .createIndex index table ∈ statements → f.indexes index = none)
    (hP : P f)
    (hkeeps : ∀ f₁ statement f₂, statement ∈ statements → P f₁ →
      statement.apply f₁ = .ok f₂ → P f₂) :
    ∃ f', Through P statements f f' ∧
      (∀ table rows, f.tables table = some rows → f'.tables table = some rows) ∧
      ∀ table, .createTable table ∈ statements → f'.tables table ≠ none := by
  induction statements generalizing f known with
  | nil => exact ⟨f, .done hP, fun _ _ h => h, by rintro table ⟨⟩⟩
  | cons statement rest ih =>
      have hrest : ∀ f₁ statement f₂, statement ∈ rest → P f₁ →
          statement.apply f₁ = .ok f₂ → P f₂ :=
        fun f₁ st f₂ hst => hkeeps f₁ st f₂ (List.mem_cons_of_mem _ hst)
      cases statement with
      | createTable table =>
          simp only [createsInOrder, Bool.and_eq_true, decide_eq_true_eq] at hcheck
          have happly := createTable_eq_ok (htables table (by simp))
          have hnew := hkeeps f _ _ (by simp) hP happly
          obtain ⟨f', hthrough, hrows, hcreated⟩ := ih hcheck.2
            (f := { f with tables := Function.update f.tables table (some []) })
            (by
              intro t ht
              by_cases heq : t = table
              · simp [heq]
              · rcases List.mem_cons.mp ht with rfl | ht
                · exact absurd rfl heq
                · simpa [Function.update_of_ne heq] using hknown t ht)
            (by
              intro t ht
              have hne : t ≠ table := by
                rintro rfl
                exact hcheck.1 ht
              simpa [Function.update_of_ne hne] using htables t (List.mem_cons_of_mem _ ht))
            (fun index t ht => hindexes index t (List.mem_cons_of_mem _ ht))
            hnew hrest
          refine ⟨f', .run hP happly hthrough, ?_, ?_⟩
          · intro t rows ht
            apply hrows
            have hne : t ≠ table := by
              rintro rfl
              rw [htables t (by simp)] at ht
              cases ht
            simpa [Function.update_of_ne hne] using ht
          · intro t ht
            rcases List.mem_cons.mp ht with heq | ht
            · cases heq
              rw [hrows table [] (by simp)]
              rintro ⟨⟩
            · exact hcreated t ht
      | createIndex index table =>
          simp only [createsInOrder, Bool.and_eq_true, decide_eq_true_eq] at hcheck
          obtain ⟨⟨hown, hmem, honce⟩, hcheck⟩ := hcheck
          have happly := createIndex_eq_ok (hknown table hmem) (hindexes index table (by simp))
          have hnew := hkeeps f _ _ (by simp) hP happly
          obtain ⟨f', hthrough, hrows, hcreated⟩ := ih hcheck
            (f := { f with indexes := Function.update f.indexes index (some table) })
            hknown
            (fun t ht => htables t (List.mem_cons_of_mem _ ht))
            (by
              intro i t ht
              by_cases hi : i = index
              · subst hi
                exact absurd (List.mem_map.mpr ⟨_, ht, rfl⟩) honce
              · simpa [Function.update_of_ne hi] using
                  hindexes i t (List.mem_cons_of_mem _ ht))
            hnew hrest
          refine ⟨f', .run hP happly hthrough, hrows, ?_⟩
          intro t ht
          rcases List.mem_cons.mp ht with heq | ht
          · cases heq
          · exact hcreated t ht
      | insertSelect target source => cases hcheck
      | dropTable table => cases hcheck
      | renameTable table target => cases hcheck

/-! ## The scripts of the migrations -/

theorem later_ne
    {m' : Migration}
    (hm : migrations[k]? = some m)
    (hm' : m' ∈ migrations.drop (k + 1)) :
    m' ≠ m := by
  have hnodup : migrations.Nodup := by decide
  obtain ⟨hlt, rfl⟩ := List.getElem?_eq_some_iff.mp hm
  obtain ⟨i, hi, rfl⟩ := List.mem_drop_iff_getElem.mp hm'
  intro heq
  have hindex := hnodup.getElem_inj_iff.mp heq
  omega

theorem not_mem_take
    {i : Nat}
    (hm : migrations[k]? = some m)
    (hi : i ≤ k) :
    m ∉ migrations.take i := by
  have hnodup : migrations.Nodup := by decide
  obtain ⟨hlt, rfl⟩ := List.getElem?_eq_some_iff.mp hm
  intro hmem
  obtain ⟨j, hj, heq⟩ := List.mem_take_iff_getElem.mp hmem
  have hindex := hnodup.getElem_inj_iff.mp heq
  omega

/-- No two migrations create the same table. -/
theorem tables_disjoint
    {m' : Migration} {table : TableName}
    (hne : m' ≠ m)
    (htable : table ∈ m.tables) :
    table ∉ m'.tables := by
  revert m m' table
  have hall : ∀ m m' : Migration, m' ≠ m → ∀ table ∈ m.tables, table ∉ m'.tables := by
    intro m m'
    cases m <;> cases m' <;> decide
  intro m m' table hne htable
  exact hall m m' hne table htable

/-- A table of the started migration is created. -/
theorem Traceable.createTable
    {table : TableName}
    (h : Traceable sha256 k f)
    (hm : migrations[k]? = some m)
    (htable : table ∈ m.tables)
    (hfirst : f.tables m.firstTable ≠ none ∨ table = m.firstTable)
    (happly : MigrationStatement.apply f (.createTable table) = .ok f') :
    Traceable sha256 k f' ∧ f'.tables m.firstTable ≠ none := by
  simp only [MigrationStatement.apply] at happly
  split at happly
  · cases happly
  · next hfree =>
      cases happly
      have hnone : f.tables table = none := by simpa using hfree
      have hthere : ∀ t, f.tables t ≠ none →
          Function.update f.tables table (some []) t ≠ none := by
        intro t ht
        by_cases heq : t = table
        · simp [heq]
        · simpa [Function.update_of_ne heq] using ht
      have hstarted : Function.update f.tables table (some []) m.firstTable ≠ none := by
        rcases hfirst with hfirst | rfl
        · exact hthere _ hfirst
        · simp
      refine ⟨⟨h.recorded, h.bounded, ?_, ?_, ?_, ?_, ?_⟩, hstarted⟩
      · intro m' hm' t ht
        have hne : t ≠ table := by
          rintro rfl
          exact tables_disjoint (later_ne hm hm') htable ht
        simpa [Function.update_of_ne hne] using h.later m' hm' t ht
      · intro m' hm' habsent
        rw [hm] at hm'
        cases hm'
        exact absurd habsent hstarted
      · rintro rfl habsent
        exfalso
        cases hm
        exact hstarted habsent
      · intro index t hindex
        obtain ⟨howner, ht⟩ := h.indexed index t hindex
        exact ⟨howner, hthere t ht⟩
      · intro hk t rows hrows row hrow
        by_cases heq : t = table
        · subst heq
          simp only [Function.update_self, Option.some.injEq] at hrows
          subst hrows
          cases hrow
        · simp only [Function.update_of_ne heq] at hrows
          exact h.hashes hk t rows hrows row hrow

theorem Traceable.createIndex
    {index : IndexName}
    (h : Traceable sha256 k f)
    (happly : MigrationStatement.apply f (.createIndex index index.table) = .ok f') :
    Traceable sha256 k f' ∧ f'.tables = f.tables := by
  simp only [MigrationStatement.apply] at happly
  split at happly
  · cases happly
  · next htable =>
      split at happly
      · cases happly
      · cases happly
        refine ⟨⟨h.recorded, h.bounded, h.later, h.started, h.decisions, ?_, h.hashes⟩, rfl⟩
        intro i t hi
        by_cases heq : i = index
        · subst heq
          simp only [Function.update_self, Option.some.injEq] at hi
          subst hi
          exact ⟨rfl, by simpa using htable⟩
        · simp only [Function.update_of_ne heq] at hi
          exact h.indexed i t hi

/-- The statement creates a table of the migration, or an index on one. -/
def MigrationStatement.createsFor (m : Migration) : MigrationStatement → Bool
  | .createTable table => table ∈ m.tables
  | .createIndex index table => table = index.table ∧ table ∈ m.tables
  | _ => false

/-- What a script does to a file it runs on. -/
structure ScriptRuns (sha256 : Migration → String) (k : Nat) (m : Migration)
    (f f' : SqliteFile) : Prop where
  through : Through (Traceable sha256 k) m.script f f'
  rows : f.RowsIn f'
  decisions : k = 0 → f'.tables .localHumanDecisions ≠ none

/-- A migration that only creates runs through when its first table is not there. -/
theorem Traceable.runs_creates
    {rest : List MigrationStatement}
    (h : Traceable sha256 k f)
    (hm : migrations[k]? = some m)
    (habsent : f.tables m.firstTable = none)
    (hscript : m.script = .createTable m.firstTable :: rest)
    (hfirst : m.firstTable ∈ m.tables)
    (hcheck : createsInOrder [m.firstTable] rest = true)
    (honce : .createTable m.firstTable ∉ rest)
    (hmine : rest.all (·.createsFor m) = true)
    (hdecisions : k = 0 → .createTable .localHumanDecisions ∈ rest) :
    ∃ f', ScriptRuns sha256 k m f f' := by
  have hfresh := h.started m hm habsent
  have happly := createTable_eq_ok habsent
  obtain ⟨hnew, hstarted⟩ := h.createTable hm hfirst (.inr rfl) happly
  rw [List.all_eq_true] at hmine
  obtain ⟨f', hthrough, hrows, hcreated⟩ := through_creates
    (P := fun g => Traceable sha256 k g ∧ g.tables m.firstTable ≠ none)
    (f := { f with tables := Function.update f.tables m.firstTable (some []) })
    hcheck
    (by
      intro table htable
      rw [List.mem_singleton.mp htable]
      exact hstarted)
    (by
      intro table htable
      have hne : table ≠ m.firstTable := by
        rintro rfl
        exact honce htable
      have hmem : table ∈ m.tables := by
        simpa [MigrationStatement.createsFor] using hmine _ htable
      simpa [Function.update_of_ne hne] using hfresh table hmem)
    (by
      intro index table hindex
      have hmem : table = index.table ∧ table ∈ m.tables := by
        simpa [MigrationStatement.createsFor] using hmine _ hindex
      change f.indexes index = none
      cases hi : f.indexes index with
      | none => rfl
      | some owner =>
          obtain ⟨rfl, hthere⟩ := h.indexed index owner hi
          rw [← hmem.1] at hthere
          exact absurd (hfresh table hmem.2) hthere)
    ⟨hnew, hstarted⟩
    (by
      rintro g statement g' hstatement ⟨hg, hthere⟩ hok
      have hcreates := hmine _ hstatement
      cases statement with
      | createTable table =>
          exact hg.createTable hm (by simpa [MigrationStatement.createsFor] using hcreates)
            (.inl hthere) hok
      | createIndex index table =>
          obtain ⟨rfl, _⟩ : table = index.table ∧ table ∈ m.tables := by
            simpa [MigrationStatement.createsFor] using hcreates
          obtain ⟨hg', htables⟩ := hg.createIndex hok
          exact ⟨hg', by rw [htables]; exact hthere⟩
      | insertSelect target source => cases hcreates
      | dropTable table => cases hcreates
      | renameTable table target => cases hcreates)
  refine ⟨f', ?_, ?_, ?_⟩
  · rw [hscript]
    exact .run h happly (hthrough.mono (fun _ hg => hg.1))
  · intro table rows htable row hrow
    refine ⟨rows, hrows table rows ?_, hrow⟩
    have hne : table ≠ m.firstTable := by
      rintro rfl
      rw [habsent] at htable
      cases htable
    simpa [Function.update_of_ne hne] using htable
  · intro hk
    exact hcreated _ (hdecisions hk)

/-- While 202609010100 copies the decisions, one of its two tables is there. -/
theorem Traceable.of_copying
    (h : Traceable sha256 1 f)
    (hrecorded : f'.schemaMigrations = f.schemaMigrations)
    (hothers : ∀ table, table ≠ .localHumanDecisionsNew → table ≠ .localHumanDecisions →
      f'.tables table = f.tables table)
    (hthere : f'.tables .localHumanDecisionsNew = none →
      f'.tables .localHumanDecisions ≠ none)
    (hindexed : ∀ index table, f'.indexes index = some table →
      table = index.table ∧ f'.tables table ≠ none)
    (hhashes : ∀ table rows, f'.tables table = some rows →
      ∃ table' rows', f.tables table' = some rows' ∧ rows ⊆ rows') :
    Traceable sha256 1 f' := by
  refine ⟨by rw [hrecorded]; exact h.recorded, h.bounded, ?_, ?_, fun _ => hthere, hindexed, ?_⟩
  · intro m' hm' table htable
    have hlater := h.later m' hm' table htable
    rw [hothers table ?_ ?_]
    · exact hlater
    · rintro rfl
      revert hm' htable
      cases m' <;> decide
    · rintro rfl
      revert hm' htable
      cases m' <;> decide
  · intro m' hm' hnew table htable
    cases hm'
    rw [List.mem_singleton.mp htable]
    exact hnew
  · intro hk table rows hrows row hrow
    obtain ⟨table', rows', hrows', hsub⟩ := hhashes table rows hrows
    exact h.hashes hk table' rows' hrows' row (hsub hrow)

/-- 202609010100 runs through when its new table is not there. -/
theorem Traceable.runs_hashes
    (h : Traceable sha256 1 f)
    (habsent : f.tables .localHumanDecisionsNew = none) :
    ∃ f', ScriptRuns sha256 1 .humanFeedbackHashes f f' := by
  obtain ⟨rows, hrows⟩ := Option.ne_none_iff_exists'.mp (h.decisions rfl habsent)
  have hsame : rows.map LocalRow.withoutHashes = rows := by
    conv_rhs => rw [← List.map_id rows]
    exact List.map_congr_left (fun row hrow => h.hashes le_rfl _ rows hrows row hrow)
  let dropped : IndexName → Option TableName := fun index =>
    if f.indexes index = some .localHumanDecisions then none else f.indexes index
  have hdropped : ∀ index table, dropped index = some table →
      table = index.table ∧ f.tables table ≠ none ∧ table ≠ .localHumanDecisions := by
    intro index table hindex
    simp only [dropped] at hindex
    split at hindex
    · cases hindex
    · next hother =>
        obtain ⟨howner, hthere⟩ := h.indexed index table hindex
        refine ⟨howner, hthere, ?_⟩
        rintro rfl
        exact hother hindex
  let created : SqliteFile :=
    { f with tables := Function.update f.tables .localHumanDecisionsNew (some []) }
  let copied : SqliteFile :=
    { f with tables := Function.update f.tables .localHumanDecisionsNew (some rows) }
  let moved : SqliteFile :=
    { f with
      tables := Function.update copied.tables .localHumanDecisions none
      indexes := dropped }
  let renamed : SqliteFile := { f with indexes := dropped }
  let indexed : SqliteFile :=
    { f with
      indexes :=
        Function.update dropped .localHumanDecisionsFindingIdx (some .localHumanDecisions) }
  have hcreate : MigrationStatement.apply f (.createTable .localHumanDecisionsNew) =
      .ok created := createTable_eq_ok habsent
  have hcopy : MigrationStatement.apply created
      (.insertSelect .localHumanDecisionsNew .localHumanDecisions) = .ok copied := by
    simp [MigrationStatement.apply, created, copied, hrows, hsame]
  have hdrop : MigrationStatement.apply copied (.dropTable .localHumanDecisions) =
      .ok moved := by
    simp [MigrationStatement.apply, copied, moved, hrows, dropped]
  have htables : Function.update (Function.update moved.tables .localHumanDecisionsNew none)
      .localHumanDecisions (some rows) = f.tables := by
    funext table
    simp only [moved, copied, Function.update_apply]
    split
    · next heq => rw [heq, hrows]
    · split
      · next heq => rw [heq, habsent]
      · rfl
  have hindexes : (fun index =>
      if dropped index = some .localHumanDecisionsNew then some .localHumanDecisions
      else dropped index) = dropped := by
    funext index
    split
    · next heq =>
        have howner := (hdropped index _ heq).1
        cases index <;> cases howner
    · rfl
  have hrename : MigrationStatement.apply moved
      (.renameTable .localHumanDecisionsNew .localHumanDecisions) = .ok renamed := by
    have hnew : moved.tables .localHumanDecisionsNew = some rows := by
      simp [moved, copied]
    have hold : moved.tables .localHumanDecisions = none := by
      simp [moved]
    simp only [MigrationStatement.apply, hnew, hold, Option.isSome_none, Bool.false_eq_true,
      if_false, htables]
    simp only [moved, hindexes, renamed]
  have hindex : MigrationStatement.apply renamed
      (.createIndex .localHumanDecisionsFindingIdx .localHumanDecisions) = .ok indexed := by
    apply createIndex_eq_ok
    · simp [renamed, hrows]
    · cases hfree : dropped .localHumanDecisionsFindingIdx with
      | none => exact hfree
      | some table =>
          obtain ⟨howner, _, hother⟩ := hdropped _ table hfree
          exact absurd howner hother
  have hTcreated : Traceable sha256 1 created :=
    (h.createTable (m := .humanFeedbackHashes) rfl (by decide) (.inr rfl) hcreate).1
  have hTcopied : Traceable sha256 1 copied := by
    refine h.of_copying rfl ?_ ?_ ?_ ?_
    · intro table hnew _
      simp [copied, Function.update_of_ne hnew]
    · intro hnew
      simp [copied] at hnew
    · intro index table hi
      obtain ⟨howner, hthere⟩ := h.indexed index table hi
      refine ⟨howner, ?_⟩
      by_cases heq : table = .localHumanDecisionsNew
      · simp [copied, heq]
      · simpa [copied, Function.update_of_ne heq] using hthere
    · intro table rows' hrows'
      by_cases heq : table = .localHumanDecisionsNew
      · subst heq
        simp only [copied, Function.update_self, Option.some.injEq] at hrows'
        subst hrows'
        exact ⟨_, _, hrows, List.Subset.refl _⟩
      · simp only [copied, Function.update_of_ne heq] at hrows'
        exact ⟨_, _, hrows', List.Subset.refl _⟩
  have hTmoved : Traceable sha256 1 moved := by
    refine h.of_copying rfl ?_ ?_ ?_ ?_
    · intro table hnew hold
      simp [moved, copied, Function.update_of_ne hold, Function.update_of_ne hnew]
    · intro hnew
      simp [moved, copied] at hnew
    · intro index table hi
      obtain ⟨howner, hthere, hother⟩ := hdropped index table hi
      refine ⟨howner, ?_⟩
      by_cases heq : table = .localHumanDecisionsNew
      · simp [moved, copied, heq]
      · simpa [moved, copied, Function.update_of_ne hother, Function.update_of_ne heq]
          using hthere
    · intro table rows' hrows'
      by_cases hold : table = .localHumanDecisions
      · subst hold
        simp [moved] at hrows'
      · by_cases heq : table = .localHumanDecisionsNew
        · subst heq
          simp only [moved, copied, Function.update_of_ne hold, Function.update_self,
            Option.some.injEq] at hrows'
          subst hrows'
          exact ⟨_, _, hrows, List.Subset.refl _⟩
        · simp only [moved, copied, Function.update_of_ne hold, Function.update_of_ne heq]
            at hrows'
          exact ⟨_, _, hrows', List.Subset.refl _⟩
  have hTrenamed : Traceable sha256 1 renamed := by
    refine h.of_copying rfl (fun _ _ _ => rfl) (h.decisions rfl) ?_ ?_
    · intro index table hi
      obtain ⟨howner, hthere, _⟩ := hdropped index table hi
      exact ⟨howner, hthere⟩
    · intro table rows' hrows'
      exact ⟨_, _, hrows', List.Subset.refl _⟩
  have hTindexed : Traceable sha256 1 indexed := (hTrenamed.createIndex hindex).1
  refine ⟨indexed, ?_, ?_, by rintro ⟨⟩⟩
  · exact .run h hcreate (.run hTcreated hcopy (.run hTcopied hdrop (.run hTmoved hrename
      (.run hTrenamed hindex (.done hTindexed)))))
  · intro table rows' hrows' row hrow
    exact ⟨rows', hrows', hrow⟩

/-- The script of the next migration runs through when its first table is not there. -/
theorem Traceable.runs
    (h : Traceable sha256 k f)
    (hm : migrations[k]? = some m)
    (habsent : f.tables m.firstTable = none) :
    ∃ f', ScriptRuns sha256 k m f f' := by
  have hk : k < 4 := (List.getElem?_eq_some_iff.mp hm).1
  have hcases : (k = 0 ∧ m = .localState) ∨ (k = 1 ∧ m = .humanFeedbackHashes) ∨
      (k = 2 ∧ m = .workflowRuns) ∨ (k = 3 ∧ m = .jobBudgetReservations) := by
    interval_cases k
    · cases hm
      exact .inl ⟨rfl, rfl⟩
    · cases hm
      exact .inr (.inl ⟨rfl, rfl⟩)
    · cases hm
      exact .inr (.inr (.inl ⟨rfl, rfl⟩))
    · cases hm
      exact .inr (.inr (.inr ⟨rfl, rfl⟩))
  rcases hcases with ⟨rfl, rfl⟩ | ⟨rfl, rfl⟩ | ⟨rfl, rfl⟩ | ⟨rfl, rfl⟩
  · exact h.runs_creates hm habsent rfl (by decide) (by decide) (by decide) (by decide)
      (fun _ => by decide)
  · exact h.runs_hashes habsent
  · exact h.runs_creates hm habsent rfl (by decide) (by decide) (by decide) (by decide)
      (by rintro ⟨⟩)
  · exact h.runs_creates hm habsent rfl (by decide) (by decide) (by decide) (by decide)
      (by rintro ⟨⟩)

end Scripts

/-! ## Opening -/

section Opening

variable {sha256 : Migration → String} {k : Nat} {m : Migration} {f f' : SqliteFile}
variable {d : StoreDirectory} {version : Nat}

theorem good_of_path
    (hpath : d.path = some (.sqlite f))
    (h : Traceable sha256 k f) :
    d.Good sha256 := by
  intro g hg
  rw [hpath] at hg
  cases hg
  exact ⟨k, h⟩

theorem SqliteFile.RowsIn.trans
    {f'' : SqliteFile}
    (h : f.RowsIn f')
    (h' : f'.RowsIn f'') :
    f.RowsIn f'' := by
  intro table rows hrows row hrow
  obtain ⟨rows', hrows', hrow'⟩ := h table rows hrows row hrow
  exact h' table rows' hrows' row hrow'

theorem firstTable_mem
    (m : Migration) :
    m.firstTable ∈ m.tables := by
  cases m <;> decide

theorem script_eq
    (m : Migration) :
    ∃ rest, m.script = .createTable m.firstTable :: rest := by
  cases m <;> exact ⟨_, rfl⟩

/-- The judgement used here: the stores at the path are good before each call. -/
abbrev SafeOpen
    {α : Type} (sha256 : Migration → String) (p : FileProgram α)
    (Q : α → StoreDirectory → Prop) (E : OpenError → StoreDirectory → Prop)
    (d : StoreDirectory) : Prop :=
  Program.Safe StoreDirectory.answer (fun _ _ => True) (fun s _ => s.Good sha256) p Q E d

theorem safe_callFile
    {op : FileOp} {Q : op.Value → StoreDirectory → Prop}
    {E : OpenError → StoreDirectory → Prop} :
    SafeOpen sha256 (callFile op) Q E d ↔
      d.Good sha256 ∧
        match StoreDirectory.answer op d with
        | (.ok v, d') => Q v d'
        | (.error e, d') => E (.database e) d' := by
  unfold SafeOpen callFile Program.perform
  rw [Program.bind_eq]
  simp only [Program.bind, Program.Safe, Program.safe_ofExcept, true_implies]
  cases StoreDirectory.answer op d with
  | mk outcome d' =>
      cases outcome with
      | ok v => rfl
      | error e => rfl

theorem put_self
    (hpath : d.path = some (.sqlite f)) :
    d.put f = d := by
  unfold StoreDirectory.put
  rw [← hpath]

theorem writing_unlocked
    {write : SqliteFile → Except SqliteError SqliteFile}
    (hpath : d.path = some (.sqlite f))
    (hlock : d.lock = .unlocked)
    (hwrite : write f = .ok f') :
    d.writing write = (.ok (), d.put f') := by
  simp [StoreDirectory.writing, StoreDirectory.reading, hpath, hlock, hwrite]

/-- A script that runs through on an unlocked file. -/
theorem safe_executescript
    {statements : List MigrationStatement}
    {Q : Unit → StoreDirectory → Prop} {E : OpenError → StoreDirectory → Prop}
    (h : Through (Traceable sha256 k) statements f f')
    (hpath : d.path = some (.sqlite f))
    (hlock : d.lock = .unlocked)
    (hQ : Q () (d.put f')) :
    SafeOpen sha256 (executescript statements) Q E d := by
  induction h generalizing d with
  | done h =>
      rw [put_self hpath] at hQ
      exact hQ
  | @run statement rest f f₁ f' h happly hrest ih =>
      have hwrite : d.writing (fun g => statement.apply g) = (.ok (), d.put f₁) :=
        writing_unlocked hpath hlock happly
      unfold executescript SafeOpen
      rw [Program.forEach, Program.safe_bind]
      apply safe_callFile.mpr
      refine ⟨good_of_path hpath h, ?_⟩
      simp only [StoreDirectory.answer, hwrite]
      exact ih (d := d.put f₁) rfl hlock hQ

/-- The script of a migration that cannot start changes nothing. -/
theorem safe_executescript_refused
    {Q : Unit → StoreDirectory → Prop} {E : OpenError → StoreDirectory → Prop}
    (hpath : d.path = some (.sqlite f))
    (h : Traceable sha256 k f)
    (hrefused : f.tables m.firstTable ≠ none ∨ d.lock ≠ .unlocked)
    (hE : ∀ e, E (.database e) d) :
    SafeOpen sha256 (executescript m.script) Q E d := by
  obtain ⟨rest, hscript⟩ := script_eq m
  unfold executescript SafeOpen
  rw [hscript, Program.forEach, Program.safe_bind]
  apply safe_callFile.mpr
  refine ⟨good_of_path hpath h, ?_⟩
  simp only [StoreDirectory.answer, StoreDirectory.writing, StoreDirectory.reading, hpath]
  by_cases hexclusive : d.lock = .exclusive
  · simp only [hexclusive, if_true]
    exact hE _
  · simp only [hexclusive, if_false]
    cases hfirst : f.tables m.firstTable with
    | some rows =>
        simp only [MigrationStatement.apply, hfirst, Option.isSome_some, if_true]
        exact hE _
    | none =>
        rw [createTable_eq_ok hfirst]
        rcases hrefused with hthere | hlocked
        · exact absurd hfirst hthere
        · simp only [hlocked, if_false]
          exact hE _

/-- A pending migration that can start is run and recorded. -/
theorem safe_runMigration
    {applied : List (Migration × String)}
    {Q : Unit → StoreDirectory → Prop} {E : OpenError → StoreDirectory → Prop}
    (hpath : d.path = some (.sqlite f))
    (hlock : d.lock = .unlocked)
    (h : Traceable sha256 k f)
    (hm : migrations[k]? = some m)
    (habsent : f.tables m.firstTable = none)
    (hsome : f.schemaMigrations.isSome = true)
    (hpending : applied.lookup m = none)
    (hQ : ∀ f', Traceable sha256 (k + 1) f' → f.RowsIn f' →
      f'.schemaMigrations.isSome = true →
      (∀ m' ∈ migrations.drop (k + 1), f'.tables m'.firstTable = none) →
      Q () (d.put f')) :
    SafeOpen sha256 (runMigration sha256 applied m) Q E d := by
  obtain ⟨f', hruns⟩ := h.runs hm habsent
  have hend := hruns.through.end
  have hheader := hruns.through.header.1
  have hnotRecorded : (f'.schemaMigrations.getD []).lookup m = none := by
    rw [hend.lookup, if_neg (not_mem_take hm le_rfl)]
  obtain ⟨recorded, hrecorded⟩ := Option.isSome_iff_exists.mp (hheader ▸ hsome)
  unfold runMigration SafeOpen
  simp only [hpending, Program.bind_eq]
  rw [Program.safe_bind]
  apply safe_executescript hruns.through hpath hlock
  apply safe_callFile.mpr
  refine ⟨good_of_path rfl hend, ?_⟩
  have hfree : recorded.lookup m = none := by simpa [hrecorded] using hnotRecorded
  have hnext := hend.record hm hruns.decisions
  simp only [hrecorded, Option.getD_some] at hnext
  have hrecord : (d.put f').recordMigration m (sha256 m) =
      (.ok (), (d.put f').put
        { f' with schemaMigrations := some (recorded ++ [(m, sha256 m)]) }) := by
    apply writing_unlocked (d := d.put f') (f := f') rfl hlock
    simp [hrecorded, hfree]
  simp only [StoreDirectory.answer, hrecord]
  refine hQ _ hnext hruns.rows rfl ?_
  intro m' hm'
  exact hend.later m' hm' _ (firstTable_mem m')

/-- The migrations that follow the first pending one find none of their tables. -/
structure Migrated
    (sha256 : Migration → String) (d : StoreDirectory) (f : SqliteFile) (k i : Nat)
    (d' : StoreDirectory) : Prop where
  unlocked : d.lock = .unlocked
  startable : ∀ m, migrations[k]? = some m → f.tables m.firstTable = none
  file : ∃ f', d' = d.put f' ∧ Traceable sha256 i f' ∧ f'.schemaMigrations.isSome = true ∧
    f.RowsIn f' ∧ ∀ m ∈ migrations.drop i, f'.tables m.firstTable = none

/-- The condition on the file and the lock, once the header is written. -/
def SqliteFile.Opens (f : SqliteFile) (lock : FileLock) (version : Nat) : Prop :=
  f.Resumable version ∧ (lock = .unlocked ∨ f.pending version = [])

theorem mem_pending
    (h : Traceable sha256 k f) :
    m ∈ f.pending version ↔ m ∈ migrations.take version ∧ m ∉ migrations.take k := by
  unfold SqliteFile.pending
  rw [List.mem_filter, ← h.records_iff]
  simp

/-- A migration beyond the recorded ones is the next one or a later one. -/
theorem next_or_later
    (hnot : m ∉ migrations.take k) :
    migrations[k]? = some m ∨ m ∈ migrations.drop (k + 1) := by
  have hmem : m ∈ migrations := by cases m <;> decide
  rw [← List.take_append_drop k migrations] at hmem
  rcases List.mem_append.mp hmem with htake | hdrop
  · exact absurd htake hnot
  · obtain ⟨i, hi, rfl⟩ := List.mem_drop_iff_getElem.mp hdrop
    cases i with
    | zero => exact .inl (by simp)
    | succ i =>
        refine .inr (List.mem_drop_iff_getElem.mpr ⟨i, by omega, ?_⟩)
        congr 1
        omega

/-- The loop of `_run_migrations`. -/
theorem safe_loop
    (version : Nat)
    (hpath : d.path = some (.sqlite f))
    (h : Traceable sha256 k f)
    (hsome : f.schemaMigrations.isSome = true) :
    SafeOpen sha256
      (Program.forEach (migrations.take version)
        (runMigration sha256 (f.schemaMigrations.getD [])))
      (fun _ d' => f.Opens d.lock version ∧
        ∃ f', d' = d.put f' ∧ d'.Good sha256 ∧ f.RowsIn f')
      (fun _ d' => ¬f.Opens d.lock version ∧ ∃ f', d' = d.put f' ∧ d'.Good sha256) d := by
  have hgood := good_of_path hpath h
  -- the loop is at the `i`-th migration: nothing was pending yet, or all before it is recorded
  refine Program.Safe.mono (Program.safe_forEach_rest
    (I := fun rest d' => ∃ i, rest = (migrations.take version).drop i ∧
      ((i ≤ k ∧ d' = d) ∨ (k < i ∧ Migrated sha256 d f k i d'))) ?_
      ⟨0, rfl, .inl ⟨Nat.zero_le _, rfl⟩⟩)
    ?_ (fun _ _ hE => hE)
  · rintro m rest d' ⟨i, hrest, hstate⟩
    have hlen : i < (migrations.take version).length := by
      by_contra hge
      rw [List.drop_eq_nil_of_le (by omega)] at hrest
      cases hrest
    rw [List.drop_eq_getElem_cons hlen] at hrest
    obtain ⟨rfl, rfl⟩ := List.cons.inj hrest
    have hlen' : i < migrations.length := by
      rw [List.length_take] at hlen
      omega
    have hm : migrations[i]? = some (migrations.take version)[i] := by
      rw [List.getElem_take, List.getElem?_eq_getElem hlen']
    have hversion : (migrations.take version)[i] ∈ migrations.take version :=
      List.getElem_mem hlen
    generalize (migrations.take version)[i] = m at hm hversion
    have hlookup := h.lookup m
    rcases hstate with ⟨hle, rfl⟩ | ⟨hlt, hmigrated⟩
    · rcases Nat.lt_or_eq_of_le hle with hlt | rfl
      · -- a recorded migration is passed over
        have hmem : m ∈ migrations.take k := by
          obtain ⟨_, rfl⟩ := List.getElem?_eq_some_iff.mp hm
          exact List.mem_take_iff_getElem.mpr ⟨i, by omega, rfl⟩
        rw [if_pos hmem] at hlookup
        unfold runMigration
        simp only [hlookup, ne_eq, not_true_eq_false, if_false]
        exact ⟨i + 1, rfl, .inl ⟨hlt, rfl⟩⟩
      · -- the first pending migration
        have hnot := not_mem_take hm le_rfl
        rw [if_neg hnot] at hlookup
        have hpending : m ∈ f.pending version := (mem_pending h).mpr ⟨hversion, hnot⟩
        by_cases hrefused : f.tables m.firstTable ≠ none ∨ d'.lock ≠ .unlocked
        · unfold runMigration
          simp only [hlookup, Program.bind_eq]
          rw [Program.safe_bind]
          apply safe_executescript_refused hpath h hrefused
          intro e
          refine ⟨?_, f, (put_self hpath).symm, hgood⟩
          rintro ⟨hresumable, hlock⟩
          rcases hrefused with hthere | hlocked
          · exact hthere (hresumable m hpending)
          · rcases hlock with hunlocked | hnone
            · exact hlocked hunlocked
            · rw [hnone] at hpending
              cases hpending
        · push Not at hrefused
          obtain ⟨habsent, hlock⟩ := hrefused
          apply safe_runMigration hpath hlock h hm habsent hsome hlookup
          intro f' hf' hrows hsome' hlater
          refine ⟨i + 1, rfl, .inr ⟨Nat.lt_succ_self i, hlock, ?_, f', rfl, hf', hsome', hrows,
            hlater⟩⟩
          intro m' hm'
          rw [hm] at hm'
          cases hm'
          exact habsent
    · -- a migration after the first pending one
      obtain ⟨hlock, hstartable, f₁, rfl, hf₁, hsome₁, hrows₁, hlater₁⟩ := hmigrated
      have hnot := not_mem_take hm hlt.le
      rw [if_neg hnot] at hlookup
      have habsent : f₁.tables m.firstTable = none := by
        obtain ⟨_, rfl⟩ := List.getElem?_eq_some_iff.mp hm
        exact hlater₁ _ (List.mem_drop_iff_getElem.mpr ⟨0, by simpa using hlen', by simp⟩)
      apply safe_runMigration (d := d.put f₁) rfl hlock hf₁ hm habsent hsome₁ hlookup
      intro f' hf' hrows hsome' hlater
      exact ⟨i + 1, rfl, .inr ⟨by omega, hlock, hstartable, f', rfl, hf', hsome',
        hrows₁.trans hrows, hlater⟩⟩
  · rintro _ d' ⟨i, hrest, hstate⟩
    have hend : (migrations.take version).length ≤ i := by
      by_contra hlt
      rw [List.drop_eq_getElem_cons (by omega)] at hrest
      cases hrest
    rcases hstate with ⟨hle, rfl⟩ | ⟨hlt, hlock, hstartable, f', rfl, hf', hsome', hrows, _⟩
    · have hnone : f.pending version = [] := by
        apply List.eq_nil_iff_forall_not_mem.mpr
        intro m hm
        obtain ⟨hversion, hnot⟩ := (mem_pending h).mp hm
        apply hnot
        obtain ⟨j, hj, rfl⟩ := List.getElem_of_mem hversion
        rw [List.getElem_take]
        refine List.mem_take_iff_getElem.mpr ⟨j, ?_, rfl⟩
        rw [List.length_take] at hj
        omega
      refine ⟨⟨?_, .inr hnone⟩, f, (put_self hpath).symm, hgood, fun _ rows hr row hrow =>
        ⟨rows, hr, hrow⟩⟩
      intro m hm
      rw [hnone] at hm
      cases hm
    · refine ⟨⟨?_, .inl hlock⟩, f', rfl, good_of_path rfl hf', hrows⟩
      intro m hm
      obtain ⟨_, hnot⟩ := (mem_pending h).mp hm
      rcases next_or_later hnot with hnext | hlater
      · exact hstartable m hnext
      · exact h.later m hlater _ (firstTable_mem m)

/-- When `open_local_store` returns. -/
def SqliteFile.Keepable (f : SqliteFile) (lock : FileLock) (version : Nat) : Prop :=
  f.Resumable version ∧ lock.Permits f version

/-- The header decides the condition through the recorded migrations only. -/
theorem opens_congr
    {lock : FileLock}
    (htables : f'.tables = f.tables)
    (hrecorded : f'.schemaMigrations.getD [] = f.schemaMigrations.getD []) :
    f'.Opens lock version ↔ f.Opens lock version := by
  have hpending : f'.pending version = f.pending version := by
    unfold SqliteFile.pending SqliteFile.records
    rw [hrecorded]
  unfold SqliteFile.Opens SqliteFile.Resumable
  rw [hpending, htables]

theorem opens_of_keepable
    {lock : FileLock}
    (h : f.Keepable lock version) :
    f.Opens lock version := by
  refine ⟨h.1, ?_⟩
  rcases h.2 with hunlocked | ⟨_, hupToDate⟩
  · exact .inl hunlocked
  · exact .inr hupToDate.2.2

theorem keepable_unlocked :
    f.Keepable .unlocked version ↔ f.Opens .unlocked version := by
  constructor
  · exact opens_of_keepable
  · intro h
    exact ⟨h.1, .inl rfl⟩

/-- `_run_migrations` on a file in WAL mode that nobody locks for reading. -/
theorem safe_runMigrations
    (version : Nat)
    (hpath : d.path = some (.sqlite f))
    (h : Traceable sha256 k f)
    (hwal : f.wal = true)
    (hreadable : d.lock ≠ .exclusive) :
    SafeOpen sha256 (runMigrations sha256 version)
      (fun _ d' => f.Keepable d.lock version ∧
        ∃ f', d' = d.put f' ∧ d'.Good sha256 ∧ f.RowsIn f')
      (fun _ d' => ¬f.Keepable d.lock version ∧ ∃ f', d' = d.put f' ∧ d'.Good sha256) d := by
  have hgood := good_of_path hpath h
  unfold runMigrations SafeOpen
  rw [Program.bind_eq, Program.safe_bind]
  apply safe_callFile.mpr
  refine ⟨hgood, ?_⟩
  simp only [StoreDirectory.answer, StoreDirectory.createSchemaMigrations, StoreDirectory.reading,
    hpath, hreadable, if_false]
  cases hsome : f.schemaMigrations with
  | some applied =>
      have hisSome : f.schemaMigrations.isSome = true := by simp [hsome]
      have hloop := safe_loop version hpath h hisSome
      simp only [hsome, Option.getD_some] at hloop
      have hkeepable : f.Keepable d.lock version ↔ f.Opens d.lock version := by
        unfold SqliteFile.Keepable FileLock.Permits SqliteFile.Opens SqliteFile.UpToDate
        simp only [hwal, hisSome, true_and]
        apply and_congr_right
        intro _
        cases hlock : d.lock with
        | unlocked => simp
        | writing => simp
        | exclusive => exact absurd hlock hreadable
      simp only [Option.isSome_some, Program.bind_eq, Program.safe_bind]
      apply safe_callFile.mpr
      refine ⟨hgood, ?_⟩
      simp only [StoreDirectory.answer, StoreDirectory.selectApplied, StoreDirectory.reading,
        hpath, hreadable, if_false, hsome]
      rw [hkeepable]
      exact hloop
  | none =>
      simp only [Option.isSome_none]
      by_cases hlock : d.lock = .unlocked
      · let f₁ : SqliteFile := { f with schemaMigrations := some [] }
        have hrecorded : f₁.schemaMigrations.getD [] = f.schemaMigrations.getD [] := by
          simp [f₁, hsome]
        have hwrite : d.writing (fun g => .ok { g with schemaMigrations := some [] }) =
            (.ok (), d.put f₁) := writing_unlocked hpath hlock rfl
        have h₁ : Traceable sha256 k f₁ := h.of_same rfl rfl hrecorded
        have hloop := safe_loop (d := d.put f₁) version rfl h₁ rfl
        rw [hwrite]
        simp only [Program.bind_eq, Program.safe_bind]
        apply safe_callFile.mpr
        refine ⟨good_of_path rfl h₁, ?_⟩
        have hselect : (d.put f₁).selectApplied = .ok [] := by
          simp [StoreDirectory.selectApplied, StoreDirectory.reading, StoreDirectory.put,
            hlock, f₁]
        simp only [StoreDirectory.answer, hselect]
        have hkeepable : f.Keepable d.lock version ↔ f₁.Opens d.lock version := by
          have hopens : f₁.Opens .unlocked version ↔ f.Opens .unlocked version :=
            opens_congr rfl hrecorded
          rw [hlock, keepable_unlocked, hopens]
        refine hloop.mono ?_ ?_
        · rintro _ d' ⟨hopens, f', rfl, hgood', hrows⟩
          exact ⟨hkeepable.mpr hopens, f', rfl, hgood', hrows⟩
        · rintro _ d' ⟨hopens, f', rfl, hgood'⟩
          exact ⟨fun hkeep => hopens (hkeepable.mp hkeep), f', rfl, hgood'⟩
      · have hwrite : d.writing (fun g => .ok { g with schemaMigrations := some [] }) =
            (.error .locked, d) := by
          simp [StoreDirectory.writing, StoreDirectory.reading, hpath, hreadable, hlock]
        rw [hwrite]
        refine ⟨?_, f, (put_self hpath).symm, hgood⟩
        rintro ⟨_, hunlocked | ⟨_, hupToDate⟩⟩
        · exact hlock hunlocked
        · have hisSome := hupToDate.2.1
          rw [hsome] at hisSome
          cases hisSome

/-- What `open_local_store` does before it maps the errors. -/
theorem safe_openBody
    (hpath : d.path = some (.sqlite f))
    (h : Traceable sha256 k f) :
    SafeOpen sha256
      ((callFile .journalModeWal).bind (fun _ => runMigrations sha256 version))
      (fun _ d' => f.Keepable d.lock version ∧
        ∃ f', d' = d.put f' ∧ d'.Good sha256 ∧ f.RowsIn f')
      (fun _ d' => ¬f.Keepable d.lock version ∧ ∃ f', d' = d.put f' ∧ d'.Good sha256) d := by
  have hgood := good_of_path hpath h
  have hrefused : d.lock = .exclusive ∨ (f.wal = false ∧ d.lock = .writing) →
      ¬f.Keepable d.lock version ∧ ∃ f', d = d.put f' ∧ d.Good sha256 := by
    intro hcases
    refine ⟨?_, f, (put_self hpath).symm, hgood⟩
    rintro ⟨_, hunlocked | ⟨hwriting, hupToDate⟩⟩
    · rw [hunlocked] at hcases
      simp at hcases
    · rw [hwriting, hupToDate.1] at hcases
      simp at hcases
  unfold SafeOpen
  rw [Program.safe_bind]
  apply safe_callFile.mpr
  refine ⟨hgood, ?_⟩
  simp only [StoreDirectory.answer, StoreDirectory.journalModeWal]
  by_cases hexclusive : d.lock = .exclusive
  · have hread : d.reading (fun g => .ok g.wal) = .error .locked := by
      simp [StoreDirectory.reading, hpath, hexclusive]
    rw [hread]
    exact hrefused (.inl hexclusive)
  · have hread : d.reading (fun g => .ok g.wal) = .ok f.wal := by
      simp [StoreDirectory.reading, hpath, hexclusive]
    rw [hread]
    cases hwal : f.wal with
    | true => exact safe_runMigrations version hpath h hwal hexclusive
    | false =>
        cases hlock : d.lock with
        | exclusive => exact absurd hlock hexclusive
        | writing =>
            have hwrite : d.writing (fun g => .ok { g with wal := true }) =
                (.error .locked, d) := by
              simp [StoreDirectory.writing, StoreDirectory.reading, hpath, hlock]
            have hlocked := hrefused (.inr ⟨hwal, hlock⟩)
            rw [hlock] at hlocked
            simp only [hwrite]
            exact hlocked
        | unlocked =>
            let f₁ : SqliteFile := { f with wal := true }
            have hwrite : d.writing (fun g => .ok { g with wal := true }) =
                (.ok (), d.put f₁) := writing_unlocked hpath hlock rfl
            have h₁ : Traceable sha256 k f₁ := h.of_same rfl rfl rfl
            have hunlocked : (d.put f₁).lock = .unlocked := hlock
            have hbody := safe_runMigrations (d := d.put f₁) version rfl h₁ rfl
              (by simp [hunlocked])
            have hkeepable : f₁.Keepable (d.put f₁).lock version ↔
                f.Keepable .unlocked version := by
              have hopens : f₁.Opens .unlocked version ↔ f.Opens .unlocked version :=
                opens_congr rfl rfl
              rw [hunlocked, keepable_unlocked, keepable_unlocked, hopens]
            simp only [hwrite]
            refine hbody.mono ?_ ?_
            · rintro _ d' ⟨hkeep, f', rfl, hgood', hrows⟩
              exact ⟨hkeepable.mp hkeep, f', rfl, hgood', hrows⟩
            · rintro _ d' ⟨hkeep, f', rfl, hgood'⟩
              exact ⟨fun hkeep' => hkeep (hkeepable.mpr hkeep'), f', rfl, hgood'⟩

/-- `open_local_store` on a store the program produced. -/
theorem safe_openLocalStore
    (hpath : d.path = some (.sqlite f))
    (h : Traceable sha256 k f) :
    SafeOpen sha256 (openLocalStore sha256 version)
      (fun _ d' => f.Keepable d.lock version ∧
        ∃ f', d' = d.put f' ∧ d'.Good sha256 ∧ f.RowsIn f')
      (fun e d' => e = .localStoreCorrupted ∧ ¬f.Keepable d.lock version ∧
        ∃ f', d' = d.put f' ∧ d'.Good sha256) d := by
  unfold openLocalStore SafeOpen
  rw [Program.bind_eq, Program.safe_bind]
  apply safe_callFile.mpr
  refine ⟨good_of_path hpath h, ?_⟩
  have hconnect : ({ d with path := some (d.path.getD (.sqlite .empty)) } :
      StoreDirectory) = d := by
    rw [hpath, Option.getD_some, ← hpath]
  simp only [StoreDirectory.answer, hconnect]
  rw [Program.bind_eq, Program.safe_catching]
  exact (safe_openBody hpath h).mono (fun _ _ hQ => hQ) (fun _ _ hE => ⟨rfl, hE⟩)

/-- Whatever stands at the path, `open_local_store` leaves a good store, or raises. -/
theorem safe_openLocalStore_good
    (hgood : d.Good sha256) :
    SafeOpen sha256 (openLocalStore sha256 version)
      (fun _ d' => d'.Good sha256 ∧ d'.quarantined = d.quarantined)
      (fun e d' => e = .localStoreCorrupted ∧ d'.Good sha256 ∧ d'.quarantined = d.quarantined)
      d := by
  cases hpath : d.path with
  | some content =>
      cases content with
      | sqlite f =>
          obtain ⟨k, h⟩ := hgood f hpath
          refine (safe_openLocalStore hpath h).mono ?_ ?_
          · rintro _ d' ⟨_, f', rfl, hgood', _⟩
            exact ⟨hgood', rfl⟩
          · rintro e d' ⟨rfl, _, f', rfl, hgood'⟩
            exact ⟨rfl, hgood', rfl⟩
      | damaged =>
          have hconnect : ({ d with path := some (d.path.getD (.sqlite .empty)) } :
              StoreDirectory) = d := by
            rw [hpath, Option.getD_some, ← hpath]
          have hread : d.journalModeWal = (.error .notADatabase, d) := by
            simp [StoreDirectory.journalModeWal, StoreDirectory.reading, hpath]
          unfold openLocalStore SafeOpen
          rw [Program.bind_eq, Program.safe_bind]
          apply safe_callFile.mpr
          refine ⟨hgood, ?_⟩
          simp only [StoreDirectory.answer, hconnect]
          rw [Program.bind_eq, Program.safe_catching, Program.safe_bind]
          apply safe_callFile.mpr
          refine ⟨hgood, ?_⟩
          simp only [StoreDirectory.answer, hread]
          exact ⟨rfl, hgood, rfl⟩
  | none =>
      unfold openLocalStore SafeOpen
      rw [Program.bind_eq, Program.safe_bind]
      apply safe_callFile.mpr
      refine ⟨hgood, ?_⟩
      simp only [StoreDirectory.answer, hpath, Option.getD_none]
      rw [Program.bind_eq, Program.safe_catching]
      refine (safe_openBody (d := d.put .empty) rfl traceable_empty).mono ?_ ?_
      · rintro _ d' ⟨_, f', rfl, hgood', _⟩
        exact ⟨hgood', rfl⟩
      · rintro e d' ⟨_, f', rfl, hgood'⟩
        exact ⟨rfl, hgood', rfl⟩

/-- What `open_or_recover_local_store` does once it takes the store for a damaged one. -/
theorem safe_quarantine
    (hgood : d.Good sha256) :
    SafeOpen sha256
      ((callFile .renameToQuarantine).bind (fun _ => openLocalStore sha256 version))
      (fun _ d' => d'.Good sha256 ∧ d'.quarantined = d.quarantined ++ d.path.toList)
      (fun _ d' => d'.Good sha256 ∧ d'.quarantined = d.quarantined ++ d.path.toList) d := by
  unfold SafeOpen
  rw [Program.safe_bind]
  apply safe_callFile.mpr
  refine ⟨hgood, ?_⟩
  refine (safe_openLocalStore_good ?_).mono (fun _ _ hQ => hQ) (fun _ _ hE => hE.2)
  rintro f ⟨⟩

/-- `open_or_recover_local_store` on a store the program produced. -/
theorem safe_openOrRecoverLocalStore
    (version : Nat)
    (hpath : d.path = some (.sqlite f))
    (h : Traceable sha256 k f) :
    SafeOpen sha256 (openOrRecoverLocalStore sha256 version)
      (fun _ d' => (f.Keepable d.lock version ∧ ∃ f', d' = d.put f' ∧ f.RowsIn f') ∨
        (¬f.Keepable d.lock version ∧ d'.quarantined ≠ d.quarantined))
      (fun _ d' => ¬f.Keepable d.lock version ∧ d'.quarantined ≠ d.quarantined) d := by
  unfold openOrRecoverLocalStore SafeOpen
  rw [Program.safe_catching]
  refine (safe_openLocalStore hpath h).mono ?_ ?_
  · rintro _ d' ⟨hkeep, f', rfl, _, hrows⟩
    exact .inl ⟨hkeep, f', rfl, hrows⟩
  · rintro e d' ⟨rfl, hnot, f', rfl, hgood'⟩
    have hgrown : ∀ d' : StoreDirectory,
        d'.quarantined = (d.put f').quarantined ++ (d.put f').path.toList →
        d'.quarantined ≠ d.quarantined := by
      intro d' hd' heq
      rw [hd'] at heq
      simp [StoreDirectory.put] at heq
    refine (safe_quarantine hgood').mono ?_ ?_
    · rintro _ d' ⟨_, hd'⟩
      exact .inr ⟨hnot, hgrown d' hd'⟩
    · rintro _ d' ⟨_, hd'⟩
      exact ⟨hnot, hgrown d' hd'⟩

/-- Wherever the process is killed, it leaves a good store at the path. -/
theorem good_killed
    (hgood : d.Good sha256) (killedAfter : Nat) :
    (Program.killed StoreDirectory.answer killedAfter
      (openOrRecoverLocalStore sha256 version) d).Good sha256 := by
  have hsafe : SafeOpen sha256 (openOrRecoverLocalStore sha256 version)
      (fun _ d' => d'.Good sha256) (fun _ d' => d'.Good sha256) d := by
    unfold openOrRecoverLocalStore SafeOpen
    rw [Program.safe_catching]
    refine (safe_openLocalStore_good hgood).mono (fun _ _ hQ => hQ.1) ?_
    rintro e d' ⟨rfl, hgood', _⟩
    exact (safe_quarantine hgood').mono (fun _ _ hQ => hQ.1) (fun _ _ hE => hE.1)
  exact hsafe.killed_of killedAfter (fun _ _ => trivial) (fun _ _ hg => hg) (fun _ _ hQ => hQ)
    (fun _ _ hE => hE)

theorem good_fileStep
    (hgood : d.Good sha256) (action : FileAction) :
    (fileStep sha256 d action).Good sha256 := by
  cases action with
  | openOrRecover version killedAfter => exact good_killed hgood killedAfter
  | commitRows table rows =>
      unfold fileStep
      cases hpath : d.path with
      | none => exact hgood
      | some content =>
          cases content with
          | damaged => exact hgood
          | sqlite f =>
              obtain ⟨k, h⟩ := hgood f hpath
              exact good_of_path rfl (h.commitRows table rows)
  | setLock lock => exact hgood

/-- After every history the store at the path is one the program produced. -/
theorem good_directoryAfter
    (sha256 : Migration → String) (actions : List FileAction) :
    (directoryAfter sha256 actions).Good sha256 := by
  refine exec_invariant (P := fun _ _ => True)
    (I := fun d : StoreDirectory => d.Good sha256)
    (fun _ action hgood _ => good_fileStep hgood action)
    (along_of_forall (fun _ _ => trivial) _ _) ?_
  rintro f ⟨⟩

end Opening

/-! ## Which stores are kept -/

/--
A store is kept exactly when each pending migration finds its first table absent, and no
other connection has a lock or nothing is to be written.
-/
theorem store_kept_iff
    (sha256 : Migration → String) (actions : List FileAction) (version : Nat) (f : SqliteFile)
    (hpath : (directoryAfter sha256 actions).path = some (.sqlite f)) :
    StoreKept (directoryAfter sha256 actions) f
        (Program.run StoreDirectory.answer (openOrRecoverLocalStore sha256 version)
          (directoryAfter sha256 actions)) ↔
      f.Resumable version ∧ (directoryAfter sha256 actions).lock.Permits f version := by
  obtain ⟨k, h⟩ := good_directoryAfter sha256 actions f hpath
  generalize directoryAfter sha256 actions = d at *
  have hpost := (safe_openOrRecoverLocalStore version hpath h).outcome
    (fun _ _ => trivial)
  change StoreKept d f _ ↔ f.Keepable d.lock version
  cases hrun : Program.run StoreDirectory.answer (openOrRecoverLocalStore sha256 version) d with
  | mk outcome d' =>
      rw [hrun] at hpost
      cases outcome with
      | ok _ =>
          rcases hpost with ⟨hkeep, f', rfl, hrows⟩ | ⟨hnot, hgrown⟩
          · exact ⟨fun _ => hkeep, fun _ => ⟨rfl, .inl ⟨rfl, f', rfl, hrows⟩⟩⟩
          · exact ⟨fun hkept => absurd hkept.1 hgrown, fun hkeep => absurd hkeep hnot⟩
      | error e =>
          obtain ⟨hnot, hgrown⟩ := hpost
          exact ⟨fun hkept => absurd hkept.1 hgrown, fun hkeep => absurd hkeep hnot⟩

/-- The store the first open creates. -/
theorem store_kept_after_first_open :
    ∃ f, (directoryAfter (fun _ => "") [.openOrRecover 4 100]).path = some (.sqlite f) ∧
      (StoreKept (directoryAfter (fun _ => "") [.openOrRecover 4 100]) f
          (Program.run StoreDirectory.answer (openOrRecoverLocalStore (fun _ => "") 4)
            (directoryAfter (fun _ => "") [.openOrRecover 4 100])) ↔
        f.Resumable 4 ∧
          (directoryAfter (fun _ => "") [.openOrRecover 4 100]).lock.Permits f 4) :=
  ⟨_, rfl, store_kept_iff (fun _ => "") [.openOrRecover 4 100] 4 _ rfl⟩

/--
The first open is killed after `create table local_jobs`, or another connection has the
file for itself: the next open renames the file away.
-/
theorem store_quarantined :
    (∃ f, (directoryAfter (fun _ => "") [.openOrRecover 4 5]).path = some (.sqlite f) ∧
        ¬StoreKept (directoryAfter (fun _ => "") [.openOrRecover 4 5]) f
          (Program.run StoreDirectory.answer (openOrRecoverLocalStore (fun _ => "") 4)
            (directoryAfter (fun _ => "") [.openOrRecover 4 5]))) ∧
      ∃ f, (directoryAfter (fun _ => "") [.openOrRecover 4 100, .setLock .exclusive]).path =
          some (.sqlite f) ∧
        ¬StoreKept (directoryAfter (fun _ => "") [.openOrRecover 4 100, .setLock .exclusive]) f
          (Program.run StoreDirectory.answer (openOrRecoverLocalStore (fun _ => "") 4)
            (directoryAfter (fun _ => "") [.openOrRecover 4 100, .setLock .exclusive])) := by
  constructor
  · refine ⟨_, rfl, ?_⟩
    rintro ⟨hsame, _⟩
    exact absurd (congrArg List.length hsame) (by decide)
  · refine ⟨_, rfl, ?_⟩
    rintro ⟨hsame, _⟩
    exact absurd (congrArg List.length hsame) (by decide)

end Runner
end PrReviewer
