import PrReviewer.Db.Migrate

/-!
# The order of the migrations

The lock is released before the transaction is committed, so calls of `migrate` do
overlap.  What keeps them apart is the primary key of `schema_migrations`: two open
transactions that wrote anything would both begin with the first file that is not
committed.  As long as releases only add files behind the ones before, the files that were
run are the first files of the newest release, and a call that returns has all of its own
among them.
-/

namespace PrReviewer
namespace Db

open Lib

/-! ## Prefixes of one list -/

section Prefixes

variable {α : Type} {l c pre : List α} {x : α}

/-- The longer of two prefixes goes on with the element behind the shorter one. -/
theorem mem_of_longer_initial
    (hnext : pre ++ [x] <+: l) (hc : c <+: l) (hlt : pre.length < c.length) :
    x ∈ c := by
  have hlength : (pre ++ [x]).length ≤ c.length := by
    rw [List.length_append, List.length_singleton]
    omega
  have hinitial := List.prefix_of_prefix_length_le hnext hc hlength
  exact hinitial.subset (by simp)

theorem mem_drop_of_longer_initial
    (hnext : pre ++ [x] <+: l) (hc : c <+: l) (hlt : pre.length < c.length) :
    x ∈ c.drop pre.length := by
  have hlength : (pre ++ [x]).length ≤ c.length := by
    rw [List.length_append, List.length_singleton]
    omega
  have hinitial := (List.prefix_of_prefix_length_le hnext hc hlength).drop pre.length
  rw [List.drop_left] at hinitial
  exact hinitial.subset (by simp)

/-- What is behind the shorter of two prefixes makes it the longer one. -/
theorem append_drop_of_prefixes
    (hpre : pre <+: l) (hc : c <+: l) (hle : pre.length ≤ c.length) :
    pre ++ c.drop pre.length = c := by
  obtain ⟨rest, rfl⟩ := List.prefix_of_prefix_length_le hpre hc hle
  rw [List.drop_left]

end Prefixes

/-! ## Calls of one line of releases -/

/--
Where a call is: `read` are the files that were committed when it read the table, `done`
those the loop is through with.  What the call wrote is what it did behind `read`; and
since it wrote, nobody has committed anything.
-/
structure Place (s : Database) (id : Nat) (call : Call) (read done : List Migration) :
    Prop where
  read_committed : read <+: s.committed
  read_loaded : read <+: call.migrations
  done_loaded : done <+: call.migrations
  own : s.own id = done.drop read.length
  alone : s.own id ≠ [] → s.committed = read

/-- What the phase of a call says about its place. -/
def AtPhase (migrations read done : List Migration) : Phase → Prop
  | .waiting => done = []
  | .reading => done = []
  | .applying applied todo =>
      applied = read.map Migration.row ∧ migrations = done ++ todo
  | .closing (.ok _) => done = migrations
  | .closing (.error _) => True

/-- The invariant of calls whose files are the first ones of `all`. -/
structure InOrder (all : List Migration) (s : Database) : Prop where
  committed : s.committed <+: all
  loaded : ∀ id call, s.calls id = some call → call.migrations <+: all
  place : ∀ id call, s.calls id = some call →
    ∃ read done, Place s id call read done ∧ AtPhase call.migrations read done call.phase
  idle : ∀ id, s.calls id = none → s.own id = []
  single : ∀ id id', s.own id ≠ [] → s.own id' ≠ [] → id = id'
  returned : ∀ migrations ∈ s.returned, migrations <+: s.committed

section Steps

variable {all : List Migration} {s : Database} {id : Nat} {call : Call}

/-- A place depends on the committed files and the own writes only. -/
theorem Place.of_same
    {s s' : Database} {id : Nat} {call call' : Call} {read done : List Migration}
    (h : Place s id call read done)
    (hcommitted : s'.committed = s.committed)
    (hown : s'.own id = s.own id)
    (hloaded : call'.migrations = call.migrations) :
    Place s' id call' read done where
  read_committed := by
    rw [hcommitted]
    exact h.read_committed
  read_loaded := by
    rw [hloaded]
    exact h.read_loaded
  done_loaded := by
    rw [hloaded]
    exact h.done_loaded
  own := by
    rw [hown]
    exact h.own
  alone := by
    rw [hown, hcommitted]
    exact h.alone

/-- A call goes to another phase and writes nothing. -/
theorem InOrder.put
    {s' : Database} {phase : Phase}
    (h : InOrder all s)
    (hcall : s.calls id = some call)
    (hcommitted : s'.committed = s.committed)
    (huncommitted : s'.uncommitted = s.uncommitted)
    (hcalls : s'.calls = Function.update s.calls id (some { call with phase := phase }))
    (hreturned : s'.returned = s.returned)
    (hplace : ∃ read done, Place s id call read done ∧
      AtPhase call.migrations read done phase) :
    InOrder all s' := by
  have hown : ∀ id', s'.own id' = s.own id' := by
    intro id'
    unfold Database.own
    rw [huncommitted]
  refine ⟨by rw [hcommitted]; exact h.committed, ?_, ?_, ?_, ?_, ?_⟩
  · intro id' call' hcall'
    rw [hcalls, Function.update_apply] at hcall'
    split at hcall'
    · cases hcall'
      exact h.loaded id call hcall
    · exact h.loaded id' call' hcall'
  · intro id' call' hcall'
    rw [hcalls, Function.update_apply] at hcall'
    split at hcall'
    · next hid =>
        cases hcall'
        subst hid
        obtain ⟨read, done, hread, hphase⟩ := hplace
        exact ⟨read, done, hread.of_same hcommitted (hown _) rfl, hphase⟩
    · obtain ⟨read, done, hread, hphase⟩ := h.place id' call' hcall'
      exact ⟨read, done, hread.of_same hcommitted (hown _) rfl, hphase⟩
  · intro id' hidle
    rw [hcalls, Function.update_apply] at hidle
    split at hidle
    · cases hidle
    · rw [hown]
      exact h.idle id' hidle
  · intro id₁ id₂ h₁ h₂
    rw [hown] at h₁ h₂
    exact h.single id₁ id₂ h₁ h₂
  · rw [hreturned, hcommitted]
    exact h.returned

/-- A call that is no longer there has written nothing, and nobody else lost anything. -/
theorem inOrder_rollback
    (h : InOrder all s) (id : Nat) :
    InOrder all (s.rollback id) := by
  have hown : ∀ id', (s.rollback id).own id' = if id' = id then [] else s.own id' :=
    fun id' => own_filter_ne s id id'
  have hcalls : ∀ id' call', (s.rollback id).calls id' = some call' →
      id' ≠ id ∧ s.calls id' = some call' := by
    intro id' call' hcall'
    rw [rollback_calls] at hcall'
    split at hcall'
    · cases hcall'
    · next hne => exact ⟨hne, hcall'⟩
  refine ⟨h.committed, ?_, ?_, ?_, ?_, h.returned⟩
  · intro id' call' hcall'
    exact h.loaded id' call' (hcalls id' call' hcall').2
  · intro id' call' hcall'
    obtain ⟨hne, hcall⟩ := hcalls id' call' hcall'
    obtain ⟨read, done, hread, hphase⟩ := h.place id' call' hcall
    exact ⟨read, done, hread.of_same rfl (by rw [hown, if_neg hne]) rfl, hphase⟩
  · intro id' hidle
    rw [hown]
    split
    · rfl
    · next hne =>
        refine h.idle id' ?_
        rw [rollback_calls, if_neg hne] at hidle
        exact hidle
  · intro id₁ id₂ h₁ h₂
    rw [hown] at h₁ h₂
    split at h₁
    · exact absurd rfl h₁
    · split at h₂
      · exact absurd rfl h₂
      · exact h.single id₁ id₂ h₁ h₂

/-- Which place a new call has. -/
theorem inOrder_start
    {migrations : List Migration}
    (h : InOrder all s)
    (hfree : s.calls id = none)
    (hloaded : migrations <+: all) :
    InOrder all (s.put id { migrations := migrations, phase := .waiting }) := by
  refine ⟨h.committed, ?_, ?_, ?_, h.single, h.returned⟩
  · intro id' call' hcall'
    rw [put_calls] at hcall'
    split at hcall'
    · cases hcall'
      exact hloaded
    · exact h.loaded id' call' hcall'
  · intro id' call' hcall'
    rw [put_calls] at hcall'
    split at hcall'
    · next hid =>
        cases hcall'
        have hnothing : s.own id' = [] := h.idle id' (hid ▸ hfree)
        exact ⟨[], [], ⟨List.nil_prefix, List.nil_prefix, List.nil_prefix, hnothing,
          fun hown => absurd hnothing hown⟩, rfl⟩
    · obtain ⟨read, done, hread, hphase⟩ := h.place id' call' hcall'
      exact ⟨read, done, hread.of_same rfl rfl rfl, hphase⟩
  · intro id' hidle
    rw [put_calls] at hidle
    split at hidle
    · cases hidle
    · exact h.idle id' hidle

/-- A call that has read the table knows the committed files as its own first ones. -/
theorem place_loaded
    (hnodup : (all.map Migration.filename).Nodup)
    (h : InOrder all s)
    (hcall : s.calls id = some call)
    (hnothing : s.own id = [])
    (hknown : ∀ m ∈ s.committed, m.filename ∈ call.migrations.map Migration.filename) :
    Place s id call s.committed [] := by
  have hinitial : s.committed <+: call.migrations := by
    rcases Nat.lt_or_ge call.migrations.length s.committed.length with hlt | hle
    · -- the file behind those of the call is committed, but not among them
      exfalso
      obtain ⟨rest, hrest⟩ :=
        List.prefix_of_prefix_length_le (h.loaded id call hcall) h.committed (by omega)
      cases rest with
      | nil =>
          rw [List.append_nil] at hrest
          rw [hrest] at hlt
          omega
      | cons m rest =>
          have hm : m ∈ s.committed := by
            rw [← hrest]
            simp
          have hnames := hnodup.sublist (h.committed.sublist.map Migration.filename)
          rw [← hrest, List.map_append, List.nodup_append] at hnames
          exact hnames.2.2 _ (hknown m hm) _ (by simp) rfl
    · exact List.prefix_of_prefix_length_le h.committed (h.loaded id call hcall) hle
  exact ⟨List.prefix_rfl, hinitial, List.nil_prefix, by rw [hnothing, List.drop_nil],
    fun hown => absurd hnothing hown⟩

/-- The loop goes past a file whose name the table holds. -/
theorem Place.skip
    {read done todo : List Migration} {m : Migration}
    (hnodup : (call.migrations.map Migration.filename).Nodup)
    (hplace : Place s id call read done)
    (hloaded : call.migrations = done ++ m :: todo)
    (hread : m.filename ∈ read.map Migration.filename) :
    Place s id call read (done ++ [m]) := by
  have hlt : done.length < read.length := by
    by_contra hle
    have hinitial : read <+: done :=
      List.prefix_of_prefix_length_le hplace.read_loaded hplace.done_loaded (by omega)
    rw [hloaded, List.map_append, List.nodup_append] at hnodup
    refine hnodup.2.2 _ ((hinitial.map Migration.filename).subset hread) m.filename ?_ rfl
    simp
  refine ⟨hplace.read_committed, hplace.read_loaded, ?_, ?_, hplace.alone⟩
  · exact ⟨todo, by rw [hloaded, List.append_assoc]; rfl⟩
  · rw [hplace.own, List.drop_append, List.drop_eq_nil_of_le (by omega),
      List.drop_eq_nil_of_le]
    · rfl
    · rw [List.length_singleton]
      omega

/-- Nobody has committed behind a call whose next file is free. -/
theorem Place.committed_eq
    {read done todo : List Migration} {m : Migration}
    (h : InOrder all s)
    (hcall : s.calls id = some call)
    (hplace : Place s id call read done)
    (hloaded : call.migrations = done ++ m :: todo)
    (hread : m ∉ read)
    (hcommitted : m ∉ s.committed) :
    s.committed = read ∧ read.length ≤ done.length ∧
      (s.own id = [] → done = s.committed) := by
  have hnext : done ++ [m] <+: call.migrations :=
    ⟨todo, by rw [hloaded, List.append_assoc]; rfl⟩
  have hle : read.length ≤ done.length := by
    by_contra hlt
    exact hread (mem_of_longer_initial hnext hplace.read_loaded (by omega))
  have hdone : s.own id = [] → done = read := by
    intro hnothing
    rw [hplace.own, List.drop_eq_nil_iff] at hnothing
    have hinitial :=
      List.prefix_of_prefix_length_le hplace.read_loaded hplace.done_loaded hle
    exact (hinitial.eq_of_length (by omega)).symm
  have hsame : s.committed = read := by
    by_cases hnothing : s.own id = []
    · by_contra hne
      refine hcommitted (mem_of_longer_initial
        (hnext.trans (h.loaded id call hcall)) h.committed ?_)
      rw [hdone hnothing]
      rcases Nat.lt_or_ge read.length s.committed.length with hlt | hge
      · exact hlt
      · exact absurd (hplace.read_committed.eq_of_length_le hge).symm hne
    · exact hplace.alone hnothing
  refine ⟨hsame, hle, fun hnothing => ?_⟩
  rw [hdone hnothing, hsame]

/-- A file is run that nobody has run. -/
theorem inOrder_inserted
    {read done todo : List Migration} {m : Migration}
    (h : InOrder all s)
    (hcall : s.calls id = some call)
    (hplace : Place s id call read done)
    (hloaded : call.migrations = done ++ m :: todo)
    (hread : m ∉ read)
    (hcommitted : m ∉ s.committed)
    (hfree : ∀ id', m ∉ s.own id') :
    InOrder all
      ({ s with uncommitted := s.uncommitted ++ [(id, m)] }.put id
        { call with phase := .applying (read.map Migration.row) todo }) := by
  obtain ⟨hsame, hle, hstart⟩ := hplace.committed_eq h hcall hloaded hread hcommitted
  have hnext : done ++ [m] <+: call.migrations :=
    ⟨todo, by rw [hloaded, List.append_assoc]; rfl⟩
  have hown := own_append s id
  -- another open transaction would have begun with the same file
  have hothers : ∀ id', id' ≠ id → s.own id' = [] := by
    intro id' hne
    by_contra hnonempty
    have hnothing : s.own id = [] := by
      by_contra hown
      exact hne (h.single id' id hnonempty hown)
    have hcall' : ∃ call', s.calls id' = some call' := by
      cases hnone : s.calls id' with
      | none => exact absurd (h.idle id' hnone) hnonempty
      | some call' => exact ⟨call', rfl⟩
    obtain ⟨call', hcall'⟩ := hcall'
    obtain ⟨read', done', hplace', _⟩ := h.place id' call' hcall'
    have hread' : read'.length = done.length := by
      rw [hstart hnothing, hplace'.alone hnonempty]
    refine hfree id' ?_
    rw [hplace'.own, hread']
    refine mem_drop_of_longer_initial (hnext.trans (h.loaded id call hcall))
      (hplace'.done_loaded.trans (h.loaded id' call' hcall')) ?_
    rw [hplace'.own, List.drop_eq_nil_iff] at hnonempty
    omega
  have hplaced : Place
      ({ s with uncommitted := s.uncommitted ++ [(id, m)] }.put id
        { call with phase := .applying (read.map Migration.row) todo }) id
      { call with phase := .applying (read.map Migration.row) todo } read (done ++ [m]) := by
    refine ⟨hplace.read_committed, hplace.read_loaded, hnext, ?_, fun _ => hsame⟩
    rw [put_own, hown, if_pos rfl, hplace.own, List.drop_append_of_le_length hle]
  refine ⟨h.committed, ?_, ?_, ?_, ?_, h.returned⟩
  · intro id' call' hcall'
    rw [put_calls] at hcall'
    split at hcall'
    · cases hcall'
      exact h.loaded id call hcall
    · exact h.loaded id' call' hcall'
  · intro id' call' hcall'
    rw [put_calls] at hcall'
    split at hcall'
    · next hid =>
        cases hcall'
        subst hid
        exact ⟨read, done ++ [m], hplaced, rfl, by rw [hloaded, List.append_assoc]; rfl⟩
    · next hid =>
        obtain ⟨read', done', hread', hphase'⟩ := h.place id' call' hcall'
        refine ⟨read', done', hread'.of_same rfl ?_ rfl, hphase'⟩
        rw [put_own, hown, if_neg (Ne.symm hid)]
  · intro id' hidle
    rw [put_calls] at hidle
    split at hidle
    · cases hidle
    · next hid =>
        rw [put_own, hown, if_neg (Ne.symm hid)]
        exact h.idle id' hidle
  · have hid : ∀ id', (({ s with uncommitted := s.uncommitted ++ [(id, m)] } : Database).put id
        { call with phase := .applying (read.map Migration.row) todo }).own id' ≠ [] →
          id' = id := by
      intro id' hnonempty
      by_contra hne
      rw [put_own, hown, if_neg (Ne.symm hne)] at hnonempty
      exact hnonempty (hothers id' hne)
    intro id₁ id₂ h₁ h₂
    rw [hid id₁ h₁, hid id₂ h₂]

/-- What a call commits is behind what it read, and all of its files when it returns. -/
theorem Place.committed
    {read done : List Migration}
    (hplace : Place s id call read done) :
    s.committed ++ s.own id <+: s.committed ∨ s.committed ++ s.own id = done := by
  by_cases hnothing : s.own id = []
  · rw [hnothing, List.append_nil]
    exact .inl List.prefix_rfl
  · right
    have hlt : read.length < done.length := by
      by_contra hge
      refine hnothing ?_
      rw [hplace.own, List.drop_eq_nil_iff]
      omega
    rw [hplace.alone hnothing, hplace.own]
    exact append_drop_of_prefixes hplace.read_loaded hplace.done_loaded (by omega)

theorem inOrder_commit
    {outcome : Except MigrateError Unit}
    (h : InOrder all s)
    (hcall : s.calls id = some call)
    (hphase : call.phase = .closing outcome) :
    InOrder all (s.commit id call outcome) := by
  obtain ⟨read, done, hplace, hat⟩ := h.place id call hcall
  rw [hphase] at hat
  have hown : ∀ id', (s.commit id call outcome).own id' =
      if id' = id then [] else s.own id' :=
    fun id' => own_filter_ne s id id'
  have hgrows : s.committed <+: (s.commit id call outcome).committed :=
    List.prefix_append _ _
  have hcalls : ∀ id' call', (s.commit id call outcome).calls id' = some call' →
      id' ≠ id ∧ s.calls id' = some call' := by
    intro id' call' hcall'
    rw [commit_calls] at hcall'
    split at hcall'
    · cases hcall'
    · next hne => exact ⟨hne, hcall'⟩
  refine ⟨?_, ?_, ?_, ?_, ?_, ?_⟩
  · rcases hplace.committed with hsame | hdone
    · exact hsame.trans h.committed
    · change s.committed ++ s.own id <+: all
      rw [hdone]
      exact hplace.done_loaded.trans (h.loaded id call hcall)
  · intro id' call' hcall'
    exact h.loaded id' call' (hcalls id' call' hcall').2
  · intro id' call' hcall'
    obtain ⟨hne, hcall'⟩ := hcalls id' call' hcall'
    obtain ⟨read', done', hplace', hat'⟩ := h.place id' call' hcall'
    refine ⟨read', done', ⟨hplace'.read_committed.trans hgrows, hplace'.read_loaded,
      hplace'.done_loaded, by rw [hown, if_neg hne]; exact hplace'.own, ?_⟩, hat'⟩
    intro hnonempty
    rw [hown, if_neg hne] at hnonempty
    have hnothing : s.own id = [] := by
      by_contra hown
      exact hne (h.single id' id hnonempty hown)
    change s.committed ++ s.own id = read'
    rw [hnothing, List.append_nil]
    exact hplace'.alone hnonempty
  · intro id' hidle
    rw [hown]
    split
    · rfl
    · next hne =>
        rw [commit_calls, if_neg hne] at hidle
        exact h.idle id' hidle
  · intro id₁ id₂ h₁ h₂
    rw [hown] at h₁ h₂
    split at h₁
    · exact absurd rfl h₁
    · split at h₂
      · exact absurd rfl h₂
      · exact h.single id₁ id₂ h₁ h₂
  · intro migrations hmem
    cases outcome with
    | error e => exact (h.returned migrations hmem).trans hgrows
    | ok value =>
        rcases List.mem_append.mp hmem with hold | hnew
        · exact (h.returned migrations hold).trans hgrows
        · rw [List.mem_singleton.mp hnew]
          have hall : done = call.migrations := hat
          by_cases hnothing : s.own id = []
          · refine List.IsPrefix.trans ?_ (hplace.read_committed.trans hgrows)
            rw [hplace.own, hall, List.drop_eq_nil_iff] at hnothing
            rw [← hplace.read_loaded.eq_of_length_le hnothing]
          · rcases hplace.committed with hsame | hdone
            · exact absurd (List.append_right_eq_self.mp
                (hsame.eq_of_length_le (by simp))) hnothing
            · change call.migrations <+: s.committed ++ s.own id
              rw [hdone, hall]

end Steps

section Runs

variable {sha256 : String → String} {all : List Migration} {s : Database}

/-- A statement of a call. -/
theorem inOrder_proceeds
    {s' : Database} {id : Nat} {call : Call}
    (hnodup : (all.map Migration.filename).Nodup)
    (h : InOrder all s)
    (hcall : s.calls id = some call)
    (hproceeds : Proceeds s id call s') :
    InOrder all s' := by
  obtain ⟨read, done, hplace, hat⟩ := h.place id call hcall
  have hmigrations : (call.migrations.map Migration.filename).Nodup :=
    hnodup.sublist ((h.loaded id call hcall).sublist.map Migration.filename)
  cases hproceeds with
  | waits => exact h
  | locked hphase =>
      rw [hphase] at hat
      exact h.put hcall rfl rfl rfl rfl ⟨read, done, hplace, hat⟩
  | loaded hphase hknown =>
      rw [hphase] at hat
      have hnothing : s.own id = [] := by
        rw [hplace.own, show done = [] from hat, List.drop_nil]
      exact h.put hcall rfl rfl rfl rfl
        ⟨s.committed, [], place_loaded hnodup h hcall hnothing hknown, rfl, rfl⟩
  | @skipped applied m todo hphase happlied =>
      rw [hphase] at hat
      obtain ⟨rfl, hloaded⟩ := hat
      have hread : m.filename ∈ read.map Migration.filename := by
        have hname := isSome_lookup_iff.mp (by rw [happlied]; rfl)
        rw [List.map_map] at hname
        exact hname
      exact h.put hcall rfl rfl rfl rfl
        ⟨read, done ++ [m], hplace.skip hmigrations hloaded hread, rfl, by
          rw [hloaded, List.append_assoc]; rfl⟩
  | @inserted applied m todo hphase happlied hcommitted huncommitted =>
      rw [hphase] at hat
      obtain ⟨rfl, hloaded⟩ := hat
      refine inOrder_inserted h hcall hplace hloaded ?_ ?_ ?_
      · intro hm
        have hname : ((read.map Migration.row).lookup m.filename).isSome = true := by
          rw [isSome_lookup_iff, List.map_map]
          exact List.mem_map_of_mem hm
        rw [happlied] at hname
        cases hname
      · intro hm
        exact hcommitted (List.mem_map_of_mem hm)
      · intro id' hm
        exact huncommitted (List.mem_map_of_mem
          (f := fun entry : Nat × Migration => entry.2.filename) ((mem_own s id').mp hm))
  | @finished applied hphase =>
      rw [hphase] at hat
      refine h.put hcall rfl rfl rfl rfl ⟨read, done, hplace, ?_⟩
      change done = call.migrations
      rw [hat.2, List.append_nil]
  | failed hphase => exact h.put hcall rfl rfl rfl rfl ⟨read, done, hplace, trivial⟩
  | closed hphase => exact inOrder_commit h hcall hphase

theorem inOrder_empty
    (all : List Migration) :
    InOrder all .empty := by
  refine ⟨List.nil_prefix, ?_, ?_, ?_, ?_, ?_⟩
  · intro id call hcall
    cases hcall
  · intro id call hcall
    cases hcall
  · intro id _
    rfl
  · intro id id' hown
    exact absurd rfl hown
  · intro migrations hmem
    cases hmem

/-- The action starts no call whose files are not the first ones of `whole`. -/
def OfRelease (whole : MigrationsDirectory) : MigrateAction → Prop
  | .start _ directory => directory.entries <+: whole.entries
  | _ => True

instance (whole : MigrationsDirectory) : DecidablePred (OfRelease whole)
  | .start _ directory => inferInstanceAs (Decidable (directory.entries <+: whole.entries))
  | .proceed _ _ => inferInstanceAs (Decidable True)
  | .kill _ => inferInstanceAs (Decidable True)

theorem inOrder_step
    {whole : MigrationsDirectory} {action : MigrateAction}
    (h : InOrder (loadMigrations sha256 whole) s)
    (hrelease : OfRelease whole action) :
    InOrder (loadMigrations sha256 whole) (migrateStep sha256 s action) := by
  cases action with
  | start id directory =>
      simp only [migrateStep]
      cases hcall : s.calls id with
      | none => exact inOrder_start h hcall (loadMigrations_initial hrelease)
      | some call => exact h
  | proceed id scriptFails =>
      simp only [migrateStep]
      cases hcall : s.calls id with
      | none => exact h
      | some call =>
          exact inOrder_proceeds (loadMigrations_nodup sha256 whole) h hcall
            (proceed_proceeds s id call scriptFails)
  | kill id => exact inOrder_rollback h id

/--
**Migrations run in the order of the releases.**  Any number of calls run at once, each with
the files of some release; scripts may fail and calls may be killed anywhere.  The files
that were run are always the first files of the newest release, in their order, each run
once; and a call that returned has all of its files among them.
-/
theorem migrations_run_in_order
    (sha256 : String → String) (whole : MigrationsDirectory) (actions : List MigrateAction)
    (hreleases : ∀ action ∈ actions, OfRelease whole action) :
    (exec (migrateStep sha256) .empty actions).committed <+: loadMigrations sha256 whole ∧
      ∀ migrations ∈ (exec (migrateStep sha256) .empty actions).returned,
        migrations <+: (exec (migrateStep sha256) .empty actions).committed := by
  have h : InOrder (loadMigrations sha256 whole)
      (exec (migrateStep sha256) .empty actions) :=
    exec_invariant (P := fun _ action => OfRelease whole action)
      (fun _ _ hinv hrelease => inOrder_step hinv hrelease)
      (along_of_mem hreleases _) (inOrder_empty _)
  exact ⟨h.committed, h.returned⟩

end Runs

def releaseEntries : List (String × String) :=
  [("202608251000_jobs.sql", "create table review_jobs ()"),
    ("202608281629_runner_protocol.sql", "create table runners ()")]

theorem releaseEntries_sorted :
    releaseEntries.Pairwise (fun a b => a.1 < b.1) := by
  decide

def sampleRelease : MigrationsDirectory where
  entries := releaseEntries
  sorted := releaseEntries_sorted

/-- The second call reads the table after the first released the lock, and before it commits. -/
def overlappingCalls : List MigrateAction :=
  [MigrateAction.start 0 sampleRelease, MigrateAction.start 1 sampleRelease] ++
    statements 5 0 ++ statements 3 1 ++
    [MigrateAction.proceed 0 false] ++ statements 2 1

theorem migrations_run_in_order_overlapping :
    (exec (migrateStep id) .empty overlappingCalls).committed <+:
        loadMigrations id sampleRelease ∧
      ∀ migrations ∈ (exec (migrateStep id) .empty overlappingCalls).returned,
        migrations <+: (exec (migrateStep id) .empty overlappingCalls).committed :=
  migrations_run_in_order id sampleRelease overlappingCalls (by decide)

/-- The first call returns, the second one meets the key of the first file and raises. -/
example :
    (exec (migrateStep id) .empty overlappingCalls).committed =
        loadMigrations id sampleRelease ∧
      (exec (migrateStep id) .empty overlappingCalls).returned =
        [loadMigrations id sampleRelease] := by
  decide

/-! ## Recovery -/

/-- The lock is held by a call that has not released it. -/
def LockHeld (s : Database) : Prop :=
  ∀ id, s.lockHolder = some id →
    ∃ call, s.calls id = some call ∧ call.phase ≠ .waiting ∧
      ∀ outcome, call.phase ≠ .closing outcome

section Recovery

variable {sha256 : String → String} {s s' : Database} {id : Nat} {call : Call}

/-- A call goes to another phase and keeps the lock if it has it. -/
theorem LockHeld.put
    (h : LockHeld s)
    (call : Call)
    (hholder : s'.lockHolder = s.lockHolder)
    (hcalls : ∀ id', s'.calls id' = if id' = id then some call else s.calls id')
    (hphase : s.lockHolder = some id →
      call.phase ≠ .waiting ∧ ∀ outcome, call.phase ≠ .closing outcome) :
    LockHeld s' := by
  intro id' hlock
  rw [hholder] at hlock
  rw [hcalls]
  split
  · next hid =>
      subst hid
      exact ⟨call, rfl, hphase hlock⟩
  · exact h id' hlock

/-- A call without the lock is gone, or behind the release. -/
theorem LockHeld.released
    (h : LockHeld s) (id : Nat)
    (hholder : ∀ id', s'.lockHolder = some id' → s.lockHolder = some id' ∧ id' ≠ id)
    (hcalls : ∀ id', id' ≠ id → s'.calls id' = s.calls id') :
    LockHeld s' := by
  intro id' hlock
  obtain ⟨hlock, hne⟩ := hholder id' hlock
  rw [hcalls id' hne]
  exact h id' hlock

theorem release_lockHolder
    {id' : Nat}
    (h : (s.release id).lockHolder = some id') :
    s.lockHolder = some id' ∧ id' ≠ id := by
  unfold Database.release at h
  simp only at h
  split at h
  · cases h
  · next hne =>
      refine ⟨h, fun hid => hne ?_⟩
      rw [h, hid]

theorem lockHeld_proceeds
    (h : LockHeld s)
    (hcall : s.calls id = some call)
    (hproceeds : Proceeds s id call s') :
    LockHeld s' := by
  have hclose : ∀ outcome, LockHeld (s.close id call outcome) := by
    intro outcome
    refine h.released _ (fun id' => release_lockHolder) (fun id' hne => ?_)
    exact (put_calls (s.release id) id id' _).trans (if_neg hne)
  cases hproceeds with
  | waits => exact h
  | locked hphase =>
      intro id' hlock
      cases hlock
      rw [put_calls, if_pos rfl]
      exact ⟨_, rfl, Phase.noConfusion, fun outcome => Phase.noConfusion⟩
  | loaded hphase hknown =>
      exact h.put _ rfl (put_calls s id · _)
        (fun _ => ⟨Phase.noConfusion, fun outcome => Phase.noConfusion⟩)
  | skipped hphase happlied =>
      exact h.put _ rfl (put_calls s id · _)
        (fun _ => ⟨Phase.noConfusion, fun outcome => Phase.noConfusion⟩)
  | inserted hphase happlied hcommitted huncommitted =>
      exact h.put _ rfl (put_calls _ id · _)
        (fun _ => ⟨Phase.noConfusion, fun outcome => Phase.noConfusion⟩)
  | finished hphase => exact hclose _
  | failed hphase => exact hclose _
  | closed hphase =>
      refine h.released id (fun id' hlock => ⟨hlock, ?_⟩)
        (fun id' hne => (commit_calls s id id' call _).trans (if_neg hne))
      intro hid
      subst hid
      obtain ⟨call', hcall', _, hopen⟩ := h id' hlock
      rw [hcall] at hcall'
      cases hcall'
      exact hopen _ hphase

theorem lockHeld_step
    (h : LockHeld s) (action : MigrateAction) :
    LockHeld (migrateStep sha256 s action) := by
  cases action with
  | start id directory =>
      simp only [migrateStep]
      cases hcall : s.calls id with
      | none =>
          refine h.put _ rfl (put_calls s id · _) ?_
          intro hlock
          obtain ⟨call, hholder, _⟩ := h id hlock
          rw [hcall] at hholder
          cases hholder
      | some call => exact h
  | proceed id scriptFails =>
      simp only [migrateStep]
      cases hcall : s.calls id with
      | none => exact h
      | some call => exact lockHeld_proceeds h hcall (proceed_proceeds s id call scriptFails)
  | kill id =>
      refine h.released _ (fun id' => release_lockHolder) (fun id' hne => ?_)
      exact (rollback_calls s id id').trans (if_neg hne)

/-- One call alone, which holds the lock and has written `writes`. -/
def Database.alone
    (id : Nat) (committed writes : List Migration) (returned : List (List Migration))
    (call : Call) : Database where
  committed := committed
  uncommitted := writes.map (fun m => (id, m))
  lockHolder := some id
  calls := Function.update (fun _ => none) id (some call)
  returned := returned

/-- The next file of a call that runs alone. -/
theorem proceed_alone
    {committed done todo migrations : List Migration} {m : Migration}
    {returned : List (List Migration)}
    (hnodup : (migrations.map Migration.filename).Nodup)
    (hcommitted : committed <+: migrations)
    (hmigrations : migrations = done ++ m :: todo) :
    migrateStep sha256
      (.alone id committed (done.drop committed.length) returned
        ⟨migrations, .applying (committed.map Migration.row) (m :: todo)⟩)
      (.proceed id false) =
    .alone id committed ((done ++ [m]).drop committed.length) returned
      ⟨migrations, .applying (committed.map Migration.row) todo⟩ := by
  have hdone : done <+: migrations := ⟨m :: todo, hmigrations.symm⟩
  have hnext : done ++ [m] <+: migrations :=
    ⟨todo, by rw [hmigrations, List.append_assoc]; rfl⟩
  have hnew : m.filename ∉ done.map Migration.filename := by
    intro hmem
    rw [hmigrations, List.map_append, List.nodup_append] at hnodup
    exact hnodup.2.2 _ hmem m.filename (by simp) rfl
  have hrows : ((committed.map Migration.row).map Prod.fst).Nodup := by
    rw [List.map_map]
    exact hnodup.sublist (hcommitted.sublist.map Migration.filename)
  simp only [migrateStep, Database.alone, Function.update_self, proceed]
  rcases Nat.lt_or_ge done.length committed.length with hlt | hge
  · have hlookup : (committed.map Migration.row).lookup m.filename = some m.checksum :=
      (lookup_eq_some_iff_mem hrows).mpr
        (List.mem_map_of_mem (mem_of_longer_initial hnext hcommitted hlt))
    have hnothing : (done ++ [m]).drop committed.length = done.drop committed.length := by
      rw [List.drop_eq_nil_of_le, List.drop_eq_nil_of_le]
      · omega
      · rw [List.length_append, List.length_singleton]
        omega
    simp only [hlookup, ne_eq, not_true_eq_false, if_false, hnothing, Database.put,
      Function.update_idem]
  · have hread : committed <+: done :=
      List.prefix_of_prefix_length_le hcommitted hdone hge
    have hfree : m.filename ∉ committed.map Migration.filename :=
      fun hmem => hnew ((hread.map Migration.filename).subset hmem)
    have hlookup : (committed.map Migration.row).lookup m.filename = none := by
      rw [← Option.not_isSome_iff_eq_none, isSome_lookup_iff, List.map_map]
      exact hfree
    have hopen : m.filename ∉
        ((done.drop committed.length).map (fun m => (id, m))).map
          (fun entry => entry.2.filename) := by
      rw [List.map_map]
      intro hmem
      exact hnew (((List.drop_sublist _ _).map Migration.filename).subset hmem)
    simp only [hlookup, applyMigration, Bool.false_eq_true, if_false, hfree, hopen,
      Database.put, Function.update_idem, List.drop_append_of_le_length hge, List.map_append,
      List.map_singleton]

/-- The loop of a call that runs alone. -/
theorem exec_alone
    {committed done todo migrations : List Migration} {returned : List (List Migration)}
    (hnodup : (migrations.map Migration.filename).Nodup)
    (hcommitted : committed <+: migrations)
    (hmigrations : migrations = done ++ todo) :
    exec (migrateStep sha256)
      (.alone id committed (done.drop committed.length) returned
        ⟨migrations, .applying (committed.map Migration.row) todo⟩)
      (statements todo.length id) =
    .alone id committed (migrations.drop committed.length) returned
      ⟨migrations, .applying (committed.map Migration.row) []⟩ := by
  induction todo generalizing done with
  | nil =>
      rw [List.append_nil] at hmigrations
      rw [hmigrations]
      rfl
  | cons m todo ih =>
      rw [List.length_cons, statements, List.replicate_succ, exec_cons,
        proceed_alone hnodup hcommitted hmigrations]
      exact ih (by rw [hmigrations, List.append_assoc]; rfl)

/--
**The next call finishes the job.**  After any run of overlapping, failing and killed calls
of some releases, once nobody is connected: a call of a release that is not older than what
was run, left to itself and with scripts that do not fail, returns, and its files are then
the files that were run.
-/
theorem migrate_recovers
    (sha256 : String → String) (whole directory : MigrationsDirectory)
    (actions : List MigrateAction) (id : Nat)
    (hreleases : ∀ action ∈ actions, OfRelease whole action)
    (hquiet : ∀ id', (exec (migrateStep sha256) .empty actions).calls id' = none)
    (hdirectory : directory.entries <+: whole.entries)
    (hnewest : (exec (migrateStep sha256) .empty actions).committed.length ≤
      directory.entries.length) :
    (exec (migrateStep sha256) .empty
      (actions ++ MigrateAction.start id directory ::
        statements (directory.entries.length + 4) id)).committed =
      loadMigrations sha256 directory ∧
    loadMigrations sha256 directory ∈
      (exec (migrateStep sha256) .empty
        (actions ++ MigrateAction.start id directory ::
          statements (directory.entries.length + 4) id)).returned := by
  have hinv : InOrder (loadMigrations sha256 whole)
      (exec (migrateStep sha256) .empty actions) :=
    exec_invariant (P := fun _ action => OfRelease whole action)
      (fun _ _ hinv hrelease => inOrder_step hinv hrelease)
      (along_of_mem hreleases _) (inOrder_empty _)
  have hlock : LockHeld (exec (migrateStep sha256) .empty actions) :=
    exec_preserves (I := LockHeld) (fun _ action hinv => lockHeld_step hinv action)
      actions (fun id hlock => by cases hlock)
  rw [exec_append]
  revert hinv hlock hquiet hnewest
  generalize exec (migrateStep sha256) .empty actions = s
  intro hquiet hnewest hinv hlock
  have hlength : (loadMigrations sha256 directory).length = directory.entries.length :=
    List.length_map _
  have hinitial : s.committed <+: loadMigrations sha256 directory :=
    List.prefix_of_prefix_length_le hinv.committed (loadMigrations_initial hdirectory)
      (by rw [hlength]; exact hnewest)
  have hnodup := loadMigrations_nodup sha256 directory
  have huncommitted : s.uncommitted = [] := by
    rw [List.eq_nil_iff_forall_not_mem]
    intro entry hentry
    have hown := hinv.idle entry.1 (hquiet entry.1)
    have hmem := (mem_own s entry.1 (m := entry.2)).mpr hentry
    rw [hown] at hmem
    cases hmem
  have hholder : s.lockHolder = none := by
    cases hnone : s.lockHolder with
    | none => rfl
    | some id' =>
        obtain ⟨call, hcall, _⟩ := hlock id' hnone
        rw [hquiet id'] at hcall
        cases hcall
  have hcalls : s.calls = fun _ => none := funext hquiet
  have hmissing :
      getMissingAppliedMigrationFilenames ((s.committed.map Migration.row).map Prod.fst)
        ((loadMigrations sha256 directory).map Migration.filename) = [] := by
    rw [getMissingAppliedMigrationFilenames, List.filter_eq_nil_iff, List.map_map]
    intro filename hmem
    have hknown := (hinitial.map Migration.filename).subset hmem
    simp [hknown]
  have hread : exec (migrateStep sha256) s
      [MigrateAction.start id directory, .proceed id false, .proceed id false] =
      .alone id s.committed (([] : List Migration).drop s.committed.length) s.returned
        ⟨loadMigrations sha256 directory,
          .applying (s.committed.map Migration.row) (loadMigrations sha256 directory)⟩ := by
    simp only [exec_cons, exec_nil, migrateStep, hquiet, Database.put, Function.update_self,
      proceed, hholder, if_true, hmissing, ne_eq, not_true_eq_false, if_false,
      Function.update_idem, Database.alone, List.drop_nil, List.map_nil, huncommitted, hcalls]
  have hsplit : MigrateAction.start id directory ::
        statements (directory.entries.length + 4) id =
      [MigrateAction.start id directory, .proceed id false, .proceed id false] ++
        (statements (loadMigrations sha256 directory).length id ++
          [MigrateAction.proceed id false, .proceed id false]) := by
    rw [hlength, show directory.entries.length + 4 = 2 + (directory.entries.length + 2) by omega,
      statements, List.replicate_add, List.replicate_add]
    rfl
  rw [hsplit, exec_append, hread, exec_append,
    exec_alone hnodup hinitial (List.nil_append _).symm]
  have hwhole : s.committed ++ (loadMigrations sha256 directory).drop s.committed.length =
      loadMigrations sha256 directory :=
    append_drop_of_prefixes hinitial List.prefix_rfl hinitial.length_le
  have hown : ∀ writes : List Migration,
      ((writes.map (fun m => (id, m))).filter (fun entry => entry.1 = id)).map Prod.snd =
        writes := by
    intro writes
    rw [List.filter_eq_self.mpr]
    · simp
    · intro entry hentry
      obtain ⟨m, _, rfl⟩ := List.mem_map.mp hentry
      simp
  constructor
  · simp only [exec_cons, exec_nil, migrateStep, Database.alone, Function.update_self, proceed,
      Database.close, Database.release, Database.put, Database.commit, Database.own, if_true,
      hown, hwhole]
  · simp only [exec_cons, exec_nil, migrateStep, Database.alone, Function.update_self, proceed,
      Database.close, Database.release, Database.put, Database.commit, if_true]
    exact List.mem_append_right _ (List.mem_singleton_self _)

end Recovery

/-- A call that is killed behind the release of the lock. -/
def killedCall : List MigrateAction :=
  MigrateAction.start 0 sampleRelease :: statements 5 0 ++ [.kill 0]

theorem killedCall_quiet (id' : Nat) :
    (exec (migrateStep id) .empty killedCall).calls id' = none := by
  by_cases hid : id' = 0
  · rw [killedCall, exec_append, exec_cons, exec_nil, migrateStep, rollback_calls, if_pos hid]
  · refine exec_invariant (P := fun _ (action : MigrateAction) => id' ≠ action.callId)
      (I := fun s : Database => s.calls id' = none) ?_ (along_of_mem ?_ _) rfl
    · intro s action hnone hother
      rw [migrateStep_calls hother]
      exact hnone
    · intro action haction hcall
      refine hid (hcall.trans ?_)
      simp only [killedCall, statements, List.cons_append, List.mem_cons, List.mem_append,
        List.mem_replicate] at haction
      rcases haction with rfl | ⟨_, rfl⟩ | rfl | hnil
      · rfl
      · rfl
      · rfl
      · cases hnil

theorem migrate_recovers_after_kill :
    (exec (migrateStep id) .empty
      (killedCall ++ MigrateAction.start 1 sampleRelease ::
        statements (sampleRelease.entries.length + 4) 1)).committed =
      loadMigrations id sampleRelease ∧
    loadMigrations id sampleRelease ∈
      (exec (migrateStep id) .empty
        (killedCall ++ MigrateAction.start 1 sampleRelease ::
          statements (sampleRelease.entries.length + 4) 1)).returned :=
  migrate_recovers id sampleRelease sampleRelease killedCall 1 (by decide) killedCall_quiet
    List.prefix_rfl (by decide)

/-! ## Any releases -/

/-- The file is recorded, or in the open transaction of the call. -/
def Noted (s : Database) (id : Nat) (m : Migration) : Prop :=
  m.row ∈ s.committed.map Migration.row ∨ m ∈ s.own id

/-- The files a call is through with are noted. -/
def NotedSoFar (s : Database) (id : Nat) (migrations : List Migration) : Phase → Prop
  | .waiting => True
  | .reading => True
  | .applying applied todo =>
      (∀ row ∈ applied, row ∈ s.committed.map Migration.row) ∧
        ∃ done, migrations = done ++ todo ∧ ∀ m ∈ done, Noted s id m
  | .closing (.ok _) => ∀ m ∈ migrations, Noted s id m
  | .closing (.error _) => True

/-- The invariant of calls with any files. -/
structure RecordedOnce (s : Database) : Prop where
  distinct : ((s.committed ++ s.uncommitted.map Prod.snd).map Migration.filename).Nodup
  noted : ∀ id call, s.calls id = some call → NotedSoFar s id call.migrations call.phase
  returned : ∀ migrations ∈ s.returned, ∀ m ∈ migrations,
    m.row ∈ s.committed.map Migration.row

section Recorded

variable {sha256 : String → String} {s s' : Database} {id : Nat} {call : Call}

theorem NotedSoFar.mono
    {migrations : List Migration} {phase : Phase}
    (h : NotedSoFar s id migrations phase)
    (hrow : ∀ row ∈ s.committed.map Migration.row, row ∈ s'.committed.map Migration.row)
    (hnoted : ∀ m, Noted s id m → Noted s' id m) :
    NotedSoFar s' id migrations phase := by
  cases phase with
  | waiting => trivial
  | reading => trivial
  | applying applied todo =>
      obtain ⟨happlied, done, hloaded, hdone⟩ := h
      exact ⟨fun row hmem => hrow row (happlied row hmem), done, hloaded,
        fun m hm => hnoted m (hdone m hm)⟩
  | closing outcome =>
      cases outcome with
      | error e => trivial
      | ok value => exact fun m hm => hnoted m (h m hm)

/-- A call goes to another phase and nothing is written. -/
theorem RecordedOnce.put
    (h : RecordedOnce s)
    (call : Call) (phase : Phase)
    (hcommitted : s'.committed = s.committed)
    (huncommitted : s'.uncommitted = s.uncommitted)
    (hcalls : s'.calls = Function.update s.calls id (some { call with phase := phase }))
    (hreturned : s'.returned = s.returned)
    (hnoted : NotedSoFar s id call.migrations phase) :
    RecordedOnce s' := by
  have hsame : ∀ id' m, Noted s id' m → Noted s' id' m := by
    intro id' m hm
    unfold Noted Database.own at hm ⊢
    rw [hcommitted, huncommitted]
    exact hm
  have hrow : ∀ row ∈ s.committed.map Migration.row,
      row ∈ s'.committed.map Migration.row := by
    rw [hcommitted]
    exact fun row hmem => hmem
  refine ⟨by rw [hcommitted, huncommitted]; exact h.distinct, ?_, ?_⟩
  · intro id' call' hcall'
    rw [hcalls, Function.update_apply] at hcall'
    split at hcall'
    · next hid =>
        cases hcall'
        subst hid
        exact hnoted.mono hrow (hsame id')
    · exact (h.noted id' call' hcall').mono hrow (hsame id')
  · rw [hreturned, hcommitted]
    exact h.returned

/-- The transaction of a call ends: its writes are committed, or they are gone. -/
theorem RecordedOnce.end_call
    {kept : List Migration}
    (h : RecordedOnce s)
    (hkept : kept = [] ∨ kept = s.own id)
    (hcommitted : s'.committed = s.committed ++ kept)
    (huncommitted :
      s'.uncommitted = s.uncommitted.filter (fun entry => entry.1 ≠ id))
    (hcalls : ∀ id', s'.calls id' = if id' = id then none else s.calls id')
    (hreturned : ∀ migrations ∈ s'.returned, migrations ∈ s.returned ∨
      ∀ m ∈ migrations, m.row ∈ s'.committed.map Migration.row) :
    RecordedOnce s' := by
  have hrow : ∀ row ∈ s.committed.map Migration.row,
      row ∈ s'.committed.map Migration.row := by
    rw [hcommitted, List.map_append]
    exact fun row hmem => List.mem_append_left _ hmem
  refine ⟨?_, ?_, ?_⟩
  · have hsplit : (s.own id ++
        (s.uncommitted.filter (fun entry => entry.1 ≠ id)).map Prod.snd).Perm
          (s.uncommitted.map Prod.snd) := by
      have hperm := List.filter_append_perm (fun entry : Nat × Migration => entry.1 = id)
        s.uncommitted
      have hnot : s.uncommitted.filter (fun entry => !decide (entry.1 = id)) =
          s.uncommitted.filter (fun entry => entry.1 ≠ id) := by
        refine List.filter_congr ?_
        intro entry _
        simp
      rw [hnot] at hperm
      have hmapped := hperm.map Prod.snd
      rwa [List.map_append] at hmapped
    have hdistinct := h.distinct
    rw [← ((hsplit.append_left s.committed).map Migration.filename).nodup_iff] at hdistinct
    refine hdistinct.sublist ?_
    rw [hcommitted, huncommitted]
    refine List.Sublist.map Migration.filename ?_
    rw [List.append_assoc]
    refine List.Sublist.append (List.Sublist.refl _) (List.Sublist.append ?_ (.refl _))
    rcases hkept with rfl | rfl
    · exact List.nil_sublist _
    · exact .refl _
  · intro id' call' hcall'
    rw [hcalls] at hcall'
    split at hcall'
    · cases hcall'
    · next hne =>
        refine (h.noted id' call' hcall').mono hrow ?_
        intro m hm
        refine hm.imp (hrow m.row) ?_
        intro hown
        unfold Database.own
        rw [huncommitted, own_filter_ne, if_neg hne]
        exact hown
  · intro migrations hmem m hm
    rcases hreturned migrations hmem with hold | hnew
    · exact hrow _ (h.returned migrations hold m hm)
    · exact hnew m hm

theorem recordedOnce_inserted
    {applied : List (String × String)} {m : Migration} {todo : List Migration}
    (h : RecordedOnce s)
    (hcall : s.calls id = some call)
    (hphase : call.phase = .applying applied (m :: todo))
    (hcommitted : m.filename ∉ s.committed.map Migration.filename)
    (huncommitted : m.filename ∉ s.uncommitted.map (fun entry => entry.2.filename)) :
    RecordedOnce
      ({ s with uncommitted := s.uncommitted ++ [(id, m)] }.put id
        { call with phase := .applying applied todo }) := by
  have hgrows : ∀ id' m', Noted s id' m' →
      Noted ({ s with uncommitted := s.uncommitted ++ [(id, m)] }.put id
        { call with phase := .applying applied todo }) id' m' := by
    intro id' m' hm'
    refine hm'.imp (fun hrow => hrow) ?_
    intro hown
    rw [put_own, own_append]
    split
    · exact List.mem_append_left _ hown
    · exact hown
  refine ⟨?_, ?_, h.returned⟩
  · change ((s.committed ++ (s.uncommitted ++ [(id, m)]).map Prod.snd).map
      Migration.filename).Nodup
    rw [List.map_append (f := Prod.snd), ← List.append_assoc, List.map_append, List.nodup_append]
    refine ⟨h.distinct, List.nodup_singleton _, ?_⟩
    intro a ha b hb hab
    rw [List.mem_singleton.mp hb] at hab
    rw [hab, List.map_append, List.map_map, List.mem_append] at ha
    exact ha.elim hcommitted huncommitted
  · intro id' call' hcall'
    rw [put_calls] at hcall'
    split at hcall'
    · next hid =>
        cases hcall'
        subst hid
        have hbefore := h.noted id' call hcall
        rw [hphase] at hbefore
        obtain ⟨happlied, done, hloaded, hdone⟩ := hbefore
        refine ⟨happlied, done ++ [m], by rw [hloaded, List.append_assoc]; rfl, ?_⟩
        intro m' hm'
        rcases List.mem_append.mp hm' with hold | hnew
        · exact hgrows id' m' (hdone m' hold)
        · right
          rw [List.mem_singleton.mp hnew, put_own, own_append, if_pos rfl]
          simp
    · exact (h.noted id' call' hcall').mono (fun row hmem => hmem) (hgrows id')

theorem recordedOnce_proceeds
    (h : RecordedOnce s)
    (hcall : s.calls id = some call)
    (hproceeds : Proceeds s id call s') :
    RecordedOnce s' := by
  have hnoted := h.noted id call hcall
  cases hproceeds with
  | waits => exact h
  | locked hphase => exact h.put call _ rfl rfl rfl rfl trivial
  | loaded hphase hknown =>
      refine h.put call _ rfl rfl rfl rfl ⟨fun row hmem => hmem, [], rfl, ?_⟩
      intro m hm
      cases hm
  | @skipped applied m todo hphase happlied =>
      rw [hphase] at hnoted
      obtain ⟨hknown, done, hloaded, hdone⟩ := hnoted
      refine h.put call _ rfl rfl rfl rfl
        ⟨hknown, done ++ [m], by rw [hloaded, List.append_assoc]; rfl, ?_⟩
      intro m' hm'
      rcases List.mem_append.mp hm' with hold | hnew
      · exact hdone m' hold
      · left
        rw [List.mem_singleton.mp hnew]
        obtain ⟨before, after, happlied, _⟩ := List.lookup_eq_some_iff.mp happlied
        exact hknown (m.filename, m.checksum) (by rw [happlied]; simp)
  | inserted hphase happlied hcommitted huncommitted =>
      exact recordedOnce_inserted h hcall hphase hcommitted huncommitted
  | finished hphase =>
      rw [hphase] at hnoted
      obtain ⟨_, done, hloaded, hdone⟩ := hnoted
      refine h.put call _ rfl rfl rfl rfl ?_
      rw [List.append_nil] at hloaded
      rw [hloaded]
      exact hdone
  | failed hphase => exact h.put call _ rfl rfl rfl rfl trivial
  | @closed outcome hphase =>
      refine h.end_call (.inr rfl) rfl rfl (commit_calls s id · call outcome) ?_
      intro migrations hmem
      cases outcome with
      | error e => exact .inl hmem
      | ok value =>
          rw [hphase] at hnoted
          refine (List.mem_append.mp hmem).imp (fun hold => hold) ?_
          intro hnew m hm
          rw [List.mem_singleton.mp hnew] at hm
          change m.row ∈ (s.committed ++ s.own id).map Migration.row
          rw [List.map_append, List.mem_append]
          exact (hnoted m hm).imp (fun hrow => hrow) List.mem_map_of_mem

theorem recordedOnce_step
    (h : RecordedOnce s) (action : MigrateAction) :
    RecordedOnce (migrateStep sha256 s action) := by
  cases action with
  | start id directory =>
      simp only [migrateStep]
      cases hcall : s.calls id with
      | none =>
          exact h.put ⟨loadMigrations sha256 directory, .waiting⟩ .waiting
            rfl rfl rfl rfl trivial
      | some call => exact h
  | proceed id scriptFails =>
      simp only [migrateStep]
      cases hcall : s.calls id with
      | none => exact h
      | some call => exact recordedOnce_proceeds h hcall (proceed_proceeds s id call scriptFails)
  | kill id =>
      refine h.end_call (.inl rfl) (List.append_nil _).symm rfl (rollback_calls s id) ?_
      exact fun migrations hmem => .inl hmem

/--
**No file is run twice.**  Whatever files the calls have, however they overlap, fail or are
killed: the files that were run have different names, and a call that returned has each of
its files recorded with the checksum it has.
-/
theorem migrations_run_once
    (sha256 : String → String) (actions : List MigrateAction) :
    ((exec (migrateStep sha256) .empty actions).committed.map Migration.filename).Nodup ∧
      ∀ migrations ∈ (exec (migrateStep sha256) .empty actions).returned,
        ∀ m ∈ migrations,
          m.row ∈ (exec (migrateStep sha256) .empty actions).committed.map Migration.row := by
  have hempty : RecordedOnce .empty := by
    refine ⟨List.nodup_nil, ?_, ?_⟩
    · intro id call hcall
      cases hcall
    · intro migrations hmem
      cases hmem
  have h : RecordedOnce (exec (migrateStep sha256) .empty actions) :=
    exec_preserves (I := RecordedOnce) (fun _ action hinv => recordedOnce_step hinv action)
      actions hempty
  refine ⟨?_, h.returned⟩
  have hdistinct := h.distinct
  rw [List.map_append, List.nodup_append] at hdistinct
  exact hdistinct.1

end Recorded

end Db
end PrReviewer
