import PrReviewer.Lib.Program
import PrReviewer.Lib.Run
import Mathlib.Logic.Function.Basic

/-!
# Transactions of several sessions on one store

Each session runs a program of statements in a transaction of its own.  A statement
reads the committed store under the writes of its own session, and writes at most one
row.  A row one session has written is locked to it until the session ends, and a
statement of another session that would write it waits.  Reads lock nothing: this is
what a database does at its read committed level.  A session that returns commits its
writes; one that raises, or is aborted, leaves nothing.

The rule of the module: a relation between the committed store and a session, kept by
the statements of the session and by the commits of the others on other rows, holds of
every session in every run.
-/

namespace PrReviewer
namespace Lib

variable {σ W K Call ε : Type} {Op : Type} {Res : Op → Type}

/-- How statements act on a store, and the program of each call. -/
structure Statements (σ W K Call : Type) {Op : Type} (Res : Op → Type) (ε : Type) where
  outcome : (op : Op) → σ → Res op × Option W
  put : σ → W → σ
  lockOf : W → K
  program : Call → Program Res ε Unit

namespace Statements

variable (db : Statements σ W K Call Res ε)

/-- The store with the writes of a transaction. -/
def view (s : σ) (writes : List W) : σ :=
  writes.foldl db.put s

/-- The handler of the statements on a store nobody else uses. -/
def answer (op : Op) (s : σ) : Res op × σ :=
  ((db.outcome op s).1, db.view s (db.outcome op s).2.toList)

/-- One call in a transaction of its own, rolled back when it raises. -/
def runAlone (s : σ) (call : Call) : Except ε Unit × σ :=
  match Program.run db.answer (db.program call) s with
  | (.ok _, s') => (.ok (), s')
  | (.error e, _) => (.error e, s)

@[simp] theorem view_nil
    (s : σ) :
    db.view s [] = s := by
  rfl

@[simp] theorem view_append
    (s : σ) (writes writes' : List W) :
    db.view s (writes ++ writes') = db.view (db.view s writes) writes' := by
  unfold view
  rw [List.foldl_append]

variable {db}

theorem runAlone_of_ok
    {s s' : σ} {call : Call}
    (h : Program.run db.answer (db.program call) s = (.ok (), s')) :
    db.runAlone s call = (.ok (), s') := by
  simp [runAlone, h]

theorem runAlone_of_error
    {s s' : σ} {call : Call} {e : ε}
    (h : Program.run db.answer (db.program call) s = (.error e, s')) :
    db.runAlone s call = (.error e, s) := by
  simp [runAlone, h]

end Statements

/-- A call under way: what is left of its program, and its uncommitted writes. -/
structure Session (W Call : Type) {Op : Type} (Res : Op → Type) (ε : Type) where
  call : Call
  program : Program Res ε Unit
  writes : List W

/-- The committed store, the row locks, and the sessions in a transaction. -/
structure Shared (σ W K Call : Type) {Op : Type} (Res : Op → Type) (ε : Type) where
  store : σ
  lockedBy : K → Option Nat
  inFlight : Nat → Option (Session W Call Res ε)

/--
A session starts a call, does its next statement, commit or rollback, or is aborted (a
deadlock, a lost connection).
-/
inductive SessionAction (Call : Type) where
  | start (id : Nat) (call : Call)
  | proceed (id : Nat)
  | abort (id : Nat)
deriving DecidableEq, Repr

namespace Shared

/-- Nobody is connected. -/
def ofStore (s : σ) : Shared σ W K Call Res ε where
  store := s
  lockedBy := fun _ => none
  inFlight := fun _ => none

/-- The transaction of a session ends with this store, and its locks are free. -/
def finish (s : Shared σ W K Call Res ε) (id : Nat) (store : σ) : Shared σ W K Call Res ε where
  store := store
  lockedBy := fun k => if s.lockedBy k = some id then none else s.lockedBy k
  inFlight := Function.update s.inFlight id none

end Shared

section Machine

variable [DecidableEq K] (db : Statements σ W K Call Res ε)

/-- The next statement of a session.  It waits for a row another session has written. -/
def statementStep
    (s : Shared σ W K Call Res ε) (id : Nat) (session : Session W Call Res ε)
    (op : Op) (next : Res op → Program Res ε Unit) : Shared σ W K Call Res ε :=
  match db.outcome op (db.view s.store session.writes) with
  | (r, none) =>
      { s with
        inFlight := Function.update s.inFlight id (some { session with program := next r }) }
  | (r, some w) =>
      if s.lockedBy (db.lockOf w) = none ∨ s.lockedBy (db.lockOf w) = some id then
        { s with
          lockedBy := Function.update s.lockedBy (db.lockOf w) (some id)
          inFlight := Function.update s.inFlight id
            (some { session with program := next r, writes := session.writes ++ [w] }) }
      else
        s

/-- One step of the shared store. -/
def sessionStep
    (s : Shared σ W K Call Res ε) : SessionAction Call → Shared σ W K Call Res ε
  | .start id call =>
      match s.inFlight id with
      | none =>
          { s with
            inFlight := Function.update s.inFlight id (some ⟨call, db.program call, []⟩) }
      | some _ => s
  | .proceed id =>
      match s.inFlight id with
      | none => s
      | some session =>
          match session.program with
          | .ret _ => s.finish id (db.view s.store session.writes)
          | .raise _ => s.finish id s.store
          | .call op next => statementStep db s id session op next
  | .abort id => s.finish id s.store

end Machine

/-! ## What a step does -/

section Steps

variable {db : Statements σ W K Call Res ε}

/-- What a statement does to its session. -/
def Session.after
    (db : Statements σ W K Call Res ε) (s : σ) (session : Session W Call Res ε)
    (op : Op) (next : Res op → Program Res ε Unit) : Session W Call Res ε :=
  { session with
    program := next (db.outcome op (db.view s session.writes)).1
    writes := session.writes ++ (db.outcome op (db.view s session.writes)).2.toList }

/-- Everything a step can do. -/
inductive SessionChange (db : Statements σ W K Call Res ε) (s : Shared σ W K Call Res ε) :
    SessionAction Call → Shared σ W K Call Res ε → Prop
  | nothing (a : SessionAction Call) : SessionChange db s a s
  | started (id : Nat) (call : Call) (hfree : s.inFlight id = none) :
      SessionChange db s (.start id call)
        { s with
          inFlight := Function.update s.inFlight id (some ⟨call, db.program call, []⟩) }
  | executed (id : Nat) (session : Session W Call Res ε) (op : Op)
      (next : Res op → Program Res ε Unit) (lockedBy : K → Option Nat)
      (hsession : s.inFlight id = some session) (hprogram : session.program = .call op next)
      (hkept : ∀ k id', s.lockedBy k = some id' → lockedBy k = some id')
      (hlocked : ∀ w ∈ (db.outcome op (db.view s.store session.writes)).2,
        lockedBy (db.lockOf w) = some id) :
      SessionChange db s (.proceed id)
        { s with
          lockedBy := lockedBy
          inFlight := Function.update s.inFlight id (some (session.after db s.store op next)) }
  | committed (id : Nat) (session : Session W Call Res ε)
      (hsession : s.inFlight id = some session) (hprogram : session.program = .ret ()) :
      SessionChange db s (.proceed id) (s.finish id (db.view s.store session.writes))
  | rolledBack (a : SessionAction Call) (id : Nat) : SessionChange db s a (s.finish id s.store)

variable [DecidableEq K]

theorem statementStep_change
    {s : Shared σ W K Call Res ε} {id : Nat} {session : Session W Call Res ε}
    {op : Op} {next : Res op → Program Res ε Unit}
    (hsession : s.inFlight id = some session)
    (hprogram : session.program = .call op next) :
    SessionChange db s (.proceed id) (statementStep db s id session op next) := by
  unfold statementStep
  cases houtcome : db.outcome op (db.view s.store session.writes) with
  | mk r write =>
      cases write with
      | none =>
          have hexec : SessionChange db s (.proceed id) _ :=
            .executed id session op next s.lockedBy hsession hprogram (fun _ _ h => h)
              (by simp [houtcome])
          simpa [Session.after, houtcome] using hexec
      | some w =>
          simp only
          split
          · next hfree =>
              have hkept : ∀ k id', s.lockedBy k = some id' →
                  Function.update s.lockedBy (db.lockOf w) (some id) k = some id' := by
                intro k id' hk
                by_cases hw : k = db.lockOf w
                · subst hw
                  rcases hfree with hnone | hown
                  · rw [hnone] at hk
                    cases hk
                  · rw [Function.update_self, ← hown, hk]
                · rw [Function.update_of_ne hw, hk]
              have hexec : SessionChange db s (.proceed id) _ :=
                .executed id session op next _ hsession hprogram hkept (by simp [houtcome])
              simpa [Session.after, houtcome] using hexec
          · exact .nothing _

variable (db) in
/-- A step of the shared store is one of these changes. -/
theorem sessionStep_change
    (s : Shared σ W K Call Res ε) (a : SessionAction Call) :
    SessionChange db s a (sessionStep db s a) := by
  cases a with
  | start id call =>
      cases hfree : s.inFlight id with
      | none =>
          simp only [sessionStep, hfree]
          exact .started id call hfree
      | some session =>
          simp only [sessionStep, hfree]
          exact .nothing _
  | abort id => exact .rolledBack _ id
  | proceed id =>
      cases hsession : s.inFlight id with
      | none =>
          simp only [sessionStep, hsession]
          exact .nothing _
      | some session =>
          cases hprogram : session.program with
          | ret u =>
              simp only [sessionStep, hsession, hprogram]
              exact .committed id session hsession hprogram
          | raise e =>
              simp only [sessionStep, hsession, hprogram]
              exact .rolledBack _ id
          | call op next =>
              simp only [sessionStep, hsession, hprogram]
              exact statementStep_change hsession hprogram

end Steps

/-! ## Relations between the store and its sessions -/

section Rules

variable (db : Statements σ W K Call Res ε)

/-- The relation holds after the next statement of a program, if there is one. -/
def AfterStatement
    (R : σ → Call → Program Res ε Unit → List W → Prop) (s : σ) (call : Call)
    (writes : List W) : Program Res ε Unit → Prop
  | .ret _ => True
  | .raise _ => True
  | .call op next =>
      R s call (next (db.outcome op (db.view s writes)).1)
        (writes ++ (db.outcome op (db.view s writes)).2.toList)

/--
What a session may rely on: an invariant of the committed store, and how far its call is
given that store.  Its own statements and the commits of the others keep it.
-/
structure Relies
    (I : σ → Prop) (R : σ → Call → Program Res ε Unit → List W → Prop) : Prop where
  start : ∀ s call, I s → R s call (db.program call) []
  own : ∀ s call p writes, I s → R s call p writes → AfterStatement db R s call writes p
  other : ∀ s call p writes call' writes', I s → R s call p writes →
    R s call' (.ret ()) writes' →
    (∀ w ∈ writes, ∀ w' ∈ writes', db.lockOf w ≠ db.lockOf w') →
      R (db.view s writes') call p writes
  commit : ∀ s call writes, I s → R s call (.ret ()) writes → I (db.view s writes)

/-- The store meets the invariant, and every session has locked the rows it wrote. -/
structure Shared.Coherent
    (I : σ → Prop) (R : σ → Call → Program Res ε Unit → List W → Prop)
    (s : Shared σ W K Call Res ε) : Prop where
  store : I s.store
  relies : ∀ id session, s.inFlight id = some session →
    R s.store session.call session.program session.writes
  locked : ∀ id session, s.inFlight id = some session → ∀ w ∈ session.writes,
    s.lockedBy (db.lockOf w) = some id

variable {db} {I : σ → Prop} {R : σ → Call → Program Res ε Unit → List W → Prop}

theorem coherent_ofStore
    {s : σ}
    (hI : I s) :
    (Shared.ofStore s : Shared σ W K Call Res ε).Coherent db I R := by
  refine ⟨hI, ?_, ?_⟩
  · intro id session h
    cases h
  · intro id session h
    cases h

/-- A call that runs alone ends where its session would. -/
theorem Relies.run
    (hR : Relies db I R)
    {s : σ} {call : Call} {p : Program Res ε Unit} {writes : List W}
    {outcome : Except ε Unit} {s' : σ}
    (hI : I s)
    (h : R s call p writes)
    (hrun : Program.run db.answer p (db.view s writes) = (outcome, s')) :
    ∃ writes', R s call (.ofExcept outcome) writes' ∧ s' = db.view s writes' := by
  induction p generalizing writes with
  | ret u =>
      cases hrun
      exact ⟨writes, h, rfl⟩
  | raise e =>
      cases hrun
      exact ⟨writes, h, rfl⟩
  | call op next ih =>
      have hnext : R s call _ _ := hR.own s call (.call op next) writes hI h
      refine ih _ hnext ?_
      rw [db.view_append]
      exact hrun

/-- What is in flight after one session changed. -/
theorem update_eq_some
    {inFlight : Nat → Option (Session W Call Res ε)} {id id' : Nat}
    {changed : Option (Session W Call Res ε)} {session : Session W Call Res ε}
    (h : Function.update inFlight id changed id' = some session) :
    (id' = id ∧ changed = some session) ∨ (id' ≠ id ∧ inFlight id' = some session) := by
  by_cases hid : id' = id
  · subst hid
    rw [Function.update_self] at h
    exact .inl ⟨rfl, h⟩
  · rw [Function.update_of_ne hid] at h
    exact .inr ⟨hid, h⟩

/-- A session that ends leaves the others as coherent as they were. -/
theorem Shared.Coherent.finish
    {s : Shared σ W K Call Res ε}
    (h : s.Coherent db I R)
    (id : Nat) {store : σ}
    (hstore : I store)
    (hother : ∀ id' session, id' ≠ id → s.inFlight id' = some session →
      R store session.call session.program session.writes) :
    (s.finish id store).Coherent db I R := by
  refine ⟨hstore, ?_, ?_⟩
  · intro id' session h'
    rcases update_eq_some h' with ⟨_, hnone⟩ | ⟨hid, hbefore⟩
    · cases hnone
    · exact hother id' session hid hbefore
  · intro id' session h' w hw
    rcases update_eq_some h' with ⟨_, hnone⟩ | ⟨hid, hbefore⟩
    · cases hnone
    · have hlock := h.locked id' session hbefore w hw
      simp [Shared.finish, hlock, hid]

variable [DecidableEq K]

theorem coherent_step
    (hR : Relies db I R)
    (s : Shared σ W K Call Res ε) (a : SessionAction Call)
    (h : s.Coherent db I R) :
    (sessionStep db s a).Coherent db I R := by
  have hchange := sessionStep_change db s a
  generalize sessionStep db s a = s' at hchange
  cases hchange with
  | nothing => exact h
  | rolledBack a id => exact h.finish id h.store (fun id' session _ => h.relies id' session)
  | started id call hfree =>
      refine ⟨h.store, ?_, ?_⟩
      · intro id' session h'
        rcases update_eq_some h' with ⟨_, hnew⟩ | ⟨_, hbefore⟩
        · cases hnew
          exact hR.start s.store call h.store
        · exact h.relies id' session hbefore
      · intro id' session h' w hw
        rcases update_eq_some h' with ⟨_, hnew⟩ | ⟨_, hbefore⟩
        · cases hnew
          cases hw
        · exact h.locked id' session hbefore w hw
  | executed id session op next lockedBy hsession hprogram hkept hlocked =>
      have hrelies := h.relies id session hsession
      rw [hprogram] at hrelies
      refine ⟨h.store, ?_, ?_⟩
      · intro id' session' h'
        rcases update_eq_some h' with ⟨_, hnew⟩ | ⟨_, hbefore⟩
        · cases hnew
          exact hR.own _ _ _ _ h.store hrelies
        · exact h.relies id' session' hbefore
      · intro id' session' h' w hw
        rcases update_eq_some h' with ⟨hid, hnew⟩ | ⟨_, hbefore⟩
        · subst hid
          cases hnew
          rcases List.mem_append.mp hw with hold | hwritten
          · exact hkept _ _ (h.locked id' session hsession w hold)
          · exact hlocked w (by simpa using hwritten)
        · exact hkept _ _ (h.locked id' session' hbefore w hw)
  | committed id session hsession hprogram =>
      have hrelies := h.relies id session hsession
      rw [hprogram] at hrelies
      apply h.finish id (hR.commit _ _ _ h.store hrelies)
      intro id' session' hid h'
      -- the rows of the two sessions are locked to different sessions
      refine hR.other _ _ _ _ _ _ h.store (h.relies id' session' h') hrelies ?_
      intro w hw w' hw' hsame
      have hlock := h.locked id' session' h' w hw
      have hlock' := h.locked id session hsession w' hw'
      rw [hsame, hlock'] at hlock
      exact hid (Option.some.inj hlock).symm

variable (db) in
/-- A step leaves the committed store, or adds the writes of a session that returned. -/
theorem store_sessionStep
    (s : Shared σ W K Call Res ε) (a : SessionAction Call) :
    (sessionStep db s a).store = s.store ∨
      ∃ id session, a = .proceed id ∧ s.inFlight id = some session ∧
        session.program = .ret () ∧
        (sessionStep db s a).store = db.view s.store session.writes := by
  have hchange := sessionStep_change db s a
  generalize sessionStep db s a = s' at hchange
  cases hchange with
  | nothing => exact .inl rfl
  | started => exact .inl rfl
  | executed => exact .inl rfl
  | rolledBack => exact .inl rfl
  | committed id session hsession hprogram =>
      exact .inr ⟨id, session, rfl, hsession, hprogram, rfl⟩

/-- A step that changes the committed store is the commit of a session that relied on it. -/
theorem Shared.Coherent.store_step
    {s : Shared σ W K Call Res ε}
    (h : s.Coherent db I R)
    (a : SessionAction Call) :
    (sessionStep db s a).store = s.store ∨
      ∃ id session, a = .proceed id ∧ s.inFlight id = some session ∧
        R s.store session.call (.ret ()) session.writes ∧
        (sessionStep db s a).store = db.view s.store session.writes := by
  rcases store_sessionStep db s a with hsame | ⟨id, session, ha, hsession, hret, hstore⟩
  · exact .inl hsame
  · have hrelies := h.relies id session hsession
    rw [hret] at hrelies
    exact .inr ⟨id, session, ha, hsession, hrelies, hstore⟩

end Rules

end Lib
end PrReviewer
