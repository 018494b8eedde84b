import PrReviewer.Runner.Runs

/-!
# A process that is watched

A watcher remembers something of the requests a process sends and of how they end.
It changes nothing: a watched process does what the process does, and the watcher's
memory is a function of the steps so far.  A judgement about the watched process
therefore speaks of the past of the process itself.
-/

namespace PrReviewer
namespace Runner

open Lib

/-- The request an operation sends under a credential. -/
def DaemonOp.request? (credential : String) : DaemonOp → Option Request
  | .claim _ => some (.claim credential)
  | .heartbeat _ jobId leaseToken => some (.heartbeat credential jobId leaseToken)
  | .acknowledge _ jobId leaseToken result =>
      some (.acknowledge credential jobId leaseToken result)
  | _ => none

section Watch

variable {codec : Codec} {ω γ : Type}
variable (surroundings : Surroundings ω) (watch : γ → Request → Outcome → γ)

/-- The surroundings together with the memory of a watcher. -/
def Surroundings.watched : Surroundings (ω × γ) where
  send := fun request o =>
    ((surroundings.send request o.1).1,
      ((surroundings.send request o.1).2,
        watch o.2 request (surroundings.send request o.1).1))
  secret := fun o => ((surroundings.secret o.1).1, ((surroundings.secret o.1).2, o.2))
  review := fun job o =>
    ((surroundings.review job o.1).1, ((surroundings.review job o.1).2, o.2))
  stopIsSet := fun o =>
    ((surroundings.stopIsSet o.1).1, ((surroundings.stopIsSet o.1).2, o.2))
  clock := fun o => ((surroundings.clock o.1).1, ((surroundings.clock o.1).2, o.2))

/-- The process without the memory. -/
def RunnerState.forget (w : RunnerState codec (ω × γ)) : RunnerState codec ω where
  store := w.store
  onStoreThread := w.onStoreThread
  gate := w.gate
  credential := w.credential
  outside := w.outside.1

/-- The process with a memory beside it. -/
def RunnerState.remembering (w : RunnerState codec ω) (memory : γ) :
    RunnerState codec (ω × γ) where
  store := w.store
  onStoreThread := w.onStoreThread
  gate := w.gate
  credential := w.credential
  outside := (w.outside, memory)

/-- What the watcher remembers after one more step. -/
def remember (memory : γ) (x : RunnerState codec ω × DaemonOp) : γ :=
  match x.2.request? x.1.credential with
  | none => memory
  | some request => watch memory request (surroundings.send request x.1.outside).1

/-- What the watcher remembers after some steps. -/
def remembered (memory : γ) (past : List (RunnerState codec ω × DaemonOp)) : γ :=
  past.foldl (remember surroundings watch) memory

variable {surroundings} {watch}

theorem remembered_append
    (memory : γ) (past later : List (RunnerState codec ω × DaemonOp)) :
    remembered surroundings watch memory (past ++ later) =
      remembered surroundings watch (remembered surroundings watch memory past) later := by
  exact List.foldl_append

/-- Watching changes nothing. -/
theorem watched_extends :
    Program.Extends (answer (surroundings.watched watch)) (answer surroundings)
      (RunnerState.forget : RunnerState codec (ω × γ) → RunnerState codec ω) := by
  intro op w
  cases op with
  | store op =>
      have hthread : w.forget.onStoreThread = w.onStoreThread := by rfl
      simp only [answer]
      rw [hthread]
      cases w.onStoreThread with
      | false => exact ⟨rfl, rfl⟩
      | true =>
          have hsame :
              applyStore w.forget.store (surroundings.clock w.forget.outside).1 op =
                applyStore w.store ((surroundings.watched watch).clock w.outside).1 op := by
            rfl
          rw [hsame, if_pos rfl, if_pos rfl]
          cases applyStore w.store ((surroundings.watched watch).clock w.outside).1 op with
          | ok _ => exact ⟨rfl, rfl⟩
          | error e => exact ⟨rfl, rfl⟩
  | _ => exact ⟨rfl, rfl⟩

/-- The memory after one operation. -/
theorem answer_memory
    (op : DaemonOp) (w : RunnerState codec (ω × γ)) :
    (answer (surroundings.watched watch) op w).2.outside.2 =
      remember surroundings watch w.outside.2 (w.forget, op) := by
  cases op with
  | store op =>
      rcases answer_store_cases (surroundings.watched watch) op w with
        ⟨result, store, _, _, hanswer⟩ | ⟨e, hanswer⟩
      · rw [hanswer]
        rfl
      · rw [hanswer]
        rfl
  | _ => rfl

/-- The step of the process behind a step of the watched one. -/
def forgetStep (x : RunnerState codec (ω × γ) × DaemonOp) : RunnerState codec ω × DaemonOp :=
  (x.1.forget, x.2)

/-- The memory is what the steps so far left in it. -/
def MemoryOf
    (surroundings : Surroundings ω) (watch : γ → Request → Outcome → γ) (memory : γ)
    (past : List (RunnerState codec (ω × γ) × DaemonOp)) (w : RunnerState codec (ω × γ)) :
    Prop :=
  w.outside.2 = remembered surroundings watch memory (past.map forgetStep)

theorem memoryOf_step
    {memory : γ} (past : List (RunnerState codec (ω × γ) × DaemonOp))
    (w : RunnerState codec (ω × γ)) (op : DaemonOp)
    (h : MemoryOf surroundings watch memory past w) :
    MemoryOf surroundings watch memory (past ++ [(w, op)])
      (answer (surroundings.watched watch) op w).2 := by
  unfold MemoryOf at h ⊢
  rw [answer_memory, List.map_append, remembered_append, ← h]
  rfl

/-- A step in the middle of a mapped list. -/
theorem split_of_map
    {α β : Type} {f : α → β} {xs : List α} {before after : List β} {y : β}
    (h : xs.map f = before ++ y :: after) :
    ∃ before' x after', xs = before' ++ x :: after' ∧ before'.map f = before ∧ f x = y ∧
      after'.map f = after := by
  obtain ⟨before', rest, hxs, hbefore, hrest⟩ := List.map_eq_append_iff.mp h
  obtain ⟨x, after', hrest', hx, hafter⟩ := List.map_eq_cons_iff.mp hrest
  subst hrest'
  exact ⟨before', x, after', hxs, hbefore, hx, hafter⟩

section Judgements

variable (assumed guaranteed : γ → RunnerState codec ω → DaemonOp → Prop)

/--
A judgement about the watched process, read off the steps of the process: what is
guaranteed of a step may speak of what the watcher remembers before it.
-/
theorem guaranteed_of_watched
    {α : Type} {p : Daemon α}
    {Q : α → RunnerState codec (ω × γ) → Prop}
    {E : PyError → RunnerState codec (ω × γ) → Prop}
    {w : RunnerState codec (ω × γ)}
    (h : Program.Safe (answer (surroundings.watched watch))
      (fun w op => assumed w.outside.2 w.forget op)
      (fun w op => guaranteed w.outside.2 w.forget op) p Q E w)
    {before after : List (RunnerState codec ω × DaemonOp)}
    {x : RunnerState codec ω × DaemonOp}
    (hsteps : Program.steps (answer surroundings) p w.forget = before ++ x :: after)
    (hassumed : ∀ past y rest, before = past ++ y :: rest →
      assumed (remembered surroundings watch w.outside.2 past) y.1 y.2) :
    guaranteed (remembered surroundings watch w.outside.2 before) x.1 x.2 := by
  rw [watched_extends.steps] at hsteps
  obtain ⟨before', x', after', hsplit, rfl, rfl, _⟩ := split_of_map hsteps
  have hmemory :
      ∀ past y rest, Program.steps (answer (surroundings.watched watch)) p w =
          past ++ y :: rest →
        MemoryOf surroundings watch w.outside.2 past y.1 := by
    intro past y rest hpast
    exact Program.history_at (fun past s op hs (_ : True) => memoryOf_step past s op hs)
      (show MemoryOf surroundings watch w.outside.2 [] w from rfl) hpast (fun _ _ => trivial)
  have hx := hmemory before' x' after' hsplit
  have hguaranteed := h.guaranteed_at hsplit ?_
  · rw [hx] at hguaranteed
    exact hguaranteed
  · intro y hy
    obtain ⟨past, rest, rfl⟩ := List.append_of_mem hy
    have hybefore :
        (past ++ y :: rest).map (fun x => (RunnerState.forget x.1, x.2)) =
          past.map forgetStep ++ forgetStep y :: rest.map forgetStep := by
      rw [List.map_append, List.map_cons]
      rfl
    have hyassumed := hassumed _ _ _ hybefore
    rw [List.append_assoc, List.cons_append] at hsplit
    rw [← hmemory past y _ hsplit] at hyassumed
    exact hyassumed

/-- A watched run is the run, with memories. -/
theorem runSteps_forget
    (config : DaemonConfig) (commands : List DaemonCommand) (w : RunnerState codec (ω × γ)) :
    runSteps config surroundings w.forget commands =
      (runSteps config (surroundings.watched watch) w commands).map forgetStep := by
  induction commands generalizing w with
  | nil =>
      rfl
  | cons command commands ih =>
      have hsteps :
          commandSteps config surroundings w.forget command =
            (commandSteps config (surroundings.watched watch) w command).map forgetStep := by
        cases command with
        | restart credential onStoreThread => rfl
        | call method killAfter =>
            cases killAfter with
            | none => exact watched_extends.steps _ w
            | some n =>
                simp only [commandSteps]
                rw [watched_extends.steps, List.map_take]
                rfl
      have hstate :
          runCommand config surroundings w.forget command =
            (runCommand config (surroundings.watched watch) w command).forget := by
        cases command with
        | restart credential onStoreThread => rfl
        | call method killAfter =>
            cases killAfter with
            | none =>
                simp only [runCommand]
                rw [watched_extends.run]
            | some n => exact watched_extends.killed n _ w
      simp only [runSteps]
      rw [List.map_append, ← hsteps, hstate, ih]

/-- The same for the steps of a run with kills and restarts. -/
theorem runSteps_of_watched
    {config : DaemonConfig} {I : RunnerState codec (ω × γ) → Prop}
    (hmethod : ∀ method w, I w →
      Program.Safe (answer (surroundings.watched watch))
        (fun w op => assumed w.outside.2 w.forget op)
        (fun w op => I w ∧ guaranteed w.outside.2 w.forget op)
        (DaemonMethod.program codec config method) (fun _ => I) (fun _ => I) w)
    (hrestart : ∀ w credential onStoreThread, I w →
      I { w with gate := .new, credential := credential, onStoreThread := onStoreThread })
    {commands : List DaemonCommand} {w : RunnerState codec (ω × γ)}
    (hI : I w)
    (hassumed : ∀ past y rest,
      runSteps config surroundings w.forget commands = past ++ y :: rest →
        assumed (remembered surroundings watch w.outside.2 past) y.1 y.2)
    {before after : List (RunnerState codec ω × DaemonOp)}
    {x : RunnerState codec ω × DaemonOp}
    (hsteps : runSteps config surroundings w.forget commands = before ++ x :: after) :
    guaranteed (remembered surroundings watch w.outside.2 before) x.1 x.2 := by
  have hmemory :
      ∀ past y rest,
        runSteps config (surroundings.watched watch) w commands = past ++ y :: rest →
          MemoryOf surroundings watch w.outside.2 past y.1 := by
    intro past y rest hpast
    exact runSteps_history (fun past s op hs (_ : True) => memoryOf_step past s op hs)
      (fun _ _ _ _ hs => hs) commands
      (show MemoryOf surroundings watch w.outside.2 [] w from rfl) hpast (fun _ _ => trivial)
  have hall :=
    runSteps_guaranteed hmethod (fun _ _ h => h.1) hrestart commands w hI ?_
  · rw [runSteps_forget] at hsteps
    obtain ⟨before', x', after', hsplit, rfl, rfl, _⟩ := split_of_map hsteps
    have hx := (hall x' (by rw [hsplit]; exact List.mem_append_right _ List.mem_cons_self)).2
    rw [hmemory before' x' after' hsplit] at hx
    exact hx
  · intro y hy
    obtain ⟨past, rest, hsplit⟩ := List.append_of_mem hy
    have hforget :
        runSteps config surroundings w.forget commands =
          past.map forgetStep ++ forgetStep y :: rest.map forgetStep := by
      rw [runSteps_forget, hsplit, List.map_append, List.map_cons]
    have hyassumed := hassumed _ _ _ hforget
    rw [← hmemory past y rest hsplit] at hyassumed
    exact hyassumed

end Judgements

end Watch

end Runner
end PrReviewer
