import Mathlib.Data.Rat.Defs
import Mathlib.Tactic
import PrReviewer.Lib.RetryLoop

/-!
# The two retry loops

reliability/retry.py (`run_with_retry`) and models/retry.py (`retry_provider_call`), on exact
time: an operation returns or raises after any time, a sleep lasts as long as its argument,
and a reading of the clock is the time.
-/

namespace PrReviewer
namespace Reliability

open Lib

universe u v

section RunWithRetry

/-- `next_backoff`; `sample` is what the random numbers give. -/
def nextBackoff (attempt : Nat) (baseSeconds capSeconds : ℚ) (retryAfter : Option ℚ)
    (sample jitter : ℚ) : ℚ :=
  match retryAfter with
  | some seconds => min (max 0 seconds) capSeconds
  | none =>
      let delay := min capSeconds (baseSeconds * 2 ^ attempt)
      delay * (1 - jitter + 2 * jitter * sample)

/-- The two messages of RetryDeadlineExceeded. -/
inductive DeadlineMiss where
  | attempt (made : Nat)
  | wait (delay remaining : ℚ)
deriving DecidableEq

inductive RetryEnding (T : Type u) (X : Type v) where
  | returned (value : T)
  | raised (error : X)
  | retryDeadlineExceeded (miss : DeadlineMiss)
  | assertionError
deriving DecidableEq

/-- The arguments of `run_with_retry`; `operation` and `rng` are what their calls give, one
after the other, and `operation` also how long they take. -/
structure RetryCall (T : Type u) (X : Type v) where
  operation : Nat → ℚ × Except X T
  isRetryable : X → Bool
  deadlineMonotonic : ℚ
  maxAttempts : Nat
  baseSeconds : ℚ
  capSeconds : ℚ
  rng : Nat → ℚ
  retryAfter : Option (X → Option ℚ)

variable {T : Type u} {X : Type v}

/-- The wait after an error. -/
def RetryCall.delay (call : RetryCall T X) (attempt : Nat) (error : X) : ℚ :=
  let extra := match call.retryAfter with
    | none => none
    | some retryAfter => retryAfter error
  nextBackoff attempt call.baseSeconds call.capSeconds extra (call.rng attempt) (1 / 10)

/-- The head of the loop. -/
def RetryCall.enter (call : RetryCall T X) (s : RetryState (Except X T)) :
    Option (RetryEnding T X) :=
  if s.now ≥ call.deadlineMonotonic then
    some (.retryDeadlineExceeded (.attempt s.made))
  else none

/-- The body of the loop after the attempt. -/
def RetryCall.settle (call : RetryCall T X) (attempted : Attempted (Except X T)) :
    Settled (RetryEnding T X) :=
  match attempted.result with
  | .ok value => .ends (.returned value)
  | .error error =>
      if call.isRetryable error = false ∨ attempted.number + 1 ≥ call.maxAttempts then
        .ends (.raised error)
      else
        let delay := call.delay attempted.number error
        let remaining := call.deadlineMonotonic - attempted.ended
        if delay > remaining then
          .ends (.retryDeadlineExceeded (.wait delay remaining))
        else .waits delay

/-- The lines after the loop. -/
def RetryCall.spent : Option (Except X T) → RetryEnding T X
  | some (.error error) => .raised error
  | _ => .assertionError

def RetryCall.loop (call : RetryCall T X) : RetryLoop (Except X T) (RetryEnding T X) :=
  ⟨call.enter, call.settle, RetryCall.spent⟩

/-- `run_with_retry`, called at a time. -/
def runWithRetry (call : RetryCall T X) (start : ℚ) : RetryRun (Except X T) (RetryEnding T X) :=
  call.loop.run call.operation call.maxAttempts ⟨0, start, none⟩

@[simp] theorem RetryCall.enter_eq_none_iff
    (call : RetryCall T X) (s : RetryState (Except X T)) :
    call.loop.enter s = none ↔ s.now < call.deadlineMonotonic := by
  simp [RetryCall.loop, RetryCall.enter]

theorem RetryCall.settle_waits_iff
    (call : RetryCall T X) (attempted : Attempted (Except X T)) (delay : ℚ) :
    call.loop.settle attempted = .waits delay ↔
      ∃ error, attempted.result = .error error ∧ call.isRetryable error = true ∧
        attempted.number + 1 < call.maxAttempts ∧
        delay = call.delay attempted.number error ∧
        attempted.ended + delay ≤ call.deadlineMonotonic := by
  simp only [RetryCall.loop, RetryCall.settle]
  cases hresult : attempted.result with
  | ok value => simp
  | error error =>
      by_cases hstop : call.isRetryable error = false ∨
          attempted.number + 1 ≥ call.maxAttempts
      · simp only [if_pos hstop]
        constructor
        · intro h
          cases h
        · rintro ⟨_, ⟨rfl⟩, hretryable, hmore, -, -⟩
          rcases hstop with hstop | hstop
          · rw [hstop] at hretryable
            cases hretryable
          · omega
      · simp only [if_neg hstop]
        push Not at hstop
        have hretryable : call.isRetryable error = true := by simpa using hstop.1
        by_cases hmiss : call.delay attempted.number error >
            call.deadlineMonotonic - attempted.ended
        · simp only [if_pos hmiss]
          constructor
          · intro h
            cases h
          · rintro ⟨_, ⟨rfl⟩, -, -, rfl, hin⟩
            linarith
        · simp only [if_neg hmiss]
          constructor
          · rintro ⟨rfl⟩
            exact ⟨error, rfl, hretryable, hstop.2, rfl, by linarith⟩
          · rintro ⟨_, ⟨rfl⟩, -, -, rfl, -⟩
            rfl

/-- The wait after an attempt would pass the deadline. -/
def RetryCall.MissesWait (call : RetryCall T X) (attempted : Attempted (Except X T)) : Prop :=
  ∃ error, attempted.result = .error error ∧ call.isRetryable error = true ∧
    attempted.number + 1 < call.maxAttempts ∧
    call.deadlineMonotonic < attempted.ended + call.delay attempted.number error

/-- An attempt that ends the loop returns, raises, or leaves no time for the wait. -/
theorem RetryCall.settle_ends_cases
    (call : RetryCall T X) (attempted : Attempted (Except X T)) (ending : RetryEnding T X)
    (hends : call.loop.settle attempted = .ends ending) :
    (∃ value, attempted.result = .ok value ∧ ending = .returned value) ∨
    (∃ error, attempted.result = .error error ∧ ending = .raised error ∧
      (call.isRetryable error = false ∨ call.maxAttempts ≤ attempted.number + 1)) ∨
    (call.MissesWait attempted ∧ ∃ miss, ending = .retryDeadlineExceeded miss) := by
  simp only [RetryCall.loop, RetryCall.settle] at hends
  cases hresult : attempted.result with
  | ok value =>
      rw [hresult] at hends
      cases hends
      exact Or.inl ⟨value, rfl, rfl⟩
  | error error =>
      rw [hresult] at hends
      by_cases hstop : call.isRetryable error = false ∨
          attempted.number + 1 ≥ call.maxAttempts
      · simp only [if_pos hstop] at hends
        cases hends
        exact Or.inr (Or.inl ⟨error, rfl, rfl, hstop⟩)
      · simp only [if_neg hstop] at hends
        push Not at hstop
        by_cases hmiss : call.delay attempted.number error >
            call.deadlineMonotonic - attempted.ended
        · simp only [if_pos hmiss] at hends
          cases hends
          refine Or.inr (Or.inr ⟨⟨error, hresult, by simpa using hstop.1, hstop.2, ?_⟩, _, rfl⟩)
          linarith
        · simp only [if_neg hmiss] at hends
          cases hends

/-- A sleep follows an attempt that raised an error to retry, an attempt the end of a sleep. -/
def RetryCall.Retries (call : RetryCall T X) :
    RetryEvent (Except X T) → RetryEvent (Except X T) → Prop
  | .attempt attempted, .sleep started delay =>
      started = attempted.ended ∧
        ∃ error, attempted.result = .error error ∧ call.isRetryable error = true ∧
          delay = call.delay attempted.number error
  | .sleep started delay, .attempt attempted => attempted.started = started + delay
  | _, _ => False

/-- The limits of `run_with_retry`. -/
structure RetryCall.Kept (call : RetryCall T X) (start : ℚ)
    (run : RetryRun (Except X T) (RetryEnding T X)) : Prop where
  attempts_le : (attempts run.events).length ≤ call.maxAttempts
  operations : ∀ i attempted, (attempts run.events)[i]? = some attempted →
    attempted.number = i ∧ (attempted.duration, attempted.result) = call.operation i
  first : ∀ event ∈ run.events.head?, ∃ attempted, event = .attempt attempted ∧
    attempted.started = start
  retries : List.IsChain call.Retries run.events
  attempt_before : ∀ attempted, .attempt attempted ∈ run.events →
    attempted.started < call.deadlineMonotonic
  sleep_within : ∀ started delay, .sleep started delay ∈ run.events →
    started + delay ≤ call.deadlineMonotonic
  returned_iff : ∀ value, run.ending = .returned value ↔
    ∃ attempted, .attempt attempted ∈ run.events ∧ attempted.result = .ok value
  raised_iff : ∀ error, run.ending = .raised error ↔
    ∃ attempted, run.events.getLast? = some (.attempt attempted) ∧
      attempted.result = .error error ∧
      (call.isRetryable error = false ∨ (attempts run.events).length = call.maxAttempts)
  deadline_iff : (∃ miss, run.ending = .retryDeadlineExceeded miss) ↔
    ((∀ attempted, run.events.getLast? ≠ some (.attempt attempted)) ∧
      call.deadlineMonotonic ≤ (RetryState.closing ⟨0, start, none⟩ run.events).now) ∨
    ∃ attempted, run.events.getLast? = some (.attempt attempted) ∧ call.MissesWait attempted
  no_assertion : run.ending ≠ .assertionError

section Endings

variable (call : RetryCall T X) (start : ℚ)

theorem attempt_of_run
    (attempted : Attempted (Except X T))
    (hattempted : .attempt attempted ∈ (runWithRetry call start).events) :
    attempted.started < call.deadlineMonotonic ∧
      (attempted.duration, attempted.result) = call.operation attempted.number := by
  obtain ⟨s, henter, rfl⟩ := call.loop.attempt_entered call.operation _ _ attempted hattempted
  exact ⟨(call.enter_eq_none_iff s).mp henter, rfl⟩

theorem number_of_last
    (attempted : Attempted (Except X T))
    (hlast : (attempts (runWithRetry call start).events).getLast? = some attempted) :
    attempted.number + 1 = (attempts (runWithRetry call start).events).length := by
  simpa [runWithRetry] using call.loop.number_of_last call.operation _ _ attempted hlast

/-- At the head of the loop there are attempts left. -/
theorem attempts_left_at_head
    (hmax : 1 ≤ call.maxAttempts)
    (hhead : ∀ attempted,
      (runWithRetry call start).events.getLast? ≠ some (.attempt attempted)) :
    (attempts (runWithRetry call start).events).length < call.maxAttempts := by
  cases hlast : (attempts (runWithRetry call start).events).getLast? with
  | none =>
      rw [List.getLast?_eq_none_iff] at hlast
      rw [hlast]
      exact hmax
  | some attempted =>
      have hmem := (mem_attempts attempted _).mp (List.mem_of_getLast? hlast)
      rcases call.loop.attempt_settled call.operation _ _ attempted hmem with
        ⟨delay, hwaits⟩ | hend
      · obtain ⟨error, -, -, hmore, -, -⟩ := (call.settle_waits_iff attempted delay).mp hwaits
        rw [← number_of_last call start attempted hlast]
        exact hmore
      · exact absurd hend (hhead attempted)

/-- How a run ends: with its last attempt, or at the head when the deadline has passed. -/
theorem run_ending_cases
    (hmax : 1 ≤ call.maxAttempts) :
    (∃ attempted, (runWithRetry call start).events.getLast? = some (.attempt attempted) ∧
      call.loop.settle attempted = .ends (runWithRetry call start).ending) ∨
    ((∀ attempted, (runWithRetry call start).events.getLast? ≠ some (.attempt attempted)) ∧
      call.deadlineMonotonic ≤
        (RetryState.closing ⟨0, start, none⟩ (runWithRetry call start).events).now ∧
      ∃ miss, (runWithRetry call start).ending = .retryDeadlineExceeded miss) := by
  rcases call.loop.ending_cases call.operation call.maxAttempts ⟨0, start, none⟩ with
    hlast | ⟨hhead, ⟨hspent, -⟩ | ⟨-, henter⟩⟩
  · exact Or.inl hlast
  · have hleft := attempts_left_at_head call start hmax hhead
    exact absurd hspent (Nat.ne_of_lt hleft)
  · refine Or.inr ⟨hhead, ?_⟩
    simp only [RetryCall.loop, RetryCall.enter] at henter
    split at henter
    · rename_i hpassed
      exact ⟨hpassed, _, (Option.some.inj henter).symm⟩
    · cases henter

/-- The only attempt that can return is the last. -/
theorem returned_last
    (attempted : Attempted (Except X T)) (value : T)
    (hattempted : .attempt attempted ∈ (runWithRetry call start).events)
    (hvalue : attempted.result = .ok value) :
    (runWithRetry call start).events.getLast? = some (.attempt attempted) := by
  rcases call.loop.attempt_settled call.operation _ _ attempted hattempted with
    ⟨delay, hwaits⟩ | hend
  · obtain ⟨error, herror, -⟩ := (call.settle_waits_iff attempted delay).mp hwaits
    rw [hvalue] at herror
    cases herror
  · exact hend

theorem returned_iff
    (hmax : 1 ≤ call.maxAttempts) (value : T) :
    (runWithRetry call start).ending = .returned value ↔
      ∃ attempted, .attempt attempted ∈ (runWithRetry call start).events ∧
        attempted.result = .ok value := by
  constructor
  · intro hreturned
    rcases run_ending_cases call start hmax with ⟨attempted, hlast, hends⟩ | ⟨-, -, miss, hmiss⟩
    · rw [hreturned] at hends
      rcases call.settle_ends_cases attempted _ hends with
        ⟨value', hok, heq⟩ | ⟨error, -, heq, -⟩ | ⟨-, miss, heq⟩
      · cases heq
        exact ⟨attempted, List.mem_of_getLast? hlast, hok⟩
      · cases heq
      · cases heq
    · rw [hreturned] at hmiss
      cases hmiss
  · rintro ⟨attempted, hmem, hok⟩
    have hlast := returned_last call start attempted value hmem hok
    rcases run_ending_cases call start hmax with ⟨other, hother, hends⟩ | ⟨hhead, -, -⟩
    · rw [hlast] at hother
      cases hother
      simp only [RetryCall.loop, RetryCall.settle, hok] at hends
      exact (Settled.ends.inj hends).symm
    · exact absurd hlast (hhead attempted)

theorem raised_iff
    (hmax : 1 ≤ call.maxAttempts) (error : X) :
    (runWithRetry call start).ending = .raised error ↔
      ∃ attempted, (runWithRetry call start).events.getLast? = some (.attempt attempted) ∧
        attempted.result = .error error ∧
        (call.isRetryable error = false ∨
          (attempts (runWithRetry call start).events).length = call.maxAttempts) := by
  have hbound : (attempts (runWithRetry call start).events).length ≤ call.maxAttempts :=
    call.loop.attempts_length_le call.operation _ _
  constructor
  · intro hraised
    rcases run_ending_cases call start hmax with ⟨attempted, hlast, hends⟩ | ⟨-, -, miss, hmiss⟩
    · rw [hraised] at hends
      have hnumber := number_of_last call start attempted (attempts_getLast? hlast)
      rcases call.settle_ends_cases attempted _ hends with
        ⟨value, -, heq⟩ | ⟨error', herror, heq, hstop⟩ | ⟨-, miss, heq⟩
      · cases heq
      · cases heq
        exact ⟨attempted, hlast, herror, hstop.imp_right fun _ => by omega⟩
      · cases heq
    · rw [hraised] at hmiss
      cases hmiss
  · rintro ⟨attempted, hlast, herror, hstop⟩
    have hnumber := number_of_last call start attempted (attempts_getLast? hlast)
    rcases run_ending_cases call start hmax with ⟨other, hother, hends⟩ | ⟨hhead, -, -⟩
    · rw [hlast] at hother
      cases hother
      have hstop' : call.isRetryable error = false ∨
          attempted.number + 1 ≥ call.maxAttempts := hstop.imp_right fun _ => by omega
      simp only [RetryCall.loop, RetryCall.settle, herror, if_pos hstop'] at hends
      exact (Settled.ends.inj hends).symm
    · exact absurd hlast (hhead attempted)

theorem deadline_iff
    (hmax : 1 ≤ call.maxAttempts) :
    (∃ miss, (runWithRetry call start).ending = .retryDeadlineExceeded miss) ↔
      ((∀ attempted,
          (runWithRetry call start).events.getLast? ≠ some (.attempt attempted)) ∧
        call.deadlineMonotonic ≤
          (RetryState.closing ⟨0, start, none⟩ (runWithRetry call start).events).now) ∨
      ∃ attempted, (runWithRetry call start).events.getLast? = some (.attempt attempted) ∧
        call.MissesWait attempted := by
  constructor
  · rintro ⟨miss, hmissed⟩
    rcases run_ending_cases call start hmax with ⟨attempted, hlast, hends⟩ | ⟨hhead, hnow, -⟩
    · rw [hmissed] at hends
      rcases call.settle_ends_cases attempted _ hends with
        ⟨value, -, heq⟩ | ⟨error, -, heq, -⟩ | ⟨hwait, -⟩
      · cases heq
      · cases heq
      · exact Or.inr ⟨attempted, hlast, hwait⟩
    · exact Or.inl ⟨hhead, hnow⟩
  · rintro (⟨hhead, -⟩ | ⟨attempted, hlast, error, herror, hretryable, hmore, hmiss⟩)
    · rcases run_ending_cases call start hmax with ⟨attempted, hlast, -⟩ | ⟨-, -, hmiss⟩
      · exact absurd hlast (hhead attempted)
      · exact hmiss
    · rcases run_ending_cases call start hmax with ⟨other, hother, hends⟩ | ⟨hhead, -, -⟩
      · rw [hlast] at hother
        cases hother
        rcases call.settle_ends_cases attempted _ hends with
          ⟨value, hok, -⟩ | ⟨error', herror', -, hstop⟩ | ⟨-, hwait⟩
        · rw [herror] at hok
          cases hok
        · rw [herror] at herror'
          cases herror'
          rcases hstop with hstop | hstop
          · rw [hretryable] at hstop
            cases hstop
          · omega
        · exact hwait
      · exact absurd hlast (hhead attempted)

theorem run_no_assertion
    (hmax : 1 ≤ call.maxAttempts) :
    (runWithRetry call start).ending ≠ .assertionError := by
  intro hassertion
  rcases run_ending_cases call start hmax with ⟨attempted, -, hends⟩ | ⟨-, -, miss, hmiss⟩
  · rw [hassertion] at hends
    rcases call.settle_ends_cases attempted _ hends with
      ⟨value, -, heq⟩ | ⟨error, -, heq, -⟩ | ⟨-, miss, heq⟩ <;>
      cases heq
  · rw [hassertion] at hmiss
    cases hmiss

theorem RetryCall.retries_of_follows
    (before after : RetryEvent (Except X T)) (hfollows : call.loop.Follows before after) :
    call.Retries before after := by
  cases before with
  | attempt attempted =>
      cases after with
      | attempt _ => exact hfollows
      | sleep started delay =>
          obtain ⟨hstarted, hwaits⟩ := hfollows
          obtain ⟨error, herror, hretryable, -, hdelay, -⟩ :=
            (call.settle_waits_iff attempted delay).mp hwaits
          exact ⟨hstarted, error, herror, hretryable, hdelay⟩
  | sleep started delay =>
      cases after with
      | attempt _ => exact hfollows
      | sleep _ _ => exact hfollows

theorem runWithRetry_kept
    (hmax : 1 ≤ call.maxAttempts) :
    call.Kept start (runWithRetry call start) where
  attempts_le := call.loop.attempts_length_le call.operation _ _
  operations i attempted hattempted := by
    have hnumber : attempted.number = i := by
      simpa using call.loop.attempts_getElem? call.operation _ _ i attempted hattempted
    have hmem := (mem_attempts attempted _).mp (List.mem_of_getElem? hattempted)
    rw [← hnumber]
    exact ⟨rfl, (attempt_of_run call start attempted hmem).2⟩
  first event hevent :=
    ⟨_, (call.loop.events_follow call.operation _ _).2 event hevent, rfl⟩
  retries :=
    (call.loop.events_follow call.operation _ _).1.imp call.retries_of_follows
  attempt_before attempted hattempted := (attempt_of_run call start attempted hattempted).1
  sleep_within started delay hsleep := by
    obtain ⟨attempted, -, hstarted, hwaits⟩ :=
      call.loop.sleep_settled call.operation _ _ started delay hsleep
    obtain ⟨error, -, -, -, -, hin⟩ := (call.settle_waits_iff attempted delay).mp hwaits
    rw [hstarted]
    exact hin
  returned_iff := returned_iff call start hmax
  raised_iff := raised_iff call start hmax
  deadline_iff := deadline_iff call start hmax
  no_assertion := run_no_assertion call start hmax

end Endings

end RunWithRetry

section RetryProviderCall

/-- `ProviderName`. -/
inductive ProviderName where
  | openai
  | anthropic
deriving DecidableEq, Repr

inductive ProviderErrorKind where
  | retryableRateLimit
  | outOfTokens
  | badKey
  | providerOverloaded
  | badRequest
  | unknown
deriving DecidableEq, Repr

structure ProviderFailure where
  provider : ProviderName
  kind : ProviderErrorKind
  reason : String
  retryAfterSeconds : Option ℚ
deriving DecidableEq

/-- `is_retryable`. -/
def isRetryable (kind : ProviderErrorKind) : Bool :=
  kind = .retryableRateLimit

structure RetryPolicy where
  maxAttempts : Nat
  maxElapsedSeconds : ℚ
  initialDelaySeconds : ℚ
  maxDelaySeconds : ℚ
  maxAttempts_pos : 1 ≤ maxAttempts
  maxElapsedSeconds_pos : 0 < maxElapsedSeconds
  delays_pos : 0 < initialDelaySeconds ∧ 0 < maxDelaySeconds

/-- What an attempt gives; the value may be None. -/
inductive ProviderOutcome (V : Type u) where
  | value (value : Option V)
  | failure (failure : ProviderFailure)
deriving DecidableEq

/-- The result, or the error of `__post_init__` for a value that is None. -/
inductive ProviderEnding (V : Type u) where
  | value (value : V)
  | failure (failure : ProviderFailure)
  | valueError
  | assertionError
deriving DecidableEq

/-- The arguments of `retry_provider_call`, and the time it is called at. -/
structure ProviderCall (V : Type u) where
  attempt : Nat → ℚ × ProviderOutcome V
  policy : RetryPolicy
  started : ℚ

/-- `_retry_delay`. -/
def retryDelay (failure : ProviderFailure) (attemptNumber : Nat) (policy : RetryPolicy) : ℚ :=
  match failure.retryAfterSeconds with
  | some seconds => seconds
  | none => min (policy.initialDelaySeconds * 2 ^ (attemptNumber - 1)) policy.maxDelaySeconds

variable {V : Type u}

/-- The head of the loop; the numbers of the attempts start with 1 here. -/
def ProviderCall.enter (call : ProviderCall V) (s : RetryState (ProviderOutcome V)) :
    Option (ProviderEnding V) :=
  let attemptNumber := s.made + 1
  if attemptNumber > 1 ∧ s.now - call.started ≥ call.policy.maxElapsedSeconds then
    match s.last with
    | some (.failure lastFailure) => some (.failure lastFailure)
    | _ => some .assertionError
  else none

/-- The body of the loop after the attempt. -/
def ProviderCall.settle (call : ProviderCall V) (attempted : Attempted (ProviderOutcome V)) :
    Settled (ProviderEnding V) :=
  let attemptNumber := attempted.number + 1
  match attempted.result with
  | .value none => .ends .valueError
  | .value (some value) => .ends (.value value)
  | .failure failure =>
      if isRetryable failure.kind = false ∨ attemptNumber = call.policy.maxAttempts then
        .ends (.failure failure)
      else
        let elapsed := attempted.ended - call.started
        let remaining := call.policy.maxElapsedSeconds - elapsed
        let delay := retryDelay failure attemptNumber call.policy
        if remaining ≤ 0 ∨ delay > remaining then .ends (.failure failure) else .waits delay

def ProviderCall.loop (call : ProviderCall V) :
    RetryLoop (ProviderOutcome V) (ProviderEnding V) :=
  ⟨call.enter, call.settle, fun _ => .assertionError⟩

/-- `retry_provider_call`. -/
def retryProviderCall (call : ProviderCall V) :
    RetryRun (ProviderOutcome V) (ProviderEnding V) :=
  call.loop.run call.attempt call.policy.maxAttempts ⟨0, call.started, none⟩

theorem ProviderCall.settle_waits_iff
    (call : ProviderCall V) (attempted : Attempted (ProviderOutcome V)) (delay : ℚ) :
    call.loop.settle attempted = .waits delay ↔
      ∃ failure, attempted.result = .failure failure ∧ isRetryable failure.kind = true ∧
        attempted.number + 1 ≠ call.policy.maxAttempts ∧
        delay = retryDelay failure (attempted.number + 1) call.policy ∧
        attempted.ended < call.started + call.policy.maxElapsedSeconds ∧
        attempted.ended + delay ≤ call.started + call.policy.maxElapsedSeconds := by
  simp only [ProviderCall.loop, ProviderCall.settle]
  cases hresult : attempted.result with
  | value value => cases value <;> simp
  | failure failure =>
      by_cases hstop : isRetryable failure.kind = false ∨
          attempted.number + 1 = call.policy.maxAttempts
      · simp only [if_pos hstop]
        constructor
        · intro h
          cases h
        · rintro ⟨_, ⟨rfl⟩, hretryable, hmore, -⟩
          rcases hstop with hstop | hstop
          · rw [hstop] at hretryable
            cases hretryable
          · exact absurd hstop hmore
      · simp only [if_neg hstop]
        push Not at hstop
        have hretryable : isRetryable failure.kind = true := by simpa using hstop.1
        by_cases hmiss : call.policy.maxElapsedSeconds - (attempted.ended - call.started) ≤ 0 ∨
            retryDelay failure (attempted.number + 1) call.policy >
              call.policy.maxElapsedSeconds - (attempted.ended - call.started)
        · simp only [if_pos hmiss]
          constructor
          · intro h
            cases h
          · rintro ⟨_, ⟨rfl⟩, -, -, rfl, hopen, hin⟩
            rcases hmiss with hmiss | hmiss <;> linarith
        · simp only [if_neg hmiss]
          push Not at hmiss
          constructor
          · rintro ⟨rfl⟩
            exact ⟨failure, rfl, hretryable, hstop.2, rfl, by linarith, by linarith⟩
          · rintro ⟨_, ⟨rfl⟩, -, -, rfl, -, -⟩
            rfl

/-- An attempt that ends the loop gives its own value or failure. -/
theorem ProviderCall.settle_ends_cases
    (call : ProviderCall V) (attempted : Attempted (ProviderOutcome V))
    (ending : ProviderEnding V) (hends : call.loop.settle attempted = .ends ending) :
    (attempted.result = .value none ∧ ending = .valueError) ∨
    (∃ value, attempted.result = .value (some value) ∧ ending = .value value) ∨
    (∃ failure, attempted.result = .failure failure ∧ ending = .failure failure) := by
  simp only [ProviderCall.loop, ProviderCall.settle] at hends
  cases hresult : attempted.result with
  | value value =>
      cases value with
      | none =>
          rw [hresult] at hends
          cases hends
          exact Or.inl ⟨rfl, rfl⟩
      | some value =>
          rw [hresult] at hends
          cases hends
          exact Or.inr (Or.inl ⟨value, rfl, rfl⟩)
  | failure failure =>
      rw [hresult] at hends
      refine Or.inr (Or.inr ⟨failure, rfl, ?_⟩)
      simp only at hends
      split at hends
      · exact (Settled.ends.inj hends).symm
      · split at hends
        · exact (Settled.ends.inj hends).symm
        · cases hends

/-- A sleep follows an attempt that met a rate limit, an attempt the end of a sleep. -/
def ProviderCall.Retries (call : ProviderCall V) :
    RetryEvent (ProviderOutcome V) → RetryEvent (ProviderOutcome V) → Prop
  | .attempt attempted, .sleep started delay =>
      started = attempted.ended ∧
        ∃ failure, attempted.result = .failure failure ∧
          failure.kind = .retryableRateLimit ∧
          delay = retryDelay failure (attempted.number + 1) call.policy
  | .sleep started delay, .attempt attempted => attempted.started = started + delay
  | _, _ => False

/-- The limits of `retry_provider_call`. -/
structure ProviderCall.Kept (call : ProviderCall V)
    (run : RetryRun (ProviderOutcome V) (ProviderEnding V)) : Prop where
  attempts_le : (attempts run.events).length ≤ call.policy.maxAttempts
  operations : ∀ i attempted, (attempts run.events)[i]? = some attempted →
    attempted.number = i ∧ (attempted.duration, attempted.result) = call.attempt i
  first : ∀ event ∈ run.events.head?, ∃ attempted, event = .attempt attempted ∧
    attempted.started = call.started
  retries : List.IsChain call.Retries run.events
  sleep_within : ∀ started delay, .sleep started delay ∈ run.events →
    started < call.started + call.policy.maxElapsedSeconds ∧
    started + delay ≤ call.started + call.policy.maxElapsedSeconds
  value_iff : ∀ value, run.ending = .value value ↔
    ∃ attempted, .attempt attempted ∈ run.events ∧ attempted.result = .value (some value)
  failure_iff : ∀ failure, run.ending = .failure failure ↔
    ∃ attempted, (attempts run.events).getLast? = some attempted ∧
      attempted.result = .failure failure
  no_error : run.ending ≠ .valueError ∧ run.ending ≠ .assertionError

section ProviderEndings

variable (call : ProviderCall V)

theorem provider_attempt_of_run
    (attempted : Attempted (ProviderOutcome V))
    (hattempted : .attempt attempted ∈ (retryProviderCall call).events) :
    (attempted.duration, attempted.result) = call.attempt attempted.number := by
  obtain ⟨s, -, rfl⟩ := call.loop.attempt_entered call.attempt _ _ attempted hattempted
  rfl

theorem provider_attempts_length_le :
    (attempts (retryProviderCall call).events).length ≤ call.policy.maxAttempts :=
  call.loop.attempts_length_le call.attempt _ _

/-- A run has a last attempt, which ended it or left no time for the next. -/
theorem provider_ending_cases :
    ∃ attempted, (attempts (retryProviderCall call).events).getLast? = some attempted ∧
      (((retryProviderCall call).events.getLast? = some (.attempt attempted) ∧
          call.loop.settle attempted = .ends (retryProviderCall call).ending) ∨
        ∃ failure, attempted.result = .failure failure ∧
          (retryProviderCall call).ending = .failure failure) := by
  rcases call.loop.ending_cases call.attempt call.policy.maxAttempts ⟨0, call.started, none⟩ with
    ⟨attempted, hlast, hends⟩ | ⟨hhead, hrest⟩
  · exact ⟨attempted, attempts_getLast? hlast, Or.inl ⟨hlast, hends⟩⟩
  · have hmade : attempts (retryProviderCall call).events ≠ [] := by
      -- The first turn is never refused.
      intro hnil
      rcases hrest with ⟨hspent, -⟩ | ⟨-, henter⟩
      · change (attempts (retryProviderCall call).events).length = _ at hspent
        rw [hnil] at hspent
        have hpos := call.policy.maxAttempts_pos
        rw [← hspent] at hpos
        cases hpos
      · change call.enter (RetryState.closing ⟨0, call.started, none⟩
          (retryProviderCall call).events) = _ at henter
        simp [ProviderCall.enter, hnil] at henter
    obtain ⟨attempted, hlast, hresult⟩ :=
      RetryState.closing_last ⟨0, call.started, none⟩ (retryProviderCall call).events hmade
    have hmem := (mem_attempts attempted _).mp (List.mem_of_getLast? hlast)
    refine ⟨attempted, hlast, Or.inr ?_⟩
    rcases call.loop.attempt_settled call.attempt _ _ attempted hmem with
      ⟨delay, hwaits⟩ | hend
    · obtain ⟨failure, hfailure, -, hmore, -⟩ :=
        (call.settle_waits_iff attempted delay).mp hwaits
      refine ⟨failure, hfailure, ?_⟩
      have hnumber := call.loop.number_of_last call.attempt _ _ attempted hlast
      rw [hfailure] at hresult
      rcases hrest with ⟨hspent, -⟩ | ⟨-, henter⟩
      · rw [Nat.zero_add, hspent] at hnumber
        exact absurd hnumber hmore
      · change call.enter (RetryState.closing ⟨0, call.started, none⟩
          (retryProviderCall call).events) = _ at henter
        simp only [ProviderCall.enter, hresult] at henter
        split at henter
        · exact (Option.some.inj henter).symm
        · cases henter
    · exact absurd hend (hhead attempted)

theorem provider_value_iff (value : V) :
    (retryProviderCall call).ending = .value value ↔
      ∃ attempted, .attempt attempted ∈ (retryProviderCall call).events ∧
        attempted.result = .value (some value) := by
  obtain ⟨last, hlast, hcases⟩ := provider_ending_cases call
  constructor
  · intro hvalue
    rcases hcases with ⟨-, hends⟩ | ⟨failure, -, hfailure⟩
    · rw [hvalue] at hends
      rcases call.settle_ends_cases last _ hends with
        ⟨-, heq⟩ | ⟨value', hresult, heq⟩ | ⟨failure, -, heq⟩
      · cases heq
      · cases heq
        exact ⟨last, (mem_attempts last _).mp (List.mem_of_getLast? hlast), hresult⟩
      · cases heq
    · rw [hvalue] at hfailure
      cases hfailure
  · rintro ⟨attempted, hmem, hresult⟩
    -- An attempt that gives a value asks for no sleep, so it is the last.
    have hend : (retryProviderCall call).events.getLast? = some (.attempt attempted) := by
      rcases call.loop.attempt_settled call.attempt _ _ attempted hmem with
        ⟨delay, hwaits⟩ | hend
      · obtain ⟨failure, hfailure, -⟩ := (call.settle_waits_iff attempted delay).mp hwaits
        rw [hresult] at hfailure
        cases hfailure
      · exact hend
    have hsame : last = attempted := by
      rw [attempts_getLast? hend] at hlast
      exact (Option.some.inj hlast).symm
    subst hsame
    rcases hcases with ⟨-, hends⟩ | ⟨failure, hfailure, -⟩
    · simp only [ProviderCall.loop, ProviderCall.settle, hresult] at hends
      exact (Settled.ends.inj hends).symm
    · rw [hresult] at hfailure
      cases hfailure

theorem provider_failure_iff (failure : ProviderFailure) :
    (retryProviderCall call).ending = .failure failure ↔
      ∃ attempted, (attempts (retryProviderCall call).events).getLast? = some attempted ∧
        attempted.result = .failure failure := by
  obtain ⟨last, hlast, hcases⟩ := provider_ending_cases call
  constructor
  · intro hfailure
    refine ⟨last, hlast, ?_⟩
    rcases hcases with ⟨-, hends⟩ | ⟨failure', hresult, heq⟩
    · rw [hfailure] at hends
      rcases call.settle_ends_cases last _ hends with
        ⟨-, heq⟩ | ⟨value, -, heq⟩ | ⟨failure', hresult, heq⟩
      · cases heq
      · cases heq
      · cases heq
        exact hresult
    · rw [hfailure] at heq
      cases heq
      exact hresult
  · rintro ⟨attempted, hattempted, hresult⟩
    rw [hlast] at hattempted
    cases hattempted
    rcases hcases with ⟨-, hends⟩ | ⟨failure', hresult', heq⟩
    · rcases call.settle_ends_cases last _ hends with
        ⟨hresult', -⟩ | ⟨value, hresult', -⟩ | ⟨failure', hresult', heq⟩
      · rw [hresult] at hresult'
        cases hresult'
      · rw [hresult] at hresult'
        cases hresult'
      · rw [hresult] at hresult'
        cases hresult'
        exact heq
    · rw [hresult] at hresult'
      cases hresult'
      exact heq

theorem provider_no_error
    (hvalues : ∀ i, (call.attempt i).2 ≠ .value none) :
    (retryProviderCall call).ending ≠ .valueError ∧
      (retryProviderCall call).ending ≠ .assertionError := by
  obtain ⟨last, hlast, ⟨hend, hends⟩ | ⟨failure, -, heq⟩⟩ := provider_ending_cases call
  · rcases call.settle_ends_cases last _ hends with
      ⟨hresult, -⟩ | ⟨value, -, heq⟩ | ⟨failure, -, heq⟩
    · have hoperation := provider_attempt_of_run call last (List.mem_of_getLast? hend)
      rw [hresult] at hoperation
      exact absurd (congrArg Prod.snd hoperation).symm (hvalues last.number)
    · simp [heq]
    · simp [heq]
  · simp [heq]

theorem ProviderCall.retries_of_follows
    (before after : RetryEvent (ProviderOutcome V)) (hfollows : call.loop.Follows before after) :
    call.Retries before after := by
  cases before with
  | attempt attempted =>
      cases after with
      | attempt _ => exact hfollows
      | sleep started delay =>
          obtain ⟨hstarted, hwaits⟩ := hfollows
          obtain ⟨failure, hfailure, hretryable, -, hdelay, -⟩ :=
            (call.settle_waits_iff attempted delay).mp hwaits
          exact ⟨hstarted, failure, hfailure, by simpa [isRetryable] using hretryable, hdelay⟩
  | sleep started delay =>
      cases after with
      | attempt _ => exact hfollows
      | sleep _ _ => exact hfollows

theorem retryProviderCall_kept
    (hvalues : ∀ i, (call.attempt i).2 ≠ .value none) :
    call.Kept (retryProviderCall call) where
  attempts_le := provider_attempts_length_le call
  operations i attempted hattempted := by
    have hnumber : attempted.number = i := by
      simpa using call.loop.attempts_getElem? call.attempt _ _ i attempted hattempted
    have hmem := (mem_attempts attempted _).mp (List.mem_of_getElem? hattempted)
    rw [← hnumber]
    exact ⟨rfl, provider_attempt_of_run call attempted hmem⟩
  first event hevent :=
    ⟨_, (call.loop.events_follow call.attempt _ _).2 event hevent, rfl⟩
  retries :=
    (call.loop.events_follow call.attempt _ _).1.imp call.retries_of_follows
  sleep_within started delay hsleep := by
    obtain ⟨attempted, -, hstarted, hwaits⟩ :=
      call.loop.sleep_settled call.attempt _ _ started delay hsleep
    obtain ⟨failure, -, -, -, -, hopen, hin⟩ :=
      (call.settle_waits_iff attempted delay).mp hwaits
    rw [hstarted]
    exact ⟨hopen, hin⟩
  value_iff := provider_value_iff call
  failure_iff := provider_failure_iff call
  no_error := provider_no_error call hvalues

end ProviderEndings

end RetryProviderCall

/-- Both loops keep their limits, whatever their operations do and however long they take. -/
theorem retries_within_limits
    {T : Type u} {X : Type v} {V : Type u}
    (call : RetryCall T X) (start : ℚ) (hmax : 1 ≤ call.maxAttempts)
    (provider : ProviderCall V) (hvalues : ∀ i, (provider.attempt i).2 ≠ .value none) :
    call.Kept start (runWithRetry call start) ∧
      provider.Kept (retryProviderCall provider) :=
  ⟨runWithRetry_kept call start hmax, retryProviderCall_kept provider hvalues⟩

/-- A rate limit met twice: one loop has time for both waits, the other for one. -/
theorem retries_within_limits_twice :
    let call : RetryCall Nat Bool :=
      ⟨fun i => (1, if i < 2 then .error true else .ok 7), id, 10, 5, 1, 4, fun _ => 1 / 2, none⟩
    let failure : ProviderFailure := ⟨.openai, .retryableRateLimit, "rate limit", some 3⟩
    let provider : ProviderCall Nat :=
      ⟨fun i => (1, if i < 2 then .failure failure else .value (some 7)),
        ⟨4, 6, 1, 4, by decide, by decide, by decide⟩, 0⟩
    (runWithRetry call 0).ending = .returned 7 ∧
      call.Kept 0 (runWithRetry call 0) ∧
      (retryProviderCall provider).ending = .failure failure ∧
      provider.Kept (retryProviderCall provider) := by
  intro call failure provider
  have hkept := retries_within_limits call 0 (by decide) provider (by
    intro i
    by_cases hi : i < 2 <;> simp [provider, hi])
  exact ⟨by decide +kernel, hkept.1, by decide +kernel, hkept.2⟩

end Reliability
end PrReviewer
