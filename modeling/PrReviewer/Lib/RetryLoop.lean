import Mathlib.Algebra.Order.Ring.Rat
import Mathlib.Data.List.Chain
import Mathlib.Data.List.Range
import Mathlib.Tactic

/-!
# Retry loops

A loop that makes an attempt and then either ends, or sleeps and comes back to its head.
Time is exact: an attempt takes as long as the environment lets it, a sleep takes its
argument, and the loop itself takes no time.

A loop is given by what it does at its head, after an attempt, and when its attempts are
spent.  A run is the list of its events and its ending.
-/

namespace PrReviewer
namespace Lib

universe u v

/-- An attempt that was made, the first of a run having number 0. -/
structure Attempted (R : Type u) where
  number : Nat
  started : ℚ
  duration : ℚ
  result : R

def Attempted.ended {R : Type u} (attempted : Attempted R) : ℚ :=
  attempted.started + attempted.duration

inductive RetryEvent (R : Type u) where
  | attempt (attempted : Attempted R)
  | sleep (started delay : ℚ)

/-- What is known at the head of the loop. -/
structure RetryState (R : Type u) where
  made : Nat
  now : ℚ
  last : Option R

/-- What an attempt leads to. -/
inductive Settled (E : Type v) where
  | ends (ending : E)
  | waits (delay : ℚ)

structure RetryLoop (R : Type u) (E : Type v) where
  /-- What the loop ends with at its head, if it ends there. -/
  enter : RetryState R → Option E
  settle : Attempted R → Settled E
  /-- What follows the last turn. -/
  spent : Option R → E

structure RetryRun (R : Type u) (E : Type v) where
  events : List (RetryEvent R)
  ending : E

section Loops

variable {R : Type u} {E : Type v}

def RetryState.attempted (operation : Nat → ℚ × R) (s : RetryState R) : Attempted R :=
  ⟨s.made, s.now, (operation s.made).1, (operation s.made).2⟩

def RetryState.after (s : RetryState R) : RetryEvent R → RetryState R
  | .attempt attempted => ⟨s.made + 1, attempted.ended, some attempted.result⟩
  | .sleep started delay => { s with now := started + delay }

/-- The state after some events. -/
def RetryState.closing (s : RetryState R) (events : List (RetryEvent R)) : RetryState R :=
  events.foldl RetryState.after s

def attempts (events : List (RetryEvent R)) : List (Attempted R) :=
  events.filterMap fun
    | .attempt attempted => some attempted
    | .sleep _ _ => none

/-- The loop, with a bound on the turns that are left. -/
def RetryLoop.run (loop : RetryLoop R E) (operation : Nat → ℚ × R) :
    Nat → RetryState R → RetryRun R E
  | 0, s => ⟨[], loop.spent s.last⟩
  | left + 1, s =>
      match loop.enter s with
      | some ending => ⟨[], ending⟩
      | none =>
          let attempted := s.attempted operation
          match loop.settle attempted with
          | .ends ending => ⟨[.attempt attempted], ending⟩
          | .waits delay =>
              let later := loop.run operation left
                ⟨s.made + 1, attempted.ended + delay, some attempted.result⟩
              ⟨.attempt attempted :: .sleep attempted.ended delay :: later.events, later.ending⟩

@[simp] theorem attempts_nil :
    attempts ([] : List (RetryEvent R)) = [] := by
  rfl

@[simp] theorem attempts_attempt
    (attempted : Attempted R) (events : List (RetryEvent R)) :
    attempts (.attempt attempted :: events) = attempted :: attempts events := by
  rfl

@[simp] theorem attempts_sleep
    (started delay : ℚ) (events : List (RetryEvent R)) :
    attempts (.sleep started delay :: events) = attempts events := by
  rfl

@[simp] theorem mem_attempts
    (attempted : Attempted R) (events : List (RetryEvent R)) :
    attempted ∈ attempts events ↔ .attempt attempted ∈ events := by
  induction events with
  | nil => simp
  | cons event rest ih =>
      cases event with
      | attempt a => simp [ih]
      | sleep started delay => simp [ih]

theorem attempts_getLast?
    {events : List (RetryEvent R)} {attempted : Attempted R}
    (hlast : events.getLast? = some (.attempt attempted)) :
    (attempts events).getLast? = some attempted := by
  obtain ⟨front, rfl⟩ := List.getLast?_eq_some_iff.mp hlast
  simp [attempts]

@[simp] theorem RetryState.closing_nil (s : RetryState R) :
    s.closing [] = s := by
  rfl

@[simp] theorem RetryState.closing_cons
    (s : RetryState R) (event : RetryEvent R) (events : List (RetryEvent R)) :
    s.closing (event :: events) = (s.after event).closing events := by
  rfl

@[simp] theorem RetryState.after_attempt
    (s : RetryState R) (attempted : Attempted R) :
    s.after (.attempt attempted) = ⟨s.made + 1, attempted.ended, some attempted.result⟩ := by
  rfl

@[simp] theorem RetryState.after_sleep
    (s : RetryState R) (started delay : ℚ) :
    s.after (.sleep started delay) = { s with now := started + delay } := by
  rfl

@[simp] theorem RetryState.closing_made
    (s : RetryState R) (events : List (RetryEvent R)) :
    (s.closing events).made = s.made + (attempts events).length := by
  induction events generalizing s with
  | nil => simp
  | cons event rest ih =>
      cases event with
      | attempt attempted =>
          simp only [RetryState.closing_cons, ih, RetryState.after_attempt, attempts_attempt,
            List.length_cons]
          omega
      | sleep started delay => simp [ih]

/-- What is known of the last attempt at the head of the loop is its result. -/
theorem RetryState.closing_last
    (s : RetryState R) (events : List (RetryEvent R)) (hmade : attempts events ≠ []) :
    ∃ attempted, (attempts events).getLast? = some attempted ∧
      (s.closing events).last = some attempted.result := by
  induction events generalizing s with
  | nil => exact absurd rfl hmade
  | cons event rest ih =>
      by_cases hrest : attempts rest = []
      · have hlast : ∀ t : RetryState R, (t.closing rest).last = t.last := by
          clear ih hmade
          induction rest with
          | nil => simp
          | cons event rest ih =>
              cases event with
              | attempt attempted => simp at hrest
              | sleep started delay =>
                  intro t
                  rw [RetryState.closing_cons, ih (by simpa using hrest)]
                  rfl
        cases event with
        | attempt attempted => exact ⟨attempted, by simp [hrest], by simp [hlast]⟩
        | sleep started delay => exact absurd (by simpa using hrest) hmade
      · obtain ⟨attempted, hattempted, hresult⟩ := ih (s.after event) hrest
        refine ⟨attempted, ?_, hresult⟩
        cases event with
        | attempt first =>
            rw [attempts_attempt, List.getLast?_cons, hattempted]
            rfl
        | sleep started delay => simpa using hattempted

section Rule

variable (loop : RetryLoop R E) (operation : Nat → ℚ × R)

/-- The induction rule: a turn is refused at the head, ends after its attempt, or waits. -/
theorem RetryLoop.run_rule
    {P : Nat → RetryState R → RetryRun R E → Prop}
    (spent : ∀ s, P 0 s ⟨[], loop.spent s.last⟩)
    (refused : ∀ left s ending, loop.enter s = some ending → P (left + 1) s ⟨[], ending⟩)
    (ended : ∀ left s ending, loop.enter s = none →
      loop.settle (s.attempted operation) = .ends ending →
      P (left + 1) s ⟨[.attempt (s.attempted operation)], ending⟩)
    (again : ∀ left s delay later, loop.enter s = none →
      loop.settle (s.attempted operation) = .waits delay →
      P left ⟨s.made + 1, (s.attempted operation).ended + delay,
        some (s.attempted operation).result⟩ later →
      P (left + 1) s
        ⟨.attempt (s.attempted operation) ::
          .sleep (s.attempted operation).ended delay :: later.events, later.ending⟩)
    (left : Nat) (s : RetryState R) :
    P left s (loop.run operation left s) := by
  induction left generalizing s with
  | zero => exact spent s
  | succ left ih =>
      rw [RetryLoop.run]
      cases henter : loop.enter s with
      | some ending => exact refused left s ending henter
      | none =>
          cases hsettle : loop.settle (s.attempted operation) with
          | ends ending =>
              simpa only [hsettle] using ended left s ending henter hsettle
          | waits delay =>
              simpa only [hsettle] using again left s delay _ henter hsettle (ih _)

theorem RetryLoop.attempts_length_le
    (left : Nat) (s : RetryState R) :
    (attempts (loop.run operation left s).events).length ≤ left := by
  refine loop.run_rule operation
    (P := fun left _ run => (attempts run.events).length ≤ left) ?_ ?_ ?_ ?_ left s
  · intro s
    simp
  · intro left s ending _
    simp
  · intro left s ending _ _
    simp
  · intro left s delay later _ _ ih
    simpa using ih

/-- The attempts are numbered as they come. -/
theorem RetryLoop.attempts_number
    (left : Nat) (s : RetryState R) :
    (attempts (loop.run operation left s).events).map Attempted.number =
      List.range' s.made (attempts (loop.run operation left s).events).length := by
  refine loop.run_rule operation
    (P := fun _ s run => (attempts run.events).map Attempted.number =
      List.range' s.made (attempts run.events).length) ?_ ?_ ?_ ?_ left s
  · intro s
    simp
  · intro left s ending _
    simp
  · intro left s ending _ _
    simp [RetryState.attempted]
  · intro left s delay later _ _ ih
    simpa [RetryState.attempted, List.range'_succ] using ih

theorem RetryLoop.attempts_getElem?
    (left : Nat) (s : RetryState R) (i : Nat) (attempted : Attempted R)
    (hattempted : (attempts (loop.run operation left s).events)[i]? = some attempted) :
    attempted.number = s.made + i := by
  have hnumber := congrArg (fun numbers => numbers[i]?) (loop.attempts_number operation left s)
  obtain ⟨hi, heq⟩ := List.getElem?_eq_some_iff.mp hattempted
  simpa [List.getElem?_range', hi, heq] using hnumber

theorem RetryLoop.number_of_last
    (left : Nat) (s : RetryState R) (attempted : Attempted R)
    (hlast : (attempts (loop.run operation left s).events).getLast? = some attempted) :
    attempted.number + 1 = s.made + (attempts (loop.run operation left s).events).length := by
  have hpos : 0 < (attempts (loop.run operation left s).events).length := by
    rw [List.length_pos_iff]
    intro hnil
    rw [hnil] at hlast
    cases hlast
  rw [List.getLast?_eq_getElem?] at hlast
  have hnumber := loop.attempts_getElem? operation left s _ attempted hlast
  omega

/-- An attempt was let through at the head and is the operation's at its number. -/
theorem RetryLoop.attempt_entered
    (left : Nat) (s : RetryState R) (attempted : Attempted R)
    (hattempted : .attempt attempted ∈ (loop.run operation left s).events) :
    ∃ at_head : RetryState R, loop.enter at_head = none ∧
      attempted = at_head.attempted operation := by
  revert hattempted
  refine loop.run_rule operation
    (P := fun _ _ run => .attempt attempted ∈ run.events →
      ∃ at_head : RetryState R, loop.enter at_head = none ∧
        attempted = at_head.attempted operation) ?_ ?_ ?_ ?_ left s
  · intro s h
    simp at h
  · intro left s ending _ h
    simp at h
  · intro left s ending henter _ h
    exact ⟨s, henter, by simpa using h⟩
  · intro left s delay later henter _ ih h
    rcases List.mem_cons.mp h with hfirst | hrest
    · exact ⟨s, henter, by simpa using hfirst⟩
    · exact ih (by simpa using hrest)

/-- What may follow what: a sleep an attempt that asks for it, an attempt a sleep. -/
def RetryLoop.Follows : RetryEvent R → RetryEvent R → Prop
  | .attempt attempted, .sleep started delay =>
      started = attempted.ended ∧ loop.settle attempted = .waits delay
  | .sleep started delay, .attempt attempted => attempted.started = started + delay
  | _, _ => False

/-- The events of a run follow one another, and the first is an attempt at the start. -/
theorem RetryLoop.events_follow
    (left : Nat) (s : RetryState R) :
    List.IsChain loop.Follows (loop.run operation left s).events ∧
      ∀ event ∈ (loop.run operation left s).events.head?,
        event = .attempt (s.attempted operation) := by
  refine loop.run_rule operation
    (P := fun _ s run => List.IsChain loop.Follows run.events ∧
      ∀ event ∈ run.events.head?, event = .attempt (s.attempted operation)) ?_ ?_ ?_ ?_ left s
  · intro s
    simp
  · intro left s ending _
    simp
  · intro left s ending _ _
    simp
  · intro left s delay later _ hsettle ih
    obtain ⟨hchain, hhead⟩ := ih
    refine ⟨?_, by simp⟩
    rw [List.isChain_cons_cons]
    refine ⟨⟨rfl, hsettle⟩, hchain.cons ?_⟩
    intro event hevent
    rw [hhead event hevent]
    rfl

/-- A sleep is what some attempt asked for, when that attempt was over. -/
theorem RetryLoop.sleep_settled
    (left : Nat) (s : RetryState R) (started delay : ℚ)
    (hsleep : .sleep started delay ∈ (loop.run operation left s).events) :
    ∃ attempted, .attempt attempted ∈ (loop.run operation left s).events ∧
      started = attempted.ended ∧ loop.settle attempted = .waits delay := by
  revert hsleep
  refine loop.run_rule operation
    (P := fun _ _ run => .sleep started delay ∈ run.events →
      ∃ attempted, .attempt attempted ∈ run.events ∧
        started = attempted.ended ∧ loop.settle attempted = .waits delay) ?_ ?_ ?_ ?_ left s
  · intro s h
    simp at h
  · intro left s ending _ h
    simp at h
  · intro left s ending _ _ h
    simp at h
  · intro left s delay' later _ hsettle ih h
    simp only [List.mem_cons, reduceCtorEq, false_or, RetryEvent.sleep.injEq] at h
    rcases h with ⟨rfl, rfl⟩ | hrest
    · exact ⟨_, List.mem_cons_self, rfl, hsettle⟩
    · obtain ⟨attempted, hmem, hspec⟩ := ih hrest
      exact ⟨attempted, by simp [hmem], hspec⟩

/-- Every attempt but one that ends the run asked for a sleep. -/
theorem RetryLoop.attempt_settled
    (left : Nat) (s : RetryState R) (attempted : Attempted R)
    (hattempted : .attempt attempted ∈ (loop.run operation left s).events) :
    (∃ delay, loop.settle attempted = .waits delay) ∨
      (loop.run operation left s).events.getLast? = some (.attempt attempted) := by
  revert hattempted
  refine loop.run_rule operation
    (P := fun _ _ run => .attempt attempted ∈ run.events →
      (∃ delay, loop.settle attempted = .waits delay) ∨
        run.events.getLast? = some (.attempt attempted)) ?_ ?_ ?_ ?_ left s
  · intro s h
    simp at h
  · intro left s ending _ h
    simp at h
  · intro left s ending _ _ h
    rw [List.mem_singleton.mp h]
    exact Or.inr rfl
  · intro left s delay later _ hsettle ih h
    simp only [List.mem_cons, reduceCtorEq, false_or, RetryEvent.attempt.injEq] at h
    rcases h with rfl | hrest
    · exact Or.inl ⟨delay, hsettle⟩
    · refine (ih hrest).imp_right fun hlast => ?_
      simp [List.getLast?_cons, hlast]

/-- How a run ends: after its last attempt, or at the head of the loop. -/
theorem RetryLoop.ending_cases
    (left : Nat) (s : RetryState R) :
    let run := loop.run operation left s
    (∃ attempted, run.events.getLast? = some (.attempt attempted) ∧
      loop.settle attempted = .ends run.ending) ∨
    ((∀ attempted, run.events.getLast? ≠ some (.attempt attempted)) ∧
      ((attempts run.events).length = left ∧
          run.ending = loop.spent (s.closing run.events).last ∨
        (attempts run.events).length < left ∧
          loop.enter (s.closing run.events) = some run.ending)) := by
  refine loop.run_rule operation
    (P := fun left s run =>
      (∃ attempted, run.events.getLast? = some (.attempt attempted) ∧
        loop.settle attempted = .ends run.ending) ∨
      ((∀ attempted, run.events.getLast? ≠ some (.attempt attempted)) ∧
        ((attempts run.events).length = left ∧
            run.ending = loop.spent (s.closing run.events).last ∨
          (attempts run.events).length < left ∧
            loop.enter (s.closing run.events) = some run.ending))) ?_ ?_ ?_ ?_ left s
  · intro s
    simp
  · intro left s ending henter
    exact Or.inr ⟨by simp, Or.inr ⟨by simp, henter⟩⟩
  · intro left s ending _ hsettle
    exact Or.inl ⟨_, rfl, hsettle⟩
  · intro left s delay later _ hsettle ih
    have hlast : ∀ attempted,
        (RetryEvent.attempt (s.attempted operation) ::
          .sleep (s.attempted operation).ended delay :: later.events).getLast? =
            some (.attempt attempted) ↔
        later.events.getLast? = some (.attempt attempted) := by
      intro attempted
      cases hevents : later.events with
      | nil => simp
      | cons event rest => simp [List.getLast?_cons_cons]
    simp only [hlast, ne_eq]
    simpa using ih

end Rule

end Loops

end Lib
end PrReviewer
