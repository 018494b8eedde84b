import Mathlib.Data.List.Basic
import Mathlib.Tactic

/-!
# Runs of a deterministic machine

A machine is a step function on states; the nondeterminism of its environment
is in the list of actions it is given.  This module fixes what it means for a
property to hold at every step of a run, in every state a run visits, and how
often a kind of step happened, and gives the rules by which a fact about one
step becomes a fact about a whole run.

A run may also carry a history: a value that is updated at every step and that
the machine itself does not read.
-/

namespace PrReviewer
namespace Lib

universe u v w

section Runs

variable {σ : Type u} {α : Type v}
variable (step : σ → α → σ)

/-- The state after a list of actions. -/
def exec (s : σ) (as : List α) : σ :=
  as.foldl step s

/-- `P` holds of every step of the run: of the state before it and its action. -/
def Along (P : σ → α → Prop) : σ → List α → Prop
  | _, [] => True
  | s, a :: as => P s a ∧ Along P (step s a) as

/-- `I` holds in every state the run visits, the first and the last included. -/
def Throughout (I : σ → Prop) : σ → List α → Prop
  | s, [] => I s
  | s, a :: as => I s ∧ Throughout I (step s a) as

/-- How many steps of the run satisfy `p`. -/
def countAlong (p : σ → α → Bool) : σ → List α → Nat
  | _, [] => 0
  | s, a :: as => (if p s a then 1 else 0) + countAlong p (step s a) as

instance Along.decidable
    {P : σ → α → Prop} [∀ s a, Decidable (P s a)] :
    ∀ s as, Decidable (Along step P s as)
  | _, [] => inferInstanceAs (Decidable True)
  | s, a :: as =>
      @instDecidableAnd _ _ (inferInstanceAs (Decidable (P s a)))
        (Along.decidable (step s a) as)

variable {step}

@[simp] theorem exec_nil
    (s : σ) :
    exec step s [] = s := by
  rfl

@[simp] theorem exec_cons
    (s : σ) (a : α) (as : List α) :
    exec step s (a :: as) = exec step (step s a) as := by
  rfl

theorem exec_append
    (s : σ) (as bs : List α) :
    exec step s (as ++ bs) = exec step (exec step s as) bs := by
  unfold exec
  rw [List.foldl_append]

theorem along_append
    {P : σ → α → Prop}
    (s : σ) (as bs : List α) :
    Along step P s (as ++ bs) ↔
      Along step P s as ∧ Along step P (exec step s as) bs := by
  induction as generalizing s with
  | nil =>
      simp [Along]
  | cons a as ih =>
      simp only [List.cons_append, Along, exec_cons, ih, and_assoc]

/-- `Along`, by the position of the step in the run. -/
theorem along_iff_split
    {P : σ → α → Prop}
    (s : σ) (as : List α) :
    Along step P s as ↔
      ∀ pre a post, as = pre ++ a :: post → P (exec step s pre) a := by
  constructor
  · intro h pre a post hsplit
    subst hsplit
    exact ((along_append s pre (a :: post)).mp h).2.1
  · intro h
    induction as generalizing s with
    | nil =>
        trivial
    | cons a as ih =>
        refine ⟨h [] a as rfl, ih (step s a) ?_⟩
        intro pre b post hsplit
        exact h (a :: pre) b post (by rw [hsplit]; rfl)

theorem throughout_first
    {I : σ → Prop}
    {s : σ} {as : List α}
    (h : Throughout step I s as) :
    I s := by
  cases as with
  | nil =>
      exact h
  | cons a as =>
      exact h.1

theorem Throughout.mono
    {I Q : σ → Prop}
    {s : σ} {as : List α}
    (h : Throughout step I s as)
    (hQ : ∀ s, I s → Q s) :
    Throughout step Q s as := by
  induction as generalizing s with
  | nil =>
      exact hQ s h
  | cons a as ih =>
      exact ⟨hQ s h.1, ih h.2⟩

/-- `Throughout`, by the prefix of the run that leads to the state. -/
theorem throughout_iff_split
    {I : σ → Prop}
    (s : σ) (as : List α) :
    Throughout step I s as ↔
      ∀ pre post, as = pre ++ post → I (exec step s pre) := by
  constructor
  · intro h pre
    induction pre generalizing s as with
    | nil =>
        intro post _
        exact throughout_first h
    | cons a pre ih =>
        intro post hsplit
        subst hsplit
        exact ih (step s a) (pre ++ post) h.2 post rfl
  · intro h
    induction as generalizing s with
    | nil =>
        exact h [] [] rfl
    | cons a as ih =>
        refine ⟨h [] (a :: as) rfl, ih (step s a) ?_⟩
        intro pre post hsplit
        exact h (a :: pre) post (by rw [hsplit]; rfl)

/-- An invariant of the steps that satisfy `P` holds after a run of such steps. -/
theorem exec_invariant
    {P : σ → α → Prop} {I : σ → Prop}
    (hstep : ∀ s a, I s → P s a → I (step s a))
    {s : σ} {as : List α}
    (hP : Along step P s as)
    (hI : I s) :
    I (exec step s as) := by
  induction as generalizing s with
  | nil =>
      exact hI
  | cons a as ih =>
      exact ih hP.2 (hstep s a hI hP.1)

/-- The same rule, for every state on the way. -/
theorem throughout_invariant
    {P : σ → α → Prop} {I : σ → Prop}
    (hstep : ∀ s a, I s → P s a → I (step s a))
    {s : σ} {as : List α}
    (hP : Along step P s as)
    (hI : I s) :
    Throughout step I s as := by
  induction as generalizing s with
  | nil =>
      exact hI
  | cons a as ih =>
      exact ⟨hI, ih hP.2 (hstep s a hI hP.1)⟩

/-- What the invariant gives for one step holds along a run of steps that keep it. -/
theorem along_invariant
    {P Q : σ → α → Prop} {I : σ → Prop}
    (hstep : ∀ s a, I s → P s a → I (step s a))
    (hQ : ∀ s a, I s → P s a → Q s a)
    {s : σ} {as : List α}
    (hP : Along step P s as)
    (hI : I s) :
    Along step Q s as := by
  induction as generalizing s with
  | nil =>
      trivial
  | cons a as ih =>
      exact ⟨hQ s a hI hP.1, ih hP.2 (hstep s a hI hP.1)⟩

/--
When the steps that keep the property are exactly those that satisfy `P`, it holds
throughout the runs made of such steps and of no others.  The steps are compared in the
states of an invariant `J` that every step keeps.
-/
theorem throughout_iff_along_under
    {P : σ → α → Prop} {I J : σ → Prop}
    (hinv : ∀ s a, J s → J (step s a))
    (hstep : ∀ s a, J s → I s → (I (step s a) ↔ P s a))
    {s : σ}
    (as : List α)
    (hJ : J s)
    (hI : I s) :
    Throughout step I s as ↔ Along step P s as := by
  induction as generalizing s with
  | nil =>
      exact ⟨fun _ => trivial, fun _ => hI⟩
  | cons a as ih =>
      constructor
      · rintro ⟨_, h⟩
        have hnext := throughout_first h
        exact ⟨(hstep s a hJ hI).mp hnext, (ih (hinv s a hJ) hnext).mp h⟩
      · rintro ⟨hP, h⟩
        have hnext := (hstep s a hJ hI).mpr hP
        exact ⟨hI, (ih (hinv s a hJ) hnext).mpr h⟩

theorem throughout_iff_along
    {P : σ → α → Prop} {I : σ → Prop}
    (hstep : ∀ s a, I s → (I (step s a) ↔ P s a))
    {s : σ}
    (as : List α)
    (hI : I s) :
    Throughout step I s as ↔ Along step P s as :=
  throughout_iff_along_under (J := fun _ => True)
    (fun _ _ _ => trivial) (fun s a _ => hstep s a) as trivial hI

/-- An invariant of every step holds after every run. -/
theorem exec_preserves
    {I : σ → Prop}
    (hstep : ∀ s a, I s → I (step s a))
    {s : σ}
    (as : List α)
    (hI : I s) :
    I (exec step s as) := by
  induction as generalizing s with
  | nil =>
      exact hI
  | cons a as ih =>
      exact ih (hstep s a hI)

/-- What no step changes no run changes. -/
theorem exec_same
    {β : Type w} (part : σ → β)
    (hstep : ∀ s a, part (step s a) = part s)
    (as : List α) (s : σ) :
    part (exec step s as) = part s := by
  induction as generalizing s with
  | nil =>
      rfl
  | cons a as ih =>
      rw [exec_cons, ih, hstep]

/-- When every step deletes some rows of a list, a run deletes what one of its steps does. -/
theorem exec_filter
    {ρ : Type w} (rows : σ → List ρ) (p : α → ρ → Bool)
    (hstep : ∀ s a, rows (step s a) = (rows s).filter (fun row => !p a row))
    (as : List α) (s : σ) :
    rows (exec step s as) = (rows s).filter (fun row => !as.any (fun a => p a row)) := by
  induction as generalizing s with
  | nil =>
      simp
  | cons a as ih =>
      rw [exec_cons, ih, hstep, List.filter_filter]
      apply List.filter_congr
      intro row _
      simp [Bool.and_comm]

/-- What an invariant of every step gives holds in every state of every run. -/
theorem throughout_of_preserves
    {I Q : σ → Prop}
    (hstep : ∀ s a, I s → I (step s a))
    (hQ : ∀ s, I s → Q s)
    {s : σ}
    (as : List α)
    (hI : I s) :
    Throughout step Q s as := by
  induction as generalizing s with
  | nil =>
      exact hQ s hI
  | cons a as ih =>
      exact ⟨hQ s hI, ih (hstep s a hI)⟩

/-- What holds of every step holds along every run. -/
theorem along_of_forall
    {P : σ → α → Prop}
    (h : ∀ s a, P s a)
    (s : σ) (as : List α) :
    Along step P s as := by
  induction as generalizing s with
  | nil =>
      trivial
  | cons a as ih =>
      exact ⟨h s a, ih (step s a)⟩

/-- What holds of every action holds along the run. -/
theorem along_of_mem
    {Q : α → Prop} {as : List α}
    (h : ∀ a ∈ as, Q a)
    (s : σ) :
    Along step (fun _ a => Q a) s as := by
  induction as generalizing s with
  | nil =>
      trivial
  | cons a as ih =>
      exact ⟨h a (by simp), ih (fun b hb => h b (List.mem_cons_of_mem a hb)) (step s a)⟩

section Draws

variable {δ : Type w}

/--
A machine whose actions draw values: an invariant that is kept as long as the drawn value
is unused holds throughout every run that draws no value twice.
-/
theorem throughout_of_fresh
    {I : σ → Prop}
    (draw : α → Option δ) (used : σ → δ → Prop)
    (hstep : ∀ s a, I s → (∀ d, draw a = some d → ¬ used s d) → I (step s a))
    (hused : ∀ s a d, used (step s a) d → used s d ∨ draw a = some d)
    {s : σ}
    (as : List α)
    (hnodup : (as.filterMap draw).Nodup)
    (hunused : ∀ d ∈ as.filterMap draw, ¬ used s d)
    (hI : I s) :
    Throughout step I s as := by
  induction as generalizing s with
  | nil =>
      exact hI
  | cons a as ih =>
      have hrest : (as.filterMap draw).Sublist ((a :: as).filterMap draw) :=
        (List.sublist_cons_self a as).filterMap draw
      have hfresh : ∀ d, draw a = some d → ¬ used s d := by
        intro d hd
        exact hunused d (List.mem_filterMap.mpr ⟨a, by simp, hd⟩)
      refine ⟨hI, ih (hrest.nodup hnodup) ?_ (hstep s a hI hfresh)⟩
      intro d hd hafter
      rcases hused s a d hafter with hbefore | hdrawn
      · exact hunused d (hrest.subset hd) hbefore
      · rw [List.filterMap_cons, hdrawn] at hnodup
        exact (List.nodup_cons.mp hnodup).1 hd

end Draws

end Runs

section History

variable {σ : Type u} {α : Type v} {γ : Type w}

/-- The machine that also keeps a history, updated from the state before each step. -/
def withHistory
    (step : σ → α → σ)
    (note : γ → σ → α → γ) :
    σ × γ → α → σ × γ :=
  fun x a => (step x.1 a, note x.2 x.1 a)

/-- The history does not influence the run. -/
theorem exec_withHistory_fst
    (step : σ → α → σ)
    (note : γ → σ → α → γ)
    (x : σ × γ)
    (as : List α) :
    (exec (withHistory step note) x as).1 = exec step x.1 as := by
  induction as generalizing x with
  | nil =>
      rfl
  | cons a as ih =>
      rw [exec_cons, ih]
      rfl

end History

end Lib
end PrReviewer
