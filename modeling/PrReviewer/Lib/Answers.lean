import Mathlib.Data.List.Basic
import Mathlib.Tactic

/-!
# Machines that answer

A machine takes a request in a state, answers it and goes to a new state.  Two machines give the
same answers to a list of requests when a relation between their states is kept by every request
and makes them answer alike.
-/

namespace PrReviewer
namespace Lib

universe u v w x

section Answers

variable {σ : Type u} {τ : Type v} {α : Type w} {β : Type x}

/-- The answers to a list of requests. -/
def answersFrom (step : σ → α → β × σ) : σ → List α → List β
  | _, [] => []
  | s, a :: as => (step s a).1 :: answersFrom step (step s a).2 as

variable {step : σ → α → β × σ} {step' : τ → α → β × τ}

@[simp] theorem answersFrom_nil
    (s : σ) :
    answersFrom step s [] = [] := by
  rfl

@[simp] theorem answersFrom_cons
    (s : σ) (a : α) (as : List α) :
    answersFrom step s (a :: as) = (step s a).1 :: answersFrom step (step s a).2 as := by
  rfl

/-- The rule of simulation. -/
theorem answersFrom_eq
    {R : σ → τ → Prop} {P : α → Prop}
    (hstep : ∀ s t a, P a → R s t →
      (step s a).1 = (step' t a).1 ∧ R (step s a).2 (step' t a).2)
    {s : σ} {t : τ} (hR : R s t)
    {as : List α} (hP : ∀ a ∈ as, P a) :
    answersFrom step s as = answersFrom step' t as := by
  induction as generalizing s t with
  | nil => rfl
  | cons a as ih =>
      obtain ⟨hanswer, hnext⟩ := hstep s t a (hP a (List.mem_cons_self ..)) hR
      rw [answersFrom_cons, answersFrom_cons, hanswer,
        ih hnext (fun b hb => hP b (List.mem_cons_of_mem a hb))]

end Answers

end Lib
end PrReviewer
