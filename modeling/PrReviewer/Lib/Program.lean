import Mathlib.Data.List.Basic
import Mathlib.Tactic

/-!
# Programs that call operations and may raise

A program is a tree: it returns, it raises, or it calls an operation and goes on
with the answer.  A handler says how a state answers each operation.  The run of
a program against a handler gives its outcome and the final state; its steps are
the calls it made, each with the state before it; and a run can be cut after any
number of calls, which is what a kill of the process does.

`Safe` is the rule of pre- and postconditions for such programs.  It is an
assume-guarantee judgement: each call satisfies the guarantee as long as the
earlier ones satisfied the assumption, and the returned and raised outcomes
satisfy their postconditions when all of them did.
-/

namespace PrReviewer
namespace Lib

/-- A program over the operations `Op`, answered in `Res`, raising values of `ε`. -/
inductive Program {Op : Type} (Res : Op → Type) (ε : Type) (α : Type) : Type where
  | ret (a : α) : Program Res ε α
  | raise (e : ε) : Program Res ε α
  | call (op : Op) (next : Res op → Program Res ε α) : Program Res ε α

namespace Program

variable {Op : Type} {Res : Op → Type} {ε α β σ : Type}

/-- Sequencing: the second program starts with what the first returned. -/
def bind (p : Program Res ε α) (f : α → Program Res ε β) : Program Res ε β :=
  match p with
  | ret a => f a
  | raise e => raise e
  | call op next => call op (fun r => (next r).bind f)

instance : Monad (Program Res ε) where
  pure := ret
  bind := bind

@[simp] theorem pure_eq
    (a : α) :
    (pure a : Program Res ε α) = ret a := by
  rfl

@[simp] theorem bind_eq
    (p : Program Res ε α) (f : α → Program Res ε β) :
    (p >>= f) = p.bind f := by
  rfl

/-- `try … except`: a raised value is given to the handler, which may raise it again. -/
def catching (p : Program Res ε α) (handle : ε → Program Res ε α) : Program Res ε α :=
  match p with
  | ret a => ret a
  | raise e => handle e
  | call op next => call op (fun r => (next r).catching handle)

/-- `try … finally`: the cleanup runs whatever happened, and what it raises goes first. -/
def ensuring (p : Program Res ε α) (cleanup : Program Res ε Unit) : Program Res ε α :=
  match p with
  | ret a => cleanup.bind (fun _ => ret a)
  | raise e => cleanup.bind (fun _ => raise e)
  | call op next => call op (fun r => (next r).ensuring cleanup)

/-- One call. -/
def perform (op : Op) : Program Res ε (Res op) :=
  call op ret

/-- A computed value or error as a program. -/
def ofExcept : Except ε α → Program Res ε α
  | .ok a => ret a
  | .error e => raise e

/-- `for x in xs: body(x)`. -/
def forEach (xs : List β) (body : β → Program Res ε Unit) : Program Res ε Unit :=
  match xs with
  | [] => ret ()
  | x :: rest => (body x).bind (fun _ => forEach rest body)

/-- Every value the program can ever return satisfies `P`. -/
def Returns (P : α → Prop) : Program Res ε α → Prop
  | ret a => P a
  | raise _ => True
  | call _ next => ∀ r, Returns P (next r)

/-- Every operation the program can ever call satisfies `P`. -/
def Only (P : Op → Prop) : Program Res ε α → Prop
  | ret _ => True
  | raise _ => True
  | call op next => P op ∧ ∀ r, Only P (next r)

section Semantics

variable (answer : (op : Op) → σ → Res op × σ)

/-- The outcome of a program and the state it ends in. -/
def run : Program Res ε α → σ → Except ε α × σ
  | ret a, s => (.ok a, s)
  | raise e, s => (.error e, s)
  | call op next, s => run (next (answer op s).1) (answer op s).2

/-- The calls of a program, each with the state before it. -/
def steps : Program Res ε α → σ → List (σ × Op)
  | ret _, _ => []
  | raise _, _ => []
  | call op next, s => (s, op) :: steps (next (answer op s).1) (answer op s).2

/-- The state a program leaves when it is killed after `n` calls. -/
def killed : Nat → Program Res ε α → σ → σ
  | 0, _, s => s
  | _ + 1, ret _, s => s
  | _ + 1, raise _, s => s
  | n + 1, call op next, s => killed n (next (answer op s).1) (answer op s).2

variable (assumed guaranteed : σ → Op → Prop)

/-- The assume-guarantee judgement, with a postcondition for each way to end. -/
def Safe : Program Res ε α → (α → σ → Prop) → (ε → σ → Prop) → σ → Prop
  | ret a, Q, _, s => Q a s
  | raise e, _, E, s => E e s
  | call op next, Q, E, s =>
      guaranteed s op ∧
        (assumed s op → Safe (next (answer op s).1) Q E (answer op s).2)

end Semantics

theorem bind_assoc
    {γ : Type} (p : Program Res ε α) (f : α → Program Res ε β) (g : β → Program Res ε γ) :
    (p.bind f).bind g = p.bind (fun a => (f a).bind g) := by
  induction p with
  | ret a =>
      rfl
  | raise e =>
      rfl
  | call op next ih =>
      simp only [bind, ih]

section ReturnsRules

variable {P : α → Prop}

theorem returns_bind
    {P' : β → Prop} {p : Program Res ε α} {f : α → Program Res ε β}
    (hp : Returns P p)
    (hf : ∀ a, P a → Returns P' (f a)) :
    Returns P' (p.bind f) := by
  induction p with
  | ret a =>
      exact hf a hp
  | raise e =>
      trivial
  | call op next ih =>
      intro r
      exact ih r (hp r)

theorem returns_true
    (p : Program Res ε α) :
    Returns (fun _ => True) p := by
  induction p with
  | ret a =>
      trivial
  | raise e =>
      trivial
  | call op next ih =>
      exact ih

/-- A program goes on with the values it can return only. -/
theorem bind_congr_of_returns
    {p : Program Res ε α} {f g : α → Program Res ε β}
    (hp : Returns P p)
    (h : ∀ a, P a → f a = g a) :
    p.bind f = p.bind g := by
  induction p with
  | ret a =>
      exact h a hp
  | raise e =>
      rfl
  | call op next ih =>
      simp only [bind]
      congr 1
      funext r
      exact ih r (hp r)

end ReturnsRules

section OnlyRules

variable {P : Op → Prop}

theorem only_perform
    {op : Op}
    (h : P op) :
    Only P (perform op : Program Res ε (Res op)) :=
  ⟨h, fun _ => trivial⟩

theorem only_ofExcept
    (x : Except ε α) :
    Only P (ofExcept x : Program Res ε α) := by
  cases x with
  | ok a => trivial
  | error e => trivial

theorem Only.mono
    {P' : Op → Prop} {p : Program Res ε α}
    (h : Only P p)
    (hop : ∀ op, P op → P' op) :
    Only P' p := by
  induction p with
  | ret a =>
      trivial
  | raise e =>
      trivial
  | call op next ih =>
      exact ⟨hop op h.1, fun r => ih r (h.2 r)⟩

theorem only_bind
    {p : Program Res ε α} {f : α → Program Res ε β}
    (hp : Only P p)
    (hf : ∀ a, Only P (f a)) :
    Only P (p.bind f) := by
  induction p with
  | ret a =>
      exact hf a
  | raise e =>
      trivial
  | call op next ih =>
      exact ⟨hp.1, fun r => ih r (hp.2 r)⟩

theorem only_catching
    {p : Program Res ε α} {handle : ε → Program Res ε α}
    (hp : Only P p)
    (hhandle : ∀ e, Only P (handle e)) :
    Only P (p.catching handle) := by
  induction p with
  | ret a =>
      trivial
  | raise e =>
      exact hhandle e
  | call op next ih =>
      exact ⟨hp.1, fun r => ih r (hp.2 r)⟩

theorem only_forEach
    {xs : List β} {body : β → Program Res ε Unit}
    (hbody : ∀ x ∈ xs, Only P (body x)) :
    Only P (forEach xs body) := by
  induction xs with
  | nil =>
      trivial
  | cons x rest ih =>
      have hrest := ih (fun y hy => hbody y (List.mem_cons_of_mem x hy))
      exact only_bind (hbody x (by simp)) (fun _ => hrest)

end OnlyRules

variable {answer : (op : Op) → σ → Res op × σ}

@[simp] theorem run_raise
    (e : ε) (s : σ) :
    run answer (raise e : Program Res ε α) s = (.error e, s) := by
  rfl

@[simp] theorem run_perform
    (op : Op) (s : σ) :
    run answer (perform op : Program Res ε (Res op)) s =
      (.ok (answer op s).1, (answer op s).2) := by
  rfl

theorem run_bind
    (p : Program Res ε α) (f : α → Program Res ε β) (s : σ) :
    run answer (p.bind f) s =
      match run answer p s with
      | (.ok a, s') => run answer (f a) s'
      | (.error e, s') => (.error e, s') := by
  induction p generalizing s with
  | ret a =>
      rfl
  | raise e =>
      rfl
  | call op next ih =>
      exact ih (answer op s).1 (answer op s).2

theorem run_catching
    (p : Program Res ε α) (handle : ε → Program Res ε α) (s : σ) :
    run answer (p.catching handle) s =
      match run answer p s with
      | (.ok a, s') => (.ok a, s')
      | (.error e, s') => run answer (handle e) s' := by
  induction p generalizing s with
  | ret a =>
      rfl
  | raise e =>
      rfl
  | call op next ih =>
      exact ih (answer op s).1 (answer op s).2

theorem run_ensuring
    (p : Program Res ε α) (cleanup : Program Res ε Unit) (s : σ) :
    run answer (p.ensuring cleanup) s =
      match run answer cleanup (run answer p s).2 with
      | (.ok _, s') => ((run answer p s).1, s')
      | (.error e, s') => (.error e, s') := by
  induction p generalizing s with
  | ret a =>
      simp only [ensuring, run_bind, run]
      cases run answer cleanup s with
      | mk outcome s' => cases outcome <;> rfl
  | raise e =>
      simp only [ensuring, run_bind, run]
      cases run answer cleanup s with
      | mk outcome s' => cases outcome <;> rfl
  | call op next ih =>
      exact ih (answer op s).1 (answer op s).2

/-- The state a `finally` leaves is the one its cleanup leaves. -/
theorem run_ensuring_state
    (p : Program Res ε α) (cleanup : Program Res ε Unit) (s : σ) :
    (run answer (p.ensuring cleanup) s).2 = (run answer cleanup (run answer p s).2).2 := by
  rw [run_ensuring]
  cases run answer cleanup (run answer p s).2 with
  | mk outcome s' => cases outcome <;> rfl

theorem steps_bind
    (p : Program Res ε α) (f : α → Program Res ε β) (s : σ) :
    steps answer (p.bind f) s =
      steps answer p s ++
        match run answer p s with
        | (.ok a, s') => steps answer (f a) s'
        | (.error _, _) => [] := by
  induction p generalizing s with
  | ret a =>
      rfl
  | raise e =>
      rfl
  | call op next ih =>
      simp only [bind, steps, List.cons_append, run]
      rw [ih]

/-- What a run returns is among the values the program can return. -/
theorem Returns.of_ok
    {P : α → Prop} {p : Program Res ε α} {s : σ} {a : α}
    (h : Returns P p)
    (hrun : (run answer p s).1 = .ok a) :
    P a := by
  induction p generalizing s with
  | ret b =>
      cases hrun
      exact h
  | raise e =>
      cases hrun
  | call op next ih =>
      exact ih (answer op s).1 (h _) hrun

/-- A run of operations that all keep an invariant keeps it. -/
theorem Only.run
    {P : Op → Prop} {p : Program Res ε α} {I : σ → Prop} {s : σ}
    (h : Only P p)
    (hop : ∀ s' op, P op → I s' → I (answer op s').2)
    (hI : I s) :
    I (Program.run answer p s).2 := by
  induction p generalizing s with
  | ret a =>
      exact hI
  | raise e =>
      exact hI
  | call op next ih =>
      exact ih _ (h.2 _) (hop s op h.1 hI)

/-- A program makes no other calls than those it can make. -/
theorem Only.steps
    {P : Op → Prop} {p : Program Res ε α}
    (h : Only P p)
    (s : σ) {x : σ × Op} (hx : x ∈ Program.steps answer p s) :
    P x.2 := by
  induction p generalizing s with
  | ret a =>
      cases hx
  | raise e =>
      cases hx
  | call op next ih =>
      rcases List.mem_cons.mp hx with rfl | hrest
      · exact h.1
      · exact ih _ (h.2 _) _ hrest

/-- A loop that returns went through its body at every element. -/
theorem steps_forEach_of_ok
    {xs : List β} {body : β → Program Res ε Unit} {s : σ}
    (h : (run answer (forEach xs body) s).1.isOk = true)
    {x : β} (hx : x ∈ xs) :
    ∃ s', ∀ y ∈ steps answer (body x) s', y ∈ steps answer (forEach xs body) s := by
  induction xs generalizing s with
  | nil => cases hx
  | cons first rest ih =>
      rw [forEach, run_bind] at h
      rw [forEach, steps_bind]
      cases hfirst : run answer (body first) s with
      | mk outcome s₁ =>
          rw [hfirst] at h
          cases outcome with
          | error e => cases h
          | ok _ =>
              rcases List.mem_cons.mp hx with rfl | hrest
              · exact ⟨s, fun y hy => List.mem_append_left _ hy⟩
              · obtain ⟨s', hs'⟩ := ih h hrest
                exact ⟨s', fun y hy => List.mem_append_right _ (hs' y hy)⟩

section Rules

variable {assumed guaranteed : σ → Op → Prop}

@[simp] theorem safe_ret
    {a : α} {Q : α → σ → Prop} {E : ε → σ → Prop} {s : σ} :
    Safe answer assumed guaranteed (ret a : Program Res ε α) Q E s ↔ Q a s := by
  rfl

@[simp] theorem safe_ofExcept
    {x : Except ε α} {Q : α → σ → Prop} {E : ε → σ → Prop} {s : σ} :
    Safe answer assumed guaranteed (ofExcept x : Program Res ε α) Q E s ↔
      match x with
      | .ok a => Q a s
      | .error e => E e s := by
  cases x with
  | ok a => rfl
  | error e => rfl

theorem safe_bind
    {p : Program Res ε α} {f : α → Program Res ε β}
    {Q : β → σ → Prop} {E : ε → σ → Prop} {s : σ} :
    Safe answer assumed guaranteed (p.bind f) Q E s ↔
      Safe answer assumed guaranteed p
        (fun a s' => Safe answer assumed guaranteed (f a) Q E s') E s := by
  induction p generalizing s with
  | ret a =>
      rfl
  | raise e =>
      rfl
  | call op next ih =>
      simp only [bind, Safe, ih]

theorem safe_catching
    {p : Program Res ε α} {handle : ε → Program Res ε α}
    {Q : α → σ → Prop} {E : ε → σ → Prop} {s : σ} :
    Safe answer assumed guaranteed (p.catching handle) Q E s ↔
      Safe answer assumed guaranteed p Q
        (fun e s' => Safe answer assumed guaranteed (handle e) Q E s') s := by
  induction p generalizing s with
  | ret a =>
      rfl
  | raise e =>
      rfl
  | call op next ih =>
      simp only [catching, Safe, ih]

/-- The rule of consequence. -/
theorem Safe.mono
    {p : Program Res ε α} {Q Q' : α → σ → Prop} {E E' : ε → σ → Prop} {s : σ}
    (h : Safe answer assumed guaranteed p Q E s)
    (hQ : ∀ a s', Q a s' → Q' a s')
    (hE : ∀ e s', E e s' → E' e s') :
    Safe answer assumed guaranteed p Q' E' s := by
  induction p generalizing s with
  | ret a =>
      exact hQ a s h
  | raise e =>
      exact hE e s h
  | call op next ih =>
      refine ⟨h.1, ?_⟩
      intro hassumed
      exact ih _ (h.2 hassumed)

/-- A `try` block that turns the caught values into one answer and raises the others again. -/
theorem safe_catching_if
    {p : Program Res ε α} {f : α → β} {b : β} {caught : ε → Prop} [DecidablePred caught]
    {Q : β → σ → Prop} {E : ε → σ → Prop} {s : σ} :
    Safe answer assumed guaranteed
        ((p.bind (fun a => ret (f a))).catching
          (fun e => if caught e then ret b else raise e)) Q E s ↔
      Safe answer assumed guaranteed p (fun a s' => Q (f a) s')
        (fun e s' => if caught e then Q b s' else E e s') s := by
  have hhandler :
      ∀ e s', Safe answer assumed guaranteed
          (if caught e then ret b else raise e : Program Res ε β) Q E s' ↔
        if caught e then Q b s' else E e s' := by
    intro e s'
    by_cases he : caught e
    · rw [if_pos he, if_pos he, safe_ret]
    · rw [if_neg he, if_neg he]
      rfl
  rw [safe_catching, safe_bind]
  constructor
  · intro h
    exact h.mono (fun _ _ hQ => hQ) (fun e s' hE => (hhandler e s').mp hE)
  · intro h
    exact h.mono (fun _ _ hQ => hQ) (fun e s' hE => (hhandler e s').mpr hE)

/-- What every operation keeps, every program keeps. -/
theorem safe_of_invariant
    {I : σ → Prop}
    (hop : ∀ s op, I s → assumed s op → I (answer op s).2)
    (p : Program Res ε α) {s : σ}
    (hI : I s) :
    Safe answer assumed (fun _ _ => True) p (fun _ => I) (fun _ => I) s := by
  induction p generalizing s with
  | ret a =>
      exact hI
  | raise e =>
      exact hI
  | call op next ih =>
      exact ⟨trivial, fun hassumed => ih _ (hop s op hI hassumed)⟩

/-- Two judgements about one program, joined. -/
theorem Safe.and
    {guaranteed' : σ → Op → Prop}
    {p : Program Res ε α} {Q Q' : α → σ → Prop} {E E' : ε → σ → Prop} {s : σ}
    (h : Safe answer assumed guaranteed p Q E s)
    (h' : Safe answer assumed guaranteed' p Q' E' s) :
    Safe answer assumed guaranteed p (fun a s' => Q a s' ∧ Q' a s')
      (fun e s' => E e s' ∧ E' e s') s := by
  induction p generalizing s with
  | ret a =>
      exact ⟨h, h'⟩
  | raise e =>
      exact ⟨h, h'⟩
  | call op next ih =>
      exact ⟨h.1, fun hassumed => ih _ (h.2 hassumed) (h'.2 hassumed)⟩

/-- The frame rule: what every guaranteed call keeps can be carried along. -/
theorem Safe.frame
    {p : Program Res ε α} {Q : α → σ → Prop} {E : ε → σ → Prop} {F : σ → Prop} {s : σ}
    (h : Safe answer assumed guaranteed p Q E s)
    (hop : ∀ s op, F s → guaranteed s op → assumed s op → F (answer op s).2)
    (hF : F s) :
    Safe answer assumed guaranteed p (fun a s' => Q a s' ∧ F s')
      (fun e s' => E e s' ∧ F s') s := by
  induction p generalizing s with
  | ret a =>
      exact ⟨h, hF⟩
  | raise e =>
      exact ⟨h, hF⟩
  | call op next ih =>
      exact ⟨h.1, fun hassumed => ih _ (h.2 hassumed) (hop s op hF h.1 hassumed)⟩

/-- A program of operations that all keep an invariant and are guaranteed under it. -/
theorem Only.safe
    {P : Op → Prop} {p : Program Res ε α} {I : σ → Prop} {s : σ}
    (h : Only P p)
    (hop : ∀ s' op, P op → I s' →
      guaranteed s' op ∧ (assumed s' op → I (answer op s').2))
    (hI : I s) :
    Safe answer assumed guaranteed p (fun _ => I) (fun _ => I) s := by
  induction p generalizing s with
  | ret a =>
      exact hI
  | raise e =>
      exact hI
  | call op next ih =>
      obtain ⟨hguaranteed, hkeeps⟩ := hop s op h.1 hI
      exact ⟨hguaranteed, fun hassumed => ih _ (h.2 _) (hkeeps hassumed)⟩

/-- The rule of the loop, with an invariant that depends on the elements still to come. -/
theorem safe_forEach_rest
    {xs : List β} {body : β → Program Res ε Unit} {I : List β → σ → Prop}
    {E : ε → σ → Prop} {s : σ}
    (hbody : ∀ x rest s', I (x :: rest) s' →
      Safe answer assumed guaranteed (body x) (fun _ => I rest) E s')
    (hI : I xs s) :
    Safe answer assumed guaranteed (forEach xs body) (fun _ => I []) E s := by
  induction xs generalizing s with
  | nil =>
      exact hI
  | cons x rest ih =>
      rw [forEach, safe_bind]
      refine (hbody x rest s hI).mono ?_ (fun _ _ h => h)
      intro _ s' hs'
      exact ih hs'

/-- The rule of the loop: the invariant is kept by the body at every element. -/
theorem safe_forEach
    {xs : List β} {body : β → Program Res ε Unit} {I : σ → Prop} {E : ε → σ → Prop} {s : σ}
    (hbody : ∀ x ∈ xs, ∀ s', I s' →
      Safe answer assumed guaranteed (body x) (fun _ => I) E s')
    (hI : I s) :
    Safe answer assumed guaranteed (forEach xs body) (fun _ => I) E s := by
  refine Safe.mono
    (safe_forEach_rest (I := fun rest s' => (∀ x ∈ rest, x ∈ xs) ∧ I s') ?_
      ⟨fun _ hx => hx, hI⟩)
    (fun _ _ h => h.2) (fun _ _ h => h)
  intro x rest s' hs'
  refine (hbody x (hs'.1 x (by simp)) s' hs'.2).mono ?_ (fun _ _ h => h)
  intro _ s'' hs''
  exact ⟨fun y hy => hs'.1 y (List.mem_cons_of_mem x hy), hs''⟩

/-- Every call is guaranteed as long as the earlier ones met the assumption. -/
theorem Safe.guaranteed_at
    {p : Program Res ε α} {Q : α → σ → Prop} {E : ε → σ → Prop} {s : σ}
    (h : Safe answer assumed guaranteed p Q E s)
    {before : List (σ × Op)} {x : σ × Op} {after : List (σ × Op)}
    (hsteps : steps answer p s = before ++ x :: after)
    (hassumed : ∀ y ∈ before, assumed y.1 y.2) :
    guaranteed x.1 x.2 := by
  induction p generalizing s before with
  | ret a =>
      cases before with
      | nil => cases hsteps
      | cons y before => cases hsteps
  | raise e =>
      cases before with
      | nil => cases hsteps
      | cons y before => cases hsteps
  | call op next ih =>
      cases before with
      | nil =>
          cases hsteps
          exact h.1
      | cons y before =>
          obtain ⟨rfl, hrest⟩ := List.cons.inj hsteps
          have hfirst := hassumed (s, op) (by simp)
          exact ih _ (h.2 hfirst) hrest (fun z hz => hassumed z (by simp [hz]))

/-- The same, for one of the calls. -/
theorem Safe.guaranteed_of_mem
    {p : Program Res ε α} {Q : α → σ → Prop} {E : ε → σ → Prop} {s : σ}
    (h : Safe answer (fun _ _ => True) guaranteed p Q E s)
    {x : σ × Op} (hx : x ∈ steps answer p s) :
    guaranteed x.1 x.2 := by
  obtain ⟨before, after, hsteps⟩ := List.append_of_mem hx
  exact h.guaranteed_at hsteps (fun _ _ => trivial)

/-- The postconditions hold when every call met the assumption. -/
theorem Safe.outcome
    {p : Program Res ε α} {Q : α → σ → Prop} {E : ε → σ → Prop} {s : σ}
    (h : Safe answer assumed guaranteed p Q E s)
    (hassumed : ∀ y ∈ steps answer p s, assumed y.1 y.2) :
    match run answer p s with
    | (.ok a, s') => Q a s'
    | (.error e, s') => E e s' := by
  induction p generalizing s with
  | ret a =>
      exact h
  | raise e =>
      exact h
  | call op next ih =>
      have hfirst := hassumed (s, op) (by simp [steps])
      exact ih _ (h.2 hfirst) (fun y hy => hassumed y (by simp [steps, hy]))

theorem Safe.of_ok
    {p : Program Res ε α} {Q : α → σ → Prop} {E : ε → σ → Prop} {s : σ} {a : α}
    (h : Safe answer assumed guaranteed p Q E s)
    (hassumed : ∀ y ∈ steps answer p s, assumed y.1 y.2)
    (hok : (run answer p s).1 = .ok a) :
    Q a (run answer p s).2 := by
  have hpost := h.outcome hassumed
  cases hrun : run answer p s with
  | mk outcome s' =>
      rw [hrun] at hpost hok
      cases hok
      exact hpost

/--
What holds before every call and at every end holds wherever the program is
killed.
-/
theorem Safe.killed_of
    {p : Program Res ε α} {Q : α → σ → Prop} {E : ε → σ → Prop} {I : σ → Prop} {s : σ}
    (h : Safe answer assumed guaranteed p Q E s)
    (n : Nat)
    (hassumed : ∀ y ∈ (steps answer p s).take n, assumed y.1 y.2)
    (hguaranteed : ∀ s' op, guaranteed s' op → I s')
    (hQ : ∀ a s', Q a s' → I s')
    (hE : ∀ e s', E e s' → I s') :
    I (killed answer n p s) := by
  induction p generalizing s n with
  | ret a =>
      cases n with
      | zero => exact hQ a s h
      | succ n => exact hQ a s h
  | raise e =>
      cases n with
      | zero => exact hE e s h
      | succ n => exact hE e s h
  | call op next ih =>
      cases n with
      | zero =>
          exact hguaranteed s op h.1
      | succ n =>
          have hfirst := hassumed (s, op) (by simp [steps])
          exact ih _ (h.2 hfirst) n (fun y hy => hassumed y (by simp [steps, hy]))

end Rules

/-! ## Facts about the calls made so far -/

section Histories

variable {assumed : σ → Op → Prop} {R : List (σ × Op) → σ → Prop}

/-- A relation between the past and the state that every call keeps holds at every call. -/
theorem history_at
    (hop : ∀ past s op, R past s → assumed s op → R (past ++ [(s, op)]) (answer op s).2)
    {p : Program Res ε α} {s : σ} {past : List (σ × Op)}
    (hR : R past s)
    {before : List (σ × Op)} {x : σ × Op} {after : List (σ × Op)}
    (hsteps : steps answer p s = before ++ x :: after)
    (hassumed : ∀ y ∈ before, assumed y.1 y.2) :
    R (past ++ before) x.1 := by
  induction p generalizing s past before with
  | ret a =>
      cases before with
      | nil => cases hsteps
      | cons y before => cases hsteps
  | raise e =>
      cases before with
      | nil => cases hsteps
      | cons y before => cases hsteps
  | call op next ih =>
      cases before with
      | nil =>
          cases hsteps
          rw [List.append_nil]
          exact hR
      | cons y before =>
          obtain ⟨rfl, hrest⟩ := List.cons.inj hsteps
          have hnext := hop past s op hR (hassumed (s, op) (by simp))
          have hend := ih _ hnext hrest (fun z hz => hassumed z (by simp [hz]))
          rw [List.append_assoc] at hend
          exact hend

/-- It holds at the end of the program, or wherever the program is killed. -/
theorem history_killed
    (hop : ∀ past s op, R past s → assumed s op → R (past ++ [(s, op)]) (answer op s).2)
    {p : Program Res ε α} {s : σ} {past : List (σ × Op)}
    (hR : R past s)
    (n : Nat)
    (hassumed : ∀ y ∈ (steps answer p s).take n, assumed y.1 y.2) :
    R (past ++ (steps answer p s).take n) (killed answer n p s) := by
  induction p generalizing s past n with
  | ret a =>
      cases n with
      | zero => simpa [steps, killed] using hR
      | succ n => simpa [steps, killed] using hR
  | raise e =>
      cases n with
      | zero => simpa [steps, killed] using hR
      | succ n => simpa [steps, killed] using hR
  | call op next ih =>
      cases n with
      | zero => simpa [killed] using hR
      | succ n =>
          have hnext := hop past s op hR (hassumed (s, op) (by simp [steps]))
          have hend := ih (answer op s).1 hnext n
            (fun z hz => hassumed z (by simp [steps, hz]))
          rw [List.append_assoc] at hend
          exact hend

/-- A program killed before its end leaves the state before one of its calls. -/
theorem killed_of_lt
    {n : Nat} {p : Program Res ε α} {s : σ}
    (h : n < (steps answer p s).length) :
    ∃ x ∈ steps answer p s, killed answer n p s = x.1 := by
  induction p generalizing s n with
  | ret a =>
      cases h
  | raise e =>
      cases h
  | call op next ih =>
      cases n with
      | zero => exact ⟨(s, op), by simp [steps], rfl⟩
      | succ n =>
          obtain ⟨x, hx, hkilled⟩ := ih _ (Nat.lt_of_succ_lt_succ h)
          exact ⟨x, List.mem_cons_of_mem _ hx, hkilled⟩

/-- A program that has made all its calls is at its end. -/
theorem killed_of_le
    {n : Nat} {p : Program Res ε α} {s : σ}
    (h : (steps answer p s).length ≤ n) :
    killed answer n p s = (run answer p s).2 := by
  induction p generalizing s n with
  | ret a =>
      cases n with
      | zero => rfl
      | succ n => rfl
  | raise e =>
      cases n with
      | zero => rfl
      | succ n => rfl
  | call op next ih =>
      cases n with
      | zero => cases h
      | succ n => exact ih _ (Nat.le_of_succ_le_succ h)

/-- A killed program leaves the state before one of its calls, or its end. -/
theorem killed_cases
    (n : Nat) (p : Program Res ε α) (s : σ) :
    (∃ x ∈ steps answer p s, killed answer n p s = x.1) ∨
      killed answer n p s = (run answer p s).2 := by
  by_cases hn : n < (steps answer p s).length
  · exact .inl (killed_of_lt hn)
  · exact .inr (killed_of_le (Nat.le_of_not_lt hn))

/-- A run is a run killed after all its calls. -/
theorem killed_length
    (p : Program Res ε α) (s : σ) :
    killed answer (steps answer p s).length p s = (run answer p s).2 :=
  killed_of_le (le_refl _)

/-- What every call keeps holds wherever the program is killed. -/
theorem killed_invariant
    {I : σ → Prop}
    (hop : ∀ s op, I s → I (answer op s).2)
    (n : Nat) (p : Program Res ε α) {s : σ}
    (hI : I s) :
    I (killed answer n p s) := by
  induction p generalizing s n with
  | ret a =>
      cases n with
      | zero => exact hI
      | succ n => exact hI
  | raise e =>
      cases n with
      | zero => exact hI
      | succ n => exact hI
  | call op next ih =>
      cases n with
      | zero => exact hI
      | succ n => exact ih _ n (hop s op hI)

end Histories

/-! ## Programs that return -/

section Returning

variable (answer)

/-- The program returns `a` in the state `s'`, by the calls of `trace`. -/
structure Runs
    (p : Program Res ε α) (s : σ) (a : α) (s' : σ) (trace : List (σ × Op)) : Prop where
  run : Program.run answer p s = (.ok a, s')
  steps : Program.steps answer p s = trace

variable {answer}

theorem runs_ret
    (a : α) (s : σ) :
    Runs answer (ret a : Program Res ε α) s a s [] :=
  ⟨rfl, rfl⟩

theorem Runs.bind
    {p : Program Res ε α} {f : α → Program Res ε β} {s s' s'' : σ} {a : α} {b : β}
    {trace trace' : List (σ × Op)}
    (hp : Runs answer p s a s' trace)
    (hf : Runs answer (f a) s' b s'' trace') :
    Runs answer (p.bind f) s b s'' (trace ++ trace') := by
  constructor
  · rw [run_bind, hp.run]
    exact hf.run
  · rw [steps_bind, hp.run, hp.steps]
    simp only [hf.steps]

end Returning

/-! ## Where a loop comes to its elements -/

section Visits

variable (answer)

/-- The elements a loop comes to, each with the state it finds there. -/
def visits (body : β → Program Res ε Unit) : List β → σ → List (σ × β)
  | [], _ => []
  | x :: rest, s =>
      (s, x) ::
        match run answer (body x) s with
        | (.ok _, s') => visits body rest s'
        | (.error _, _) => []

variable {answer} {assumed guaranteed : σ → Op → Prop}

/-- The outcomes a judgement speaks of are the outcome of the run. -/
theorem Safe.at_run
    {p : Program Res ε α} {Q : α → σ → Prop} {E : ε → σ → Prop} {s : σ}
    (h : Safe answer assumed guaranteed p Q E s) :
    Safe answer assumed guaranteed p
      (fun a s' => Q a s' ∧ run answer p s = (.ok a, s'))
      (fun e s' => E e s' ∧ run answer p s = (.error e, s')) s := by
  induction p generalizing s with
  | ret a =>
      exact ⟨h, rfl⟩
  | raise e =>
      exact ⟨h, rfl⟩
  | call op next ih =>
      refine ⟨h.1, ?_⟩
      intro hassumed
      exact ih _ (h.2 hassumed)

/-- What the body keeps for the elements still to come holds wherever the loop comes to. -/
theorem visits_rest
    {body : β → Program Res ε Unit} {I : List β → σ → Prop} {xs : List β} {s : σ}
    (hbody : ∀ x rest s', I (x :: rest) s' → I rest (run answer (body x) s').2)
    (hI : I xs s)
    {v : σ × β}
    (hv : v ∈ visits answer body xs s) :
    ∃ rest, I (v.2 :: rest) v.1 := by
  induction xs generalizing s with
  | nil =>
      cases hv
  | cons x rest ih =>
      have hrest := hbody x rest s hI
      unfold visits at hv
      rcases List.mem_cons.mp hv with rfl | hv
      · exact ⟨rest, hI⟩
      · cases hrun : run answer (body x) s with
        | mk outcome s' =>
            rw [hrun] at hv hrest
            cases outcome with
            | ok _ => exact ih hrest hv
            | error e => cases hv

/-- The rule of the loop, with what is known of the states it comes to. -/
theorem safe_forEach_visits
    {xs : List β} {body : β → Program Res ε Unit} {V : σ → β → Prop} {I : σ → Prop}
    {E : ε → σ → Prop} {s : σ}
    (hbody : ∀ x s', I s' → V s' x →
      Safe answer assumed guaranteed (body x) (fun _ => I) E s')
    (hvisits : ∀ v ∈ visits answer body xs s, V v.1 v.2)
    (hI : I s) :
    Safe answer assumed guaranteed (forEach xs body) (fun _ => I) E s := by
  induction xs generalizing s with
  | nil =>
      exact hI
  | cons x rest ih =>
      rw [forEach, safe_bind]
      have hfirst := hbody x s hI (hvisits (s, x) (by simp [visits]))
      refine hfirst.at_run.mono ?_ (fun _ _ h => h.1)
      rintro _ s' ⟨hs', hrun⟩
      apply ih _ hs'
      intro v hv
      apply hvisits v
      unfold visits
      rw [hrun]
      exact List.mem_cons_of_mem _ hv

end Visits

/-! ## States with more in them -/

section Projection

variable {σ' : Type} {answer' : (op : Op) → σ' → Res op × σ'} {forget : σ' → σ}

/-- A handler on larger states that answers as the first one does on their smaller part. -/
def Extends
    (answer' : (op : Op) → σ' → Res op × σ') (answer : (op : Op) → σ → Res op × σ)
    (forget : σ' → σ) : Prop :=
  ∀ op s', (answer' op s').1 = (answer op (forget s')).1 ∧
    forget (answer' op s').2 = (answer op (forget s')).2

theorem Extends.run
    (h : Extends answer' answer forget)
    (p : Program Res ε α) (s' : σ') :
    Program.run answer p (forget s') =
      ((Program.run answer' p s').1, forget (Program.run answer' p s').2) := by
  induction p generalizing s' with
  | ret a =>
      rfl
  | raise e =>
      rfl
  | call op next ih =>
      obtain ⟨hanswer, hstate⟩ := h op s'
      simp only [Program.run]
      rw [← hanswer, ← hstate]
      exact ih _ _

theorem Extends.steps
    (h : Extends answer' answer forget)
    (p : Program Res ε α) (s' : σ') :
    Program.steps answer p (forget s') =
      (Program.steps answer' p s').map (fun x => (forget x.1, x.2)) := by
  induction p generalizing s' with
  | ret a =>
      rfl
  | raise e =>
      rfl
  | call op next ih =>
      obtain ⟨hanswer, hstate⟩ := h op s'
      simp only [Program.steps, List.map_cons]
      rw [← hanswer, ← hstate, ih]

theorem Extends.killed
    (h : Extends answer' answer forget)
    (n : Nat) (p : Program Res ε α) (s' : σ') :
    Program.killed answer n p (forget s') = forget (Program.killed answer' n p s') := by
  induction p generalizing s' n with
  | ret a =>
      cases n with
      | zero => rfl
      | succ n => rfl
  | raise e =>
      cases n with
      | zero => rfl
      | succ n => rfl
  | call op next ih =>
      cases n with
      | zero => rfl
      | succ n =>
          obtain ⟨hanswer, hstate⟩ := h op s'
          simp only [Program.killed]
          rw [← hanswer, ← hstate]
          exact ih _ n _

theorem Extends.visits
    (h : Extends answer' answer forget)
    (body : β → Program Res ε Unit) (xs : List β) (s' : σ') :
    Program.visits answer body xs (forget s') =
      (Program.visits answer' body xs s').map (fun v => (forget v.1, v.2)) := by
  induction xs generalizing s' with
  | nil =>
      rfl
  | cons x rest ih =>
      have hrun := h.run (body x) s'
      simp only [Program.visits, List.map_cons]
      cases hbody : Program.run answer' (body x) s' with
      | mk outcome s₁ =>
          rw [hbody] at hrun
          rw [hrun]
          cases outcome with
          | ok _ => simp only [ih]
          | error e => rfl

end Projection

/-! ## Programs that raise exactly at their fatal calls -/

section Fatal

variable (answer) (fatal : σ → Op → Bool)

/-- The program returns exactly when none of its calls is fatal. -/
def RaisesAt (p : Program Res ε α) (s : σ) : Prop :=
  (run answer p s).1.isOk = (steps answer p s).all (fun x => !fatal x.1 x.2)

variable {answer fatal}

@[simp] theorem raisesAt_ret
    (a : α) (s : σ) :
    RaisesAt answer fatal (ret a : Program Res ε α) s := by
  rfl

/-- Only what is fatal among the calls a program can make counts. -/
theorem RaisesAt.congr
    {fatal' : σ → Op → Bool} {P : Op → Prop} {p : Program Res ε α} {s : σ}
    (h : RaisesAt answer fatal p s)
    (honly : Only P p)
    (hsame : ∀ s' op, P op → fatal s' op = fatal' s' op) :
    RaisesAt answer fatal' p s := by
  unfold RaisesAt at h ⊢
  rw [h, Bool.eq_iff_iff, List.all_eq_true, List.all_eq_true]
  refine forall₂_congr fun x hx => ?_
  rw [hsame x.1 x.2 (honly.steps s hx)]

theorem raisesAt_call
    {op : Op} {next : Res op → Program Res ε α} {s : σ}
    (hfatal : fatal s op = true →
      (run answer (next (answer op s).1) (answer op s).2).1.isOk = false)
    (hnext : fatal s op = false → RaisesAt answer fatal (next (answer op s).1) (answer op s).2) :
    RaisesAt answer fatal (call op next) s := by
  unfold RaisesAt
  simp only [run, steps, List.all_cons]
  cases hop : fatal s op with
  | true => simpa using hfatal hop
  | false => simpa [RaisesAt] using hnext hop

theorem raisesAt_bind
    {p : Program Res ε α} {f : α → Program Res ε β} {s : σ}
    (hp : RaisesAt answer fatal p s)
    (hf : ∀ a s', RaisesAt answer fatal (f a) s') :
    RaisesAt answer fatal (p.bind f) s := by
  unfold RaisesAt at hp ⊢
  rw [run_bind, steps_bind, List.all_append, ← hp]
  cases run answer p s with
  | mk outcome s' =>
      cases outcome with
      | ok a =>
          have hnext : (run answer (f a) s').1.isOk = _ := hf a s'
          simpa [Except.isOk, Except.toBool] using hnext
      | error e => rfl

theorem raisesAt_forEach
    {xs : List β} {body : β → Program Res ε Unit}
    (hbody : ∀ x ∈ xs, ∀ s, RaisesAt answer fatal (body x) s)
    (s : σ) :
    RaisesAt answer fatal (forEach xs body) s := by
  induction xs generalizing s with
  | nil =>
      exact raisesAt_ret () s
  | cons x rest ih =>
      have hrest := ih (fun y hy => hbody y (List.mem_cons_of_mem x hy))
      exact raisesAt_bind (hbody x (by simp) s) (fun _ s' => hrest s')

end Fatal

/-! ## The order of neighbouring calls -/

section Order

/-- `opens` may come first, and each later call may directly follow the one before it. -/
def Ordered (follows : (op : Op) → Res op → Op → Prop) :
    (Op → Prop) → Program Res ε α → Prop
  | _, ret _ => True
  | _, raise _ => True
  | opens, call op next => opens op ∧ ∀ r, Ordered follows (follows op r) (next r)

variable {follows : (op : Op) → Res op → Op → Prop} {opens first : Op → Prop}

theorem Only.ordered
    {p : Program Res ε α}
    (h : Only first p)
    (hopens : ∀ op, first op → opens op)
    (hfollows : ∀ op r op', first op' → follows op r op') :
    Ordered follows opens p := by
  induction p generalizing opens with
  | ret a =>
      trivial
  | raise e =>
      trivial
  | call op next ih =>
      exact ⟨hopens op h.1, fun r => ih r (h.2 r) (hfollows op r)⟩

theorem Ordered.mono
    {opens' : Op → Prop} {p : Program Res ε α}
    (h : Ordered follows opens p)
    (hopens : ∀ op, opens op → opens' op) :
    Ordered follows opens' p := by
  cases p with
  | ret a => trivial
  | raise e => trivial
  | call op next => exact ⟨hopens op h.1, h.2⟩

/-- The second program opens with calls that may come anywhere. -/
theorem ordered_bind
    {p : Program Res ε α} {f : α → Program Res ε β}
    (hp : Ordered follows opens p)
    (hopens : ∀ op, first op → opens op)
    (hfollows : ∀ op r op', first op' → follows op r op')
    (hf : ∀ a, Ordered follows first (f a)) :
    Ordered follows opens (p.bind f) := by
  induction p generalizing opens with
  | ret a =>
      exact (hf a).mono hopens
  | raise e =>
      trivial
  | call op next ih =>
      exact ⟨hp.1, fun r => ih r (hp.2 r) (hfollows op r)⟩

/-- The first call of a run is one the program may open with. -/
theorem Ordered.head
    {p : Program Res ε α} {s : σ}
    (h : Ordered follows opens p)
    {x : σ × Op} {after : List (σ × Op)}
    (hsteps : steps answer p s = x :: after) :
    opens x.2 := by
  cases p with
  | ret a =>
      cases hsteps
  | raise e =>
      cases hsteps
  | call op next =>
      obtain ⟨rfl, _⟩ := List.cons.inj hsteps
      exact h.1

/-- Of two neighbouring calls of a run, the second may follow the first and its answer. -/
theorem Ordered.neighbours
    {p : Program Res ε α} {s : σ}
    (h : Ordered follows opens p)
    {before : List (σ × Op)} {x y : σ × Op} {after : List (σ × Op)}
    (hsteps : steps answer p s = before ++ x :: y :: after) :
    follows x.2 (answer x.2 x.1).1 y.2 := by
  induction p generalizing s opens before with
  | ret a =>
      cases before with
      | nil => cases hsteps
      | cons b before => cases hsteps
  | raise e =>
      cases before with
      | nil => cases hsteps
      | cons b before => cases hsteps
  | call op next ih =>
      cases before with
      | nil =>
          obtain ⟨rfl, hrest⟩ := List.cons.inj hsteps
          exact (h.2 _).head hrest
      | cons b before =>
          exact ih _ (h.2 _) (List.cons.inj hsteps).2

end Order

end Program

end Lib
end PrReviewer
