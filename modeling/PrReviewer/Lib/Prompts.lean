import Mathlib.Data.List.Basic
import Mathlib.Tactic

/-!
# Prompts

A prompt reads lines until one answers it.  Prompts are put one after the other and repeated; the
input may end inside any of them.

A prompt is steady when its answer hangs on the lines it has read and on nothing behind them: then
a longer input gives the same answer, and leaves what was added to it.
-/

namespace PrReviewer
namespace Lib

/-- What came of a prompt: the input ended, an exception, or an answer and the lines left. -/
inductive Prompted (Line ε α : Type) where
  | ended
  | raised (error : ε)
  | answered (answer : α) (rest : List Line)
deriving DecidableEq, Repr

/-- What a line is to a prompt: no answer, the end of the input, an exception, or an answer. -/
inductive Reply (ε α : Type) where
  | again
  | ended
  | raised (error : ε)
  | answered (answer : α)
deriving DecidableEq, Repr

abbrev Prompt (Line ε α : Type) := List Line → Prompted Line ε α

namespace Prompt

variable {Line ε α β : Type}

/-- Ask until a line is an answer. -/
def ask (read : Line → Reply ε α) : Prompt Line ε α
  | [] => .ended
  | line :: rest =>
      match read line with
      | .again => ask read rest
      | .ended => .ended
      | .raised e => .raised e
      | .answered a => .answered a rest

/-- An answer that needs no line. -/
def answer (a : α) : Prompt Line ε α :=
  fun input => .answered a input

/-- A value that was computed, or its exception. -/
def lift (value : Except ε α) : Prompt Line ε α :=
  fun input =>
    match value with
    | .error e => .raised e
    | .ok a => .answered a input

/-- One prompt after the other. -/
def andThen (p : Prompt Line ε α) (q : α → Prompt Line ε β) : Prompt Line ε β :=
  fun input =>
    match p input with
    | .ended => .ended
    | .raised e => .raised e
    | .answered a rest => q a rest

/-- The answer hangs on the lines that were read only, and so does an exception. -/
structure Steady (p : Prompt Line ε α) : Prop where
  answered : ∀ {input a rest}, p input = .answered a rest →
    ∃ used, input = used ++ rest ∧ ∀ more, p (used ++ more) = .answered a more
  raised : ∀ {input e}, p input = .raised e → ∀ more, p (input ++ more) = .raised e

/-- An answer takes a line. -/
def Eager (p : Prompt Line ε α) : Prop :=
  ∀ input a rest, p input = .answered a rest → rest.length < input.length

/-- A prompt that is asked again as long as its answer asks for it. -/
def loop (round : β → Prompt Line ε (α ⊕ β)) (eager : ∀ b, Eager (round b)) (b : β)
    (input : List Line) : Prompted Line ε α :=
  match _hround : round b input with
  | .ended => .ended
  | .raised e => .raised e
  | .answered (.inl a) rest => .answered a rest
  | .answered (.inr b') rest => loop round eager b' rest
termination_by input.length
decreasing_by exact eager b input _ rest _hround

theorem ask_cons
    (read : Line → Reply ε α) (line : Line) (rest : List Line) :
    ask read (line :: rest) =
      match read line with
      | .again => ask read rest
      | .ended => .ended
      | .raised e => .raised e
      | .answered a => .answered a rest :=
  rfl

theorem andThen_apply
    (p : Prompt Line ε α) (q : α → Prompt Line ε β) (input : List Line) :
    andThen p q input =
      match p input with
      | .ended => .ended
      | .raised e => .raised e
      | .answered a rest => q a rest :=
  rfl

/-! ## Steadiness -/

theorem Steady.length_le
    {p : Prompt Line ε α} (hp : Steady p) {input rest : List Line} {a : α}
    (h : p input = .answered a rest) :
    rest.length ≤ input.length := by
  obtain ⟨used, rfl, _⟩ := hp.answered h
  simp

/-- A longer input gives the same answer, and leaves what was added. -/
theorem Steady.append
    {p : Prompt Line ε α} (hp : Steady p) {input rest : List Line} {a : α}
    (h : p input = .answered a rest) (more : List Line) :
    p (input ++ more) = .answered a (rest ++ more) := by
  obtain ⟨used, rfl, hused⟩ := hp.answered h
  rw [List.append_assoc]
  exact hused (rest ++ more)

theorem steady_ask
    (read : Line → Reply ε α) :
    Steady (ask read) := by
  constructor
  · intro input a rest h
    induction input with
    | nil => cases h
    | cons line input ih =>
        rw [ask_cons] at h
        cases hread : read line with
        | again =>
            rw [hread] at h
            obtain ⟨used, rfl, hused⟩ := ih h
            refine ⟨line :: used, rfl, ?_⟩
            intro more
            rw [List.cons_append, ask_cons, hread]
            exact hused more
        | ended =>
            rw [hread] at h
            cases h
        | raised e =>
            rw [hread] at h
            cases h
        | answered b =>
            rw [hread] at h
            cases h
            refine ⟨[line], rfl, ?_⟩
            intro more
            rw [List.singleton_append, ask_cons, hread]
  · intro input e h more
    induction input with
    | nil => cases h
    | cons line input ih =>
        rw [ask_cons] at h
        rw [List.cons_append, ask_cons]
        cases hread : read line with
        | again =>
            rw [hread] at h
            exact ih h
        | ended =>
            rw [hread] at h
            cases h
        | raised e' =>
            rw [hread] at h
            exact h
        | answered b =>
            rw [hread] at h
            cases h

theorem eager_ask
    (read : Line → Reply ε α) :
    Eager (ask read) := by
  intro input a rest h
  induction input with
  | nil => cases h
  | cons line input ih =>
      rw [ask_cons] at h
      split at h
      · exact (ih h).trans (Nat.lt_succ_self _)
      · cases h
      · cases h
      · cases h
        exact Nat.lt_succ_self _

/-- The lines that were passed over and the one that answered. -/
theorem ask_eq_answered
    {read : Line → Reply ε α} {input rest : List Line} {a : α}
    (h : ask read input = .answered a rest) :
    ∃ line, read line = .answered a := by
  induction input with
  | nil => cases h
  | cons line input ih =>
      rw [ask_cons] at h
      split at h
      · exact ih h
      · cases h
      · cases h
      · next hread =>
          cases h
          exact ⟨line, hread⟩

theorem steady_answer
    (a : α) :
    Steady (answer a : Prompt Line ε α) := by
  constructor
  · intro input b rest h
    cases h
    exact ⟨[], rfl, fun more => rfl⟩
  · intro input e h
    cases h

theorem steady_lift
    (value : Except ε α) :
    Steady (lift value : Prompt Line ε α) := by
  cases value with
  | error e =>
      constructor
      · intro input b rest h
        cases h
      · intro input e' h more
        exact h
  | ok a => exact steady_answer a

theorem andThen_eq_answered
    {p : Prompt Line ε α} {q : α → Prompt Line ε β} {input rest : List Line} {b : β}
    (h : andThen p q input = .answered b rest) :
    ∃ a between, p input = .answered a between ∧ q a between = .answered b rest := by
  rw [andThen_apply] at h
  cases hp : p input with
  | ended =>
      rw [hp] at h
      cases h
  | raised e =>
      rw [hp] at h
      cases h
  | answered a between =>
      rw [hp] at h
      exact ⟨a, between, rfl, h⟩

theorem Steady.andThen
    {p : Prompt Line ε α} {q : α → Prompt Line ε β}
    (hp : Steady p) (hq : ∀ a, Steady (q a)) :
    Steady (andThen p q) := by
  constructor
  · intro input b rest h
    obtain ⟨a, between, hfirst, hsecond⟩ := andThen_eq_answered h
    obtain ⟨used, rfl, hused⟩ := hp.answered hfirst
    obtain ⟨used', rfl, hused'⟩ := (hq a).answered hsecond
    refine ⟨used ++ used', (List.append_assoc ..).symm, ?_⟩
    intro more
    rw [andThen_apply, List.append_assoc, hused]
    exact hused' more
  · intro input e h more
    rw [andThen_apply] at h ⊢
    cases hfirst : p input with
    | ended =>
        rw [hfirst] at h
        cases h
    | raised e' =>
        rw [hfirst] at h
        rw [hp.raised hfirst more]
        exact h
    | answered a between =>
        rw [hfirst] at h
        rw [hp.append hfirst more]
        exact (hq a).raised h more

theorem Eager.andThen
    {p : Prompt Line ε α} {q : α → Prompt Line ε β}
    (hp : Eager p) (hq : ∀ a, Steady (q a)) :
    Eager (andThen p q) := by
  intro input b rest h
  obtain ⟨a, between, hfirst, hsecond⟩ := andThen_eq_answered h
  exact ((hq a).length_le hsecond).trans_lt (hp input a between hfirst)

/-! ## Repetition -/

section Loop

variable {round : β → Prompt Line ε (α ⊕ β)} {eager : ∀ b, Eager (round b)}

theorem loop_eq
    (b : β) (input : List Line) :
    loop round eager b input =
      match round b input with
      | .ended => .ended
      | .raised e => .raised e
      | .answered (.inl a) rest => .answered a rest
      | .answered (.inr b') rest => loop round eager b' rest := by
  rw [loop]
  split <;> simp [*]

/-- **A rule for loops**: what every round keeps holds of the last state, from which the answer
came. -/
theorem loop_invariant
    {I : β → Prop} {Q : α → Prop}
    (hround : ∀ b input rest answer, I b → round b input = .answered answer rest →
      (∀ a, answer = .inl a → Q a) ∧ ∀ b', answer = .inr b' → I b')
    {b : β} {input rest : List Line} {a : α}
    (hb : I b)
    (h : loop round eager b input = .answered a rest) :
    Q a := by
  induction hlength : input.length using Nat.strong_induction_on generalizing b input with
  | _ length ih =>
      rw [loop_eq] at h
      cases hfirst : round b input with
      | ended =>
          rw [hfirst] at h
          cases h
      | raised e =>
          rw [hfirst] at h
          cases h
      | answered answer between =>
          rw [hfirst] at h
          obtain ⟨hdone, hnext⟩ := hround b input between answer hb hfirst
          cases answer with
          | inl a' =>
              cases h
              exact hdone a rfl
          | inr b' =>
              have hshorter := eager b input (.inr b') between hfirst
              exact ih _ (hlength ▸ hshorter) (hnext b' rfl) h rfl

theorem steady_loop
    (hsteady : ∀ b, Steady (round b)) (b : β) :
    Steady (loop round eager b) := by
  constructor
  · intro input a rest h
    induction hlength : input.length using Nat.strong_induction_on generalizing b input with
    | _ length ih =>
        rw [loop_eq] at h
        cases hfirst : round b input with
        | ended =>
            rw [hfirst] at h
            cases h
        | raised e =>
            rw [hfirst] at h
            cases h
        | answered answer between =>
            rw [hfirst] at h
            obtain ⟨used, hsplit, hused⟩ := (hsteady b).answered hfirst
            cases answer with
            | inl a' =>
                cases h
                refine ⟨used, hsplit, ?_⟩
                intro more
                rw [loop_eq, hused]
            | inr b' =>
                have hshorter := eager b input (.inr b') between hfirst
                obtain ⟨used', hsplit', hused'⟩ := ih _ (hlength ▸ hshorter) b' h rfl
                refine ⟨used ++ used', by rw [hsplit, hsplit', List.append_assoc], ?_⟩
                intro more
                rw [loop_eq, List.append_assoc, hused]
                exact hused' more
  · intro input e h more
    induction hlength : input.length using Nat.strong_induction_on generalizing b input with
    | _ length ih =>
        rw [loop_eq] at h
        rw [loop_eq]
        cases hfirst : round b input with
        | ended =>
            rw [hfirst] at h
            cases h
        | raised e' =>
            rw [hfirst] at h
            rw [(hsteady b).raised hfirst more]
            exact h
        | answered answer between =>
            rw [hfirst] at h
            rw [(hsteady b).append hfirst more]
            cases answer with
            | inl a' => cases h
            | inr b' =>
                have hshorter := eager b input (.inr b') between hfirst
                exact ih _ (hlength ▸ hshorter) b' h rfl

end Loop

end Prompt

end Lib
end PrReviewer
