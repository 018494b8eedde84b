import Mathlib.Data.List.Basic
import Mathlib.Tactic
import PrReviewer.Lib.Run

/-!
# Records of a machine that answers

A machine takes inputs one after the other and answers each.  The record of a run pairs the
inputs with the answers.

A part of the inputs is answered as if the others were not there exactly where, in front of
each input of the part, the state that all inputs have led to and the state that the part
alone has led to answer it alike.
-/

namespace PrReviewer
namespace Lib

universe u v w

section Records

variable {σ : Type u} {α : Type v} {β : Type w}
variable (answer : σ → α → σ × β)

/-- The inputs of a run with their answers. -/
def records : σ → List α → List (α × β)
  | _, [] => []
  | s, input :: rest => (input, (answer s input).2) :: records (answer s input).1 rest

/-- The state after the inputs. -/
def stateAfter (s : σ) (inputs : List α) : σ :=
  exec (fun s input => (answer s input).1) s inputs

variable {answer}

theorem records_append
    (s : σ) (front back : List α) :
    records answer s (front ++ back) =
      records answer s front ++ records answer (stateAfter answer s front) back := by
  induction front generalizing s with
  | nil => rfl
  | cons input front ih =>
      rw [List.cons_append, records, records, ih]
      rfl

@[simp] theorem records_length
    (s : σ) (inputs : List α) :
    (records answer s inputs).length = inputs.length := by
  induction inputs generalizing s with
  | nil => rfl
  | cons input inputs ih => rw [records, List.length_cons, List.length_cons, ih]

@[simp] theorem map_fst_records
    (s : σ) (inputs : List α) :
    (records answer s inputs).map Prod.fst = inputs := by
  induction inputs generalizing s with
  | nil => rfl
  | cons input inputs ih => rw [records, List.map_cons, ih]

/-- A record stands where its input stands, and is the answer of the state before. -/
theorem records_split
    {s : σ} {inputs : List α} {front back : List (α × β)} {record : α × β}
    (h : records answer s inputs = front ++ record :: back) :
    ∃ rest, inputs = front.map Prod.fst ++ record.1 :: rest ∧
      record.2 = (answer (stateAfter answer s (front.map Prod.fst)) record.1).2 := by
  have hinputs := congrArg (List.map Prod.fst) h
  rw [map_fst_records, List.map_append, List.map_cons] at hinputs
  refine ⟨back.map Prod.fst, hinputs, ?_⟩
  rw [hinputs, records_append, records] at h
  have hlength : (records answer s (front.map Prod.fst)).length = front.length := by
    rw [records_length, List.length_map]
  have htail := (List.append_inj h hlength).2
  exact (congrArg Prod.snd (List.cons.inj htail).1).symm

/-- A segment of the records is the record of a segment. -/
theorem records_infix
    {s : σ} {inputs : List α} {segment : List (α × β)}
    (h : segment <:+: records answer s inputs) :
    ∃ front, segment = records answer (stateAfter answer s front) (segment.map Prod.fst) := by
  obtain ⟨front, back, hsplit⟩ := h
  have hinputs := congrArg (List.map Prod.fst) hsplit
  rw [map_fst_records, List.map_append, List.map_append] at hinputs
  refine ⟨front.map Prod.fst, ?_⟩
  rw [← hinputs, records_append, records_append] at hsplit
  have hfront : (front ++ segment).length = (records answer s (front.map Prod.fst) ++ records answer
      (stateAfter answer s (front.map Prod.fst)) (segment.map Prod.fst)).length := by
    simp
  obtain ⟨hboth, _⟩ := List.append_inj hsplit hfront
  exact (List.append_inj hboth (by simp)).2

theorem filter_records_append
    (keep : α → Bool) (s : σ) (front : List α) (input : α) :
    (records answer s (front ++ [input])).filter (fun record => keep record.1) =
      (records answer s front).filter (fun record => keep record.1) ++
        if keep input then [(input, (answer (stateAfter answer s front) input).2)] else [] := by
  rw [records_append, List.filter_append]
  cases hkeep : keep input <;> simp [records, hkeep]

/-- What holds of every input and what stands before it. -/
theorem forall_split_concat
    {P : List α → α → Prop} (inputs : List α) (last : α) :
    (∀ front input back, inputs ++ [last] = front ++ input :: back → P front input) ↔
      (∀ front input back, inputs = front ++ input :: back → P front input) ∧ P inputs last := by
  constructor
  · intro h
    refine ⟨fun front input back heq => h front input (back ++ [last]) ?_, h inputs last [] rfl⟩
    rw [heq, List.append_assoc, List.cons_append]
  · rintro ⟨hfront, hlast⟩ front input back heq
    rcases List.eq_nil_or_concat back with rfl | ⟨init, final, rfl⟩
    · obtain ⟨rfl, hsingle⟩ := List.append_inj' heq rfl
      obtain rfl := List.singleton_inj.mp hsingle
      exact hlast
    · rw [List.concat_eq_append, ← List.cons_append, ← List.append_assoc] at heq
      obtain ⟨heq, _⟩ := List.append_inj' heq rfl
      exact hfront front input init heq

/-- When a part of the inputs is answered as if it were alone. -/
theorem filter_records_iff
    (keep : α → Bool) (s : σ) (inputs : List α) :
    (records answer s inputs).filter (fun record => keep record.1) =
        records answer s (inputs.filter keep) ↔
      ∀ front input back, inputs = front ++ input :: back → keep input = true →
        (answer (stateAfter answer s front) input).2 =
          (answer (stateAfter answer s (front.filter keep)) input).2 := by
  induction inputs using List.reverseRecOn with
  | nil => simp [records]
  | append_singleton inputs last ih =>
      rw [forall_split_concat, ← ih, filter_records_append, List.filter_append]
      have hfilter : ((records answer s inputs).filter (fun record => keep record.1)).map Prod.fst =
          ((records answer s inputs).map Prod.fst).filter keep := List.filter_map.symm
      have hlength : ((records answer s inputs).filter (fun record => keep record.1)).length =
          (records answer s (inputs.filter keep)).length := by
        rw [records_length, ← List.length_map Prod.fst, hfilter, map_fst_records]
      cases hkeep : keep last with
      | false => simp [hkeep]
      | true =>
          simp only [if_true, List.filter_cons_of_pos hkeep, List.filter_nil, records_append,
            records, forall_const]
          constructor
          · intro h
            obtain ⟨hfront, hlast⟩ := List.append_inj h hlength
            have hpair := List.head_eq_of_cons_eq hlast
            exact ⟨hfront, (Prod.mk.inj hpair).2⟩
          · rintro ⟨hfront, hlast⟩
            rw [hfront, hlast]

end Records

end Lib
end PrReviewer
