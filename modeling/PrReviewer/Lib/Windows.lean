import Mathlib.Data.List.Basic
import Mathlib.Data.List.Chain
import Mathlib.Tactic

/-!
# Overlapping windows

A list is read in windows of a fixed size, each of which takes up the last elements of the
one before it.  The last window ends with the list and may be shorter.

Ranges count from one, and both ends belong to them.
-/

namespace PrReviewer
namespace Lib

universe u

section Windows

variable {α : Type u}
variable {size overlap : Nat}

/-- The ranges of the windows from one that starts at a place. -/
def windows (h : overlap < size) (total start : Nat) : List (Nat × Nat) :=
  if start ≤ total then
    if total ≤ start + size - 1 then
      [(start, total)]
    else
      (start, start + size - 1) :: windows h total (start + (size - overlap))
  else
    []
termination_by total + 1 - start

/-- The elements of a range. -/
def slice (items : List α) (range : Nat × Nat) : List α :=
  (items.take range.2).drop (range.1 - 1)

theorem windows_first
    (h : overlap < size) {total start : Nat} (hstart : start ≤ total) :
    ∃ stop rest, windows h total start = (start, stop) :: rest := by
  rw [windows, if_pos hstart]
  split
  · exact ⟨_, _, rfl⟩
  · exact ⟨_, _, rfl⟩

/-- The windows lie behind the start and within the list. -/
theorem mem_windows
    (h : overlap < size) (total start : Nat) :
    ∀ range ∈ windows h total start,
      start ≤ range.1 ∧ range.1 ≤ range.2 ∧ range.2 = min (range.1 + size - 1) total := by
  fun_induction windows h total start with
  | case1 start hstart hlast =>
      intro range hrange
      rw [List.mem_singleton.mp hrange]
      simp only
      omega
  | case2 start hstart hmore ih =>
      intro range hrange
      rcases List.mem_cons.mp hrange with rfl | hrange
      · simp only
        omega
      · obtain ⟨hfirst, hrest⟩ := ih range hrange
        exact ⟨by omega, hrest⟩
  | case3 start hstart => nofun

/-- The last window ends with the list. -/
theorem windows_last
    (h : overlap < size) (total start : Nat) :
    ∀ range ∈ (windows h total start).getLast?, range.2 = total := by
  fun_induction windows h total start with
  | case1 start hstart hlast =>
      rintro range ⟨⟩
      rfl
  | case2 start hstart hmore ih =>
      intro range hrange
      have hnext : start + (size - overlap) ≤ total := by omega
      obtain ⟨stop, rest, hnext⟩ := windows_first h hnext
      rw [hnext] at ih hrange
      exact ih range hrange
  | case3 start hstart => nofun

/-- A later window starts and ends later. -/
theorem windows_apart
    (h : overlap < size) (total start : Nat) :
    (windows h total start).Pairwise (fun range later => range.1 < later.1 ∧ range.2 < later.2) := by
  fun_induction windows h total start with
  | case1 start hstart hlast => exact List.pairwise_singleton _ _
  | case2 start hstart hmore ih =>
      refine List.Pairwise.cons ?_ ih
      intro later hlater
      obtain ⟨hfirst, hrange, hstop⟩ := mem_windows h total _ later hlater
      simp only
      omega
  | case3 start hstart => exact List.Pairwise.nil

/-- A window takes up as many elements of the one before it as the overlap says. -/
theorem windows_overlap
    (h : overlap < size) (total start : Nat) :
    (windows h total start).IsChain (fun range next =>
      range.2 + 1 = next.1 + overlap ∧ range.1 < next.1 ∧ range.2 < next.2) := by
  fun_induction windows h total start with
  | case1 start hstart hlast => exact List.isChain_singleton _
  | case2 start hstart hmore ih =>
      have hnext : start + (size - overlap) ≤ total := by omega
      obtain ⟨stop, rest, hnext⟩ := windows_first h hnext
      obtain ⟨_, _, hstop⟩ := mem_windows h total (start + (size - overlap))
        (start + (size - overlap), stop) (by rw [hnext]; exact List.mem_cons_self ..)
      rw [hnext] at ih ⊢
      refine List.isChain_cons_cons.mpr ⟨?_, ih⟩
      simp only at hstop ⊢
      omega
  | case3 start hstart => exact List.isChain_nil

/-- Behind the first window each adds what stands behind its overlap. -/
def unlapped (overlap : Nat) (items : List α) : List (Nat × Nat) → List α
  | [] => []
  | first :: rest => slice items first ++ rest.flatMap (fun range => (slice items range).drop overlap)

/-- Without what they take up of the window before them, the windows are the list. -/
theorem unlapped_windows
    (h : overlap < size) (items : List α) {start : Nat} (hpos : 0 < start) :
    unlapped overlap items (windows h items.length start) = items.drop (start - 1) := by
  revert hpos
  generalize htotal : items.length = total
  fun_induction windows h total start with
  | case1 start hstart hlast =>
      intro _
      rw [unlapped, List.flatMap_nil, List.append_nil, slice, ← htotal, List.take_length]
  | case2 start hstart hmore ih =>
      intro hpos
      have hnext : start + (size - overlap) ≤ total := by omega
      obtain ⟨stop, rest, hnext⟩ := windows_first h hnext
      have hmem := mem_windows h total (start + (size - overlap))
        (start + (size - overlap), stop) (by rw [hnext]; exact List.mem_cons_self ..)
      have hrest := ih (by omega)
      rw [hnext] at hrest ⊢
      -- The elements that the next window takes up are the last of this one.
      have hlength : overlap ≤ (slice items (start + (size - overlap), stop)).length := by
        simp only [slice, List.length_drop, List.length_take, htotal]
        omega
      have hbehind := congrArg (List.drop overlap) hrest
      rw [unlapped, List.drop_append_of_le_length hlength, List.drop_drop] at hbehind
      rw [unlapped, List.flatMap_cons, hbehind, slice]
      have hsplit : start + (size - overlap) - 1 + overlap = start + size - 1 := by omega
      rw [hsplit, ← List.drop_append_of_le_length (by rw [List.length_take, htotal]; omega),
        List.take_append_drop]
  | case3 start hstart =>
      intro _
      rw [unlapped, List.drop_of_length_le (by omega)]

end Windows

end Lib
end PrReviewer
