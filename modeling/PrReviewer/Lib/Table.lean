import Mathlib.Data.List.Nodup
import Mathlib.Tactic

/-!
# Keyed tables

A table is a finite list of rows in insertion order, no two of which have the
same primary key.  The uniqueness of the key is a field of the table, so that a
table with two rows under one key cannot be built.

The operations are the ones a relational store offers: lookup by key, insertion
that refuses a key already present, an update of every row that satisfies a
predicate, an update of the row under one key, and deletion by predicate.  Each
operation comes with the equation that says what a later lookup returns; proofs
about a store use these equations and never look at the list.
-/

namespace PrReviewer
namespace Lib

universe u v

/-- A finite list of rows with pairwise distinct keys. -/
structure Table {κ : Type u} {ρ : Type v} (key : ρ → κ) where
  rows : List ρ
  nodup : (rows.map key).Nodup

namespace Table

variable {κ : Type u} {ρ : Type v} {key : ρ → κ}

/-- The table without rows. -/
def empty : Table key where
  rows := []
  nodup := List.nodup_nil

/-- Two rows of one table with the same key are the same row. -/
theorem eq_of_key_eq
    (t : Table key)
    {r r' : ρ}
    (hr : r ∈ t.rows)
    (hr' : r' ∈ t.rows)
    (h : key r = key r') :
    r = r' :=
  List.inj_on_of_nodup_map t.nodup hr hr' h

/-- Rewrite every row by a function that keeps the key. -/
def modify
    (t : Table key)
    (f : ρ → ρ)
    (hf : ∀ r, key (f r) = key r) :
    Table key where
  rows := t.rows.map f
  nodup := by
    have hkeys : (t.rows.map f).map key = t.rows.map key := by
      rw [List.map_map]
      exact List.map_congr_left (fun r _ => hf r)
    rw [hkeys]
    exact t.nodup

/-- `update … where p`: rewrite the rows that satisfy `p`. -/
def updateWhere
    (t : Table key)
    (p : ρ → Bool)
    (f : ρ → ρ)
    (hf : ∀ r, key (f r) = key r) :
    Table key :=
  t.modify (fun r => if p r then f r else r) (by
    intro r
    split
    · exact hf r
    · rfl)

/-- `delete … where p`: drop the rows that satisfy `p`. -/
def deleteWhere
    (t : Table key)
    (p : ρ → Bool) :
    Table key where
  rows := t.rows.filter (fun r => !p r)
  nodup := (List.Sublist.map key List.filter_sublist).nodup t.nodup

/-- Append a row whose key is free. -/
def append
    (t : Table key)
    (r : ρ)
    (h : ∀ r' ∈ t.rows, key r' ≠ key r) :
    Table key where
  rows := t.rows ++ [r]
  nodup := by
    rw [List.map_append]
    refine List.Nodup.append t.nodup (List.nodup_singleton _) ?_
    intro k hk hk'
    rw [List.map_singleton, List.mem_singleton] at hk'
    obtain ⟨r', hr', hkey⟩ := List.mem_map.mp hk
    exact h r' hr' (hkey.trans hk')

@[simp] theorem rows_append
    (t : Table key)
    (r : ρ)
    (h : ∀ r' ∈ t.rows, key r' ≠ key r) :
    (t.append r h).rows = t.rows ++ [r] := by
  rfl

@[simp] theorem rows_updateWhere
    (t : Table key)
    (p : ρ → Bool)
    (f : ρ → ρ)
    (hf : ∀ r, key (f r) = key r) :
    (t.updateWhere p f hf).rows =
      t.rows.map (fun r => if p r then f r else r) := by
  rfl

theorem mem_deleteWhere
    {t : Table key}
    {p : ρ → Bool}
    {r : ρ} :
    r ∈ (t.deleteWhere p).rows ↔ r ∈ t.rows ∧ p r = false := by
  simp [deleteWhere]

/-- A deletion leaves the rows it is not about. -/
theorem filter_deleteWhere
    (t : Table key)
    (p : ρ → Bool) :
    (t.deleteWhere p).rows.filter (fun r => !p r) = t.rows.filter (fun r => !p r) := by
  simp [deleteWhere, List.filter_filter]

/-- A table is given by its rows. -/
theorem eq_of_rows_eq
    {t t' : Table key}
    (h : t.rows = t'.rows) :
    t = t' := by
  cases t
  cases t'
  cases h
  rfl

/-- An update that rewrites no row. -/
theorem updateWhere_eq_self
    {t : Table key}
    {p : ρ → Bool}
    {f : ρ → ρ}
    {hf : ∀ r, key (f r) = key r}
    (h : ∀ r ∈ t.rows, p r = true → f r = r) :
    t.updateWhere p f hf = t := by
  apply eq_of_rows_eq
  rw [rows_updateWhere]
  conv_rhs => rw [← List.map_id t.rows]
  apply List.map_congr_left
  intro r hr
  split
  · next hp => exact h r hr hp
  · rfl

section Lookup

variable [DecidableEq κ]

/-- The row stored under a key. -/
def find?
    (t : Table key)
    (k : κ) :
    Option ρ :=
  t.rows.find? (fun r => decide (key r = k))

/-- Append a row, unless its key is taken. -/
def insert?
    (t : Table key)
    (r : ρ) :
    Option (Table key) :=
  if h : key r ∈ t.rows.map key then
    none
  else
    some
      { rows := t.rows ++ [r]
        nodup := by
          rw [List.map_append]
          refine List.Nodup.append t.nodup (List.nodup_singleton _) ?_
          intro k hk hk'
          rw [List.map_singleton, List.mem_singleton] at hk'
          exact h (hk' ▸ hk) }

/-- `update … where id = k`: rewrite the row under one key. -/
def alter
    (t : Table key)
    (k : κ)
    (f : ρ → ρ)
    (hf : ∀ r, key (f r) = key r) :
    Table key :=
  t.updateWhere (fun r => decide (key r = k)) f hf

theorem mem_of_find?
    {t : Table key}
    {k : κ}
    {r : ρ}
    (h : t.find? k = some r) :
    r ∈ t.rows :=
  List.mem_of_find?_eq_some h

theorem key_of_find?
    {t : Table key}
    {k : κ}
    {r : ρ}
    (h : t.find? k = some r) :
    key r = k := by
  have hk := List.find?_some h
  simpa using hk

/-- A row of the table is what a lookup of its key returns. -/
theorem find?_of_mem
    {t : Table key}
    {r : ρ}
    (h : r ∈ t.rows) :
    t.find? (key r) = some r := by
  cases hf : t.find? (key r) with
  | none =>
      have hnone := List.find?_eq_none.mp hf r h
      simp at hnone
  | some r' =>
      have hr' := mem_of_find? hf
      have hk := key_of_find? hf
      rw [t.eq_of_key_eq hr' h hk]

theorem find?_eq_some_iff
    {t : Table key}
    {k : κ}
    {r : ρ} :
    t.find? k = some r ↔ r ∈ t.rows ∧ key r = k := by
  constructor
  · intro h
    exact ⟨mem_of_find? h, key_of_find? h⟩
  · rintro ⟨h, rfl⟩
    exact find?_of_mem h

theorem find?_eq_none_iff
    {t : Table key}
    {k : κ} :
    t.find? k = none ↔ ∀ r ∈ t.rows, key r ≠ k := by
  simp [find?, List.find?_eq_none]

/-- Where the keys are distinct, the row of a key is selected alone. -/
theorem filter_key
    {rows : List ρ}
    (hnodup : (rows.map key).Nodup)
    {r : ρ}
    (hr : r ∈ rows) :
    rows.filter (fun r' => decide (key r' = key r)) = [r] := by
  induction rows with
  | nil => cases hr
  | cons r' rows ih =>
      rw [List.map_cons, List.nodup_cons] at hnodup
      obtain ⟨hfresh, hnodup⟩ := hnodup
      rcases List.mem_cons.mp hr with rfl | hr
      · have hrest : rows.filter (fun r' => decide (key r' = key r)) = [] := by
          rw [List.filter_eq_nil_iff]
          intro r' hr' hk
          rw [decide_eq_true_eq] at hk
          exact hfresh (List.mem_map.mpr ⟨r', hr', hk⟩)
        rw [List.filter_cons_of_pos (by simp), hrest]
      · have hne : key r' ≠ key r := fun hk => hfresh (List.mem_map.mpr ⟨r, hr, hk.symm⟩)
        rw [List.filter_cons_of_neg (by simp [hne]), ih hnodup hr]

/-- A lookup after a key-preserving rewrite finds the rewritten row. -/
theorem find?_modify
    (t : Table key)
    (f : ρ → ρ)
    (hf : ∀ r, key (f r) = key r)
    (k : κ) :
    (t.modify f hf).find? k = (t.find? k).map f := by
  unfold find? modify
  rw [List.find?_map]
  have hkey :
      ((fun r => decide (key r = k)) ∘ f) = (fun r => decide (key r = k)) := by
    funext r
    simp only [Function.comp, hf r]
  rw [hkey]

@[simp] theorem find?_updateWhere
    (t : Table key)
    (p : ρ → Bool)
    (f : ρ → ρ)
    (hf : ∀ r, key (f r) = key r)
    (k : κ) :
    (t.updateWhere p f hf).find? k =
      (t.find? k).map (fun r => if p r then f r else r) :=
  find?_modify t _ _ k

/-- An update of one key changes that lookup and no other. -/
theorem find?_alter
    (t : Table key)
    (k : κ)
    (f : ρ → ρ)
    (hf : ∀ r, key (f r) = key r)
    (k' : κ) :
    (t.alter k f hf).find? k' =
      if k' = k then (t.find? k').map f else t.find? k' := by
  unfold alter
  rw [find?_updateWhere]
  cases hr : t.find? k' with
  | none =>
      simp
  | some r =>
      have hk := key_of_find? hr
      by_cases h : k' = k
      · simp [hk, h]
      · simp [hk, h]

/-- An update leaves the columns that it does not write. -/
theorem of_mem_alter
    {β : Type*}
    {t : Table key}
    {k : κ}
    {f : ρ → ρ}
    {hf : ∀ r, key (f r) = key r}
    {r : ρ}
    (columns : ρ → β)
    (hr : r ∈ (t.alter k f hf).rows)
    (hsame : ∀ r, columns (f r) = columns r) :
    ∃ old ∈ t.rows, columns old = columns r := by
  unfold alter at hr
  rw [rows_updateWhere, List.mem_map] at hr
  obtain ⟨old, hold, rfl⟩ := hr
  refine ⟨old, hold, ?_⟩
  split
  · exact (hsame old).symm
  · rfl

/-- An update of one row that leaves it as it is. -/
theorem alter_eq_self
    {t : Table key}
    {k : κ}
    {f : ρ → ρ}
    {hf : ∀ r, key (f r) = key r}
    (h : ∀ r, t.find? k = some r → f r = r) :
    t.alter k f hf = t := by
  apply updateWhere_eq_self
  intro r hr hk
  rw [decide_eq_true_eq] at hk
  exact h r (find?_eq_some_iff.mpr ⟨hr, hk⟩)

/-- Two updates that do the same to the row of the key. -/
theorem alter_congr
    {t : Table key}
    {k : κ}
    {f g : ρ → ρ}
    {hf : ∀ r, key (f r) = key r}
    {hg : ∀ r, key (g r) = key r}
    (h : ∀ r, t.find? k = some r → f r = g r) :
    t.alter k f hf = t.alter k g hg := by
  apply eq_of_rows_eq
  unfold alter
  rw [rows_updateWhere, rows_updateWhere]
  apply List.map_congr_left
  intro r hr
  split
  · next hk =>
      rw [decide_eq_true_eq] at hk
      exact h r (find?_eq_some_iff.mpr ⟨hr, hk⟩)
  · rfl

theorem insert?_eq_none_iff
    {t : Table key}
    {r : ρ} :
    t.insert? r = none ↔ ∃ r', t.find? (key r) = some r' := by
  unfold insert?
  constructor
  · intro h
    split at h
    · next hmem =>
        obtain ⟨r', hr', hk⟩ := List.mem_map.mp hmem
        exact ⟨r', find?_eq_some_iff.mpr ⟨hr', hk⟩⟩
    · cases h
  · rintro ⟨r', hr'⟩
    have hmem : key r ∈ t.rows.map key :=
      List.mem_map.mpr ⟨r', mem_of_find? hr', key_of_find? hr'⟩
    rw [dif_pos hmem]

/-- An accepted insertion appends the row, whose key was free. -/
theorem insert?_eq_some
    {t t' : Table key}
    {r : ρ}
    (h : t.insert? r = some t') :
    t.find? (key r) = none ∧ t'.rows = t.rows ++ [r] := by
  unfold insert? at h
  split at h
  · cases h
  · next hmem =>
      refine ⟨?_, ?_⟩
      · rw [find?_eq_none_iff]
        intro r' hr' hk
        exact hmem (List.mem_map.mpr ⟨r', hr', hk⟩)
      · rw [← Option.some.inj h]

/-- A lookup after an insertion finds the new row under its key. -/
theorem find?_insert?
    {t t' : Table key}
    {r : ρ}
    (h : t.insert? r = some t')
    (k : κ) :
    t'.find? k = if k = key r then some r else t.find? k := by
  obtain ⟨hfree, hrows⟩ := insert?_eq_some h
  unfold find?
  rw [hrows, List.find?_append]
  by_cases hk : k = key r
  · subst hk
    have hnone : t.rows.find? (fun r' => decide (key r' = key r)) = none := hfree
    simp [hnone]
  · have hne : ¬ key r = k := fun h' => hk h'.symm
    simp [hk, hne]

/-- Write a row: it replaces the row under its key, or is appended. -/
def put
    (t : Table key)
    (r : ρ) :
    Table key :=
  if h : ∃ r' ∈ t.rows, key r' = key r then
    t.modify (fun r' => if key r' = key r then r else r') (by
      intro r'
      split
      · next hk => exact hk.symm
      · rfl)
  else
    t.append r (fun r' hr' hk => h ⟨r', hr', hk⟩)

theorem mem_put
    {t : Table key}
    {r r' : ρ}
    (h : r' ∈ (t.put r).rows) :
    r' = r ∨ r' ∈ t.rows := by
  unfold put at h
  split at h
  · simp only [modify, List.mem_map] at h
    obtain ⟨old, hold, rfl⟩ := h
    split
    · exact .inl rfl
    · exact .inr hold
  · rw [rows_append, List.mem_append, List.mem_singleton] at h
    exact h.symm

/-- A lookup after a write finds the written row under its key. -/
@[simp] theorem find?_put
    (t : Table key)
    (r : ρ)
    (k : κ) :
    (t.put r).find? k = if k = key r then some r else t.find? k := by
  unfold put
  split
  · next h =>
      obtain ⟨r', hr', hk'⟩ := h
      rw [find?_modify]
      cases hfind : t.find? k with
      | none =>
          have hne : k ≠ key r := by
            rintro rfl
            exact find?_eq_none_iff.mp hfind r' hr' hk'
          simp [hne]
      | some r₁ =>
          have hk₁ := key_of_find? hfind
          by_cases hk : k = key r
          · simp [hk₁, hk]
          · simp [hk₁, hk]
  · next h =>
      unfold find?
      rw [rows_append, List.find?_append]
      by_cases hk : k = key r
      · subst hk
        have hnone : t.rows.find? (fun r' => decide (key r' = key r)) = none := by
          rw [List.find?_eq_none]
          intro r' hr' hk'
          exact h ⟨r', hr', by simpa using hk'⟩
        simp [hnone]
      · have hne : ¬ key r = k := fun h' => hk h'.symm
        simp [hk, hne]

/-- A sum over the rows after a write: the amount of the old row goes, that of the new comes. -/
theorem sum_put
    (t : Table key)
    (r : ρ)
    (f : ρ → Nat) :
    ((t.put r).rows.map f).sum + (t.find? (key r)).elim 0 f = (t.rows.map f).sum + f r := by
  cases hfind : t.find? (key r) with
  | none =>
      have hfree := find?_eq_none_iff.mp hfind
      have hput : (t.put r).rows = t.rows ++ [r] := by
        unfold put
        rw [dif_neg (by rintro ⟨r', hr', hk⟩; exact hfree r' hr' hk)]
        rfl
      simp [hput]
  | some r₀ =>
      obtain ⟨hr₀, hk₀⟩ := find?_eq_some_iff.mp hfind
      have hput : (t.put r).rows = t.rows.map (fun r' => if key r' = key r then r else r') := by
        unfold put
        rw [dif_pos ⟨r₀, hr₀, hk₀⟩]
        rfl
      rw [hput]
      obtain ⟨before, after, hsplit⟩ := List.append_of_mem hr₀
      -- the other rows are left as they are
      have hother : ∀ r' ∈ before ++ after,
          (if key r' = key r then r else r') = r' := by
        intro r' hr'
        have hnodup := t.nodup
        rw [hsplit] at hnodup
        have hperm : (before ++ r₀ :: after).Perm (r₀ :: (before ++ after)) :=
          List.perm_middle
        have hkeys := (hperm.map key).nodup_iff.mp hnodup
        rw [List.map_cons, List.nodup_cons] at hkeys
        rw [if_neg]
        intro hk
        exact hkeys.1 (List.mem_map.mpr ⟨r', hr', hk.trans hk₀.symm⟩)
      have hkept : ∀ rows : List ρ, (∀ r' ∈ rows, r' ∈ before ++ after) →
          rows.map (fun r' => f (if key r' = key r then r else r')) = rows.map f := by
        intro rows hrows
        apply List.map_congr_left
        intro r' hr'
        rw [hother r' (hrows r' hr')]
      rw [hsplit, List.map_map]
      simp only [Function.comp_def, List.map_append, List.map_cons, List.sum_append,
        List.sum_cons, hk₀, if_true, Option.elim]
      rw [hkept before (fun _ h => by simp [h]), hkept after (fun _ h => by simp [h])]
      omega

/-- An update of one row is invisible to a selection that holds neither version of it. -/
theorem filter_rows_alter
    (t : Table key)
    (k : κ)
    (f : ρ → ρ)
    (hf : ∀ r, key (f r) = key r)
    (p : ρ → Bool)
    (h : ∀ r, t.find? k = some r → p r = false ∧ p (f r) = false) :
    (t.alter k f hf).rows.filter p = t.rows.filter p := by
  have hrow : ∀ r ∈ t.rows, key r = k → p r = false ∧ p (f r) = false := by
    intro r hr hk
    exact h r (find?_eq_some_iff.mpr ⟨hr, hk⟩)
  unfold alter
  rw [rows_updateWhere]
  generalize t.rows = rows at hrow
  induction rows with
  | nil =>
      rfl
  | cons r rows ih =>
      have hrest := ih (fun r' hr' => hrow r' (List.mem_cons_of_mem r hr'))
      by_cases hk : key r = k
      · obtain ⟨hbefore, hafter⟩ := hrow r (by simp) hk
        simp only [List.map_cons, hk, decide_true, if_true, List.filter_cons, hafter, hbefore,
          Bool.false_eq_true, if_false]
        exact hrest
      · simp only [List.map_cons, hk, decide_false, Bool.false_eq_true, if_false,
          List.filter_cons]
        rw [hrest]

/-- An insertion is invisible to a selection that does not hold the new row. -/
theorem filter_rows_insert?
    {t t' : Table key}
    {r : ρ}
    (h : t.insert? r = some t')
    (p : ρ → Bool)
    (hp : p r = false) :
    t'.rows.filter p = t.rows.filter p := by
  rw [(insert?_eq_some h).2, List.filter_append]
  simp [hp]

end Lookup

end Table

/-! ## Association lists -/

section Association

variable {κ : Type u} {β γ : Type v} [DecidableEq κ]

/-- Where the keys are distinct, a lookup finds what stands in the list. -/
theorem lookup_eq_some_iff_mem
    {items : List (κ × β)}
    (hnodup : (items.map Prod.fst).Nodup)
    {k : κ} {b : β} :
    items.lookup k = some b ↔ (k, b) ∈ items := by
  induction items with
  | nil => simp
  | cons item rest ih =>
      obtain ⟨k', b'⟩ := item
      simp only [List.map_cons, List.nodup_cons] at hnodup
      simp only [List.lookup_cons, List.mem_cons, Prod.mk.injEq]
      by_cases hk : k = k'
      · subst hk
        simp only [beq_self_eq_true, Option.some.injEq, true_and]
        constructor
        · intro hb
          exact .inl hb.symm
        · rintro (hb | hmem)
          · exact hb.symm
          · exact absurd (List.mem_map.mpr ⟨_, hmem, rfl⟩) hnodup.1
      · simp only [beq_eq_false_iff_ne.mpr hk, hk, false_and, false_or]
        exact ih hnodup.2

/-- The order of an association list does not matter to its lookups. -/
theorem lookup_perm
    {items items' : List (κ × β)}
    (hperm : items.Perm items')
    (hnodup : (items.map Prod.fst).Nodup)
    (k : κ) :
    items.lookup k = items'.lookup k := by
  have hnodup' : (items'.map Prod.fst).Nodup := (hperm.map Prod.fst).nodup_iff.mp hnodup
  apply Option.ext
  intro b
  rw [lookup_eq_some_iff_mem hnodup, lookup_eq_some_iff_mem hnodup', hperm.mem_iff]

theorem lookup_map_snd
    (items : List (κ × β)) (g : β → γ) (k : κ) :
    (items.map (fun item => (item.1, g item.2))).lookup k = (items.lookup k).map g := by
  induction items with
  | nil => rfl
  | cons item rest ih =>
      obtain ⟨k', b⟩ := item
      simp only [List.map_cons, List.lookup_cons, ih]
      cases k == k' with
      | true => rfl
      | false => rfl

theorem isSome_lookup_iff
    {items : List (κ × β)} {k : κ} :
    (items.lookup k).isSome = true ↔ k ∈ items.map Prod.fst := by
  induction items with
  | nil => simp
  | cons item rest ih =>
      obtain ⟨k', b⟩ := item
      simp only [List.lookup_cons, List.map_cons, List.mem_cons, ← ih]
      by_cases hk : k = k'
      · simp [hk]
      · simp [beq_eq_false_iff_ne.mpr hk, hk]

end Association

/-! ## The values of a column -/

/-- The range of an `integer` column. -/
def fitsInteger (n : Int) : Bool :=
  -(2 ^ 31) ≤ n ∧ n < 2 ^ 31

/-- The range of a `bigint` column. -/
def fitsBigint (n : Int) : Bool :=
  -(2 ^ 63) ≤ n ∧ n < 2 ^ 63

/-- A `text` value, and a string of a `jsonb` one: PostgreSQL has no NUL character. -/
def fitsText (s : String) : Bool :=
  !s.toList.contains '\x00'

end Lib
end PrReviewer
