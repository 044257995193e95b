/-
  Pulse.Store.Table
  ─────────────────
  **TABLES WITH A PRIMARY KEY, AND ORDERED PAGES OF A QUERY.**

  A `Table` carries the proof that its keys are distinct, so no operation can
  build a table with two rows of one key.

    • `get`/`insertNew`/`modify`/`delete` with their get-after-write laws,
    • `IsPage` — what `ORDER BY key LIMIT n` may answer: the order of rows that
      tie is left open, as in SQL.
-/
import Mathlib.Data.List.Nodup
import Mathlib.Order.Lattice

namespace Pulse.Store

/-! ## §1. Tables. -/

/-- Rows with pairwise distinct keys. -/
structure Table {κ α : Type} (key : α → κ) where
  rows : List α
  nodup : (rows.map key).Nodup

namespace Table

variable {κ α : Type} [DecidableEq κ] {key : α → κ}

/-- The table without rows. -/
def empty : Table key := ⟨[], List.nodup_nil⟩

/-- The row with key `k`. -/
def get (t : Table key) (k : κ) : Option α := t.rows.find? (fun x => key x = k)

/-- Add a row unless its key is taken. -/
def insertNew (t : Table key) (x : α) : Table key :=
  if h : key x ∈ t.rows.map key then t
  else ⟨t.rows ++ [x], by
    rw [List.map_append, List.nodup_append]
    exact ⟨t.nodup, List.nodup_singleton _, fun a ha b hb => by
      simp only [List.map_cons, List.map_nil, List.mem_singleton] at hb
      exact fun hab => h (hb ▸ hab ▸ ha)⟩⟩

/-- Rewrite the row with key `k` by a function that keeps keys. -/
def modify (t : Table key) (k : κ) (f : α → α) (hf : ∀ x, key (f x) = key x) :
    Table key :=
  ⟨t.rows.map (fun x => if key x = k then f x else x), by
    rw [List.map_map]
    have hkey : (key ∘ fun x => if key x = k then f x else x) = key := by
      funext x
      show key (if key x = k then f x else x) = key x
      split
      next => exact hf x
      next => rfl
    rw [hkey]
    exact t.nodup⟩

/-- Remove the row with key `k`. -/
def delete (t : Table key) (k : κ) : Table key :=
  ⟨t.rows.filter (fun x => key x ≠ k),
    t.nodup.sublist (List.Sublist.map key List.filter_sublist)⟩

/-- Keep the rows that pass `p`. -/
def restrict (t : Table key) (p : α → Bool) : Table key :=
  ⟨t.rows.filter p, t.nodup.sublist (List.Sublist.map key List.filter_sublist)⟩

theorem get_eq_some {t : Table key} {k : κ} {x : α} :
    t.get k = some x ↔ x ∈ t.rows ∧ key x = k := by
  unfold get
  constructor
  · intro h
    exact ⟨List.mem_of_find?_eq_some h, by simpa using List.find?_some h⟩
  · rintro ⟨hx, rfl⟩
    cases hf : t.rows.find? (fun y => key y = key x) with
    | none =>
        have := List.find?_eq_none.mp hf x hx
        simp at this
    | some y =>
        have hy : y ∈ t.rows := List.mem_of_find?_eq_some hf
        have hky : key y = key x := by simpa using List.find?_some hf
        rw [List.inj_on_of_nodup_map t.nodup hy hx hky]

theorem get_eq_none {t : Table key} {k : κ} :
    t.get k = none ↔ ∀ x ∈ t.rows, key x ≠ k := by
  simp [get, List.find?_eq_none]

theorem get_key {t : Table key} {k : κ} {x : α} (h : t.get k = some x) : key x = k :=
  (get_eq_some.mp h).2

theorem get_of_mem {t : Table key} {x : α} (h : x ∈ t.rows) : t.get (key x) = some x :=
  get_eq_some.mpr ⟨h, rfl⟩

@[simp] theorem get_empty (k : κ) : (empty : Table key).get k = none := rfl

/-! ### Reading after writing. -/

theorem insertNew_rows_of_fresh {t : Table key} {x : α} (h : t.get (key x) = none) :
    (t.insertNew x).rows = t.rows ++ [x] := by
  have hx : key x ∉ t.rows.map key := by
    rw [get_eq_none] at h
    simpa using h
  unfold insertNew
  rw [dif_neg hx]

theorem get_insertNew_self {t : Table key} {x : α} (h : t.get (key x) = none) :
    (t.insertNew x).get (key x) = some x := by
  rw [get_eq_some, insertNew_rows_of_fresh h]
  simp

theorem get_insertNew_other {t : Table key} {x : α} {k : κ} (h : key x ≠ k) :
    (t.insertNew x).get k = t.get k := by
  unfold insertNew
  split
  next => rfl
  next => simp [get, List.find?_append, h]

theorem get_insertNew_of_some {t : Table key} {k : κ} {y : α} (h : t.get k = some y)
    (x : α) : (t.insertNew x).get k = some y := by
  obtain ⟨hy, hk⟩ := get_eq_some.mp h
  rw [get_eq_some]
  refine ⟨?_, hk⟩
  unfold insertNew
  split
  next => exact hy
  next => exact List.mem_append_left _ hy

theorem rows_subset_insertNew (t : Table key) (x : α) :
    ∀ y ∈ t.rows, y ∈ (t.insertNew x).rows := by
  intro y hy
  unfold insertNew
  split
  next => exact hy
  next => exact List.mem_append_left _ hy

theorem rows_subset_foldl_insertNew (t : Table key) (xs : List α) :
    ∀ y ∈ t.rows, y ∈ (xs.foldl insertNew t).rows := by
  induction xs generalizing t with
  | nil => exact fun y hy => hy
  | cons x xs ih => exact fun y hy => ih _ y (rows_subset_insertNew t x y hy)

theorem mem_insertNew {t : Table key} {x y : α} (h : y ∈ (t.insertNew x).rows) :
    y ∈ t.rows ∨ y = x := by
  unfold insertNew at h
  split at h
  next => exact Or.inl h
  next => simpa using h

/-- Rows with new keys are added in order. -/
theorem foldl_insertNew_rows {t : Table key} {xs : List α}
    (h : ((t.rows ++ xs).map key).Nodup) :
    (xs.foldl insertNew t).rows = t.rows ++ xs := by
  induction xs generalizing t with
  | nil => simp
  | cons x xs ih =>
      have hfresh : t.get (key x) = none := by
        rw [get_eq_none]
        intro y hy hkey
        rw [List.map_append, List.nodup_append] at h
        exact h.2.2 (key y) (List.mem_map_of_mem hy) (key x) (by simp) hkey
      have hrows := insertNew_rows_of_fresh hfresh
      rw [List.foldl_cons, ih (by rw [hrows]; simpa using h), hrows]
      simp

/-- Rows that are added are the given ones, in order, less those whose key is
taken. -/
theorem foldl_insertNew_sublist (t : Table key) (xs : List α) :
    (xs.foldl insertNew t).rows.Sublist (t.rows ++ xs) := by
  induction xs generalizing t with
  | nil => simp
  | cons x xs ih =>
      have hone : (t.insertNew x).rows.Sublist (t.rows ++ [x]) := by
        unfold insertNew
        split
        next => exact List.sublist_append_left _ _
        next => exact List.Sublist.refl _
      have := (ih (t.insertNew x)).trans (List.Sublist.append_right hone xs)
      simpa using this

theorem get_modify_self (t : Table key) (k : κ) (f : α → α)
    (hf : ∀ x, key (f x) = key x) : (t.modify k f hf).get k = (t.get k).map f := by
  cases hg : t.get k with
  | none =>
      rw [get_eq_none] at hg
      rw [Option.map_none, get_eq_none]
      intro x hx
      obtain ⟨y, hy, rfl⟩ := List.mem_map.mp hx
      rw [if_neg (hg y hy)]
      exact hg y hy
  | some x =>
      rw [get_eq_some] at hg
      rw [Option.map_some, get_eq_some]
      exact ⟨List.mem_map.mpr ⟨x, hg.1, by rw [if_pos hg.2]⟩, by rw [hf]; exact hg.2⟩

theorem get_modify_other (t : Table key) {k k' : κ} (f : α → α)
    (hf : ∀ x, key (f x) = key x) (h : k ≠ k') :
    (t.modify k f hf).get k' = t.get k' := by
  cases hg : t.get k' with
  | none =>
      rw [get_eq_none] at hg ⊢
      intro x hx
      obtain ⟨y, hy, rfl⟩ := List.mem_map.mp hx
      split
      next => rw [hf]; exact hg y hy
      next => exact hg y hy
  | some x =>
      rw [get_eq_some] at hg ⊢
      refine ⟨List.mem_map.mpr ⟨x, hg.1, ?_⟩, hg.2⟩
      rw [if_neg (by rw [hg.2]; exact fun hk => h hk.symm)]

theorem mem_modify {t : Table key} {k : κ} {f : α → α} {hf : ∀ x, key (f x) = key x}
    {y : α} (h : y ∈ (t.modify k f hf).rows) :
    ∃ x ∈ t.rows, y = if key x = k then f x else x := by
  obtain ⟨x, hx, rfl⟩ := List.mem_map.mp h
  exact ⟨x, hx, rfl⟩

/-! ### Rows that pass a filter. -/

theorem filter_foldl_insertNew {p : α → Bool} {t : Table key} {xs : List α}
    (h : ∀ x ∈ xs, p x = false) :
    (xs.foldl insertNew t).rows.filter p = t.rows.filter p := by
  induction xs generalizing t with
  | nil => rfl
  | cons x xs ih =>
      rw [List.foldl_cons, ih fun y hy => h y (List.mem_cons_of_mem x hy)]
      unfold insertNew
      split
      next => rfl
      next => simp [List.filter_append, h x List.mem_cons_self]

/-- A filter that does not see the row that is rewritten. -/
theorem filter_modify_of_not {p : α → Bool} {t : Table key} {k : κ} {f : α → α}
    (hf : ∀ x, key (f x) = key x)
    (h : ∀ x, t.get k = some x → p x = false ∧ p (f x) = false) :
    (t.modify k f hf).rows.filter p = t.rows.filter p := by
  have hrow : ∀ x ∈ t.rows, key x = k → p x = false ∧ p (f x) = false :=
    fun x hx hk => h x (get_eq_some.mpr ⟨hx, hk⟩)
  show (t.rows.map fun x => if key x = k then f x else x).filter p = t.rows.filter p
  generalize t.rows = rows at hrow
  induction rows with
  | nil => rfl
  | cons x rows ih =>
      have ih := ih fun y hy => hrow y (List.mem_cons_of_mem x hy)
      by_cases hk : key x = k
      · obtain ⟨hx, hfx⟩ := hrow x List.mem_cons_self hk
        simp only [List.map_cons, if_pos hk, List.filter_cons, hx, hfx]
        exact ih
      · simp only [List.map_cons, if_neg hk, List.filter_cons]
        rw [ih]

/-- A filter that the rewriting does not change. -/
theorem filter_modify_of_keep {p : α → Bool} {t : Table key} {k : κ} {f : α → α}
    (hf : ∀ x, key (f x) = key x) (h : ∀ x, p (f x) = p x) :
    (t.modify k f hf).rows.filter p
      = (t.rows.filter p).map fun x => if key x = k then f x else x := by
  show (t.rows.map fun x => if key x = k then f x else x).filter p = _
  rw [List.filter_map]
  congr 1
  refine List.filter_congr fun x _ => ?_
  show p (if key x = k then f x else x) = p x
  split
  next => exact h x
  next => rfl

end Table

/-! ## §2. Pages of an ordered query. -/

section Pages

variable {α τ : Type} [LinearOrder τ]

/-- `page` is a possible answer to `SELECT … ORDER BY key LIMIT limit` when
`matching` are the rows that pass the filter: rows that tie may come in any
order, and any of them may be the ones cut off. -/
def IsPage (key : α → τ) (limit : Nat) (matching page : List α) : Prop :=
  page.Nodup ∧ page.length = min limit matching.length ∧
  page.Pairwise (fun x y => key x ≤ key y) ∧
  (∀ x ∈ page, x ∈ matching) ∧
  ∀ y ∈ matching, y ∈ page ∨ ∀ x ∈ page, key x ≤ key y

instance [DecidableEq α] (key : α → τ) (limit : Nat) (matching page : List α) :
    Decidable (IsPage key limit matching page) :=
  inferInstanceAs (Decidable (_ ∧ _ ∧ _ ∧ _ ∧ _))

theorem IsPage.mem {key : α → τ} {limit : Nat} {matching page : List α}
    (h : IsPage key limit matching page) {x : α} (hx : x ∈ page) : x ∈ matching :=
  h.2.2.2.1 x hx

theorem IsPage.nodup {key : α → τ} {limit : Nat} {matching page : List α}
    (h : IsPage key limit matching page) : page.Nodup := h.1

/-- A page of one table has one row per key. -/
theorem IsPage.nodup_map {κ : Type} {key : α → τ} {limit : Nat}
    {matching page : List α} {id : α → κ} (h : IsPage key limit matching page)
    (hid : (matching.map id).Nodup) : (page.map id).Nodup :=
  (List.nodup_map_iff_inj_on h.nodup).mpr fun _ hx _ hy hxy =>
    List.inj_on_of_nodup_map hid (h.mem hx) (h.mem hy) hxy

end Pages

end Pulse.Store
