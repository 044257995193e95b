/-
  Pulse.Core.Peaks
  ────────────────
  **RECORD HIGHS.**

  Of items that come one after the other, those whose key is above all that came before; over
  any linear order.

    • `highs`, `top`  — these items, and the highest key,
    • `highs_append`  — what comes later,
    • `exists_high`   — where keys never descend, no key is passed over,
    • `isChain_highs` — where keys rise by one step at most, highs rise by one step.
-/
import Mathlib.Order.Lattice
import Mathlib.Data.List.Chain

namespace Pulse.Peaks

variable {α τ : Type*} [LinearOrder τ]

/-! ## §1. Highs. -/

/-- Above the highest key so far, if there is one. -/
def above (last : Option τ) (k : τ) : Bool :=
  match last with
  | none => true
  | some t => t < k

theorem above_iff {last : Option τ} {k : τ} :
    above last k = true ↔ ∀ t, last = some t → t < k := by
  cases last with
  | none => simp [above]
  | some t => simp [above]

section Highs

variable (key : α → τ)

def highs (last : Option τ) : List α → List α
  | [] => []
  | x :: xs => if above last (key x) then x :: highs (some (key x)) xs else highs last xs

def top (last : Option τ) : List α → Option τ
  | [] => last
  | x :: xs => if above last (key x) then top (some (key x)) xs else top last xs

theorem highs_cons (last : Option τ) (x : α) (xs : List α) : highs key last (x :: xs)
    = if above last (key x) then x :: highs key (some (key x)) xs else highs key last xs := rfl

theorem top_cons (last : Option τ) (x : α) (xs : List α) : top key last (x :: xs)
    = if above last (key x) then top key (some (key x)) xs else top key last xs := rfl

theorem highs_append (last : Option τ) (xs ys : List α) :
    highs key last (xs ++ ys) = highs key last xs ++ highs key (top key last xs) ys := by
  induction xs generalizing last with
  | nil => rfl
  | cons x xs ih =>
      rw [List.cons_append, highs_cons, highs_cons, top_cons]
      split
      next => rw [ih, List.cons_append]
      next => exact ih last

theorem top_append (last : Option τ) (xs ys : List α) :
    top key last (xs ++ ys) = top key (top key last xs) ys := by
  induction xs generalizing last with
  | nil => rfl
  | cons x xs ih =>
      rw [List.cons_append, top_cons, top_cons]
      split
      next => exact ih _
      next => exact ih last

variable {key} {last : Option τ} {x : α} {xs : List α}

/-- One more item, which is a high. -/
theorem highs_append_above (h : above (top key last xs) (key x) = true) :
    highs key last (xs ++ [x]) = highs key last xs ++ [x] ∧
      top key last (xs ++ [x]) = some (key x) := by
  rw [highs_append, top_append, highs_cons, top_cons, if_pos h, if_pos h]
  exact ⟨rfl, rfl⟩

/-- One more item, which is none. -/
theorem highs_append_below (h : above (top key last xs) (key x) = false) :
    highs key last (xs ++ [x]) = highs key last xs ∧
      top key last (xs ++ [x]) = top key last xs := by
  have hlow : ¬ above (top key last xs) (key x) = true := by rw [h]; simp
  rw [highs_append, top_append, highs_cons, top_cons, if_neg hlow, if_neg hlow]
  exact ⟨List.append_nil _, rfl⟩

/-! ## §2. Keys that never descend. -/

/-- **No key is passed over**: it is that of a high, or one that was there before. -/
theorem exists_high (hmono : xs.Pairwise fun x y => key x ≤ key y) (hx : x ∈ xs) :
    (∃ t, last = some t ∧ key x ≤ t) ∨ ∃ y ∈ highs key last xs, key y = key x := by
  induction xs generalizing last with
  | nil => exact absurd hx (by simp)
  | cons first xs ih =>
      obtain ⟨hfirst, hrest⟩ := List.pairwise_cons.mp hmono
      rw [highs_cons]
      by_cases hhigh : above last (key first) = true
      · rw [if_pos hhigh]
        rcases List.mem_cons.mp hx with rfl | hx
        · exact Or.inr ⟨x, List.mem_cons_self, rfl⟩
        · rcases ih hrest hx with ⟨t, ht, hle⟩ | ⟨y, hy, hsame⟩
          · obtain rfl := Option.some.inj ht
            exact Or.inr ⟨first, List.mem_cons_self, le_antisymm (hfirst x hx) hle⟩
          · exact Or.inr ⟨y, List.mem_cons_of_mem _ hy, hsame⟩
      · rw [if_neg hhigh]
        rcases List.mem_cons.mp hx with rfl | hx
        · rw [above_iff] at hhigh
          push Not at hhigh
          exact Or.inl hhigh
        · exact ih hrest hx

/-! ## §3. Keys that rise by one step at most. -/

variable {next : τ → τ}

/-- After a high, the next one is a step above. -/
theorem isChain_highs_cons (hnext : ∀ k, k < next k)
    (hstep : (x :: xs).IsChain fun x y => key y = key x ∨ key y = next (key x)) :
    (x :: highs key (some (key x)) xs).IsChain fun x y => key y = next (key x) := by
  induction xs generalizing x with
  | nil => exact List.isChain_singleton x
  | cons y ys ih =>
      obtain ⟨hy, hrest⟩ := List.isChain_cons_cons.mp hstep
      rw [highs_cons]
      rcases hy with hsame | hrise
      · -- the key stays
        have hlow : ¬ above (some (key x)) (key y) = true := by
          rw [above_iff, hsame]
          intro hlt
          exact lt_irrefl _ (hlt _ rfl)
        rw [if_neg hlow]
        have htail := ih hrest
        rw [hsame] at htail
        rw [List.isChain_cons] at htail ⊢
        rw [hsame] at htail
        exact htail
      · have hhigh : above (some (key x)) (key y) = true := by
          rw [above_iff, hrise]
          intro t ht
          obtain rfl := Option.some.inj ht
          exact hnext _
        rw [if_pos hhigh]
        exact List.isChain_cons_cons.mpr ⟨hrise, ih hrest⟩

/-- **Highs rise by one step.** -/
theorem isChain_highs (hnext : ∀ k, k < next k)
    (hstep : xs.IsChain fun x y => key y = key x ∨ key y = next (key x)) :
    (highs key last xs).IsChain fun x y => key y = next (key x) := by
  induction xs generalizing last with
  | nil => exact List.isChain_nil
  | cons x xs ih =>
      rw [highs_cons]
      split
      next => exact isChain_highs_cons hnext hstep
      next => exact ih hstep.tail

end Highs

end Pulse.Peaks
