/-
  Pulse.Store.Sorting
  ───────────────────
  What `ORDER BY` answers where no two rows tie: it depends on which rows there
  are only, and starts with the least.  And what `LIMIT` leaves of a history that
  was read backwards: its last members.
-/
import Mathlib.Data.List.DropRight
import Mathlib.Data.List.Sort
import Mathlib.Data.List.Nodup

namespace Pulse.Store

/-! ## §1. Orders without ties. -/

section Sorting

variable {α : Type} {le : α → α → Prop} [DecidableRel le] [Std.Total le] [IsTrans α le]

/-- Two lists with the same members are sorted into the same list, if no two of them tie. -/
theorem insertionSort_congr {l l' : List α} (hl : l.Nodup) (hl' : l'.Nodup)
    (hmem : ∀ x, x ∈ l ↔ x ∈ l') (hanti : ∀ x ∈ l, ∀ y ∈ l, le x y → le y x → x = y) :
    l.insertionSort le = l'.insertionSort le := by
  have hperm : (l.insertionSort le).Perm (l'.insertionSort le) :=
    (List.perm_insertionSort le l).trans
      (((List.perm_ext_iff_of_nodup hl hl').mpr hmem).trans (List.perm_insertionSort le l').symm)
  refine List.Perm.eq_of_pairwise (fun x y hx hy => ?_) (List.pairwise_insertionSort le l)
    (List.pairwise_insertionSort le l') hperm
  exact hanti x ((List.mem_insertionSort le).mp hx) y
    ((hmem y).mpr ((List.mem_insertionSort le).mp hy))

/-- A sorted list starts with a least member. -/
theorem least_of_insertionSort {l : List α} {m : α} {ms : List α}
    (h : l.insertionSort le = m :: ms) : m ∈ l ∧ ∀ x ∈ l, le m x := by
  have hsorted := List.pairwise_insertionSort le l
  rw [h] at hsorted
  refine ⟨(List.mem_insertionSort le).mp (h ▸ List.mem_cons_self), fun x hx => ?_⟩
  have hx' : x ∈ m :: ms := h ▸ (List.mem_insertionSort le).mpr hx
  rcases List.mem_cons.mp hx' with rfl | hx'
  · exact (Std.Total.total x x).elim id id
  · exact List.rel_of_pairwise_cons hsorted hx'

/-- A member that no other is below, or ties with, comes first. -/
theorem take_one_insertionSort {l : List α} {m : α} (hm : m ∈ l)
    (hanti : ∀ x ∈ l, le x m → x = m) : (l.insertionSort le).take 1 = [m] := by
  cases hsort : l.insertionSort le with
  | nil =>
      have hmem : m ∈ l.insertionSort le := (List.mem_insertionSort le).mpr hm
      rw [hsort] at hmem
      exact absurd hmem List.not_mem_nil
  | cons x xs =>
      obtain ⟨hx, hxleast⟩ := least_of_insertionSort hsort
      rw [hanti x hx (hxleast m hm)]
      rfl

end Sorting

/-! ## §2. The last members of a list. -/

section Last

variable {α : Type} {n k : ℕ}

theorem length_rtake (xs : List α) (k : ℕ) : (xs.rtake k).length = min k xs.length := by
  unfold List.rtake
  rw [List.length_drop]
  omega

theorem rtake_of_length_le {xs : List α} (h : xs.length ≤ k) : xs.rtake k = xs := by
  unfold List.rtake
  rw [Nat.sub_eq_zero_of_le h, List.drop_zero]

theorem rtake_append_of_length (xs : List α) {ys : List α} (h : ys.length = k) :
    (xs ++ ys).rtake k = ys := by
  unfold List.rtake
  rw [List.length_append, h, Nat.add_sub_cancel, List.drop_left]

theorem rtake_rtake (xs : List α) (h : n ≤ k) : (xs.rtake k).rtake n = xs.rtake n := by
  unfold List.rtake
  rw [List.length_drop, List.drop_drop]
  congr 1
  omega

theorem rtake_replicate (a : α) (h : n ≤ k) :
    (List.replicate k a).rtake n = List.replicate n a := by
  unfold List.rtake
  rw [List.length_replicate, List.drop_replicate]
  congr 1
  omega

end Last

end Pulse.Store
