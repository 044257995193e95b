/-
  Pulse.Store.Growing
  ───────────────────
  **PAGES OF A SERIES THAT GROWS.**

  A reader asks for one page after the other, and rows are inserted in between.
  Where keys are distinct the database has no ties to break, so only the inserts
  can disturb the reader.

    • `arrange_unique`   — distinct keys leave one arrangement,
    • `collected_all`    — rows that enter behind the others: each row once, in order,
    • `seen_of_inserted` — rows that enter anywhere: none of the first query is missed.
-/
import Mathlib.Data.List.Perm.Subperm
import Pulse.Store.Paging

namespace Pulse.Store

section Growing

variable {α τ : Type} [LinearOrder τ] {key : α → τ}

/-! ## §1. Distinct keys. -/

/-- Two orders of the same rows are one, if no keys tie. -/
theorem sorted_unique {xs ys : List α} (hperm : xs.Perm ys) (hkeys : (ys.map key).Nodup)
    (hxs : xs.Pairwise fun x y => key y ≤ key x) (hys : ys.Pairwise fun x y => key y ≤ key x) :
    xs = ys := by
  refine List.Perm.eq_of_pairwise ?_ hxs hys hperm
  intro x y hx hy hyx hxy
  exact List.inj_on_of_nodup_map hkeys (hperm.mem_iff.mp hx) hy (le_antisymm hxy hyx)

/-- **There is one arrangement** of rows with distinct keys. -/
theorem arrange_unique {rows : List α} (hkeys : (rows.map key).Nodup) (a a' : Arrangement key) :
    a.arrange rows = a'.arrange rows := by
  have hkeys' : ((a'.arrange rows).map key).Nodup := ((a'.perm rows).map key).nodup_iff.mpr hkeys
  exact sorted_unique ((a.perm rows).trans (a'.perm rows).symm) hkeys' (a.sorted rows)
    (a'.sorted rows)

/-- Its keys descend. -/
theorem arrange_strict {rows : List α} (hkeys : (rows.map key).Nodup) (a : Arrangement key) :
    (a.arrange rows).Pairwise fun x y => key y < key x := by
  have hdistinct : (a.arrange rows).Pairwise fun x y => key x ≠ key y :=
    List.pairwise_map.mp (((a.perm rows).map key).nodup_iff.mpr hkeys)
  exact (hdistinct.and (a.sorted rows)).imp fun h => lt_of_le_of_ne h.2 h.1.symm

/-! ## §2. Rows that enter behind the others. -/

/-- **Rows with lower keys** leave the front as it was. -/
theorem arrange_prefix {rows rows' : List α} (hrows : rows.Nodup)
    (hkeys : (rows'.map key).Nodup) (hsub : rows ⊆ rows')
    (hbehind : ∀ x ∈ rows, ∀ y ∈ rows', y ∉ rows → key y < key x) (a a' : Arrangement key) :
    a.arrange rows <+: a'.arrange rows' := by
  classical
  have hsorted := a'.sorted rows'
  have hnodup : (a'.arrange rows').Nodup := (a'.perm rows').nodup_iff.mpr hkeys.of_map
  have hclosing : (a'.arrange rows').Pairwise fun x y =>
      decide (y ∈ rows) = true → decide (x ∈ rows) = true := by
    refine hsorted.imp_of_mem ?_
    intro x y hx hy hyx hin
    have hin := of_decide_eq_true hin
    by_contra hout
    have hlow := hbehind y hin x ((a'.perm rows').mem_iff.mp hx) (by simpa using hout)
    exact absurd hyx (not_le.mpr hlow)
  have hold : (a.arrange rows).Perm ((a'.arrange rows').filter fun x => x ∈ rows) := by
    rw [List.perm_ext_iff_of_nodup ((a.perm rows).nodup_iff.mpr hrows) (hnodup.filter _)]
    intro x
    rw [(a.perm rows).mem_iff, List.mem_filter, (a'.perm rows').mem_iff, decide_eq_true_eq]
    exact ⟨fun hx => ⟨hsub hx, hx⟩, fun hx => hx.2⟩
  have hkeys' : (((a'.arrange rows').filter fun x => x ∈ rows).map key).Nodup := by
    have hall : ((a'.arrange rows').map key).Nodup :=
      ((a'.perm rows').map key).nodup_iff.mpr hkeys
    exact hall.sublist (List.filter_sublist.map key)
  rw [sorted_unique hold hkeys' (a.sorted rows) (hsorted.filter _), filter_eq_take hclosing]
  exact List.take_prefix _ _

/-- A full page and what comes before it are the same in every longer list. -/
theorem take_of_prefix {b : ℕ} {xs ys : List α} (h : xs <+: ys) (hlong : b ≤ xs.length) :
    xs.take b = ys.take b := by
  obtain ⟨zs, rfl⟩ := h
  rw [List.take_append_of_le_length hlong]

theorem length_slice (offset limit : ℕ) (rows : List α) :
    (slice offset limit rows).length = min limit (rows.length - offset) := by
  unfold slice
  rw [List.length_take, List.length_drop]

/-- Full pages of lists that grow at their end are the front of the last list. -/
theorem collected_of_prefixes {n m : ℕ} {lists : ℕ → List α}
    (hgrow : ∀ k < m, lists k <+: lists (k + 1))
    (hfull : ∀ k < m, (slice (k * n) n (lists k)).length = n) :
    (List.range m).flatMap (fun k => slice (k * n) n (lists k)) = (lists m).take (m * n) := by
  induction m with
  | zero => simp
  | succ m ih =>
      have hm := hfull m (Nat.lt_succ_self m)
      rw [length_slice] at hm
      have hlong : m * n + n ≤ (lists m).length ∨ n = 0 := by omega
      have hpage : (lists m).take (m * n) ++ slice (m * n) n (lists m)
          = (lists m).take (m * n + n) := List.take_add.symm
      rw [List.range_succ, List.flatMap_append, List.flatMap_singleton,
        ih (fun k hk => hgrow k (by omega)) (fun k hk => hfull k (by omega)), hpage, Nat.succ_mul]
      rcases hlong with hlong | rfl
      · exact take_of_prefix (hgrow m (Nat.lt_succ_self m)) hlong
      · simp

/-- **Each row once, in order**: full pages, and one that is not, are the last list. -/
theorem collected_all {n m : ℕ} {lists : ℕ → List α}
    (hgrow : ∀ k < m, lists k <+: lists (k + 1))
    (hfull : ∀ k < m, (slice (k * n) n (lists k)).length = n)
    (hshort : (slice (m * n) n (lists m)).length < n) :
    (List.range (m + 1)).flatMap (fun k => slice (k * n) n (lists k)) = lists m := by
  rw [length_slice] at hshort
  have hpage : (lists m).take (m * n) ++ slice (m * n) n (lists m)
      = (lists m).take (m * n + n) := List.take_add.symm
  rw [List.range_succ, List.flatMap_append, List.flatMap_singleton,
    collected_of_prefixes hgrow hfull, hpage, List.take_of_length_le]
  omega

/-! ## §3. Rows that enter anywhere. -/

/-- The number of rows in front of `x`. -/
def inFront (key : α → τ) (x : α) (rows : List α) : ℕ := rows.countP fun y => key x < key y

/-- A row never moves forward. -/
theorem inFront_mono {rows rows' : List α} (hrows : rows.Nodup) (hsub : rows ⊆ rows') (x : α) :
    inFront key x rows ≤ inFront key x rows' :=
  (List.subperm_of_subset hrows hsub).countP_le _

/-- `x` is the row with so many rows in front. -/
theorem mem_slice_of_inFront {n offset : ℕ} {rows : List α} (hkeys : (rows.map key).Nodup) {x : α}
    (hx : x ∈ rows) (a : Arrangement key) (hge : offset ≤ inFront key x rows)
    (hlt : inFront key x rows < offset + n) : x ∈ slice offset n (a.arrange rows) := by
  have hstrict := arrange_strict hkeys a
  have hcount : inFront key x rows = inFront key x (a.arrange rows) :=
    ((a.perm rows).countP_eq _).symm
  obtain ⟨front, back, hsplit⟩ := List.append_of_mem ((a.perm rows).mem_iff.mpr hx)
  rw [hcount] at hge hlt
  rw [hsplit] at hstrict hge hlt ⊢
  obtain ⟨-, hback, hcross⟩ := List.pairwise_append.mp hstrict
  have hlength : inFront key x (front ++ x :: back) = front.length := by
    have hfront : front.countP (fun y => key x < key y) = front.length :=
      List.countP_eq_length.mpr fun y hy => decide_eq_true (hcross y hy x List.mem_cons_self)
    have hnone : (x :: back).countP (fun y => key x < key y) = 0 := by
      refine List.countP_eq_zero.mpr fun y hy => ?_
      rcases List.mem_cons.mp hy with rfl | hy
      · simp
      · simpa using ((List.pairwise_cons.mp hback).1 y hy).le
    show List.countP _ _ = _
    rw [List.countP_append, hfront, hnone, Nat.add_zero]
  rw [hlength] at hge hlt
  unfold slice
  rw [List.drop_append_of_le_length hge, List.take_append, List.length_drop]
  obtain ⟨j, hj⟩ : ∃ j, n - (front.length - offset) = j + 1 :=
    ⟨n - (front.length - offset) - 1, by omega⟩
  rw [hj, List.take_succ_cons]
  exact List.mem_append_right _ List.mem_cons_self

/-- **No row of the first query is missed**, wherever rows are inserted while the pages are
collected. -/
theorem seen_of_inserted {n m : ℕ} {series : ℕ → List α}
    (hkeys : ∀ k ≤ m, ((series k).map key).Nodup) (hgrow : ∀ k < m, series k ⊆ series (k + 1))
    (choice : ℕ → Arrangement key)
    (hshort : (slice (m * n) n ((choice m).arrange (series m))).length < n) {x : α}
    (hx : x ∈ series 0) :
    ∃ k ≤ m, x ∈ series k ∧ x ∈ slice (k * n) n ((choice k).arrange (series k)) := by
  by_contra hmissed
  push Not at hmissed
  -- `x` stays, and stays behind the pages that were read
  have hbehind : ∀ k ≤ m, x ∈ series k ∧ k * n ≤ inFront key x (series k) := by
    intro k
    induction k with
    | zero => exact fun _ => ⟨hx, by omega⟩
    | succ k ih =>
        intro hk
        obtain ⟨hin, hfront⟩ := ih (by omega)
        have hnext : k * n + n ≤ inFront key x (series k) := by
          by_contra hlt
          exact hmissed k (by omega) hin
            (mem_slice_of_inFront (hkeys k (by omega)) hin (choice k) hfront (not_le.mp hlt))
        have hmono : inFront key x (series k) ≤ inFront key x (series (k + 1)) :=
          inFront_mono (hkeys k (by omega)).of_map (hgrow k (by omega)) x
        rw [Nat.succ_mul]
        exact ⟨hgrow k (by omega) hin, hnext.trans hmono⟩
  obtain ⟨hin, hfront⟩ := hbehind m (le_refl m)
  have hpast : m * n + n ≤ inFront key x (series m) := by
    by_contra hlt
    exact hmissed m (le_refl m) hin
      (mem_slice_of_inFront (hkeys m (le_refl m)) hin (choice m) hfront (not_le.mp hlt))
  have hcount : inFront key x (series m) ≤ (series m).length := List.countP_le_length
  rw [length_slice, ((choice m).perm (series m)).length_eq] at hshort
  omega

end Growing

end Pulse.Store
