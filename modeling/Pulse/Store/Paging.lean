/-
  Pulse.Store.Paging
  ──────────────────
  **PAGES BY LIMIT AND OFFSET.**

  Each query of a series may arrange rows that tie in its own way.  The pages that
  a reader collects fit together if no tie crosses a page boundary, and need not
  otherwise.

    • `Arrangement` — one way to answer `ORDER BY key DESC`,
    • `Straddled`   — a tie crosses a boundary,
    • `covered_of_not_straddled`, `not_nodup_of_straddled` — pages that are collected
      until one is empty,
    • `mem_every_page_iff` — when a row is on the first page however ties are broken.
-/
import Mathlib.Data.List.Count
import Mathlib.Data.List.Sort
import Mathlib.Data.List.Nodup
import Mathlib.Order.Defs.LinearOrder
import Pulse.Store.Table

namespace Pulse.Store

/-! ## §1. Arrangements and pages. -/

section Pages

variable {α τ : Type} [LinearOrder τ] {key : α → τ}

/-- One way to answer `ORDER BY key DESC`: rows that tie may come in any order. -/
structure Arrangement (key : α → τ) where
  arrange : List α → List α
  perm : ∀ rows, (arrange rows).Perm rows
  sorted : ∀ rows, (arrange rows).Pairwise fun x y => key y ≤ key x

/-- `LIMIT limit OFFSET offset`. -/
def slice (offset limit : ℕ) (rows : List α) : List α := (rows.drop offset).take limit

/-- Fewer than `b` rows are above some key, and more than `b` are not below it. -/
def Straddled (key : α → τ) (b : ℕ) (rows : List α) : Prop :=
  ∃ t, rows.countP (fun x => t < key x) < b ∧ b < rows.countP fun x => t ≤ key x

/-- The pages of a list, one after the other. -/
theorem slices_eq (n k j : ℕ) (rows : List α) :
    (List.range' k j).flatMap (fun i => slice (i * n) n rows) = (rows.drop (k * n)).take (j * n) := by
  induction j with
  | zero => simp
  | succ j ih =>
      have hnext : slice ((k + j) * n) n rows = ((rows.drop (k * n)).drop (j * n)).take n := by
        unfold slice
        rw [List.drop_drop, ← Nat.add_mul]
      rw [List.range'_1_concat, List.flatMap_append, ih, List.flatMap_singleton, hnext,
        Nat.succ_mul, List.take_add]

theorem slice_eq_nil_iff {n offset : ℕ} (hn : 1 ≤ n) {rows : List α} :
    slice offset n rows = [] ↔ rows.length ≤ offset := by
  unfold slice
  rw [List.take_eq_nil_iff, List.drop_eq_nil_iff]
  omega

/-! ## §2. Rows above a key come first. -/

/-- What passes a filter that only ever closes is a front part. -/
theorem filter_eq_take {p : α → Bool} {rows : List α}
    (h : rows.Pairwise fun x y => p y = true → p x = true) :
    rows.filter p = rows.take (rows.countP p) := by
  induction rows with
  | nil => rfl
  | cons x rows ih =>
      have hrest := ih (List.pairwise_cons.mp h).2
      by_cases hx : p x = true
      · rw [List.filter_cons_of_pos hx, List.countP_cons_of_pos hx, List.take_succ_cons, hrest]
      · have hnone : ∀ y ∈ rows, ¬ p y = true :=
          fun y hy hpy => hx ((List.pairwise_cons.mp h).1 y hy hpy)
        rw [List.filter_cons_of_neg hx, List.countP_cons_of_neg hx,
          List.filter_eq_nil_iff.mpr hnone, List.countP_eq_zero.mpr hnone, List.take_zero]

/-- Where no tie crosses it, a boundary parts the same rows in every arrangement. -/
theorem take_perm_of_not_straddled {b : ℕ} {rows : List α} (h : ¬ Straddled key b rows)
    (a a' : Arrangement key) : ((a.arrange rows).take b).Perm ((a'.arrange rows).take b) := by
  have hall := (a.perm rows).trans (a'.perm rows).symm
  by_cases hshort : rows.length ≤ b
  · rw [List.take_of_length_le (by rw [(a.perm rows).length_eq]; exact hshort),
      List.take_of_length_le (by rw [(a'.perm rows).length_eq]; exact hshort)]
    exact hall
  -- `t` is the key of the first row behind the boundary
  have hlt : b < (a.arrange rows).length := by
    rw [(a.perm rows).length_eq]
    omega
  obtain ⟨t, ht⟩ : ∃ t, key (a.arrange rows)[b] = t := ⟨_, rfl⟩
  have hsplit : a.arrange rows
      = (a.arrange rows).take b ++ (a.arrange rows)[b] :: (a.arrange rows).drop (b + 1) := by
    rw [← List.drop_eq_getElem_cons hlt, List.take_append_drop]
  have hsorted := a.sorted rows
  rw [hsplit, List.pairwise_append] at hsorted
  obtain ⟨-, hbehind, hcross⟩ := hsorted
  have hfront : ∀ x ∈ (a.arrange rows).take b, t ≤ key x :=
    fun x hx => ht ▸ hcross x hx _ List.mem_cons_self
  have hback : ∀ x ∈ (a.arrange rows)[b] :: (a.arrange rows).drop (b + 1), ¬ t < key x := by
    intro x hx
    rcases List.mem_cons.mp hx with rfl | hx
    · exact not_lt.mpr ht.le
    · exact not_lt.mpr (ht ▸ (List.pairwise_cons.mp hbehind).1 x hx)
  have hlength : ((a.arrange rows).take b).length = b := by
    rw [List.length_take]
    omega
  have hatLeast : b < rows.countP fun x => t ≤ key x := by
    rw [← (a.perm rows).countP_eq, hsplit, List.countP_append, List.countP_eq_length.mpr (by
      simpa using hfront), hlength, List.countP_cons_of_pos (by simp [ht])]
    omega
  have habove : rows.countP (fun x => t < key x) = b := by
    have hge : b ≤ rows.countP fun x => t < key x := by
      by_contra hless
      exact h ⟨t, not_le.mp hless, hatLeast⟩
    have hle : rows.countP (fun x => t < key x) ≤ b := by
      have hnone : ((a.arrange rows)[b] :: (a.arrange rows).drop (b + 1)).countP
          (fun x => t < key x) = 0 :=
        List.countP_eq_zero.mpr fun x hx => by simpa using hback x hx
      rw [← (a.perm rows).countP_eq, hsplit, List.countP_append, hnone, Nat.add_zero]
      exact List.countP_le_length.trans hlength.le
    omega
  have hfilter : ∀ a : Arrangement key,
      (a.arrange rows).take b = (a.arrange rows).filter fun x => t < key x := by
    intro a
    have hdown : (a.arrange rows).Pairwise fun x y =>
        decide (t < key y) = true → decide (t < key x) = true :=
      (a.sorted rows).imp fun hyx hy =>
        decide_eq_true (lt_of_lt_of_le (of_decide_eq_true hy) hyx)
    rw [filter_eq_take hdown, (a.perm rows).countP_eq, habove]
  rw [hfilter a, hfilter a']
  exact hall.filter _

/-! ## §3. Pages that are collected. -/

/-- The pages of size `n`, each with the arrangement of its own query. -/
def pageOf (choice : ℕ → Arrangement key) (n : ℕ) (rows : List α) (k : ℕ) : List α :=
  slice (k * n) n ((choice k).arrange rows)

theorem pageOf_eq_nil_iff {choice : ℕ → Arrangement key} {n k : ℕ} (hn : 1 ≤ n) {rows : List α} :
    pageOf choice n rows k = [] ↔ rows.length ≤ k * n := by
  unfold pageOf
  rw [slice_eq_nil_iff hn, ((choice k).perm rows).length_eq]

/-- The number of pages that are not empty. -/
def pageCount (n : ℕ) (rows : List α) : ℕ := (rows.length + n - 1) / n

theorem length_le_pageCount {n : ℕ} (hn : 1 ≤ n) (rows : List α) :
    rows.length ≤ pageCount n rows * n := by
  have hdiv := Nat.div_add_mod (rows.length + n - 1) n
  have hmod := Nat.mod_lt (rows.length + n - 1) hn
  have hcomm : pageCount n rows * n = n * ((rows.length + n - 1) / n) := Nat.mul_comm _ _
  omega

theorem lt_length_of_lt_pageCount {n k : ℕ} (hn : 1 ≤ n) {rows : List α}
    (h : k < pageCount n rows) : k * n < rows.length := by
  have hle := (Nat.le_div_iff_mul_le hn).mp (Nat.succ_le_of_lt h)
  rw [Nat.succ_mul] at hle
  omega

/-- **Pages fit together** where no boundary is straddled. -/
theorem covered_of_not_straddled {n : ℕ} {rows : List α}
    (h : ∀ k, ¬ Straddled key (k * n) rows) (choice : ℕ → Arrangement key) (m : ℕ) :
    ((List.range m).flatMap (pageOf choice n rows)).Perm
      (((choice 0).arrange rows).take (m * n)) := by
  induction m with
  | zero => simp
  | succ m ih =>
      rw [List.range_succ, List.flatMap_append, List.flatMap_singleton]
      calc ((List.range m).flatMap (pageOf choice n rows) ++ pageOf choice n rows m).Perm
            (((choice m).arrange rows).take (m * n) ++ pageOf choice n rows m) :=
          (ih.trans (take_perm_of_not_straddled (h m) _ _)).append_right _
        _ = ((choice m).arrange rows).take (m * n + n) := List.take_add.symm
        List.Perm _ (((choice 0).arrange rows).take ((m + 1) * n)) := by
          rw [← Nat.succ_mul]
          exact take_perm_of_not_straddled (h (m + 1)) _ _

/-! ## §4. A tie that crosses a boundary. -/

/-- The rows above `t`, those at `t` in their order or reversed, and those below. -/
def tiedRows (key : α → τ) (t : τ) (reversed : Bool) (rows : List α) : List α :=
  rows.filter (fun x => t < key x)
    ++ ((if reversed then (rows.filter fun x => key x = t).reverse
        else rows.filter fun x => key x = t)
      ++ rows.filter fun x => key x < t)

theorem mem_tie {t : τ} {reversed : Bool} {rows : List α} {x : α} :
    (x ∈ if reversed then (rows.filter fun x => key x = t).reverse
      else rows.filter fun x => key x = t) ↔ x ∈ rows ∧ key x = t := by
  cases reversed <;> simp

theorem tiedRows_perm (t : τ) (reversed : Bool) (rows : List α) :
    (tiedRows key t reversed rows).Perm rows := by
  have htie : (if reversed then (rows.filter fun x => key x = t).reverse
      else rows.filter fun x => key x = t).Perm (rows.filter fun x => key x = t) := by
    cases reversed
    · exact .refl _
    · exact List.reverse_perm _
  have hrest : (rows.filter (fun x => key x = t) ++ rows.filter fun x => key x < t).Perm
      (rows.filter fun x => !decide (t < key x)) := by
    have hsplit := List.filter_append_perm (fun x => decide (key x = t))
      (rows.filter fun x => !decide (t < key x))
    rw [List.filter_filter, List.filter_filter] at hsplit
    refine (List.Perm.of_eq ?_).trans hsplit
    congr 1
    · refine List.filter_congr fun x _ => ?_
      rw [Bool.eq_iff_iff]
      simp only [decide_eq_true_eq, Bool.and_eq_true, Bool.not_eq_true', decide_eq_false_iff_not]
      exact ⟨fun h => ⟨h, h.le.not_gt⟩, fun h => h.1⟩
    · refine List.filter_congr fun x _ => ?_
      rw [Bool.eq_iff_iff]
      simp only [decide_eq_true_eq, Bool.and_eq_true, Bool.not_eq_true', decide_eq_false_iff_not]
      exact ⟨fun h => ⟨h.ne, h.le.not_gt⟩, fun h => lt_of_le_of_ne (not_lt.mp h.2) h.1⟩
  have hall := List.filter_append_perm (fun x => decide (t < key x)) rows
  exact (((htie.append_right _).trans hrest).append_left _).trans hall

theorem tiedRows_sorted (t : τ) (reversed : Bool) {rows : List α}
    (h : rows.Pairwise fun x y => key y ≤ key x) :
    (tiedRows key t reversed rows).Pairwise fun x y => key y ≤ key x := by
  unfold tiedRows
  refine List.pairwise_append.mpr ⟨h.filter _, List.pairwise_append.mpr ⟨?_, h.filter _, ?_⟩, ?_⟩
  · refine List.pairwise_of_forall_mem_list ?_
    intro x hx y hy
    exact ((mem_tie.mp hy).2.trans (mem_tie.mp hx).2.symm).le
  · intro x hx y hy
    have hlow : key y < t := by simpa using (List.mem_filter.mp hy).2
    exact hlow.le.trans (mem_tie.mp hx).2.ge
  · intro x hx y hy
    have habove : t < key x := by simpa using (List.mem_filter.mp hx).2
    rcases List.mem_append.mp hy with hy | hy
    · exact (mem_tie.mp hy).2.le.trans habove.le
    · have hlow : key y < t := by simpa using (List.mem_filter.mp hy).2
      exact hlow.le.trans habove.le

instance totalNewestFirst : Std.Total fun x y : α => key y ≤ key x :=
  ⟨fun x y => le_total (key y) (key x)⟩

instance transNewestFirst : IsTrans α fun x y => key y ≤ key x := ⟨fun _ _ _ h h' => h'.trans h⟩

/-- An arrangement that may reverse the rows at `t`. -/
def tied (key : α → τ) (t : τ) (reversed : Bool) : Arrangement key where
  arrange rows := tiedRows key t reversed (rows.insertionSort fun x y => key y ≤ key x)
  perm rows := (tiedRows_perm t reversed _).trans (List.perm_insertionSort _ rows)
  sorted rows := tiedRows_sorted t reversed (List.pairwise_insertionSort _ rows)

/-- The first row of a tie that crosses a boundary: before it as the rows stand, and behind it if
they are reversed. -/
theorem exists_tied {b : ℕ} {t : τ} {rows : List α} (habove : rows.countP (fun x => t < key x) < b)
    (hatLeast : b < rows.countP fun x => t ≤ key x) : ∃ x,
      x ∈ (tiedRows key t false rows).take b ∧ x ∈ (tiedRows key t true rows).drop b := by
  have hlength : (rows.filter fun x => t < key x).length < b := by
    rw [← List.countP_eq_length_filter]
    exact habove
  have hcount : b < (rows.filter fun x => t < key x).length
      + (rows.filter fun x => key x = t).length := by
    rw [← List.countP_eq_length_filter, ← List.countP_eq_length_filter]
    refine hatLeast.trans_le (le_of_eq ?_)
    -- row by row: above the tie, or in it, or behind it
    clear habove hatLeast hlength
    induction rows with
    | nil => rfl
    | cons x rows ih =>
        rw [List.countP_cons, List.countP_cons, List.countP_cons, ih]
        rcases lt_trichotomy t (key x) with h | h | h
        · simp [h, h.le, h.ne']
          omega
        · simp [h]
          omega
        · simp [h.not_ge, h.not_gt, h.ne]
  unfold tiedRows
  rw [if_neg (by decide), if_pos rfl]
  generalize rows.filter (fun x => t < key x) = high at hlength hcount ⊢
  generalize rows.filter (fun x => key x < t) = low
  cases htie : rows.filter fun x => key x = t with
  | nil =>
      rw [htie, List.length_nil] at hcount
      omega
  | cons x tie =>
      rw [htie, List.length_cons] at hcount
      -- the head of the tie comes first in it, or last if it is reversed
      refine ⟨x, ?_, ?_⟩
      · obtain ⟨a, ha⟩ : ∃ a, b - high.length = a + 1 := ⟨b - high.length - 1, by omega⟩
        rw [List.take_append, ha, List.cons_append, List.take_succ_cons]
        exact List.mem_append_right _ List.mem_cons_self
      · rw [List.reverse_cons, List.append_assoc, List.singleton_append, ← List.append_assoc,
          List.drop_append_of_le_length (by rw [List.length_append, List.length_reverse]; omega)]
        exact List.mem_append_right _ List.mem_cons_self

/-- **Pages across a tie** need not fit together: if the rows that tie are reversed from the
boundary on, the first of them comes twice. -/
theorem not_nodup_of_straddled {n k : ℕ} (hn : 1 ≤ n) {rows : List α}
    (h : Straddled key (k * n) rows) : ∃ choice : ℕ → Arrangement key, ∀ m,
      pageOf choice n rows m = [] → ¬ ((List.range m).flatMap (pageOf choice n rows)).Nodup := by
  obtain ⟨t, habove, hatLeast⟩ := h
  obtain ⟨sorted, hsorted⟩ : ∃ sorted, rows.insertionSort (fun x y => key y ≤ key x) = sorted :=
    ⟨_, rfl⟩
  have hperm : sorted.Perm rows := hsorted ▸ List.perm_insertionSort _ rows
  obtain ⟨x, hbefore, hbehind⟩ : ∃ x, x ∈ (tiedRows key t false sorted).take (k * n) ∧
      x ∈ (tiedRows key t true sorted).drop (k * n) :=
    exists_tied (hperm.countP_eq _ ▸ habove) (hperm.countP_eq _ ▸ hatLeast)
  refine ⟨fun i => tied key t (decide (k ≤ i)), fun m hempty hnodup => ?_⟩
  -- the boundary lies before the end
  have hlong : k * n < rows.length := hatLeast.trans_le List.countP_le_length
  have hend := (pageOf_eq_nil_iff hn).mp hempty
  have hkm : k < m := by
    by_contra hmk
    have := Nat.mul_le_mul_right n (not_lt.mp hmk)
    omega
  have hrange : List.range m = List.range' 0 k ++ List.range' k (m - k) := by
    have happend := List.range'_append_1 (s := 0) (m := k) (n := m - k)
    rw [Nat.zero_add, show k + (m - k) = m by omega] at happend
    rw [List.range_eq_range', happend]
  have hpage : ∀ i, pageOf (fun i => tied key t (decide (k ≤ i))) n rows i
      = slice (i * n) n (tiedRows key t (decide (k ≤ i)) sorted) := by
    intro i
    rw [← hsorted]
    rfl
  have hfirst : (List.range' 0 k).flatMap (pageOf (fun i => tied key t (decide (k ≤ i))) n rows)
      = (tiedRows key t false sorted).take (k * n) := by
    have hsame := slices_eq n 0 k (tiedRows key t false sorted)
    rw [Nat.zero_mul, List.drop_zero] at hsame
    rw [← hsame]
    refine List.flatMap_congr fun i hi => ?_
    have hik : ¬ k ≤ i := by
      have := (List.mem_range'_1.mp hi).2
      omega
    rw [hpage, decide_eq_false hik]
  have hlast : (List.range' k (m - k)).flatMap
      (pageOf (fun i => tied key t (decide (k ≤ i))) n rows)
      = (tiedRows key t true sorted).drop (k * n) := by
    have hsame := slices_eq n k (m - k) (tiedRows key t true sorted)
    rw [List.take_of_length_le] at hsame
    · rw [← hsame]
      refine List.flatMap_congr fun i hi => ?_
      rw [hpage, decide_eq_true (List.mem_range'_1.mp hi).1]
    · rw [List.length_drop, (tiedRows_perm t true sorted).length_eq, hperm.length_eq, Nat.sub_mul]
      omega
  rw [hrange, List.flatMap_append, hfirst, hlast, List.nodup_append] at hnodup
  exact hnodup.2.2 x hbefore x hbehind rfl

/-! ## §5. The first page. -/

/-- The rows that may come before `x` in `ORDER BY key`. -/
def ahead [DecidableEq α] (key : α → τ) (x : α) (rows : List α) : ℕ :=
  rows.countP fun y => y ≠ x ∧ key y ≤ key x

variable [DecidableEq α]

/-- A row with fewer than `limit` rows ahead of it is on the page. -/
theorem IsPage.mem_of_ahead_lt {limit : ℕ} {rows page : List α}
    (h : IsPage key limit rows page) {x : α} (hx : x ∈ rows) (hahead : ahead key x rows < limit) :
    x ∈ page := by
  obtain ⟨hnodup, hlength, -, hmem, hleft⟩ := h
  by_contra hout
  -- every row of the page is ahead of the one that was left out
  have hsub : page ⊆ rows.filter fun y => y ≠ x ∧ key y ≤ key x := by
    intro y hy
    have hne : y ≠ x := fun hyx => hout (hyx ▸ hy)
    have hle : key y ≤ key x := (hleft x hx).resolve_left hout y hy
    exact List.mem_filter.mpr ⟨hmem y hy, decide_eq_true ⟨hne, hle⟩⟩
  have hpage : page.length ≤ ahead key x rows := by
    have hle := List.Nodup.length_le_of_subset hnodup hsub
    rw [← List.countP_eq_length_filter] at hle
    exact hle
  have hother : ahead key x rows < rows.length := by
    show rows.countP _ < rows.length
    rw [List.countP_lt_length_iff]
    exact ⟨x, hx, by simp⟩
  omega

instance totalOldestFirst : Std.Total fun x y : α => key x ≤ key y :=
  ⟨fun x y => le_total (key x) (key y)⟩

instance transOldestFirst : IsTrans α fun x y => key x ≤ key y := ⟨fun _ _ _ h h' => h.trans h'⟩

omit [DecidableEq α] in
/-- There is a page. -/
theorem exists_isPage (key : α → τ) (limit : ℕ) {rows : List α} (hnodup : rows.Nodup) :
    ∃ page, IsPage key limit rows page := by
  obtain ⟨sorted, hsorted⟩ :
      ∃ sorted, rows.insertionSort (fun y z => key y ≤ key z) = sorted := ⟨_, rfl⟩
  have hperm : sorted.Perm rows := hsorted ▸ List.perm_insertionSort _ _
  have hascending : sorted.Pairwise fun y z => key y ≤ key z :=
    hsorted ▸ List.pairwise_insertionSort _ _
  refine ⟨sorted.take limit, ?_, ?_, ?_, ?_, ?_⟩
  · exact (hperm.nodup_iff.mpr hnodup).sublist (List.take_sublist _ _)
  · rw [List.length_take, hperm.length_eq]
  · exact hascending.sublist (List.take_sublist _ _)
  · exact fun y hy => hperm.mem_iff.mp (List.mem_of_mem_take hy)
  · intro y hy
    rw [← hperm.mem_iff, ← List.take_append_drop limit sorted, List.mem_append] at hy
    rw [← List.take_append_drop limit sorted, List.pairwise_append] at hascending
    rcases hy with hin | hout
    · exact Or.inl hin
    · exact Or.inr fun z hz => hascending.2.2 z hz y hout

/-- A row with `limit` rows ahead of it may be left out. -/
theorem exists_isPage_not_mem {limit : ℕ} {rows : List α} (hnodup : rows.Nodup) {x : α}
    (hahead : limit ≤ ahead key x rows) : ∃ page, IsPage key limit rows page ∧ x ∉ page := by
  obtain ⟨sorted, hsorted⟩ :
      ∃ sorted, (rows.filter (· ≠ x)).insertionSort (fun y z => key y ≤ key z) = sorted := ⟨_, rfl⟩
  have hperm : sorted.Perm (rows.filter (· ≠ x)) := hsorted ▸ List.perm_insertionSort _ _
  have hascending : sorted.Pairwise fun y z => key y ≤ key z :=
    hsorted ▸ List.pairwise_insertionSort _ _
  have hmem : ∀ y, y ∈ sorted ↔ y ∈ rows ∧ y ≠ x := fun y => by
    rw [hperm.mem_iff, List.mem_filter, decide_eq_true_eq]
  have hcount : sorted.countP (fun y => key y ≤ key x) = ahead key x rows := by
    rw [hperm.countP_eq, List.countP_filter]
    show rows.countP _ = rows.countP _
    refine List.countP_congr fun y _ => ?_
    simp [and_comm]
  -- the rows ahead of `x` fill the page
  have hfront : ∀ y ∈ sorted.take limit, key y ≤ key x := by
    have hclosing : sorted.Pairwise fun y z =>
        decide (key z ≤ key x) = true → decide (key y ≤ key x) = true :=
      hascending.imp fun hyz hz => decide_eq_true (hyz.trans (of_decide_eq_true hz))
    have htake := filter_eq_take hclosing
    rw [hcount] at htake
    intro y hy
    have hy' : y ∈ sorted.filter fun y => key y ≤ key x :=
      htake ▸ (List.take_sublist_take_left hahead).subset hy
    simpa using (List.mem_filter.mp hy').2
  have hlong : limit ≤ sorted.length := hcount ▸ hahead |>.trans List.countP_le_length
  have hshort : sorted.length ≤ rows.length := by
    rw [hperm.length_eq]
    exact List.length_filter_le _ _
  refine ⟨sorted.take limit, ⟨?_, ?_, ?_, ?_, ?_⟩, ?_⟩
  · exact (hperm.nodup_iff.mpr (hnodup.filter _)).sublist (List.take_sublist _ _)
  · rw [List.length_take]
    omega
  · exact hascending.sublist (List.take_sublist _ _)
  · exact fun y hy => ((hmem y).mp (List.mem_of_mem_take hy)).1
  · intro y hy
    by_cases hyx : y = x
    · exact Or.inr fun z hz => hyx ▸ hfront z hz
    · have hy' : y ∈ sorted.take limit ++ sorted.drop limit := by
        rw [List.take_append_drop]
        exact (hmem y).mpr ⟨hy, hyx⟩
      rcases List.mem_append.mp hy' with hin | hout
      · exact Or.inl hin
      · have hcross := hascending
        rw [← List.take_append_drop limit sorted, List.pairwise_append] at hcross
        exact Or.inr fun z hz => hcross.2.2 z hz y hout
  · exact fun hx => ((hmem x).mp (List.mem_of_mem_take hx)).2 rfl

/-- **The first page surely holds a row** exactly if fewer than `limit` rows may come before it. -/
theorem mem_every_page_iff {limit : ℕ} {rows : List α} (hnodup : rows.Nodup) {x : α}
    (hx : x ∈ rows) : (∀ page, IsPage key limit rows page → x ∈ page) ↔
      ahead key x rows < limit := by
  constructor
  · intro hall
    by_contra hahead
    obtain ⟨page, hpage, hout⟩ := exists_isPage_not_mem hnodup (not_lt.mp hahead)
    exact hout (hall page hpage)
  · exact fun hahead page hpage => hpage.mem_of_ahead_lt hx hahead

end Pages

end Pulse.Store
