import Mathlib.Algebra.BigOperators.Group.Finset.Piecewise
import Mathlib.Algebra.Order.BigOperators.Group.List
import FuelGrid.Sql.Rows

/-!
# Joins and sums

The part of `SELECT` that reports are made of: inner and left joins of lists of rows, and
`COALESCE(SUM(…), 0)`, which skips the rows where the summed expression is `NULL`.
-/

namespace FuelGrid.Sql

variable {α β κ M : Type} {key : α → κ}

/-! ## Joins

Joins are defined as the standard has them, row by row over all pairs, so the sum over an inner join
can be taken in either order (`sum_innerJoin`, `sum_innerJoin_comm`). When the joined table has at
most one row for each key, a left join only adds a column (`leftJoin_eq_map`), and when each row
references one row of the other table, an inner join repeats none (`sum_innerJoin_of_references`).
-/

section Joins

/-- `xs JOIN ys ON on` -/
def innerJoin (xs : List α) (ys : List β) (on : α → β → Prop) [∀ x y, Decidable (on x y)] :
    List (α × β) :=
  xs.flatMap fun x ↦ (ys.filter fun y ↦ on x y).map (x, ·)

/-- The rows that `x` contributes to a left join: its matches, or one row of `NULL`s. -/
def padded (x : α) : List β → List (α × Option β)
  | [] => [(x, none)]
  | y :: ys => (y :: ys).map fun z ↦ (x, some z)

/-- `xs LEFT JOIN ys ON on` -/
def leftJoin (xs : List α) (ys : List β) (on : α → β → Prop) [∀ x y, Decidable (on x y)] :
    List (α × Option β) :=
  xs.flatMap fun x ↦ padded x (ys.filter fun y ↦ on x y)

private theorem filter_key_eq_toList [DecidableEq κ] {xs : List α} (hnd : (xs.map key).Nodup)
    (p : α → Prop) [DecidablePred p] (k : κ) (hp : ∀ x, p x → key x = k) :
    xs.filter (p ·) = (xs.find? (p ·)).toList := by
  induction xs with
  | nil => rfl
  | cons x xs ih =>
    obtain ⟨hx, hxs⟩ := nodup_cons.mp hnd
    by_cases h : p x
    · have hrest : xs.filter (p ·) = [] := filter_eq_nil_iff.mpr fun y hy hpy ↦ by
        have hkey : key y = key x := (hp y (by simpa using hpy)).trans (hp x h).symm
        exact hx (hkey ▸ mem_map_of_mem hy)
      rw [List.filter_cons_of_pos (by simpa using h), hrest,
        List.find?_cons_of_pos (by simpa using h), Option.toList_some]
    · rw [filter_cons_of_neg (by simpa using h), List.find?_cons_of_neg (by simpa using h),
        ih hxs]

variable (xs : List α) (ys : List β) (on : α → β → Prop) [∀ x y, Decidable (on x y)]

/-- Left-joining a table on its key adds a column and neither drops nor repeats a row. -/
theorem leftJoin_eq_map [DecidableEq κ] {key : β → κ} (hnd : (ys.map key).Nodup)
    (hon : ∀ x, ∃ k, ∀ y, on x y → key y = k) :
    leftJoin xs ys on = xs.map fun x ↦ (x, ys.find? fun y ↦ on x y) := by
  rw [leftJoin, List.map_eq_flatMap]
  refine List.flatMap_congr fun x _ ↦ ?_
  obtain ⟨k, hk⟩ := hon x
  rw [filter_key_eq_toList hnd (on x) k hk]
  cases ys.find? (fun y ↦ decide (on x y)) <;> rfl

/-- A left join sees of the joined table what its rows match. -/
theorem leftJoin_congr {ys' : List β}
    (h : ∀ x ∈ xs, (ys.filter fun y ↦ on x y) = ys'.filter fun y ↦ on x y) :
    leftJoin xs ys on = leftJoin xs ys' on :=
  List.flatMap_congr fun x hx ↦ by rw [h x hx]

/-- Rows tagged with what they come from can be selected before they are made. -/
theorem filter_flatMap_fst {γ : Type} {g : α → List (α × γ)} (hg : ∀ x, ∀ r ∈ g x, r.1 = x)
    (p : α → Prop) [DecidablePred p] :
    (xs.flatMap g).filter (fun r ↦ p r.1) = (xs.filter (p ·)).flatMap g := by
  induction xs with
  | nil => rfl
  | cons x xs ih =>
    rw [List.flatMap_cons, filter_append, ih]
    by_cases h : p x
    · have hkeep : (g x).filter (fun r ↦ p r.1) = g x :=
        filter_eq_self.mpr fun r hr ↦ by simpa [hg x r hr] using h
      rw [hkeep, List.filter_cons_of_pos (by simpa using h), List.flatMap_cons]
    · have hdrop : (g x).filter (fun r ↦ p r.1) = [] :=
        filter_eq_nil_iff.mpr fun r hr ↦ by simpa [hg x r hr] using h
      rw [hdrop, filter_cons_of_neg (by simpa using h), nil_append]

theorem filter_leftJoin (p : α → Prop) [DecidablePred p] :
    (leftJoin xs ys on).filter (fun r ↦ p r.1) = leftJoin (xs.filter (p ·)) ys on := by
  refine filter_flatMap_fst xs (fun x r hr ↦ ?_) p
  cases hys : ys.filter (fun y ↦ on x y) with
  | nil =>
    rw [hys] at hr
    rw [mem_singleton.mp hr]
  | cons y ys =>
    rw [hys] at hr
    obtain ⟨z, -, rfl⟩ := mem_map.mp hr
    rfl

theorem filter_innerJoin (p : α → Prop) [DecidablePred p] :
    (innerJoin xs ys on).filter (fun r ↦ p r.1) = innerJoin (xs.filter (p ·)) ys on := by
  refine filter_flatMap_fst xs (fun x r hr ↦ ?_) p
  obtain ⟨y, -, rfl⟩ := mem_map.mp hr
  rfl

end Joins

/-! ## Sums

An update by key exchanges one summand (`sum_update`), and rows that each draw on a row of their own
in another table sum to no more than that table does (`sum_le_sum_of_covered`). -/

section Sums

variable [AddCommMonoid M]

/-- `COALESCE(SUM(f), 0)`: rows where `f` is `NULL` do not count. -/
def sumOf (f : α → Option M) (rows : List α) : M := (rows.filterMap f).sum

theorem sumOf_eq_sum_map (f : α → Option M) (rows : List α) :
    sumOf f rows = (rows.map fun r ↦ (f r).getD 0).sum := by
  induction rows with
  | nil => rfl
  | cons r rows ih =>
    rw [map_cons, sum_cons, ← ih, sumOf, sumOf]
    cases h : f r with
    | none => rw [List.filterMap_cons_none h, getD_none, zero_add]
    | some v => rw [List.filterMap_cons_some h, sum_cons, getD_some]

theorem sum_map_filter (p : α → Prop) [DecidablePred p] (f : α → M) (rows : List α) :
    ((rows.filter (p ·)).map f).sum = (rows.map fun r ↦ if p r then f r else 0).sum := by
  rw [List.sum_map_ite p f fun _ ↦ 0, List.sum_map_zero, add_zero]

theorem sumOf_leftJoin_singleton (x : α) (ys : List β) (on : α → β → Prop)
    [∀ x y, Decidable (on x y)] (f : β → M) :
    sumOf (fun r : α × Option β ↦ r.2.map f) (leftJoin [x] ys on)
      = ((ys.filter fun y ↦ on x y).map f).sum := by
  rw [leftJoin, List.flatMap_singleton]
  cases ys.filter (fun y ↦ decide (on x y)) with
  | nil => rfl
  | cons y ms =>
    rw [sumOf_eq_sum_map, padded, map_map]
    rfl

section InnerJoin

variable (xs : List α) (ys : List β) (on : α → β → Prop) [∀ x y, Decidable (on x y)]

theorem sum_innerJoin (f : α × β → M) : ((innerJoin xs ys on).map f).sum
    = (xs.map fun x ↦ ((ys.filter fun y ↦ on x y).map fun y ↦ f (x, y)).sum).sum := by
  induction xs with
  | nil => rfl
  | cons x xs ih =>
    rw [innerJoin, List.flatMap_cons, ← innerJoin, map_append, sum_append, ih,
      map_map, map_cons, sum_cons]
    rfl

theorem sum_innerJoin_comm (f : α × β → M) : ((innerJoin xs ys on).map f).sum
    = (ys.map fun y ↦ ((xs.filter fun x ↦ on x y).map fun x ↦ f (x, y)).sum).sum := by
  induction xs with
  | nil => exact List.sum_map_zero.symm
  | cons x xs ih =>
    have hspl : ∀ y, (((x :: xs).filter fun x ↦ on x y).map fun x ↦ f (x, y)).sum
        = (if on x y then f (x, y) else 0)
          + ((xs.filter fun x ↦ on x y).map fun x ↦ f (x, y)).sum := by
      intro y
      by_cases h : on x y <;> simp [h]
    rw [map_congr_left fun y _ ↦ hspl y, List.sum_map_add, ← ih, ← sum_map_filter (on x),
      innerJoin, List.flatMap_cons, ← innerJoin, map_append, sum_append, map_map]
    rfl

variable {xs ys on}

/-- If each row of `xs` references one row of `ys`, their join has each row of `xs` once. -/
theorem sum_innerJoin_of_references [DecidableEq κ] {key : β → κ} (hnd : (ys.map key).Nodup)
    (ref : α → κ) (hon : ∀ x y, on x y ↔ key y = ref x) (hmem : ∀ x ∈ xs, ref x ∈ ys.map key)
    (f : α → M) : ((innerJoin xs ys on).map fun r ↦ f r.1).sum = (xs.map f).sum := by
  rw [sum_innerJoin]
  refine congrArg List.sum (map_congr_left fun x hx ↦ ?_)
  obtain ⟨y, hy, hkey⟩ := mem_map.mp (hmem x hx)
  have hsm : ((ys.find? fun y ↦ on x y)).isSome :=
    List.find?_isSome.mpr ⟨y, hy, by simpa using (hon x y).mpr hkey⟩
  obtain ⟨y', hy'⟩ := isSome_iff_exists.mp hsm
  rw [filter_key_eq_toList hnd (on x) (ref x) fun y ↦ (hon x y).mp, hy', Option.toList_some,
    map_singleton, sum_singleton]

end InnerJoin

/-- The sums for each key add up to the sum over the rows that have one of the keys. -/
theorem sum_by_key [DecidableEq κ] {keys : List κ} (hnd : keys.Nodup) (ref : α → κ)
    (xs : List α) (f : α → M) :
    (keys.map fun k ↦ ((xs.filter fun x ↦ ref x = k).map f).sum).sum
      = ((xs.filter fun x ↦ ref x ∈ keys).map f).sum := by
  rw [← sum_innerJoin_comm xs keys (fun x k ↦ ref x = k) fun r ↦ f r.1, sum_innerJoin,
    sum_map_filter]
  refine congrArg List.sum (map_congr_left fun x _ ↦ ?_)
  have hks : (keys.map id).Nodup := by rwa [List.map_id]
  rw [filter_key_eq_toList hks (ref x = ·) (ref x) fun k hk ↦ hk.symm]
  rcases hfi : keys.find? (fun k ↦ ref x = k) with _ | k
  · have hnot : ref x ∉ keys := fun hmem ↦ by
      simpa using List.find?_eq_none.mp hfi (ref x) hmem
    rw [if_neg hnot]
    rfl
  · have hk : ref x = k := by simpa using find?_some hfi
    rw [if_pos (hk ▸ mem_of_find?_eq_some hfi)]
    exact add_zero _

/-- An update by key exchanges one summand. -/
theorem sum_update [DecidableEq κ] {rows : List α} {row x : α} (hkey : (rows.map key).Nodup)
    (hx : x ∈ rows) (hk : key x = key row) (f : α → M) :
    ((rows.map fun y ↦ if key y = key row then row else y).map f).sum + f x
      = (rows.map f).sum + f row := by
  obtain ⟨rest, hrs, hupd⟩ := update_perm hkey hx hk
  rw [(hrs.map f).sum_eq, (hupd.map f).sum_eq, map_cons, map_cons, sum_cons,
    sum_cons, add_right_comm, add_right_comm (f x), add_comm (f row)]

end Sums

section Ordered

variable [AddCommMonoid M] [PartialOrder M] [IsOrderedAddMonoid M]

/-- Rows that each draw on a row of their own, and on no more than it has, sum to at most what there
is. -/
theorem sum_le_sum_of_covered {ref : α → κ} (key : β → κ) {f : α → M} {g : β → M} {xs : List α}
    {ys : List β} (href : (xs.map ref).Nodup)
    (hcov : ∀ x ∈ xs, ∃ y ∈ ys, key y = ref x ∧ f x ≤ g y) (hnn : ∀ y ∈ ys, 0 ≤ g y) :
    (xs.map f).sum ≤ (ys.map g).sum := by
  induction xs generalizing ys with
  | nil =>
    refine List.sum_nonneg fun m hm ↦ ?_
    obtain ⟨y, hy, rfl⟩ := mem_map.mp hm
    exact hnn y hy
  | cons x xs ih =>
    rw [map_cons, nodup_cons] at href
    rw [forall_mem_cons] at hcov
    obtain ⟨⟨y, hy, hyx, hle⟩, hcov⟩ := hcov
    obtain ⟨s, t, rfl⟩ := List.append_of_mem hy
    have hperm : (s ++ y :: t).Perm (y :: (s ++ t)) := List.perm_middle
    -- the other rows draw on other keys, so `y` can be put aside
    have hrest : (xs.map f).sum ≤ ((s ++ t).map g).sum := by
      refine ih href.2 (fun x' hx' ↦ ?_) fun y' hy' ↦
        hnn y' (hperm.mem_iff.mpr (mem_cons_of_mem _ hy'))
      obtain ⟨y', hy', hkey, hle'⟩ := hcov x' hx'
      rcases mem_cons.mp (hperm.mem_iff.mp hy') with rfl | hy'
      · exact absurd (mem_map.mpr ⟨x', hx', hkey.symm.trans hyx⟩) href.1
      · exact ⟨y', hy', hkey, hle'⟩
    rw [(hperm.map g).sum_eq, map_cons, map_cons, sum_cons, sum_cons]
    exact add_le_add hle hrest

end Ordered

end FuelGrid.Sql
