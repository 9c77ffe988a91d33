import Mathlib.Data.List.Nodup

/-!
# Rows by key

A table is a list of rows, a unique index on it says that the keys of the rows have no duplicates.
-/

-- the lemmas of the standard library that the whole development uses by their short names
namespace FuelGrid

export List (Forall₂ append_assoc append_nil countP_eq_zero filterMap_append filterMap_eq_nil_iff
  filterMap_map filter_append filter_congr filter_cons filter_cons_of_neg filter_eq_nil_iff
  filter_eq_self filter_filter filter_map filter_sublist find?_some foldl_cons forall_mem_append
  forall_mem_cons forall₂_cons_left_iff forall₂_nil_left_iff getElem?_modify inj_on_of_nodup_map
  map_append map_congr_left map_cons map_map map_nil map_singleton mem_append mem_append_left
  mem_append_right mem_concat_self mem_cons mem_cons_of_mem mem_cons_self mem_filter mem_filterMap
  mem_flatMap mem_map mem_map_of_mem mem_of_find?_eq_some mem_of_mem_filter mem_singleton
  mem_singleton_self nil_append nil_sublist nodup_append nodup_cons nodup_nil nodup_singleton
  not_mem_nil singleton_append subset_cons_self suffix_rfl sum_append sum_cons sum_singleton)
export Option (any_eq_true bind_eq_bind bind_eq_some_iff bind_some getD_none getD_some
  isSome_iff_exists map_eq_some_iff map_some mem_toList pure_def some.inj some.injEq)
export Except (ok.inj)
export Function (comp_apply comp_def update_of_ne update_self)
export Nat (le_succ lt_succ_self)

end FuelGrid

namespace FuelGrid.Sql

variable {α κ β : Type} [DecidableEq κ] {key : α → κ} {rows : List α} {row x : α} {k : κ}
  {p : α → Bool}

omit [DecidableEq κ] in
theorem exists_key_eq {rows' : List α} (h : rows.map key = rows'.map key) (hx : x ∈ rows) :
    ∃ y ∈ rows', key y = key x := by
  have hmem : key x ∈ rows'.map key := by
    rw [← h]
    exact mem_map_of_mem hx
  exact mem_map.mp hmem

omit [DecidableEq κ] in
theorem mem_snoc : x ∈ rows ++ [row] ↔ x ∈ rows ∨ x = row := by
  rw [mem_append, mem_singleton]

theorem key_of_find? (h : rows.find? (fun x ↦ key x = k) = some row) : row ∈ rows ∧ key row = k :=
  ⟨mem_of_find?_eq_some h, by simpa using find?_some h⟩

theorem find?_key_eq_none :
    rows.find? (fun x ↦ key x = k) = none ↔ ∀ x ∈ rows, key x ≠ k := by
  simp

theorem find?_key_of_mem (hkey : (rows.map key).Nodup) (hrow : row ∈ rows) (hk : key row = k) :
    rows.find? (fun x ↦ key x = k) = some row := by
  rcases hfi : rows.find? (fun x ↦ key x = k) with _ | x
  · exact absurd hk (find?_key_eq_none.mp hfi row hrow)
  · obtain ⟨hx, hxk⟩ := key_of_find? hfi
    rw [inj_on_of_nodup_map hkey hx hrow (hxk.trans hk.symm)]

theorem find?_key_append (rows new : List α) (hnew : ∀ x ∈ new, key x ≠ k) :
    (rows ++ new).find? (fun x ↦ key x = k) = rows.find? (fun x ↦ key x = k) := by
  rw [List.find?_append, find?_key_eq_none.mpr hnew, Option.or_none]

theorem nodup_key_append {new : List α} (hkey : (rows.map key).Nodup) (hnew : (new.map key).Nodup)
    (hfr : ∀ x ∈ new, rows.find? (fun y ↦ key y = key x) = none) :
    ((rows ++ new).map key).Nodup := by
  rw [map_append]
  refine hkey.append hnew fun k hk hk' ↦ ?_
  obtain ⟨x, hx, rfl⟩ := mem_map.mp hk
  obtain ⟨y, hy, hxy⟩ := mem_map.mp hk'
  exact find?_key_eq_none.mp (hfr y hy) x hx hxy.symm

omit [DecidableEq κ] in
theorem nodup_key_snoc (hkey : (rows.map key).Nodup) (hfr : ∀ x ∈ rows, key x ≠ key row) :
    ((rows ++ [row]).map key).Nodup := by
  classical
  refine nodup_key_append hkey (nodup_singleton _) fun x hx ↦ find?_key_eq_none.mpr ?_
  rwa [mem_singleton.mp hx]

/-- At most one row has a key, if keys are optional and no two rows have the same one. -/
theorem length_filter_key_le_one {f : α → Option κ} (h : (rows.filterMap f).Nodup) (k : κ) :
    (rows.filter fun x ↦ f x = some k).length ≤ 1 := by
  induction rows with
  | nil => exact Nat.zero_le 1
  | cons x xs ih =>
    rcases hx : f x with _ | k'
    · rw [List.filterMap_cons_none hx] at h
      rw [filter_cons_of_neg (by simp [hx])]
      exact ih h
    · rw [List.filterMap_cons_some hx, nodup_cons] at h
      by_cases hk : k' = k
      · have hno : (xs.filter fun y ↦ f y = some k) = [] := by
          rw [filter_eq_nil_iff]
          intro y hy hyk
          exact h.1 (mem_filterMap.mpr ⟨y, hy, hk ▸ of_decide_eq_true hyk⟩)
        rw [List.filter_cons_of_pos (by simp [hx, hk]), hno]
        exact Nat.le_refl 1
      · rw [filter_cons_of_neg (by simp [hx, hk])]
        exact ih h.2

/-! ## Updates by key

The rows with a key are found by `List.find?`; an update by key replaces each row that has the key
of the new one. -/

theorem map_key_update (rows : List α) (row : α) :
    (rows.map fun x ↦ if key x = key row then row else x).map key = rows.map key := by
  refine map_map.trans (map_congr_left fun x _ ↦ ?_)
  rw [comp_apply]
  split
  next hk => exact hk.symm
  · rfl

theorem nodup_key_update (hkey : (rows.map key).Nodup) (row : α) :
    ((rows.map fun x ↦ if key x = key row then row else x).map key).Nodup := by
  rwa [map_key_update]

theorem mem_update (h : x ∈ rows.map fun x ↦ if key x = key row then row else x) :
    x = row ∨ (x ∈ rows ∧ key x ≠ key row) := by
  obtain ⟨y, hy, rfl⟩ := mem_map.mp h
  split
  · exact .inl rfl
  next hne => exact .inr ⟨hy, hne⟩

theorem mem_update_of_ne (h : x ∈ rows) (hne : key x ≠ key row) :
    x ∈ rows.map fun x ↦ if key x = key row then row else x :=
  mem_map.mpr ⟨x, h, if_neg hne⟩

theorem find?_update (rows : List α) (row : α) (k : κ) :
    (rows.map fun x ↦ if key x = key row then row else x).find? (fun x ↦ key x = k)
      = (rows.find? fun x ↦ key x = k).map fun x ↦ if key x = key row then row else x := by
  rw [List.find?_map]
  congr 2
  funext x
  simp only [comp_apply]
  split
  next hk => rw [hk]
  · rfl

theorem find?_update_of_ne (hne : k ≠ key row) :
    (rows.map fun x ↦ if key x = key row then row else x).find? (fun x ↦ key x = k)
      = rows.find? fun x ↦ key x = k := by
  rw [find?_update]
  rcases hfi : rows.find? fun x ↦ key x = k with _ | x
  · rfl
  · rw [map_some, if_neg fun hk ↦ hne ((key_of_find? hfi).2.symm.trans hk)]

theorem find?_update_self (h : rows.find? (fun x ↦ key x = key row) = some x) :
    (rows.map fun x ↦ if key x = key row then row else x).find? (fun x ↦ key x = key row)
      = some row := by
  rw [find?_update, h, map_some, if_pos (key_of_find? h).2]

theorem filter_update (hrow : p row = false) (hold : ∀ x ∈ rows, key x = key row → p x = false) :
    (rows.map fun x ↦ if key x = key row then row else x).filter p = rows.filter p := by
  induction rows with
  | nil => rfl
  | cons y ys ih =>
    have hys := ih fun x hx ↦ hold x (mem_cons_of_mem _ hx)
    rw [map_cons, filter_cons, filter_cons, hys]
    split_ifs with hk hnew hy hy
    · rw [hrow] at hnew
      cases hnew
    · rw [hrow] at hnew
      cases hnew
    · rw [hold y mem_cons_self hk] at hy
      cases hy
    all_goals rfl

theorem map_update {f : α → β} (h : ∀ x ∈ rows, key x = key row → f x = f row) :
    (rows.map fun x ↦ if key x = key row then row else x).map f = rows.map f := by
  refine map_map.trans (map_congr_left fun x hx ↦ ?_)
  rw [comp_apply]
  split
  next hk => exact (h x hx hk).symm
  · rfl

theorem update_append_singleton (hfr : key row ∉ rows.map key) (hk : key x = key row) :
    ((rows ++ [x]).map fun y ↦ if key y = key row then row else y) = rows ++ [row] := by
  rw [map_append, map_singleton, if_pos hk]
  congr 1
  refine (map_congr_left fun y hy ↦ if_neg fun hyk ↦ ?_).trans (List.map_id rows)
  exact hfr (mem_map.mpr ⟨y, hy, hyk⟩)

theorem update_update {row' : α} (hk : key row' = key row) :
    ((rows.map fun x ↦ if key x = key row then row else x).map fun x ↦
      if key x = key row' then row' else x) =
        rows.map fun x ↦ if key x = key row' then row' else x := by
  refine map_map.trans (map_congr_left fun x _ ↦ ?_)
  rw [comp_apply]
  by_cases hx : key x = key row
  · rw [if_pos hx, if_pos hk.symm, if_pos (hx.trans hk.symm)]
  · rw [if_neg hx]

/-- An update exchanges one row. -/
theorem update_perm (hkey : (rows.map key).Nodup) (hx : x ∈ rows) (hk : key x = key row) :
    ∃ rest, rows.Perm (x :: rest) ∧
      (rows.map fun y ↦ if key y = key row then row else y).Perm (row :: rest) := by
  obtain ⟨s, t, rfl⟩ := List.append_of_mem hx
  have hperm : (s ++ x :: t).Perm (x :: (s ++ t)) := List.perm_middle
  refine ⟨s ++ t, hperm, (hperm.map _).trans ?_⟩
  have hnd := (hperm.map key).nodup_iff.mp hkey
  rw [map_cons, nodup_cons] at hnd
  have hrest : (s ++ t).map (fun y ↦ if key y = key row then row else y) = s ++ t := by
    refine (map_congr_left fun y hy ↦ if_neg fun hyk ↦ ?_).trans (List.map_id _)
    exact hnd.1 (mem_map.mpr ⟨y, hy, hyk.trans hk.symm⟩)
  rw [map_cons, if_pos hk, hrest]

/-! ## Upserts by key

An upsert replaces the rows with the key of the new one, and adds it when there are none. -/

/-- Replace the row with the key of `row`, or add `row`. -/
def putRow (key : α → κ) (row : α) (rows : List α) : List α :=
  if ∃ x ∈ rows, key x = key row then rows.map fun x ↦ if key x = key row then row else x
  else rows ++ [row]

theorem mem_putRow (h : x ∈ putRow key row rows) : x = row ∨ (x ∈ rows ∧ key x ≠ key row) := by
  unfold putRow at h
  split at h
  · exact mem_update h
  next hno =>
    rcases mem_append.mp h with h | h
    · exact .inr ⟨h, fun hk ↦ hno ⟨x, h, hk⟩⟩
    · exact .inl (mem_singleton.mp h)

theorem nodup_key_putRow (hkey : (rows.map key).Nodup) (row : α) :
    ((putRow key row rows).map key).Nodup := by
  unfold putRow
  split
  · exact nodup_key_update hkey row
  next hno =>
    exact nodup_key_snoc hkey fun y hy hk ↦ hno ⟨y, hy, hk⟩

theorem filter_putRow (hrow : p row = false) (hold : ∀ x ∈ rows, key x = key row → p x = false) :
    (putRow key row rows).filter p = rows.filter p := by
  unfold putRow
  split
  · exact filter_update hrow hold
  · rw [filter_append, List.filter_singleton, hrow, Bool.cond_false, append_nil]

end FuelGrid.Sql
