import FuelGrid.Sql.Numeric
import FuelGrid.Sql.Select

/-!
# Open items

A sub-ledger of items, such as invoices, that are paid off in parts. Each item has an amount and
what is outstanding of it; the payments are allocations, pairs of an item and a part. `Conserved` is
the law of such a sub-ledger: what is outstanding of an item is its amount less its allocations, it
lies between zero and the amount, and the item counts as paid just when nothing is outstanding.
-/

namespace FuelGrid.Sql

/-! ## Columns

Amounts are columns that can hold `NaN`. The part is a text of any number of decimals: it is
subtracted from the column as it is, and recorded rounded. Only a part of whole units leaves what
was recorded (`Numeric.drawn_of_whole`). -/

/-- What is left of `x` after a part of it is drawn. -/
theorem draw_bounds {x a m : WithTop ℤ} (ha : 0 ≤ a) (hax : a ≤ x) (hxm : x ≤ m) :
    0 ≤ x + -a ∧ x + -a ≤ m := by
  induction x with
  | top =>
    obtain rfl : m = ⊤ := top_le_iff.mp hxm
    rw [WithTop.top_add]
    exact ⟨le_top, le_rfl⟩
  | coe x =>
    lift a to ℤ using ne_top_of_le_ne_top WithTop.coe_ne_top hax
    have hax : a ≤ x := WithTop.coe_le_coe.mp hax
    have ha : 0 ≤ a := WithTop.coe_le_coe.mp ha
    refine ⟨WithTop.coe_le_coe.mpr (by omega : 0 ≤ x + -a), le_trans ?_ hxm⟩
    exact WithTop.coe_le_coe.mpr (by omega : x + -a ≤ x)

/-- What is left of `m` after the parts `a` and `t`, with `a` given back. -/
theorem restore_eq {x a t m : WithTop ℤ} (ht : 0 ≤ t) (hx : x = m + -(a + t)) (hxm : x ≤ m) :
    x + a = m + -t ∧ x + a ≤ m := by
  induction m with
  | top =>
    rw [WithTop.top_add] at hx ⊢
    rw [hx, WithTop.top_add]
    exact ⟨rfl, le_rfl⟩
  | coe m =>
    have hfin : (m : WithTop ℤ) + -(a + t) ≠ ⊤ := hx ▸ ne_top_of_le_ne_top WithTop.coe_ne_top hxm
    have hat : a + t ≠ ⊤ := by
      intro h
      rw [h] at hfin
      exact hfin rfl
    rw [WithTop.add_ne_top] at hat
    lift a to ℤ using hat.1
    lift t to ℤ using hat.2
    have ht : 0 ≤ t := WithTop.coe_le_coe.mp ht
    have heq : m + -(a + t) + a = m + -t := by omega
    have hle : m + -(a + t) + a ≤ m := by omega
    rw [hx]
    exact ⟨congrArg WithTop.some heq, WithTop.coe_le_coe.mpr hle⟩

/-- `outstanding - x` as the column takes it, and whether the exact value is `<= 0`. -/
def Numeric.drawn (p s : ℕ) (x : Numeric) (outstanding : WithTop ℤ) : Option (WithTop ℤ × Bool) :=
  let left := .ofUnits s outstanding + -x
  (left.store p s).map fun u ↦ (u, decide (left ≤ .finite 0))

/-- Whole units are subtracted as they are recorded. -/
theorem Numeric.drawn_of_whole {p s : ℕ} {o a u : WithTop ℤ} {x : Numeric} {zero : Bool}
    (hx : x.Whole s) (ha : x.store p s = some a) (h : x.drawn p s o = some (u, zero)) :
    u = o + -a ∧ (zero = true ↔ u ≤ 0) := by
  rw [hx.eq_ofUnits ha, Numeric.drawn, ofUnits_neg, ofUnits_add] at h
  obtain ⟨v, hv, heq⟩ := map_eq_some_iff.mp h
  obtain ⟨rfl, rfl⟩ := Prod.mk.inj heq
  rw [store_ofUnits hv, decide_eq_true_iff, ← ofUnits_zero s, ofUnits_le_ofUnits]
  exact ⟨rfl, .rfl⟩

/-! ## Items and allocations

The law is kept when a part is drawn from an item and recorded as an allocation (`Conserved.draw`),
and when an allocation is taken back (`Conserved.restore`). There a cap at the amount does not bite
(`Conserved.restore_le`). Over all items it says that what is outstanding is what was billed less
what was allocated (`Conserved.sum_outstanding`). -/

/-- How the rows of a table are read as open items. -/
structure ItemView (ι κ : Type) where
  id : ι → κ
  amount : ι → WithTop ℤ
  outstanding : ι → WithTop ℤ
  paid : ι → Prop

section Taken

variable {κ : Type} [DecidableEq κ] {live : List (κ × WithTop ℤ)}

/-- The allocations of an item, summed. -/
def taken (live : List (κ × WithTop ℤ)) (k : κ) : WithTop ℤ :=
  ((live.filter (·.1 = k)).map (·.2)).sum

private theorem taken_cons (a : κ × WithTop ℤ) (live : List (κ × WithTop ℤ)) (k : κ) :
    taken (a :: live) k = (if a.1 = k then a.2 else 0) + taken live k := by
  unfold taken
  split
  next hk => rw [List.filter_cons_of_pos (by simpa using hk), map_cons, sum_cons]
  next hk => rw [filter_cons_of_neg (by simpa using hk), zero_add]

private theorem taken_nonneg (h : ∀ a ∈ live, 0 < a.2) (k : κ) : 0 ≤ taken live k := by
  refine List.sum_nonneg fun x hx ↦ ?_
  obtain ⟨a, ha, rfl⟩ := mem_map.mp hx
  exact (h a (mem_filter.mp ha).1).le

private theorem taken_eq_zero {k : κ} (h : ∀ a ∈ live, a.1 ≠ k) : taken live k = 0 := by
  rw [taken, filter_eq_nil_iff.mpr fun a ha hk ↦ h a ha (of_decide_eq_true hk)]
  rfl

end Taken

variable {ι κ : Type} [DecidableEq κ] (V : ItemView ι κ) {live' : List (κ × WithTop ℤ)}

/-- The law of the sub-ledger, for the allocations that count. -/
structure Conserved (items : List ι) (live : List (κ × WithTop ℤ)) : Prop where
  unique : (items.map V.id).Nodup
  known : ∀ a ∈ live, a.1 ∈ items.map V.id
  positive : ∀ a ∈ live, 0 < a.2
  outstanding : ∀ i ∈ items, V.outstanding i = V.amount i + -taken live (V.id i)
  nonneg : ∀ i ∈ items, 0 ≤ V.outstanding i
  le_amount : ∀ i ∈ items, V.outstanding i ≤ V.amount i
  paid_iff : ∀ i ∈ items, V.paid i ↔ V.outstanding i = 0

variable {V} {items : List ι} {live : List (κ × WithTop ℤ)} {i i' : ι} {a : WithTop ℤ}

namespace Conserved

section Kept

variable (h : Conserved V items live)

include h

/-- Only which allocations count matters, not their order. -/
theorem perm (hperm : live.Perm live') : Conserved V items live' where
  unique := h.unique
  known a ha := h.known a (hperm.mem_iff.mpr ha)
  positive a ha := h.positive a (hperm.mem_iff.mpr ha)
  outstanding i hi := by rw [h.outstanding i hi, taken, ((hperm.filter _).map _).sum_eq, taken]
  nonneg := h.nonneg
  le_amount := h.le_amount
  paid_iff := h.paid_iff

theorem insert (hfr : V.id i ∉ items.map V.id) (hout : V.outstanding i = V.amount i)
    (hpos : 0 < V.amount i) (hpaid : ¬V.paid i) : Conserved V (items ++ [i]) live := by
  have hno : taken live (V.id i) = 0 :=
    taken_eq_zero fun a ha hk ↦ hfr (hk ▸ h.known a ha)
  have hmem : ∀ {x}, x ∈ items ++ [i] → x ∈ items ∨ x = i := fun hx ↦
    (mem_append.mp hx).imp_right mem_singleton.mp
  refine ⟨?_, fun a ha ↦ ?_, h.positive, fun x hx ↦ ?_, fun x hx ↦ ?_, fun x hx ↦ ?_, fun x hx ↦ ?_⟩
  · exact nodup_key_snoc h.unique fun y hy hk ↦ hfr (mem_map.mpr ⟨y, hy, hk⟩)
  · rw [map_append]
    exact mem_append_left _ (h.known a ha)
  · rcases hmem hx with hx | rfl
    · exact h.outstanding x hx
    · rw [hout, hno, neg_zero, add_zero]
  · rcases hmem hx with hx | rfl
    · exact h.nonneg x hx
    · exact hout ▸ hpos.le
  · rcases hmem hx with hx | rfl
    · exact h.le_amount x hx
    · exact hout.le
  · rcases hmem hx with hx | rfl
    · exact h.paid_iff x hx
    · exact iff_of_false hpaid (hout ▸ hpos.ne')

theorem append {new : List ι} (hun : ((items ++ new).map V.id).Nodup)
    (hout : ∀ i ∈ new, V.outstanding i = V.amount i) (hpos : ∀ i ∈ new, 0 < V.amount i)
    (hpaid : ∀ i ∈ new, ¬V.paid i) : Conserved V (items ++ new) live := by
  induction new generalizing items with
  | nil => rwa [append_nil]
  | cons i new ih =>
    rw [forall_mem_cons] at hout hpos hpaid
    have hfr : V.id i ∉ items.map V.id := fun hmem ↦ by
      rw [map_append, map_cons] at hun
      exact List.disjoint_of_nodup_append hun hmem mem_cons_self
    rw [List.append_cons] at hun ⊢
    exact ih (h.insert hfr hout.1 hpos.1 hpaid.1) hun hout.2 hpos.2 hpaid.2

/-- Put `i'` in the place of the item with its id, and change the allocations of that item only. -/
theorem replace (hkno : ∀ a ∈ live', a.1 ∈ items.map V.id) (hpos : ∀ a ∈ live', 0 < a.2)
    (hoth : ∀ k, k ≠ V.id i' → taken live' k = taken live k)
    (hout : V.outstanding i' = V.amount i' + -taken live' (V.id i'))
    (hnn : 0 ≤ V.outstanding i') (hle : V.outstanding i' ≤ V.amount i')
    (hpaid : V.paid i' ↔ V.outstanding i' = 0) :
    Conserved V (items.map fun x ↦ if V.id x = V.id i' then i' else x) live' := by
  refine ⟨?_, ?_, hpos, fun x hx ↦ ?_, fun x hx ↦ ?_, fun x hx ↦ ?_, fun x hx ↦ ?_⟩
  · rw [map_key_update]
    exact h.unique
  · rw [map_key_update]
    exact hkno
  all_goals rcases mem_update hx with rfl | ⟨hx, hne⟩
  · exact hout
  · rw [h.outstanding x hx, hoth _ hne]
  · exact hnn
  · exact h.nonneg x hx
  · exact hle
  · exact h.le_amount x hx
  · exact hpaid
  · exact h.paid_iff x hx

theorem update (hi : i ∈ items) (hid : V.id i' = V.id i) (hamt : V.amount i' = V.amount i)
    (hout : V.outstanding i' = V.outstanding i) (hpaid : V.paid i' ↔ V.paid i) :
    Conserved V (items.map fun x ↦ if V.id x = V.id i' then i' else x) live := by
  refine h.replace h.known h.positive (fun _ _ ↦ rfl) ?_ ?_ ?_ ?_
  · rw [hout, hamt, hid]
    exact h.outstanding i hi
  · rw [hout]
    exact h.nonneg i hi
  · rw [hout, hamt]
    exact h.le_amount i hi
  · rw [hpaid, hout]
    exact h.paid_iff i hi

/-- A part is drawn from an item and recorded as an allocation. -/
theorem draw (hi : i ∈ items) (hid : V.id i' = V.id i) (hamt : V.amount i' = V.amount i)
    (hout : V.outstanding i' = V.outstanding i + -a) (hpaid : V.paid i' ↔ V.outstanding i' ≤ 0)
    (ha : 0 < a) (hle : a ≤ V.outstanding i) :
    Conserved V (items.map fun x ↦ if V.id x = V.id i' then i' else x)
      ((V.id i, a) :: live) := by
  obtain ⟨hnn, hle'⟩ := draw_bounds ha.le hle (h.le_amount i hi)
  rw [← hout] at hnn hle'
  refine h.replace ?_ ?_ (fun k hk ↦ ?_) ?_ hnn (hamt ▸ hle') ?_
  · exact forall_mem_cons.mpr ⟨mem_map_of_mem hi, h.known⟩
  · exact forall_mem_cons.mpr ⟨ha, h.positive⟩
  · rw [taken_cons, if_neg (hid ▸ hk.symm), zero_add]
  · rw [taken_cons, if_pos hid.symm, hout, h.outstanding i hi, hamt, hid, neg_add_rev, add_assoc]
  · rw [hpaid]
    exact ⟨fun hz ↦ le_antisymm hz hnn, le_of_eq⟩

end Kept

section Restore

variable (h : Conserved V items ((V.id i, a) :: live)) (hi : i ∈ items)

include h hi

/-- An allocation that counts was drawn from its item. -/
theorem restore_le : V.outstanding i + a ≤ V.amount i := by
  have hout := h.outstanding i hi
  rw [taken_cons, if_pos rfl] at hout
  have hnn := taken_nonneg (forall_mem_cons.mp h.positive).2 (V.id i)
  exact (restore_eq hnn hout (h.le_amount i hi)).2

/-- An allocation is taken back and its item gets the part again. -/
theorem restore (hid : V.id i' = V.id i) (hamt : V.amount i' = V.amount i)
    (hout' : V.outstanding i' = V.outstanding i + a) (hpaid : ¬V.paid i') :
    Conserved V (items.map fun x ↦ if V.id x = V.id i' then i' else x) live := by
  have hout := h.outstanding i hi
  rw [taken_cons, if_pos rfl] at hout
  obtain ⟨ha, hpoi⟩ := forall_mem_cons.mp h.positive
  obtain ⟨heq, hle⟩ := restore_eq (taken_nonneg hpoi _) hout (h.le_amount i hi)
  have hpos : 0 < V.outstanding i' := hout' ▸ ha.trans_le (le_add_of_nonneg_left (h.nonneg i hi))
  refine h.replace (forall_mem_cons.mp h.known).2 hpoi (fun k hk ↦ ?_) ?_ hpos.le ?_ ?_
  · rw [taken_cons, if_neg (hid ▸ hk.symm), zero_add]
  · rw [hout', heq, hamt, hid]
  · rw [hout', hamt]
    exact hle
  · exact iff_of_false hpaid hpos.ne'

end Restore

/-- What is outstanding over some of the items is what they were billed for less what was allocated
to them. -/
theorem sum_outstanding (h : Conserved V items live) (p : ι → Prop) [DecidablePred p] :
    ((items.filter (p ·)).map V.outstanding).sum = ((items.filter (p ·)).map V.amount).sum
      + -((live.filter fun a ↦ a.1 ∈ (items.filter (p ·)).map V.id).map (·.2)).sum := by
  have hsub : ((items.filter (p ·)).map V.id).Nodup :=
    h.unique.sublist (List.Sublist.map _ filter_sublist)
  have heach : (items.filter (p ·)).map V.outstanding
      = (items.filter (p ·)).map fun i ↦ V.amount i - taken live (V.id i) :=
    map_congr_left fun i hi ↦ by
      rw [h.outstanding i (mem_filter.mp hi).1, sub_eq_add_neg]
  rw [heach, sum_map_sub, sub_eq_add_neg, ← sum_by_key hsub, map_map]
  rfl

end Conserved

end FuelGrid.Sql
