import FuelGrid.Sql.Txn
import Mathlib.Algebra.Order.Group.Int

/-!
# The price book and the price board

Prices are append-only and resolved by time: the price of a product at an instant is that of the
latest row in effect, and of rows that take effect together the one created last. The price board
shows the price now and the next scheduled change, which it selects in the opposite direction: the
earliest row to come, and of rows that take effect together the one created *first*.

So the board announces a price that will never be charged when a scheduled change was corrected by
another row for the same instant. It agrees with `resolvePrice` exactly when the first and the last
created row of the next change have one price (`boardLaw_iff_agreedNext`).
-/

namespace FuelGrid.Pricing

open Sql

/-- One append-only entry in a station's price book. -/
structure PriceChange where
  tenantId : Uuid
  stationId : Uuid
  productId : Uuid
  unitPrice : String
  effectiveFrom : ℤ
  createdAt : ℤ

/-- The columns that order the rows of a product. -/
def PriceChange.key (r : PriceChange) : Uuid × Uuid × Uuid × ℤ × ℤ :=
  (r.tenantId, r.stationId, r.productId, r.effectiveFrom, r.createdAt)

/-- A price book: rows of a product that take effect together were created at different times. -/
structure PriceBook where
  rows : List PriceChange
  keys : (rows.map PriceChange.key).Nodup

structure Product where
  id : Uuid
  tenantId : Uuid
  code : String
  name : String
  color : String
  deleted : Bool

/-- A product's current and next-scheduled price. -/
structure BoardEntry where
  product : Product
  activePrice : Option String
  nextPrice : Option String
  nextEffectiveFrom : Option ℤ

/-- `ORDER BY key LIMIT 1`, for a key of two columns. -/
def first (key : PriceChange → ℤ × ℤ) : List PriceChange → Option PriceChange
  | [] => none
  | r :: rows => some (rows.foldl (fun best x ↦
      if (key x).1 < (key best).1 ∨ (key x).1 = (key best).1 ∧ (key x).2 < (key best).2 then x
      else best) r)

/-- `ORDER BY effective_from DESC, created_at DESC LIMIT 1` -/
def latest : List PriceChange → Option PriceChange :=
  first fun r ↦ (-r.effectiveFrom, -r.createdAt)

/-- `ORDER BY effective_from ASC, created_at ASC LIMIT 1` -/
def earliest : List PriceChange → Option PriceChange :=
  first fun r ↦ (r.effectiveFrom, r.createdAt)

/-- The rows in effect at `t`. -/
def inEffect (t : ℤ) (rows : List PriceChange) : List PriceChange :=
  rows.filter (·.effectiveFrom ≤ t)

/-- The rows that take effect after `now`. -/
def coming (now : ℤ) (rows : List PriceChange) : List PriceChange :=
  rows.filter (now < ·.effectiveFrom)

section Book

variable (book : PriceBook) (tenant station : Uuid)

def PriceBook.of (product : Uuid) : List PriceChange :=
  book.rows.filter fun r ↦ r.tenantId = tenant ∧ r.stationId = station ∧ r.productId = product

/-- The active unit price at `t`. -/
def PriceBook.resolvePrice (product : Uuid) (t : ℤ) : Option String :=
  (latest (inEffect t (book.of tenant station product))).map (·.unitPrice)

def PriceBook.boardEntry (now : ℤ) (p : Product) : BoardEntry :=
  let rows := book.of tenant station p.id
  { product := p
    activePrice := (latest (inEffect now rows)).map (·.unitPrice)
    nextPrice := (earliest (coming now rows)).map (·.unitPrice)
    nextEffectiveFrom := (earliest (coming now rows)).map (·.effectiveFrom) }

def PriceBook.priceBoard (products : List Product) (now : ℤ) : List BoardEntry :=
  (products.filter fun p ↦ p.tenantId = tenant ∧ p.deleted = false ∧
    book.of tenant station p.id ≠ []).map (book.boardEntry tenant station now)

/-- The entry agrees with pricing: its active price is the one of now, and its next change is the
next one and announces the price from then on. -/
structure BoardLaw (now : ℤ) (e : BoardEntry) : Prop where
  active : e.activePrice = book.resolvePrice tenant station e.product.id now
  next : ∀ t, e.nextEffectiveFrom = some t →
    (∀ r ∈ book.of tenant station e.product.id, ¬(now < r.effectiveFrom ∧ r.effectiveFrom < t)) ∧
      e.nextPrice = book.resolvePrice tenant station e.product.id t

end Book

/-- `r` and `r'` are the first and the last created of the rows that take effect next. -/
structure Next (now : ℤ) (rows : List PriceChange) (r r' : PriceChange) : Prop where
  mem : r ∈ coming now rows
  mem' : r' ∈ coming now rows
  together : r'.effectiveFrom = r.effectiveFrom
  next : ∀ x ∈ coming now rows, r.effectiveFrom ≤ x.effectiveFrom
  between : ∀ x ∈ coming now rows, x.effectiveFrom = r.effectiveFrom →
    r.createdAt ≤ x.createdAt ∧ x.createdAt ≤ r'.createdAt

/-- The first and the last created row of the next change have one price. -/
def AgreedNext (now : ℤ) (rows : List PriceChange) : Prop :=
  ∀ r r', Next now rows r r' → r.unitPrice = r'.unitPrice

private theorem first_spec (key : PriceChange → ℤ × ℤ) {rows : List PriceChange} (hne : rows ≠ []) :
    ∃ r ∈ rows, first key rows = some r ∧ ∀ x ∈ rows,
      (key r).1 ≤ (key x).1 ∧ ((key x).1 = (key r).1 → (key r).2 ≤ (key x).2) := by
  obtain ⟨r, rows, rfl⟩ := List.exists_cons_of_ne_nil hne
  clear hne
  induction rows generalizing r with
  | nil => exact ⟨r, mem_cons_self, rfl, by simp⟩
  | cons y rows ih =>
    -- the better of the first two rows stands for both of them
    set best :=
      if (key y).1 < (key r).1 ∨ (key y).1 = (key r).1 ∧ (key y).2 < (key r).2 then y else r
      with hbest
    obtain ⟨b, hmem, heq, hle⟩ := ih best
    have hb := hle best mem_cons_self
    refine ⟨b, ?_, heq, fun x hx ↦ ?_⟩
    · rcases mem_cons.mp hmem with rfl | hmem
      · rw [hbest]
        split <;> simp
      · exact mem_cons_of_mem _ (mem_cons_of_mem _ hmem)
    · rcases mem_cons.mp hx with rfl | hx
      · split at hbest <;> rw [hbest] at hb <;> omega
      · rcases mem_cons.mp hx with rfl | hx
        · split at hbest <;> rw [hbest] at hb <;> omega
        · exact hle x (mem_cons_of_mem _ hx)

variable {rows : List PriceChange} {now : ℤ} {r r' : PriceChange} {book : PriceBook}
  {tenant station product : Uuid}

/-- The board announces the first created row of the next change; the last created one will be
charged. -/
theorem exists_next (hne : coming now rows ≠ []) : ∃ r r', Next now rows r r' ∧
    earliest (coming now rows) = some r ∧ latest (inEffect r.effectiveFrom rows) = some r' := by
  obtain ⟨r, hr, hear, hfir⟩ := first_spec (fun r ↦ (r.effectiveFrom, r.createdAt)) hne
  obtain ⟨hmem, hlt⟩ := mem_filter.mp hr
  have heff : r ∈ inEffect r.effectiveFrom rows := mem_filter.mpr ⟨hmem, by simp⟩
  obtain ⟨r', hr', hlat, hlast⟩ :=
    first_spec (fun r ↦ (-r.effectiveFrom, -r.createdAt)) (List.ne_nil_of_mem heff)
  obtain ⟨hmem', hle⟩ := mem_filter.mp hr'
  have htog : r'.effectiveFrom = r.effectiveFrom := by
    have := (hlast r heff).1
    simp at hle this
    omega
  refine ⟨r, r', ⟨hr, ?_, htog, fun x hx ↦ (hfir x hx).1, fun x hx heq ↦ ?_⟩, hear,
    hlat⟩
  · exact mem_filter.mpr ⟨hmem', by rwa [htog]⟩
  · refine ⟨(hfir x hx).2 heq, ?_⟩
    have := (hlast x (mem_filter.mpr ⟨(mem_filter.mp hx).1, by simp [heq]⟩)).2
    simp [heq, htog] at this
    exact this

/-- There is only one such pair of rows. -/
theorem Next.unique {s s' : PriceChange} (hks : ∀ x ∈ rows, ∀ y ∈ rows,
      x.effectiveFrom = y.effectiveFrom → x.createdAt = y.createdAt → x = y)
    (h : Next now rows r r') (h' : Next now rows s s') : r = s ∧ r' = s' := by
  have hmem : ∀ {x}, x ∈ coming now rows → x ∈ rows := fun hx ↦ (mem_filter.mp hx).1
  have heff : r.effectiveFrom = s.effectiveFrom := le_antisymm (h.next s h'.mem) (h'.next r h.mem)
  refine ⟨hks _ (hmem h.mem) _ (hmem h'.mem) heff (le_antisymm ?_ ?_),
    hks _ (hmem h.mem') _ (hmem h'.mem') (by rw [h.together, h'.together, heff])
      (le_antisymm ?_ ?_)⟩
  · exact (h.between s h'.mem heff.symm).1
  · exact (h'.between r h.mem heff).1
  · exact (h'.between r' h.mem' (h.together.trans heff)).2
  · exact (h.between s' h'.mem' (h'.together.trans heff.symm)).2

theorem PriceBook.eq_of_times_eq (h : r ∈ book.of tenant station product)
    (h' : r' ∈ book.of tenant station product) (heff : r.effectiveFrom = r'.effectiveFrom)
    (hcre : r.createdAt = r'.createdAt) : r = r' := by
  rw [PriceBook.of, mem_filter, decide_eq_true_eq] at h h'
  obtain ⟨hr, ht, hs, hp⟩ := h
  obtain ⟨hr', ht', hs', hp'⟩ := h'
  refine inj_on_of_nodup_map book.keys hr hr' ?_
  rw [PriceChange.key, PriceChange.key, ht, hs, hp, ht', hs', hp', heff, hcre]

/-- **The board agrees with pricing** for the products whose next change has one price, and for no
others. -/
theorem boardLaw_iff_agreedNext (book : PriceBook) (tenant station : Uuid) (products : List Product)
    (now : ℤ) : ∀ e ∈ book.priceBoard tenant station products now,
      BoardLaw book tenant station now e ↔
        AgreedNext now (book.of tenant station e.product.id) := by
  intro e he
  obtain ⟨p, -, rfl⟩ := mem_map.mp he
  set rows := book.of tenant station p.id with hrs
  by_cases hne : coming now rows = []
  · -- nothing is scheduled
    refine iff_of_true ⟨rfl, fun t ht ↦ ?_⟩ fun r r' hnx ↦ ?_
    · simp [PriceBook.boardEntry, ← hrs, hne, earliest, first] at ht
    · exact absurd (hne ▸ hnx.mem) not_mem_nil
  · obtain ⟨r, r', hnx, hear, hlat⟩ := exists_next hne
    have hent : (book.boardEntry tenant station now p).nextPrice = some r.unitPrice ∧
        (book.boardEntry tenant station now p).nextEffectiveFrom = some r.effectiveFrom := by
      simp [PriceBook.boardEntry, ← hrs, hear]
    have hcha : book.resolvePrice tenant station p.id r.effectiveFrom = some r'.unitPrice := by
      simp [PriceBook.resolvePrice, ← hrs, hlat]
    constructor
    · intro hlaw s s' hs
      have hpri := (hlaw.next _ hent.2).2
      obtain ⟨rfl, rfl⟩ := hnx.unique
        (fun _ hx _ hy heff hcre ↦ PriceBook.eq_of_times_eq hx hy heff hcre) hs
      rw [hent.1] at hpri
      exact some.inj (hpri.trans hcha)
    · intro hagr
      refine ⟨rfl, fun t ht ↦ ?_⟩
      obtain rfl := some.inj (hent.2.symm.trans ht)
      refine ⟨fun x hx hlt ↦ ?_, ?_⟩
      · have hle := hnx.next x (mem_filter.mpr ⟨hx, by simpa using hlt.1⟩)
        exact absurd hlt.2 hle.not_gt
      · rw [hent.1, hagr r r' hnx]
        exact hcha.symm

/-- A price of 3.10 from instant 10 on was scheduled first and then corrected to 3.20. -/
def correctedBook : PriceBook :=
  ⟨[⟨0, 1, 2, "3.00", 0, 0⟩, ⟨0, 1, 2, "3.10", 10, 1⟩, ⟨0, 1, 2, "3.20", 10, 2⟩], by decide⟩

def petrol : Product := ⟨2, 0, "PMS", "Petrol", "green", false⟩

theorem boardLaw_iff_agreedNext_petrol :
    correctedBook.boardEntry 0 1 5 petrol ∈ correctedBook.priceBoard 0 1 [petrol] 5 ∧
      (BoardLaw correctedBook 0 1 5 (correctedBook.boardEntry 0 1 5 petrol) ↔
        AgreedNext 5 (correctedBook.of 0 1 2)) :=
  ⟨mem_cons_self, boardLaw_iff_agreedNext correctedBook 0 1 [petrol] 5 _ mem_cons_self⟩

/-- The board announces 3.10, and 3.20 will be charged. -/
theorem not_boardLaw_of_corrected : ∃ e ∈ correctedBook.priceBoard 0 1 [petrol] 5,
    e.nextPrice = some "3.10" ∧ e.nextEffectiveFrom = some 10 ∧
      correctedBook.resolvePrice 0 1 2 10 = some "3.20" ∧ ¬BoardLaw correctedBook 0 1 5 e := by
  refine ⟨_, mem_cons_self, rfl, rfl, rfl, fun h ↦ ?_⟩
  exact absurd (h.next 10 rfl).2 (by decide)

end FuelGrid.Pricing
