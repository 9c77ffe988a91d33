import FuelGrid.Procurement.MoneyMatch

/-!
# Deliveries are billed once

A line that names a delivery is compared with the whole volume of that delivery, whatever other
lines and other invoices have billed of it, and the delivery need not be one of the line's purchase
order. So the same delivery can be billed again and again, each time without a discrepancy.
-/

namespace FuelGrid.Procurement

open Sql

/-- No discrepancy was ever raised on the line. -/
def SupplierInvoiceLine.Clean (db : ProcurementDb) (il : SupplierInvoiceLine) : Prop :=
  ∀ d ∈ db.discrepancies, ¬(d.supplierInvoiceId = il.supplierInvoiceId ∧ d.poLineId = il.poLineId ∧
    d.deliveryId = il.deliveryId)
  deriving Decidable

/-- The lines of approved invoices on a delivery, without those that had a discrepancy. -/
def billedLines (db : ProcurementDb) (delivery : Uuid) : List SupplierInvoiceLine :=
  (db.lines.filter (·.deliveryId = some delivery)).filter fun il ↦
    il.Clean db ∧ ∃ inv ∈ db.invoices, inv.id = il.supplierInvoiceId ∧ inv.status = .approved

/-- What is billed of a delivery is within the tolerance of its volume, on its own purchase
order. -/
def BillingLaw (db : ProcurementDb) : Prop :=
  ∀ id d, db.delivery id = some d →
    ((billedLines db id).map (litres ·.invoicedLitres)).sum
      ≤ litres d.volumeLitres + quantityTolerance (litres d.volumeLitres) ∧
    ∀ il ∈ billedLines db id, d.purchaseOrderId = some il.purchaseOrderId

/-- The deliveries of the lines are of the purchase order and have not been billed. -/
def LinesBillOnce (db : ProcurementDb) (order : Uuid) (lns : List SupplierInvoiceLineInput) :
    Prop :=
  (lns.filterMap (·.deliveryId)).Nodup ∧ ∀ id ∈ lns.filterMap (·.deliveryId),
    (∀ il ∈ db.lines, il.deliveryId ≠ some id) ∧ ∀ d ∈ db.delivery id,
    d.purchaseOrderId = some order

instance (db : ProcurementDb) (order : Uuid) (lns : List SupplierInvoiceLineInput) :
    Decidable (LinesBillOnce db order lns) :=
  inferInstanceAs (Decidable (_ ∧ ∀ id ∈ _, (∀ il ∈ _, _) ∧ ∀ d ∈ _, _))

/-- A recorded invoice bills each of its deliveries for the first time, on the purchase order of the
delivery. -/
def ProcurementOp.BillsOnce (env : Env) (db : ProcurementDb) : ProcurementOp → Prop
  | .record req => ∀ order ∈ req.purchaseOrderId,
      ∀ lns ∈ req.lines.mapM (RecordInvoiceLineRequest.input env), LinesBillOnce db order lns
  | .approve _ _ | .resolve _ _ _ => True

instance (env : Env) (db : ProcurementDb) : DecidablePred (ProcurementOp.BillsOnce env db)
  | .record req => inferInstanceAs (Decidable (∀ order ∈ req.purchaseOrderId,
      ∀ lns ∈ req.lines.mapM (RecordInvoiceLineRequest.input env), LinesBillOnce db order lns))
  | .approve _ _ | .resolve _ _ _ => .isTrue trivial

/-! ## The invariant

While each line names a delivery of its own purchase order that no line has named before, what is
billed of a delivery without a discrepancy is within the tolerance of its volume
(`billingLaw_of_billsOnce`). -/

/-- A line on a delivery is on its purchase order, and within the tolerance if it is clean. -/
structure SupplierInvoiceLine.Fits (db : ProcurementDb) (il : SupplierInvoiceLine) (d : Delivery) :
    Prop where
  order : d.purchaseOrderId = some il.purchaseOrderId
  litres_le : il.Clean db → litres il.invoicedLitres
    ≤ litres d.volumeLitres + quantityTolerance (litres d.volumeLitres)

structure BilledBooks (db : ProcurementDb) (n : ℕ) : Prop where
  booked : Booked db n
  once : (db.lines.filterMap (·.deliveryId)).Nodup
  fits : ∀ il ∈ db.lines, ∀ id ∈ il.deliveryId, ∀ d ∈ db.delivery id, il.Fits db d

private theorem bound_nonneg (d : Delivery) :
    0 ≤ litres d.volumeLitres + quantityTolerance (litres d.volumeLitres) := by
  have hvol : (0 : ℚ) ≤ d.volumeLitres := by exact_mod_cast d.volume_pos.le
  have htol : 1 ≤ quantityTolerance (litres d.volumeLitres) := le_max_right _ _
  have : 0 ≤ litres d.volumeLitres := by
    unfold litres
    positivity
  linarith

variable {db db' : ProcurementDb} {il : SupplierInvoiceLine} {d : Delivery} {n : ℕ}

theorem BilledBooks.law (h : BilledBooks db n) : BillingLaw db := by
  intro id d hd
  have hfits : ∀ il ∈ billedLines db id, il.Fits db d ∧ il.Clean db := by
    intro il hil
    obtain ⟨hil, hcle⟩ := mem_filter.mp hil
    obtain ⟨hmem, hdel⟩ := mem_filter.mp hil
    exact ⟨h.fits il hmem id (of_decide_eq_true hdel) d hd, (of_decide_eq_true hcle).1⟩
  refine ⟨?_, fun il hil ↦ (hfits il hil).1.order⟩
  -- there is one line at most
  have hone : (billedLines db id).length ≤ 1 :=
    (List.length_filter_le _ _).trans (length_filter_key_le_one h.once id)
  rcases hlns : billedLines db id with _ | ⟨il, _ | ⟨il', ls⟩⟩
  · exact bound_nonneg d
  · rw [map_singleton, sum_singleton]
    obtain ⟨hfit, hcle⟩ := hfits il (hlns ▸ mem_singleton_self il)
    exact hfit.litres_le hcle
  · rw [hlns] at hone
    simp at hone

theorem SupplierInvoiceLine.Fits.mono (h : il.Fits db d)
    (hds : ∀ d ∈ db.discrepancies, ∃ d' ∈ db'.discrepancies, d'.toMismatch = d.toMismatch) :
    il.Fits db' d where
  order := h.order
  litres_le hcle := h.litres_le fun d hd hof ↦ by
    obtain ⟨d', hd', hmm⟩ := hds d hd
    rw [← hmm] at hof
    exact hcle d' hd' hof

theorem BilledBooks.kept (h : BilledBooks db n) (hsm : SameBills db db') : BilledBooks db' n := by
  refine ⟨h.booked.kept hsm, hsm.lines ▸ h.once, fun il hil id hid d hd ↦ ?_⟩
  have hdel : db.delivery id = some d := by
    unfold ProcurementDb.delivery
    rw [← hsm.deliveries]
    exact hd
  refine (h.fits il (hsm.lines ▸ hil) id hid d hdel).mono fun d hd ↦ ?_
  obtain ⟨d', hd', -, hmm⟩ := hsm.mem_discrepancies hd
  exact ⟨d', hd', hmm⟩

/-- A new line that names a delivery is compared with its volume. -/
theorem litres_le_of_billed {invoice order : Uuid} {ln : SupplierInvoiceLineInput} {id : Uuid}
    (hbil : Billed db invoice order ln il) (hid : il.deliveryId = some id)
    (hd : db.delivery id = some d) (hqua : quantityMismatch db il = none) :
    litres il.invoicedLitres ≤
      litres d.volumeLitres + quantityTolerance (litres d.volumeLitres) := by
  obtain ⟨pol, hpol⟩ := isSome_iff_exists.mp hbil.orderLine
  rw [← hbil.order] at hpol
  have hle := litres_le_of_quantityMismatch hpol hqua
  have href : referenceLitres db il pol = d.volumeLitres := by
    unfold referenceLitres
    rw [hid]
    dsimp only
    rw [hd]
    rfl
  rwa [href] at hle

theorem BilledBooks.recorded {n' : ℕ} (h : BilledBooks db n) {order : Uuid}
    {lns : List SupplierInvoiceLineInput} {inv : SupplierInvoice} {ls : List SupplierInvoiceLine}
    {ds : List ProcurementDiscrepancy} (hrec : Recorded db n n' order lns inv ls ds)
    (honce : LinesBillOnce db order lns) : BilledBooks (db.recorded inv ls ds) n' := by
  have hdel := Billed.filterMap_delivery hrec.lines
  refine ⟨h.booked.recorded hrec, ?_, fun il hil id hid d hd ↦ ?_⟩
  · change ((db.lines ++ ls).filterMap _).Nodup
    rw [filterMap_append, hdel]
    refine h.once.append honce.1 fun id hold hnew ↦ ?_
    obtain ⟨il, hil, hid⟩ := mem_filterMap.mp hold
    exact (honce.2 id hnew).1 il hil hid
  · have hd : db.delivery id = some d := hd
    rcases mem_append.mp hil with hil | hil
    · exact (h.fits il hil id hid d hd).mono fun d hd ↦ ⟨d, mem_append_left _ hd, rfl⟩
    · obtain ⟨ln, hln, hbil⟩ := Billed.exists_input hrec.lines il hil
      have hnam : id ∈ lns.filterMap (·.deliveryId) :=
        hdel ▸ mem_filterMap.mpr ⟨il, hil, hid⟩
      refine ⟨hbil.order ▸ (honce.2 id hnam).2 d hd, fun hcle ↦ litres_le_of_billed hbil hid hd ?_⟩
      refine Option.eq_none_iff_forall_ne_some.mpr fun m hm ↦ ?_
      obtain ⟨d', hd', hdm⟩ := hrec.mem_raised hil (.inl hm)
      have hof := quantityMismatch_eq_some hm
      rw [← hdm] at hof
      exact hcle d' (mem_append_right _ hd') ⟨hof.invoice, hof.orderLine, hof.delivery⟩

/-- While each line names a delivery of its purchase order that was not named before, no delivery is
billed beyond the tolerance of its volume. -/
theorem billingLaw_of_billsOnce {env : Env} {s₀ s : ProcurementDb × ℕ} (hinit : NoInvoices s₀.1)
    (hrun : Runs (S := schema env) (ProcurementOp.prog env)
      (fun db op ↦ op.BillsOnce env db) s₀ s) :
    BillingLaw s.1 := by
  have hs0 : BilledBooks s₀.1 s₀.2 := by
    refine ⟨hinit.booked _, ?_, fun il hil ↦ absurd (hinit.lines ▸ hil) not_mem_nil⟩
    rw [hinit.lines]
    exact nodup_nil
  refine (Runs.invariant (I := fun s : ProcurementDb × ℕ ↦ BilledBooks s.1 s.2) hrun hs0
    fun s op hs hop ↦ ?_).law
  have hn := Prog.le_alone_stamp (op.prog env) s.1 [] s.2
  have hst := ProcurementOp.step env hs.booked op
  generalize (op.prog env).alone s.1 [] s.2 = out at hn hst ⊢
  rcases out with ⟨r, db', n'⟩
  cases hst with
  | kept _ hsm =>
    have hkt := hs.kept hsm
    exact { hkt with booked := hkt.booked.mono hn }
  | recorded hord hlns hrec => exact hs.recorded hrec (hop _ hord _ hlns)

/-- Two invoices bill the delivery 3 of 1000 litres, both are matched and approved. -/
theorem not_billingLaw_of_second_invoice :
    ∃ s, Runs (S := schema .allowAll) (ProcurementOp.prog .allowAll) (fun _ _ ↦ True)
        (oneOrder, 10) s ∧
      ¬BillingLaw s.1 := by
  refine exists_and_imp (fun s ↦ ∃ d ∈ s.1.delivery 3,
      litres d.volumeLitres + quantityTolerance (litres d.volumeLitres)
      < ((billedLines s.1 3).map (litres ·.invoicedLitres)).sum)
    (exists_of_runAll [invoiceOf "A" (some 3) none, .approve 6 12, invoiceOf "B" (some 3) none,
    .approve 6 28] (by decide +kernel)) ?_
  rintro _ _ ⟨d, hd, hlt⟩
  exact fun h ↦ absurd (h 3 d hd).1 (not_le.mpr hlt)

/-- The delivery is billed once. -/
theorem billingLaw_of_billsOnce_approved :
    ∃ s, Runs (S := schema .allowAll) (ProcurementOp.prog .allowAll)
      (fun db op ↦ op.BillsOnce .allowAll db) (oneOrder, 10) s ∧ (billedLines s.1 3).length = 1 ∧
        BillingLaw s.1 := by
  refine exists_and_imp (fun s ↦ (billedLines s.1 3).length = 1)
    (exists_of_runAll [invoiceOf "A" (some 3) none, .approve 6 12] (by decide +kernel)) ?_
  rintro _ hs hbil
  exact ⟨hbil, billingLaw_of_billsOnce ⟨rfl, rfl, rfl⟩ hs⟩

end FuelGrid.Procurement
