import FuelGrid.Procurement.Effects
import FuelGrid.Sql.RelyGuarantee

/-!
# The status of an invoice and its open discrepancies

An invoice is `matched` or `approved` exactly if none of its discrepancies is open, and whoever
approved it is not who recorded it (`StatusLaw`). `ResolveDiscrepancy` keeps the status with a count
of the discrepancies that are still open.

When no resolution is committed between the count and the commit of another one of the same invoice,
the law holds in every reached state, and an approved invoice stays as it is
(`statusLaw_of_countsApart`).
-/

namespace FuelGrid.Procurement

open Sql

/-- The status of the invoice is the one that its discrepancies ask for. -/
structure SupplierInvoice.Lawful (db : ProcurementDb) (inv : SupplierInvoice) : Prop where
  matched_iff : inv.status = .matched ∨ inv.status = .approved ↔ db.openOf inv.id = []
  approver : inv.status = .approved → ∃ actor, inv.approvedBy = some actor ∧ actor ≠ inv.recordedBy

def StatusLaw (db : ProcurementDb) : Prop := ∀ inv ∈ db.invoices, inv.Lawful db

variable {inv : SupplierInvoice}

theorem SupplierInvoice.Lawful.congr {db db' : ProcurementDb} (h : inv.Lawful db)
    (hop : db'.openOf inv.id = db.openOf inv.id) : inv.Lawful db' :=
  ⟨hop ▸ h.matched_iff, h.approver⟩

/-! ## What the writes do -/

private theorem openOf_setDiscrepancy (db : ProcurementDb) {d : ProcurementDiscrepancy}
    (hd : d.status = .resolved) (i : Uuid) :
    (db.apply (.setDiscrepancy d)).openOf i = (db.openOf i).filter (·.id ≠ d.id) := by
  change (db.discrepancies.map _).filter _ = (db.discrepancies.filter _).filter _
  induction db.discrepancies with
  | nil => rfl
  | cons x xs ih =>
    rw [map_cons, filter_cons, ih, filter_cons]
    by_cases hx : x.id = d.id
    · rw [if_pos hx]
      split_ifs <;> simp_all
    · rw [if_neg hx]
      split_ifs <;> simp_all

private theorem openOf_setDiscrepancy_of_ne {db : ProcurementDb} (hks : Keys db)
    {d d' : ProcurementDiscrepancy} (hd : d ∈ db.discrepancies) (hid : d'.id = d.id)
    (hd' : d'.status = .resolved) {i : Uuid} (hne : i ≠ d.supplierInvoiceId) :
    (db.apply (.setDiscrepancy d')).openOf i = db.openOf i := by
  rw [openOf_setDiscrepancy db hd', filter_eq_self]
  intro x hx
  obtain ⟨hmem, hx⟩ := mem_filter.mp hx
  have hx : x.supplierInvoiceId = i := (of_decide_eq_true hx).1
  refine decide_eq_true fun hxid ↦ hne ?_
  rw [← hx, inj_on_of_nodup_map hks.discrepancies hmem hd (hxid.trans hid)]

/-- How the tables move under a transaction to which the invoices `P` and the discrepancies `Q` are
locked, and the open discrepancies of the invoices `R` are settled. -/
structure Moves (P Q R : Uuid → Prop) (db db' : ProcurementDb) : Prop where
  ids : db'.invoices.map (·.id) = db.invoices.map (·.id)
  approved : ∀ inv ∈ db.invoices, inv.status = .approved → inv ∈ db'.invoices
  invoice : ∀ i, P i → db'.invoice i = db.invoice i
  discrepancy : ∀ d : ProcurementDiscrepancy, Q d.id →
    (d ∈ db'.discrepancies ↔ d ∈ db.discrepancies)
  closed : ∀ i, db.openOf i = [] → db'.openOf i = []
  settled : ∀ i, R i → db'.openOf i = db.openOf i

namespace Moves

variable {P Q R P' Q' R' : Uuid → Prop} {db db' db'' : ProcurementDb}

theorem refl (P Q R : Uuid → Prop) (db : ProcurementDb) : Moves P Q R db db :=
  ⟨rfl, fun _ h _ ↦ h, fun _ _ ↦ rfl, fun _ _ ↦ .rfl, fun _ h ↦ h, fun _ _ ↦ rfl⟩

theorem trans (h : Moves P Q R db db') (h' : Moves P Q R db' db'') : Moves P Q R db db'' where
  ids := h'.ids.trans h.ids
  approved inv hinv hs := h'.approved inv (h.approved inv hinv hs) hs
  invoice i hi := (h'.invoice i hi).trans (h.invoice i hi)
  discrepancy d hd := (h'.discrepancy d hd).trans (h.discrepancy d hd)
  closed i hi := h'.closed i (h.closed i hi)
  settled i hi := (h'.settled i hi).trans (h.settled i hi)

theorem setInvoice (hP : ¬P inv.id)
    (hinv : ∀ x ∈ db.invoices, x.id = inv.id → x.status ≠ .approved) :
    Moves P Q R db (db.apply (.setInvoice inv)) where
  ids := map_key_update db.invoices inv
  approved x hx hs := mem_update_of_ne hx fun hid ↦ hinv x hx hid hs
  invoice i hi := by
    have hne : i ≠ inv.id := fun h ↦ hP (h ▸ hi)
    exact find?_update_of_ne hne
  discrepancy _ _ := .rfl
  closed _ h := h
  settled _ _ := rfl

theorem setDiscrepancy (hks : Keys db) {d d' : ProcurementDiscrepancy} (hd : d ∈ db.discrepancies)
    (hid : d'.id = d.id) (hd' : d'.status = .resolved) (hQ : ¬Q d'.id)
    (hR : ¬R d.supplierInvoiceId) :
    Moves P Q R db (db.apply (.setDiscrepancy d')) where
  ids := rfl
  approved _ h _ := h
  invoice _ _ := rfl
  discrepancy x hx := by
    have hne : x.id ≠ d'.id := fun h ↦ hQ (h ▸ hx)
    refine ⟨fun hmem ↦ ?_, fun hmem ↦ mem_update_of_ne hmem hne⟩
    rcases mem_update hmem with rfl | ⟨hmem, -⟩
    · exact absurd rfl hne
    · exact hmem
  closed i hi := by rw [openOf_setDiscrepancy db hd', hi, List.filter_nil]
  settled i hi := openOf_setDiscrepancy_of_ne hks hd hid hd' fun h ↦ hR (h ▸ hi)

end Moves

/-! ## Interleavings

The count does not see what another transaction has resolved and not committed yet, and no lock
orders the two: when two transactions resolve the last two discrepancies of an invoice, each can
count the other one's as open, and the invoice stays in `discrepancy` with none left, where it can
neither be approved nor be resolved any further. -/

/-- The transactions that move the status of a recorded invoice. -/
inductive MatchOp where
  | approve (actor id : Uuid)
  | resolve (actor id : Uuid) (status : String)

def MatchOp.prog (env : Env) : MatchOp → Txn env
  | .approve actor id => handleApproveSupplierInvoice env actor id
  | .resolve actor id status => handleResolveProcurementDiscrepancy env actor id status

def Write.resolved? : Write → Option ProcurementDiscrepancy
  | .setDiscrepancy d => some d
  | _ => none

variable (env : Env)

/-- The invoices of which the transaction has a resolved discrepancy to commit. -/
def Resolves (l : Local (schema env)) (i : Uuid) : Prop :=
  ∃ d ∈ l.log.filterMap Write.resolved?, d.supplierInvoiceId = i

/-- The transaction is about to count the open discrepancies. -/
def counting : Txn env → Bool
  | .query (.openCount _) _ => true
  | _ => false

/-- The transaction has resolved a discrepancy of the invoice and counted the open ones. -/
def Counted (l : Local (schema env)) (i : Uuid) : Prop :=
  Resolves env l i ∧ counting env l.prog = false

/-- The first transaction has a resolution to commit that the second one has not counted. -/
def MissedInCount (l l' : Local (schema env)) : Prop :=
  ∃ d ∈ l.log.filterMap Write.resolved?, Counted env l' d.supplierInvoiceId

instance (l l' : Local (schema env)) : Decidable (MissedInCount env l l') :=
  inferInstanceAs (Decidable (∃ d ∈ l.log.filterMap Write.resolved?,
    (∃ d' ∈ l'.log.filterMap Write.resolved?, d'.supplierInvoiceId = d.supplierInvoiceId) ∧
      counting env l'.prog = false))

/-- No resolution is committed while another transaction has counted without it. -/
def CountsApart {T : Type} (s : State (schema env) T) (a : Act T) : Prop :=
  s.Apart (MissedInCount env) a

instance {T : Type} [DecidableEq T] [Fintype T] (s : State (schema env) T) (a : Act T) :
    Decidable (CountsApart env s a) :=
  inferInstanceAs (Decidable (s.Apart _ a))

/-- Rows are left alone by others while they are locked, and so are the discrepancies that have been
counted. -/
def matchContract : Contract (schema env) where
  inv db _ := StatusLaw db ∧ Keys db
  rely l := Moves (fun i ↦ .invoice i ∈ l.held) (fun i ↦ .discrepancy i ∈ l.held) (Counted env l)
  cond _ _ _ := True
  guar l db _ := Moves (fun i ↦ .invoice i ∉ l.held) (fun i ↦ .discrepancy i ∉ l.held)
    (fun i ↦ ¬Resolves env l i) db (replay (S := schema env) db l.log)
  post _ db log := ∀ inv ∈ db.invoices, inv.status = .approved →
    inv ∈ (replay (S := schema env) db log).invoices
  inv_tick h := h
  rely_refl _ _ := .refl _ _ _ _
  rely_trans := .trans

theorem matchContract_suits {T : Type} :
    Contract.Suits (T := T) (matchContract env) (CountsApart env) where
  cond _ _ := trivial
  compat {s t a u p} hC hp _ hguar hne hu := by
    refine { hguar with
      invoice := fun i hi ↦ hguar.invoice i fun ht ↦ ?_
      discrepancy := fun d hi ↦ hguar.discrepancy d fun ht ↦ ?_
      settled := fun i hi ↦ hguar.settled i fun hres ↦ ?_ }
    · exact hne (eq_of_held rfl hi ht)
    · exact hne (eq_of_held rfl hi ht)
    · obtain ⟨d, hd, rfl⟩ := hres
      exact hC.not_clash hp hne hu ⟨d, hd, hi⟩

/-! ## Rules

The approval itself counts before it locks the invoice, which does no harm: discrepancies are never
reopened. -/

section Rules

variable {env} {held : Set LockKey} {db : ProcurementDb} {n : ℕ} {a : ProcurementResult}
  {actor id : Uuid}

private theorem statusLaw_setInvoice (hinv : inv.Lawful db)
    (h : ∀ x ∈ db.invoices, x.id ≠ inv.id → x.Lawful db) :
    StatusLaw (db.apply (.setInvoice inv)) := by
  intro x hx
  rcases mem_update hx with rfl | ⟨hx, hne⟩
  · exact hinv.congr rfl
  · exact (h x hx hne).congr rfl

private theorem safe_commitApproval (hlock : .invoice inv.id ∈ held)
    (hrow : db.invoice inv.id = some inv)
    (hmat : inv.status = .matched) (hact : inv.recordedBy ≠ actor)
    (hcl : db.openOf inv.id = []) : (matchContract env).Safe (.commit a) held
      [.setInvoice { inv with status := .approved, approvedBy := some actor }] db n := by
  intro db' n' _ hr hinv _
  obtain ⟨hlaw, hks⟩ := hinv
  have hrow := hks.eq_invoice ((hr.invoice inv.id hlock).trans hrow)
  have hguar : (matchContract env).guar ⟨held, [.setInvoice
      { inv with status := .approved, approvedBy := some actor }], .commit a⟩ db' n' := by
    refine Moves.setInvoice (fun h ↦ h hlock) fun x hx hid ↦ ?_
    rw [hrow x hx hid, hmat]
    decide
  refine ⟨hguar, ⟨statusLaw_setInvoice ⟨?_, fun _ ↦ ⟨actor, rfl, hact.symm⟩⟩ fun x hx _ ↦ hlaw x hx,
    hks.setInvoice _⟩, hguar.approved⟩
  exact iff_of_true (.inr rfl) (hr.closed inv.id hcl)

theorem safe_handleApproveSupplierInvoice :
    (matchContract env).Safe (handleApproveSupplierInvoice env actor id) held [] db n := by
  refine safe_reply rfl ?_
  rintro db1 n1 _ _ (_ | before) _
  · trivial
  dsimp only
  unfold authorizeStation
  split
  swap
  · trivial
  refine safe_reply rfl fun db2 n2 _ _ count hcnt ↦ ?_
  have hcnt : (db2.openOf id).length = count := hcnt
  split
  · trivial
  next hz =>
  have hcl : db2.openOf id = [] :=
    List.length_eq_zero_iff.mp (hcnt.trans (Nat.eq_zero_of_not_pos hz))
  refine safe_reply rfl ?_
  rintro db3 n3 hr3 _ (_ | row) _
  · trivial
  -- the lock, and the row as it is under it
  intro db4 n4 _ hr4 _ _
  refine safe_reply rfl fun db5 n5 hr5 hinv5 row hrow ↦ ?_
  have hrow : db5.invoice id = row := hrow
  rcases row with _ | inv
  · trivial
  obtain ⟨hmem, rfl⟩ := key_of_find? hrow
  dsimp only
  split
  · trivial
  next hmat =>
  split
  · trivial
  next hact =>
  refine safe_query fun db6 n6 _ hr6 hinv6 _ ws r hout ↦ ?_
  have hlock : LockKey.invoice inv.id ∈ insert (LockKey.invoice inv.id) held := mem_insert _ _
  have hrow6 : db6.invoice inv.id = some inv := (hr6.invoice inv.id hlock).trans hrow
  have hout : loggedUpdate .setInvoice (approveInvoice db6 inv.id actor) = (ws, r) := hout
  cases hout
  rcases happ : approveInvoice db6 inv.id actor with _ | inv'
  · refine safe_reply rfl ?_
    rintro db7 n7 _ _ (_ | before) _
    · trivial
    dsimp only
    split <;> trivial
  · obtain ⟨x, hx, rfl⟩ := map_eq_some_iff.mp happ
    have hsm : x.id = inv.id ∧ x.status = .matched := by simpa using find?_some hx
    obtain rfl := hinv6.2.eq_invoice hrow6 x (mem_of_find?_eq_some hx) hsm.1
    refine safe_commitApproval hlock hrow6 (not_not.mp hmat) hact ?_
    exact hr6.closed _ (hr5.closed _ (hr4.closed _ (hr3.closed _ hcl)))

/-- The transaction has resolved `d` as `d'` and holds its lock. -/
structure Resolved (held : Set LockKey) (db : ProcurementDb)
    (d d' : ProcurementDiscrepancy) : Prop where
  mem : d ∈ db.discrepancies
  opened : d.status = .opened
  id : d'.id = d.id
  invoice : d'.supplierInvoiceId = d.supplierInvoiceId
  resolved : d'.status = .resolved
  lock : .discrepancy d.id ∈ held

theorem Resolved.moves {d d' : ProcurementDiscrepancy} (h : Resolved held db d d')
    {P R : Uuid → Prop}
    {db' : ProcurementDb} (hm : Moves P (fun i ↦ .discrepancy i ∈ held) R db db') :
    Resolved held db' d d' :=
  { h with mem := (hm.discrepancy d h.lock).mpr h.mem }

theorem Resolved.resolves {d d' : ProcurementDiscrepancy} (h : Resolved held db d d')
    (l : Local (schema env)) (hlog : .setDiscrepancy d' ∈ l.log) :
    Resolves env l d.supplierInvoiceId :=
  ⟨d', mem_filterMap.mpr ⟨_, hlog, rfl⟩, h.invoice⟩

/-- The invoice of the discrepancy is not approved, so the update finds its row if there is one. -/
theorem Resolved.no_invoice {d d' : ProcurementDiscrepancy} (h : Resolved held db d d')
    (hlaw : StatusLaw db) (hno : db.invoices.find? (fun inv ↦
      inv.id = d.supplierInvoiceId ∧ inv.status ≠ .approved) = none) :
    ∀ x ∈ db.invoices, x.id ≠ d.supplierInvoiceId := by
  intro x hx hid
  have hstatus : x.status ≠ .approved := by
    intro happ
    have hmem : d ∈ db.openOf x.id := mem_filter.mpr ⟨h.mem, by simp [hid, h.opened]⟩
    rw [(hlaw x hx).matched_iff.mp (.inr happ)] at hmem
    cases hmem
  exact List.find?_eq_none.mp hno x hx (by simpa using ⟨hid, hstatus⟩)

section Commit

variable {d d' : ProcurementDiscrepancy}

theorem Resolved.moves_setDiscrepancy (l : Local (schema env)) (h : Resolved l.held db d d')
    (hks : Keys db) (hlog : .setDiscrepancy d' ∈ l.log) :
    Moves (fun i ↦ .invoice i ∉ l.held) (fun i ↦ .discrepancy i ∉ l.held)
      (fun i ↦ ¬Resolves env l i) db (db.apply (.setDiscrepancy d')) := by
  refine .setDiscrepancy hks h.mem h.id h.resolved (fun hn ↦ hn (h.id ▸ h.lock)) fun hn ↦ ?_
  exact hn (h.resolves l hlog)

theorem Resolved.lawful_of_ne (h : Resolved held db d d') (hlaw : StatusLaw db) (hks : Keys db) :
    ∀ x ∈ db.invoices, x.id ≠ d.supplierInvoiceId → x.Lawful (db.apply (.setDiscrepancy d')) :=
  fun x hx hne ↦
    (hlaw x hx).congr (openOf_setDiscrepancy_of_ne hks h.mem h.id h.resolved hne)

private theorem safe_commitResolution (h : Resolved held db d d')
    (hno : ∀ x ∈ db.invoices, x.id ≠ d.supplierInvoiceId) :
    (matchContract env).Safe (.commit a) held [.setDiscrepancy d'] db n := by
  intro db' n' _ hr hinv _
  have h := h.moves hr
  have hguar := Resolved.moves_setDiscrepancy
    (⟨held, [.setDiscrepancy d'], .commit a⟩ : Local (schema env)) h hinv.2 (mem_singleton_self _)
  refine ⟨hguar, ⟨fun x hx ↦ h.lawful_of_ne hinv.1 hinv.2 x hx ?_, hinv.2.setDiscrepancy d'⟩,
    hguar.approved⟩
  have hid : x.id ∈ db.invoices.map (·.id) := hr.ids ▸ mem_map_of_mem hx
  obtain ⟨y, hy, hyx⟩ := mem_map.mp hid
  exact hyx ▸ hno y hy

private theorem safe_commitStatus {inv' : SupplierInvoice} {count : ℕ} (h : Resolved held db d d')
    (hlock : .invoice inv.id ∈ held) (hid : inv.id = d.supplierInvoiceId)
    (hrow : db.invoice inv.id = some inv) (hst : inv.status ≠ .approved)
    (hcnt : ((db.apply (.setDiscrepancy d')).openOf inv.id).length = count)
    (hinv' : inv' = { inv with status := matchStatus count }) :
    (matchContract env).Safe (.commit a) held [.setDiscrepancy d', .setInvoice inv'] db n := by
  intro db' n' _ hr hinv _
  obtain ⟨hlaw, hks⟩ := hinv
  have hid' : inv'.id = inv.id := by rw [hinv']
  have hres := h.resolves
    (⟨held, [.setDiscrepancy d', .setInvoice inv'], .commit a⟩ : Local (schema env)) mem_cons_self
  have hop : db'.openOf inv.id = db.openOf inv.id := hid ▸ hr.settled _ ⟨hres, rfl⟩
  have h := h.moves hr
  have hrow := hks.eq_invoice ((hr.invoice inv.id hlock).trans hrow)
  have hguar := (Resolved.moves_setDiscrepancy
    (⟨held, [.setDiscrepancy d', .setInvoice inv'], .commit a⟩ : Local (schema env)) h hks
    mem_cons_self).trans
    (.setInvoice (fun hn ↦ hn (hid' ▸ hlock)) fun x hx hx' ↦ hrow x hx (hx'.trans hid') ▸ hst)
  refine ⟨hguar, ⟨statusLaw_setInvoice ?_ fun x hx hne ↦
    h.lawful_of_ne hlaw hks x hx (hid ▸ hid' ▸ hne), (hks.setDiscrepancy d').setInvoice _⟩,
    hguar.approved⟩
  rw [openOf_setDiscrepancy db h.resolved, ← hop, ← openOf_setDiscrepancy db' h.resolved] at hcnt
  constructor
  · rw [hid', ← List.length_eq_zero_iff, hcnt, hinv']
    change matchStatus count = _ ∨ matchStatus count = _ ↔ _
    unfold matchStatus
    split
    next hpos => exact iff_of_false (by decide) hpos.ne'
    next hz => exact iff_of_true (.inl rfl) (Nat.eq_zero_of_not_pos hz)
  · rw [hinv']
    change matchStatus count = .approved → _
    unfold matchStatus
    split <;> exact fun happ ↦ by cases happ

end Commit

/-- The status is set from a count that stays right until the commit. -/
theorem safe_refreshInvoiceMatchStatus {d d' : ProcurementDiscrepancy} (h : Resolved held db d d') :
    (matchContract env).Safe (refreshInvoiceMatchStatus env d.supplierInvoiceId (.commit a)) held
      [.setDiscrepancy d'] db n := by
  refine safe_reply rfl fun db1 n1 hr1 _ count hcnt ↦ ?_
  have hcnt : ((db1.apply (.setDiscrepancy d')).openOf d.supplierInvoiceId).length = count := hcnt
  have h := h.moves hr1
  rw [openOf_setDiscrepancy db1 h.resolved] at hcnt
  refine safe_reply rfl fun db2 n2 hr2 hinv2 row hrow ↦ ?_
  have hrow : db2.invoices.find? (fun inv ↦
    inv.id = d.supplierInvoiceId ∧ inv.status ≠ .approved) = row := hrow
  have hop2 := hr2.settled _ ⟨h.resolves _ (mem_singleton_self _), rfl⟩
  have h := h.moves hr2
  rcases row with _ | row
  · exact safe_commitResolution h (h.no_invoice hinv2.1 hrow)
  intro db3 n3 _ hr3 _ _
  have hop3 := hr3.settled _ ⟨h.resolves _ (mem_singleton_self _), rfl⟩
  have h := h.moves hr3
  refine safe_query fun db4 n4 _ hr4 hinv4 _ ws r hout ↦ ?_
  have hop4 := hr4.settled _ ⟨h.resolves _ (mem_singleton_self _), rfl⟩
  have h : Resolved (insert (.invoice d.supplierInvoiceId) held) db4 d d' :=
    { h with mem := (hr4.discrepancy d (mem_insert_of_mem _ h.lock)).mpr h.mem
             lock := mem_insert_of_mem _ h.lock }
  have hout : loggedUpdate .setInvoice (setStatus (db4.apply (.setDiscrepancy d'))
    d.supplierInvoiceId (matchStatus count)) = (ws, r) := hout
  cases hout
  rcases hset : setStatus (db4.apply (.setDiscrepancy d')) d.supplierInvoiceId
    (matchStatus count) with
    _ | inv'
  · exact safe_commitResolution h (h.no_invoice hinv4.1 (Option.map_eq_none_iff.mp hset))
  · obtain ⟨inv, hfi, rfl⟩ := map_eq_some_iff.mp hset
    have hsm : inv.id = d.supplierInvoiceId ∧ inv.status ≠ .approved := by
      simpa using find?_some hfi
    have hrow : db4.invoice inv.id = some inv :=
      find?_key_of_mem hinv4.2.invoices (mem_of_find?_eq_some hfi) rfl
    refine safe_commitStatus h (hsm.1 ▸ mem_insert _ _) hsm.1 hrow hsm.2 ?_ rfl
    rw [openOf_setDiscrepancy db4 h.resolved, hsm.1, hop4, hop3, hop2]
    exact hcnt

private theorem safe_refuseResolution {log : List Write} :
    (matchContract env).Safe (refuseResolution env id) held log db n := by
  refine safe_reply rfl fun _ _ _ _ d _ ↦ ?_
  rcases d with _ | d <;> trivial

theorem safe_handleResolveProcurementDiscrepancy {status : String} :
    (matchContract env).Safe (handleResolveProcurementDiscrepancy env actor id status) held
      [] db n := by
  unfold handleResolveProcurementDiscrepancy
  split
  · trivial
  refine safe_reply rfl ?_
  rintro db1 n1 _ _ (_ | before) _
  · trivial
  refine safe_reply rfl ?_
  rintro db2 n2 _ _ (_ | inv) _
  · trivial
  dsimp only
  unfold authorizeStation
  split
  swap
  · trivial
  refine safe_reply rfl ?_
  rintro db3 n3 _ _ (_ | row) _
  · exact safe_refuseResolution
  intro db4 n4 _ _ _ _
  refine safe_query fun db5 n5 _ _ _ _ ws r hout ↦ ?_
  have hout : loggedUpdate .setDiscrepancy (resolveDiscrepancy db5 id actor) = (ws, r) := hout
  cases hout
  rcases hres : resolveDiscrepancy db5 id actor with _ | d'
  · exact safe_refuseResolution
  · obtain ⟨d, hfi, rfl⟩ := map_eq_some_iff.mp hres
    have hsm : d.id = id ∧ d.status = .opened := by simpa using find?_some hfi
    have hreo : Resolved (insert (.discrepancy id) held) db5 d
        { d with status := .resolved, resolvedBy := some actor } :=
      ⟨mem_of_find?_eq_some hfi, hsm.2, rfl, rfl, rfl, hsm.1 ▸ mem_insert _ _⟩
    exact safe_refreshInvoiceMatchStatus (d := d) hreo

end Rules

variable {env}

/-- In every interleaving of resolutions and approvals that keeps resolutions out of the counts of
others, each invoice is matched or approved exactly if it has no open discrepancy, was approved by
someone other than its recorder, and once approved stays as it is. -/
theorem statusLaw_of_countsApart {T : Type} [DecidableEq T]
    (ops : T → MatchOp) {db₀ : ProcurementDb}
    {n₀ : ℕ} (hkeys : Keys db₀) (h₀ : StatusLaw db₀) {s s' : State (schema env) T}
    (h : Reach (CountsApart env) (State.init db₀ n₀ fun t ↦ (ops t).prog env) s)
    (h' : Reach (CountsApart env) s s') :
    StatusLaw s.db ∧ ∀ inv ∈ s.db.invoices, inv.status = .approved → inv ∈ s'.db.invoices := by
  have hsafe : ∀ t, (matchContract env).Safe ((ops t).prog env) ∅ [] db₀ n₀ := fun t ↦ by
    rcases ops t with ⟨actor, id⟩ | ⟨actor, id, status⟩
    · exact safe_handleApproveSupplierInvoice
    · exact safe_handleResolveProcurementDiscrepancy
  have hsui := matchContract_suits env (T := T)
  refine ⟨(Contract.sound hsui ⟨h₀, hkeys⟩ hsafe h).1.1, ?_⟩
  exact Contract.soundEach_later (K := fun _ ↦ matchContract env)
    ⟨fun _ _ _ ↦ .rfl, hsui.cond, hsui.compat⟩ (matchContract env).inv_tick
    (R := fun db db' ↦ ∀ inv ∈ db.invoices, inv.status = .approved → inv ∈ db'.invoices)
    (fun _ _ hinv _ ↦ hinv) (fun h h' inv hinv hs ↦ h' inv (h inv hinv hs) hs) id
    ⟨h₀, hkeys⟩ hsafe h h'

def twoOpen : ProcurementDb where
  orders := []
  orderLines := []
  deliveries := []
  invoices := [{
    id := 1, supplierId := 1, purchaseOrderId := 1, stationId := 1, invoiceNumber := "A",
    status := .discrepancy
    receivedAt := 0, dueDate := none, totalAmount := 100, recordedBy := 5, approvedBy := none,
    notes := none
    total_nonneg := by decide }]
  lines := []
  discrepancies := [⟨⟨1, 1, none, 1, .quantity, "", none, none⟩, 2, .opened, none⟩,
    ⟨⟨1, 1, none, 1, .price, "", none, none⟩, 3, .opened, none⟩]

/-- One transaction for each of the discrepancies. -/
def resolveBoth : Bool → MatchOp
  | false => .resolve 6 2 "resolved"
  | true => .resolve 7 3 "resolved"

/-- Both resolutions count the other one's discrepancy as open. When they are through, the invoice
is in `discrepancy` without one. -/
theorem not_statusLaw_of_overlap :
    ∃ s : State (schema .allowAll) Bool,
      Reach (fun _ _ ↦ True) (State.init twoOpen 10 fun t ↦ (resolveBoth t).prog .allowAll) s ∧
        StatusLaw twoOpen ∧ (∀ t, (s.prog t).isNone) ∧ ¬StatusLaw s.db := by
  refine exists_and_imp (fun s ↦ (∀ t, (s.prog t).isNone) ∧ ∃ inv ∈ s.db.invoices,
      inv.status = .discrepancy ∧ s.db.openOf inv.id = [])
    (exists_of_runs (turns [(false, 6), (true, 6), (false, 4), (true, 4)]) (by decide +kernel)) ?_
  rintro _ _ ⟨hend, inv, hinv, hst, hop⟩
  refine ⟨fun inv hinv ↦ ?_, hend, fun h ↦ ?_⟩
  · rw [mem_singleton.mp hinv]
    exact ⟨by decide, by decide⟩
  · have hmat := (h inv hinv).matched_iff.mpr hop
    rw [hst] at hmat
    exact absurd hmat (by decide)

/-- The two resolutions and an approval. -/
def resolveAndApprove : Fin 3 → MatchOp
  | 0 => .resolve 6 2 "resolved"
  | 1 => .resolve 7 3 "resolved"
  | 2 => .approve 8 1

/-- The three one after the other. -/
theorem statusLaw_of_countsApart_resolved :
    ∃ s : State (schema .allowAll) (Fin 3),
      Reach (CountsApart .allowAll) (State.init twoOpen 10
        fun t ↦ (resolveAndApprove t).prog .allowAll) s ∧
        (∀ inv ∈ s.db.invoices, inv.status = .approved) ∧ StatusLaw s.db := by
  refine exists_and_imp (fun s ↦ ∀ inv ∈ s.db.invoices, inv.status = .approved)
    (exists_of_runs (turns [(0, 10), (1, 10), (2, 7)]) (by decide +kernel)) ?_
  rintro _ hs happ
  have hlaw : StatusLaw twoOpen := fun inv hinv ↦ by
    rw [mem_singleton.mp hinv]
    exact ⟨by decide, by decide⟩
  exact ⟨happ, (statusLaw_of_countsApart _ ⟨by decide, by decide⟩ hlaw hs .refl).1⟩

end FuelGrid.Procurement
