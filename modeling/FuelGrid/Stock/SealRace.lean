import FuelGrid.Sql.RelyGuarantee
import FuelGrid.Stock.BookStock

/-!
# Seals against concurrent postings

A seal computes the closing book in one statement, posts the residual under the lock of the tank in
another, and reads the watermark in a third. If nothing is posted in between, the watermark stands
right behind the rows that were summed, and the sum of the ledger up to it is the sealed physical
figure.

Nothing keeps the others from posting in between. The lock is taken only for the write-off, after
the sums were taken, and not at all when there is no residual. A posting that commits after
`Compute` and before the watermark is read is then below the watermark without being in the closing
book, and no later reconciliation counts it either (`not_sealsExact_of_posting_in_window`).
-/

namespace FuelGrid.Stock

open Sql

variable {env : Env} {tank : Uuid} {r : Reconciliation} {b : ℤ} {q : ℕ} {input : PostInput}
  {m : Movement}

/-! ## Ledgers and anchors -/

/-- `b` is the sum of the ledger up to the watermark `q`, and `q` is the seq of a row or zero. -/
structure Anchored (l : List Movement) (b : ℤ) (q : ℕ) : Prop where
  sum : sumLitres (upTo q l) = b
  seen : q = 0 ∨ ∃ m ∈ l, m.seq = q

theorem Anchored.append {l new : List Movement} (h : Anchored l b q) (hpos : ∀ m ∈ new, 0 < m.seq)
    (habo : ∀ m ∈ l, ∀ m' ∈ new, m.seq < m'.seq) : Anchored (l ++ new) b q := by
  have hnew : upTo q new = [] := by
    refine upTo_eq_nil fun m' hm' ↦ ?_
    rcases h.seen with rfl | ⟨m, hm, rfl⟩
    · exact hpos m' hm'
    · exact habo m hm m' hm'
  constructor
  · rw [upTo_append, hnew, append_nil]
    exact h.sum
  · rcases h.seen with hq | ⟨m, hm, hseq⟩
    · exact .inl hq
    · exact .inr ⟨m, mem_append_left _ hm, hseq⟩

private theorem maxSeq_eq_zero_or_mem (l : List Movement) :
    maxSeq 0 l = 0 ∨ ∃ m ∈ l, m.seq = maxSeq 0 l := by
  induction l with
  | nil => exact .inl rfl
  | cons m l ih =>
    change max m.seq (maxSeq 0 l) = 0 ∨ ∃ m' ∈ m :: l, m'.seq = max m.seq (maxSeq 0 l)
    rcases le_total (maxSeq 0 l) m.seq with hle | hle
    · rw [max_eq_left hle]
      exact .inr ⟨m, mem_cons_self, rfl⟩
    · rw [max_eq_right hle]
      exact ih.imp_right fun ⟨m', hm', hseq⟩ ↦ ⟨m', mem_cons_of_mem m hm', hseq⟩

private theorem anchored_maxSeq (l : List Movement) : Anchored l (sumLitres l) (maxSeq 0 l) where
  sum := by rw [upTo_eq_self fun m hm ↦ le_maxSeq 0 hm]
  seen := maxSeq_eq_zero_or_mem l

/-- A ledger without transfers whose genuine opening, if there is one, starts the book: nothing
but zero precedes it. -/
structure BookLedger (n : ℕ) (l : List Movement) : Prop where
  seqs : ∀ m ∈ l, 0 < m.seq ∧ m.seq < n
  noTransfer : ∀ m ∈ l, m.movementType ≠ .transfer
  genesis : ∀ o ∈ l, o.IsOpening → sumLitres (upTo o.seq l) = o.litres

theorem BookLedger.mono {n n' : ℕ} {l : List Movement} (h : BookLedger n l) (hn : n ≤ n') :
    BookLedger n' l :=
  ⟨fun m hm ↦ ⟨(h.seqs m hm).1, (h.seqs m hm).2.trans_le hn⟩, h.noTransfer, h.genesis⟩

theorem BookLedger.append {n : ℕ} {l : List Movement} (h : BookLedger n l) (hn : 0 < n)
    (hseq : m.seq = n) (hty : m.movementType ≠ .transfer)
    (hop : m.movementType = .opening → sumLitres l = 0) : BookLedger (n + 1) (l ++ [m]) := by
  constructor
  · intro m' hm'
    rcases mem_snoc.mp hm' with hold | rfl
    · exact ⟨(h.seqs m' hold).1, (h.seqs m' hold).2.trans (lt_succ_self n)⟩
    · rw [hseq]
      exact ⟨hn, lt_succ_self n⟩
  · intro m' hm'
    rcases mem_append.mp hm' with hold | hm'
    · exact h.noTransfer m' hold
    · rwa [mem_singleton.mp hm']
  · intro o ho hgen
    rw [upTo_append, sumLitres_append]
    rcases mem_snoc.mp ho with hold | rfl
    · have hbeh : upTo o.seq [m] = [] := by
        refine upTo_eq_nil fun m' hm' ↦ ?_
        rw [mem_singleton.mp hm', hseq]
        exact (h.seqs o hold).2
      rw [h.genesis o hold hgen, hbeh, sumLitres_nil, add_zero]
    · have hall : upTo o.seq l = l := upTo_eq_self fun m' hm' ↦ by
        rw [hseq]
        exact (h.seqs m' hm').2.le
      rw [hall, hop hgen.1, upTo_eq_self (by simp), sumLitres_cons, sumLitres_nil, zero_add,
        add_zero]

theorem BookLedger.anchored_genesis {db : StockDb} {n : ℕ} (h : BookLedger n (db.ledger tank)) :
    Anchored (db.ledger tank) ((db.genesisOpeningLitres tank).getD (0, 0)).1
      ((db.genesisOpeningLitres tank).getD (0, 0)).2 := by
  cases hgen : db.genesisOpeningLitres tank with
  | none =>
    refine ⟨?_, .inl rfl⟩
    rw [getD_none, upTo_eq_nil fun m hm ↦ (h.seqs m hm).1]
    rfl
  | some anchor =>
    obtain ⟨o, ho, hop, hlit, hseq⟩ := genesisOpeningLitres_eq_some hgen
    rw [getD_some, ← hlit, ← hseq]
    exact ⟨h.genesis o ho hop, .inr ⟨o, ho, rfl⟩⟩

private theorem ledger_replay {db : StockDb} {log : List Write}
    (h : ∀ id, Write.markReversed id ∉ log) :
    (replay (S := schema env) db log).ledger tank = db.ledger tank ++ inserted tank log := by
  induction log generalizing db with
  | nil => rw [replay_nil, inserted, append_nil]
  | cons w ws ih =>
    have hst : (db.apply w).ledger tank = db.ledger tank ++ inserted tank [w] := by
      cases w with
      | insertMovement m => exact ledger_insert m
      | markReversed id => exact absurd mem_cons_self (h id)
      | receiveTransfer id o i => exact (append_nil _).symm
      | putReconciliation r => exact (append_nil _).symm
    rw [replay_cons, ih fun id hid ↦ h id (mem_cons_of_mem w hid), hst, append_assoc,
      ← inserted_append, singleton_append]

private theorem mem_sealedFor_replay {db : StockDb} {log : List Write}
    (h : r ∈ (replay (S := schema env) db log).sealedFor tank) :
    r ∈ db.sealedFor tank ∨ Write.putReconciliation r ∈ log := by
  induction log generalizing db with
  | nil => exact .inl h
  | cons w ws ih =>
    rcases ih h with hold | hnew
    · cases w with
      | putReconciliation r' =>
        obtain ⟨hmem, hprop⟩ := mem_sealedFor.mp hold
        rcases mem_putReconciliation.mp hmem with rfl | ⟨hmem, -⟩
        · exact .inr mem_cons_self
        · exact .inl (mem_sealedFor.mpr ⟨hmem, hprop⟩)
      | insertMovement m => exact .inl hold
      | markReversed id => exact .inl hold
      | receiveTransfer id o i => exact .inl hold
    · exact .inr (mem_cons_of_mem w hnew)

/-- The columns of a reconciliation that nothing updates. -/
def Reconciliation.ident (r : Reconciliation) : Uuid × Uuid := (r.id, r.tankId)

/-- The identities of the rows of the table. -/
def StockDb.idents (db : StockDb) : List (Uuid × Uuid) :=
  db.reconciliations.map Reconciliation.ident

private theorem idents_replay {db : StockDb} {log : List Write}
    (hnd : (db.idents.map Prod.fst).Nodup)
    (h : ∀ r, Write.putReconciliation r ∈ log → r.ident ∈ db.idents) :
    (replay (S := schema env) db log).idents = db.idents := by
  induction log generalizing db with
  | nil => rfl
  | cons w ws ih =>
    have hst : (db.apply w).idents = db.idents := by
      cases w with
      | putReconciliation r =>
        have hr := h r mem_cons_self
        obtain ⟨r0, hr0, hid⟩ := mem_map.mp hr
        have hex : ∃ r' ∈ db.reconciliations, r'.id = r.id := ⟨r0, hr0, congrArg Prod.fst hid⟩
        change (putReconciliation r db.reconciliations).map Reconciliation.ident = _
        rw [putReconciliation, if_pos hex, map_map]
        refine map_congr_left fun x hx ↦ ?_
        by_cases hxr : x.id = r.id
        · rw [comp_apply, if_pos hxr]
          exact inj_on_of_nodup_map hnd hr (mem_map_of_mem hx) hxr.symm
        · rw [comp_apply, if_neg hxr]
      | insertMovement m => rfl
      | markReversed id => rfl
      | receiveTransfer id o i => rfl
    rw [replay_cons, ih (by rwa [hst]) fun r hr ↦ ?_, hst]
    rw [hst]
    exact h r (mem_cons_of_mem w hr)

/-! ## The contract

The contract `sealContract` makes the missing exclusion explicit: its `rely` says that the ledger of
the tank stands still while a seal is in its window, on top of what the lock gives. Under it every
anchor a seal starts from stays the sum of the ledger up to its watermark (`Anchored`), as rows are
only ever added behind the last one. -/

variable (env tank)

/-- The transaction is about to post the residual of a seal of the tank, or to read the watermark
for one: what it computed must still be the ledger. -/
def InSealWindow : Txn env → Prop
  | .lock _ (.query (.insertMovement input) _) =>
    input.tankId = tank ∧ input.sourceRefType = some .reconciliation
  | .query (.maxSeqForTank t) _ => t = tank
  | _ => False

instance (p : Txn env) : Decidable (InSealWindow env tank p) := by
  unfold InSealWindow
  split <;> infer_instance

/-- The next statement of the transaction, if it inserts an opening of the tank, finds a ledger
that sums to zero. -/
def OpensEmpty (l : Local (schema env)) (db : StockDb) : Prop :=
  ∀ input ∈ nextInsert env l.prog, input.tankId = tank → input.movementType = .opening →
    (replay (S := schema env) db l.log).currentBalance tank = 0
  deriving Decidable

/-- What holds of the committed tables. -/
structure SealInv (db : StockDb) (n : ℕ) : Prop where
  pos : 0 < n
  ledger : BookLedger n (db.ledger tank)
  keys : (db.idents.map Prod.fst).Nodup
  anchored : ∀ r ∈ db.sealedFor tank, Anchored (db.ledger tank) r.closingPhysical r.throughSeq

structure SealRely (l : Local (schema env)) (db db' : StockDb) : Prop where
  idents : db'.idents = db.idents
  /-- Rows are added behind the last one. -/
  grows : ∃ new, db'.ledger tank = db.ledger tank ++ new ∧
    ∀ m ∈ db.ledger tank, ∀ m' ∈ new, m.seq < m'.seq
  /-- The lock of the tank, or the window of a seal, keeps the others out. -/
  kept : tankKey env tank ∈ l.held ∨ InSealWindow env tank l.prog →
    db'.ledger tank = db.ledger tank

/-- What a transaction has done so far. -/
structure SealLog (held : Set LockKey) (log : List Write) (db : StockDb) (n : ℕ) : Prop where
  locked : inserted tank log ≠ [] → tankKey env tank ∈ held
  ledger : BookLedger n (db.ledger tank ++ inserted tank log)
  above : ∀ m ∈ db.ledger tank, ∀ m' ∈ inserted tank log, m.seq < m'.seq
  noReverse : ∀ id, Write.markReversed id ∉ log
  puts : ∀ r, Write.putReconciliation r ∈ log → r.ident ∈ db.idents ∧
    (r.tankId = tank →
      Anchored (db.ledger tank ++ inserted tank log) r.closingPhysical r.throughSeq)

variable {env tank} {held : Set LockKey} {log : List Write} {db db' : StockDb} {n n' : ℕ}
  {l : Local (schema env)}

theorem SealRely.refl (l : Local (schema env)) (db : StockDb) : SealRely env tank l db db :=
  ⟨rfl, ⟨[], (append_nil _).symm, by simp⟩, fun _ ↦ rfl⟩

theorem SealRely.trans {db1 db2 db3 : StockDb} (h : SealRely env tank l db1 db2)
    (h' : SealRely env tank l db2 db3) : SealRely env tank l db1 db3 where
  idents := h'.idents.trans h.idents
  grows := by
    obtain ⟨new, heq, habo⟩ := h.grows
    obtain ⟨new', heq', habo'⟩ := h'.grows
    refine ⟨new ++ new', by rw [heq', heq, append_assoc], fun m hm m' hm' ↦ ?_⟩
    rcases mem_append.mp hm' with hm' | hm'
    · exact habo m hm m' hm'
    · exact habo' m (heq ▸ mem_append_left new hm) m' hm'
  kept hk := (h'.kept hk).trans (h.kept hk)

variable (env tank) in
/-- Seals and postings of a tank, with the exclusion that the seal needs. -/
def sealContract : Contract (schema env) where
  inv := SealInv tank
  rely := SealRely env tank
  cond l db _ := OpensEmpty env tank l db
  guar l db n := SealLog env tank l.held l.log db n
  post _ _ _ := True
  inv_tick h := ⟨h.pos.trans_le (le_succ _), h.ledger.mono (le_succ _), h.keys, h.anchored⟩
  rely_refl := SealRely.refl
  rely_trans := SealRely.trans

/-! ## The log of a transaction -/

theorem SealLog.nil (h : SealInv tank db n) : SealLog env tank held [] db n where
  locked hne := absurd rfl hne
  ledger := by
    rw [inserted, append_nil]
    exact h.ledger
  above _ _ _ hm' := by cases hm'
  noReverse _ := not_mem_nil
  puts _ hr := by cases hr

section SealLog

variable (h : SealLog env tank held log db n)

include h

/-- What the transaction has inserted stays behind the ledger of the tank, which has not moved if
it has inserted anything. -/
theorem SealLog.ledger_eq (hl : l.held = held) (hr : SealRely env tank l db db') :
    (inserted tank log = [] ∨ db'.ledger tank = db.ledger tank) := by
  by_cases hne : inserted tank log = []
  · exact .inl hne
  · exact .inr (hr.kept (.inl (hl ▸ h.locked hne)))

/-- An anchor of the transaction's view survives the commits of the others. -/
theorem SealLog.anchored_mono (hl : l.held = held) (hr : SealRely env tank l db db')
    (hinv : SealInv tank db' n') (ha : Anchored (db.ledger tank ++ inserted tank log) b q) :
    Anchored (db'.ledger tank ++ inserted tank log) b q := by
  rcases h.ledger_eq hl hr with hnil | hkt
  · obtain ⟨new, heq, habo⟩ := hr.grows
    rw [hnil, append_nil] at ha ⊢
    rw [heq]
    refine ha.append (fun m hm ↦ ?_) habo
    exact (hinv.ledger.seqs m (heq ▸ mem_append_right _ hm)).1
  · rwa [hkt]

theorem SealLog.mono (hl : l.held = held) (hn : n ≤ n') (hrely : SealRely env tank l db db')
    (hinv : SealInv tank db' n') : SealLog env tank held log db' n' where
  locked := h.locked
  ledger := by
    rcases h.ledger_eq hl hrely with hnil | hkt
    · rw [hnil, append_nil]
      exact hinv.ledger
    · rw [hkt]
      exact h.ledger.mono hn
  above := by
    rcases h.ledger_eq hl hrely with hnil | hkt
    · rw [hnil]
      intro m hm m' hm'
      cases hm'
    · rw [hkt]
      exact h.above
  noReverse := h.noReverse
  puts r hr := by
    rw [hrely.idents]
    exact ⟨(h.puts r hr).1, fun ht ↦ h.anchored_mono hl hrely hinv ((h.puts r hr).2 ht)⟩

theorem SealLog.lock (k : LockKey) : SealLog env tank (insert k held) log db n :=
  ⟨fun hne ↦ .inr (h.locked hne), h.ledger, h.above, h.noReverse, h.puts⟩

theorem SealLog.tick : SealLog env tank held log db (n + 1) :=
  ⟨h.locked, h.ledger.mono (le_succ n), h.above, h.noReverse, h.puts⟩

theorem SealLog.ledger_view :
    (replay (S := schema env) db log).ledger tank = db.ledger tank ++ inserted tank log :=
  ledger_replay h.noReverse

theorem SealLog.idents_view (hinv : SealInv tank db n') :
    (replay (S := schema env) db log).idents = db.idents :=
  idents_replay hinv.keys fun r hr ↦ (h.puts r hr).1

/-- A row inserted under the lock, and not an opening on top of stock. -/
theorem SealLog.insert (hn : 0 < n)
    (hins : insertMovement (replay (S := schema env) db log) n input = .ok m)
    (hlock : input.tankId = tank → tankKey env tank ∈ held) (hty : input.movementType ≠ .transfer)
    (hopen : input.tankId = tank → input.movementType = .opening →
      (replay (S := schema env) db log).currentBalance tank = 0) :
    SealLog env tank held (log ++ [.insertMovement m]) db (n + 1) := by
  have hseq := insertMovement_seq hins
  have hnoReverse : ∀ id, Write.markReversed id ∉ log ++ [.insertMovement m] := fun id hid ↦ by
    rcases mem_append.mp hid with hold | hnew
    · exact h.noReverse id hold
    · cases mem_singleton.mp hnew
  have hputs : ∀ r, Write.putReconciliation r ∈ log ++ [.insertMovement m] →
      Write.putReconciliation r ∈ log := fun r hr ↦ by
    rcases mem_append.mp hr with hold | hnew
    · exact hold
    · cases mem_singleton.mp hnew
  by_cases ht : m.tankId = tank
  · have ht' : input.tankId = tank := (insertMovement_tankId hins).symm.trans ht
    have heq : inserted tank (log ++ [.insertMovement m]) = inserted tank log ++ [m] := by
      rw [inserted_append, inserted, if_pos ht, inserted]
    have hall : ∀ m' ∈ db.ledger tank ++ inserted tank log, m'.seq < m.seq := fun m' hm' ↦ by
      rw [hseq]
      exact (h.ledger.seqs m' hm').2
    refine ⟨fun _ ↦ hlock ht', ?_, ?_, hnoReverse, fun r hr ↦ ?_⟩
    · rw [heq, ← append_assoc]
      refine h.ledger.append hn hseq ?_ fun hop ↦ ?_
      · rwa [insertMovement_movementType hins]
      · rw [← h.ledger_view]
        exact hopen ht' ((insertMovement_movementType hins).symm.trans hop)
    · rw [heq]
      intro m0 hm0 m' hm'
      rcases mem_snoc.mp hm' with hold | rfl
      · exact h.above m0 hm0 m' hold
      · exact hall m0 (mem_append_left _ hm0)
    · refine ⟨(h.puts r (hputs r hr)).1, fun hr' ↦ ?_⟩
      rw [heq, ← append_assoc]
      refine ((h.puts r (hputs r hr)).2 hr').append (fun m' hm' ↦ ?_) fun m0 hm0 m' hm' ↦ ?_
      · rw [mem_singleton.mp hm', hseq]
        exact hn
      · rw [mem_singleton.mp hm']
        exact hall m0 hm0
  · have heq : inserted tank (log ++ [.insertMovement m]) = inserted tank log := by
      rw [inserted_append, inserted, if_neg ht, inserted, append_nil]
    have htick := h.tick
    refine ⟨?_, ?_, ?_, hnoReverse, fun r hr ↦ ?_⟩ <;> rw [heq]
    · exact htick.locked
    · exact htick.ledger
    · exact htick.above
    · exact htick.puts r (hputs r hr)

/-- A row that exists, written with an anchor of the transaction's view. -/
theorem SealLog.put (hide : r.ident ∈ db.idents) (ha : r.tankId = tank →
      Anchored (db.ledger tank ++ inserted tank log) r.closingPhysical r.throughSeq) :
    SealLog env tank held (log ++ [.putReconciliation r]) db (n + 1) := by
  have heq : inserted tank (log ++ [.putReconciliation r]) = inserted tank log := by
    rw [inserted_append, inserted, inserted, append_nil]
    exact fun m hm ↦ by cases hm
  have htick := h.tick
  refine ⟨?_, ?_, ?_, fun id hid ↦ ?_, fun r' hr' ↦ ?_⟩
  · rw [heq]; exact htick.locked
  · rw [heq]; exact htick.ledger
  · rw [heq]; exact htick.above
  · rcases mem_append.mp hid with hold | hnew
    · exact h.noReverse id hold
    · cases mem_singleton.mp hnew
  · rw [heq]
    rcases mem_append.mp hr' with hold | hnew
    · exact htick.puts r' hold
    · obtain rfl := Write.putReconciliation.inj (mem_singleton.mp hnew)
      exact ⟨hide, ha⟩

theorem SealLog.commit (hinv : SealInv tank db n) :
    SealInv tank (replay (S := schema env) db log) n where
  pos := hinv.pos
  ledger := by
    rw [h.ledger_view]
    exact h.ledger
  keys := by
    rw [h.idents_view hinv]
    exact hinv.keys
  anchored r hr := by
    rw [h.ledger_view]
    rcases mem_sealedFor_replay hr with hold | hnew
    · refine (hinv.anchored r hold).append (fun m hm ↦ ?_) h.above
      exact (h.ledger.seqs m (mem_append_right _ hm)).1
    · exact (h.puts r hnew).2 (mem_sealedFor.mp hr).2.1

end SealLog

/-! ## Programs keep the contract -/

theorem safe_commit (h : SealLog env tank held log db n) (a : StockResult) :
    (sealContract env tank).Safe (.commit a) held log db n := by
  intro db' n' hn hr hinv _
  have h' := h.mono rfl hn hr hinv
  exact ⟨h', h'.commit hinv, trivial⟩

/-- A statement that writes nothing: its continuation is safe from any state the others can lead
to. -/
theorem safe_read {q : Query} {next : Reply q → Txn env} (h : SealLog env tank held log db n)
    (hrd : (fun db view n ↦ (exec env q db view n).1) = fun _ _ _ ↦ [])
    (hnx : ∀ db' n', SealRely env tank ⟨held, log, .query q next⟩ db db' →
      SealInv tank db' n' → SealLog env tank held log db' (n' + 1) →
      (sealContract env tank).Safe
        (next (exec env q db' (replay (S := schema env) db' log) n').2) held log db' (n' + 1)) :
    (sealContract env tank).Safe (.query q next) held log db n := by
  intro db' n' hn hr hinv _
  change (sealContract env tank).Safe _ held
    (log ++ (fun db view n ↦ (exec env q db view n).1) db' _ n') db' (n' + 1)
  rw [hrd, append_nil]
  exact hnx db' n' hr hinv (h.mono rfl hn hr hinv).tick

private theorem safe_insert {next : Except PgError Movement → Txn env}
    (h : SealLog env tank held log db n)
    (hlock : input.tankId = tank → tankKey env tank ∈ held) (hty : input.movementType ≠ .transfer)
    (herr : ∀ db' n' e, SealLog env tank held log db' (n' + 1) →
      (sealContract env tank).Safe (next (.error e)) held log db' (n' + 1))
    (hok : ∀ db' n' m, SealRely env tank ⟨held, log, .query (.insertMovement input) next⟩ db db' →
      insertMovement (replay (S := schema env) db' log) n' input = .ok m →
      SealLog env tank held (log ++ [.insertMovement m]) db' (n' + 1) →
      (sealContract env tank).Safe (next (.ok m)) held (log ++ [.insertMovement m]) db' (n' + 1)) :
    (sealContract env tank).Safe (.query (.insertMovement input) next) held log db n := by
  intro db' n' hn hr hinv hc
  have h' := h.mono rfl hn hr hinv
  change (sealContract env tank).Safe (next (logged Write.insertMovement _).2) held
    (log ++ (logged Write.insertMovement _).1) db' (n' + 1)
  cases hins : insertMovement (replay (S := schema env) db' log) n' input with
  | ok m => exact hok db' n' m hr hins (h'.insert hinv.pos hins hlock hty (hc input rfl))
  | error e =>
    rw [logged, append_nil]
    exact herr db' n' e h'.tick

/-- What a posting transaction executes: it looks for the opening, and inserts under the lock. -/
def Posts (env : Env) (tank : Uuid) (held : Set LockKey) : Query → Prop
  | .hasOpening _ => True
  | .insertMovement input =>
    (input.tankId = tank → tankKey env tank ∈ held) ∧ input.movementType ≠ .transfer
  | _ => False

private theorem safe_of_posts {p : Txn env}
    (hp : Prog.Each (S := schema env) (Posts env tank) held p)
    (h : SealLog env tank held log db n) : (sealContract env tank).Safe p held log db n := by
  induction p generalizing held log db n with
  | commit a => exact safe_commit h a
  | rollback e => trivial
  | lock k next ih =>
    intro db' n' hn hr hinv _
    exact ih hp ((h.mono rfl hn hr hinv).lock k)
  | query q next ih =>
    cases q with
    | hasOpening t => exact safe_read h rfl fun db' n' _ _ h' ↦ ih _ (hp.2 _) h'
    | insertMovement input =>
      exact safe_insert h hp.1.1 hp.1.2 (fun _ _ _ h' ↦ ih _ (hp.2 _) h')
        fun _ _ _ _ _ h' ↦ ih _ (hp.2 _) h'
    | _ => exact hp.1.elim

private theorem ident_sealReconciliation {id : Uuid} {input : DraftInput}
    (h : sealReconciliation db id input = .ok (some r)) :
    r.ident ∈ db.idents ∧ r.id = id ∧ r.closingPhysical = input.computed.closingPhysical ∧
      r.throughSeq = input.throughSeq := by
  unfold sealReconciliation at h
  split at h
  · cases h
  next fig hfig =>
    split at h
    · cases h
    next r0 hfi =>
      obtain rfl := some.inj (ok.inj h)
      obtain ⟨-, -, hphys, hthr⟩ := DraftInput.figures_eq_some hfig
      have hprop : r0.id = id ∧ r0.status ≠ .sealed := by simpa using find?_some hfi
      exact ⟨mem_map.mpr ⟨r0, mem_of_find?_eq_some hfi, rfl⟩, hprop.1, hphys,
        hthr⟩

variable {rec : Reconciliation}

private theorem safe_sealThrough {c : Computed} (h : SealLog env tank held log db n)
    (hide : rec.ident ∈ db.idents) (hsum : rec.tankId = tank →
      sumLitres (db.ledger tank ++ inserted tank log) = c.closingPhysical) :
    (sealContract env tank).Safe (sealThrough env rec c) held log db n := by
  refine safe_read h rfl fun db1 n1 hr1 hinv1 h1 ↦ ?_
  -- the ledger has not moved since it was summed, so its last row is the watermark of the sum
  have ha1 : rec.tankId = tank → Anchored (db1.ledger tank ++ inserted tank log) c.closingPhysical
      (maxSeq 0 ((replay (S := schema env) db1 log).ledger rec.tankId)) := by
    intro ht
    have hkt : db1.ledger tank = db.ledger tank := hr1.kept (.inr ht)
    rw [ht, h1.ledger_view, ← hsum ht, ← hkt]
    exact anchored_maxSeq _
  change (sealContract env tank).Safe (.query (.findUnsealed rec.id) _) held log db1 (n1 + 1)
  refine safe_read h1 rfl fun db2 n2 hr2 hinv2 h2 ↦ ?_
  have ha2 := fun ht ↦ h1.anchored_mono rfl hr2 hinv2 (ha1 ht)
  dsimp only
  split
  · intro db3 n3 hn3 hr3 hinv3 _
    have h3 := (h2.mono rfl hn3 hr3 hinv3).lock (.reconciliation rec.tankId rec.operatingDayId)
    have ha3 := fun ht ↦ h2.anchored_mono rfl hr3 hinv3 (ha2 ht)
    intro db4 n4 hn4 hr4 hinv4 _
    have h4 := h3.mono rfl hn4 hr4 hinv4
    have ha4 := fun ht ↦ h3.anchored_mono rfl hr4 hinv4 (ha3 ht)
    have hide4 : rec.ident ∈ db4.idents := by
      rw [hr4.idents, hr3.idents, hr2.idents, hr1.idents]
      exact hide
    change (sealContract env tank).Safe (answerRow env (loggedRow Write.putReconciliation _).2) _
      (log ++ (loggedRow Write.putReconciliation _).1) db4 (n4 + 1)
    rcases hseal : sealReconciliation (replay (S := schema env) db4 log) rec.id _
      with e | _ | r
    · trivial
    · trivial
    · obtain ⟨hmem, hid, hphys, hthr⟩ := ident_sealReconciliation hseal
      rw [h4.idents_view hinv4] at hmem
      have hrec : r.ident = rec.ident := inj_on_of_nodup_map hinv4.keys hmem hide4 hid
      refine safe_commit (h4.put hmem fun ht ↦ ?_) _
      rw [hphys, hthr]
      exact ha4 ((congrArg Prod.snd hrec).symm.trans ht)
  · trivial

/-- From the figures of the ledger as it stands, the seal posts the residual and lands on the
physical figure. -/
theorem safe_sealComputed {input : ComputeInput} {dbc : StockDb}
    (h : SealLog env tank held [] db n) (hide : rec.ident ∈ db.idents)
    (hbook : rec.tankId = tank →
      (compute dbc input).closingBook = sumLitres (db.ledger tank)) :
    (sealContract env tank).Safe (sealComputed env rec (compute dbc input)) held [] db n := by
  set c := compute dbc input with hc
  have hwri : c.writeOff = c.closingPhysical - c.closingBook := rfl
  unfold sealComputed
  split
  · trivial
  split
  · intro db1 n1 hn1 hr1 hinv1 _
    have h1 := (h.mono rfl hn1 hr1 hinv1).lock (tankKey env rec.tankId)
    have hide1 : rec.ident ∈ db1.idents := by rwa [hr1.idents]
    have hboo1 : rec.tankId = tank → c.closingBook = sumLitres (db1.ledger tank) := fun ht ↦ by
      have hkt : db1.ledger tank = db.ledger tank := hr1.kept (.inr ⟨ht, rfl⟩)
      rw [hbook ht, hkt]
    have hhd : rec.tankId = tank → tankKey env tank ∈ insert (tankKey env rec.tankId) held :=
      fun ht ↦ .inl (congrArg (tankKey env) ht.symm)
    refine safe_insert h1 hhd (by simp [writeOffInput]) (fun _ _ _ _ ↦ trivial)
      fun db2 n2 m hr2 hins h2 ↦ safe_sealThrough h2 (by rwa [hr2.idents]) fun ht ↦ ?_
    have hkt : db2.ledger tank = db1.ledger tank := hr2.kept (.inl (hhd ht))
    have hlit : m.litres = c.writeOff :=
      insertMovement_litres hins (by simp only [writeOffInput]; ring)
    have hone : inserted tank ([] ++ [.insertMovement m]) = [m] :=
      if_pos ((insertMovement_tankId hins).trans ht)
    rw [hone, sumLitres_append, hkt, ← hboo1 ht, sumLitres_cons, sumLitres_nil, hlit, hwri]
    ring
  next hz =>
    refine safe_sealThrough h hide fun ht ↦ ?_
    have hno : c.closingPhysical - c.closingBook = 0 := by
      simpa [hc, compute] using hz
    rw [inserted, append_nil, ← hbook ht]
    omega

private theorem safe_computeFrom {reads : DayReads} (h : SealLog env tank held [] db n)
    (hide : rec.ident ∈ db.idents) (ha : rec.tankId = tank → Anchored (db.ledger tank) b q) :
    (sealContract env tank).Safe (computeFrom env rec.tankId reads b q (sealComputed env rec))
      held [] db n := by
  unfold computeFrom
  split
  · trivial
  · trivial
  · refine safe_read h rfl fun db1 n1 hr1 hinv1 h1 ↦ ?_
    refine safe_sealComputed h1 (by rwa [hr1.idents]) fun ht ↦ ?_
    have ha1 : Anchored (db1.ledger tank ++ inserted tank []) b q := by
      refine h.anchored_mono rfl hr1 hinv1 ?_
      rw [inserted, append_nil]
      exact ha ht
    rw [inserted, append_nil] at ha1
    subst ht
    exact closingBook_of_anchor hinv1.ledger.noTransfer ha1.sum

theorem safe_handleSealReconciliation (id : Uuid) (reads : DayReads)
    (h : SealLog env tank held [] db n) :
    (sealContract env tank).Safe (handleSealReconciliation env id reads) held [] db n := by
  refine safe_read h rfl fun db1 n1 _ hinv1 h1 ↦ ?_
  simp only [exec]
  split
  · trivial
  next rec hget =>
    have hide1 : rec.ident ∈ db1.idents := mem_map_of_mem (mem_of_find?_eq_some hget)
    split
    · trivial
    unfold computeReconciliation
    split
    · trivial
    refine safe_read h1 rfl fun db2 n2 hr2 hinv2 h2 ↦ ?_
    have hide2 : rec.ident ∈ db2.idents := by rwa [hr2.idents]
    simp only [exec]
    split
    next prior hpick =>
      refine safe_computeFrom h2 hide2 fun ht ↦ ?_
      exact hinv2.anchored prior (ht ▸ (mem_of_pick hpick).1)
    · refine safe_read h2 rfl fun db3 n3 hr3 hinv3 h3 ↦ ?_
      have hide3 : rec.ident ∈ db3.idents := by rwa [hr3.idents]
      have ha := hinv3.ledger.anchored_genesis
      simp only [exec]
      split
      next litres seq hgen =>
        refine safe_computeFrom h3 hide3 fun ht ↦ ?_
        rw [ht] at hgen
        rwa [hgen] at ha
      next hgen =>
        refine safe_computeFrom h3 hide3 fun ht ↦ ?_
        rw [ht] at hgen
        rwa [hgen] at ha

/-! ## Interleavings -/

/-- The calls that concurrent postings make: an opening, or a delivery, a sale or an
adjustment. -/
def Call.IsPosting : Call → Prop
  | .setOpeningBalance _ => True
  | .postMovement input =>
    input.movementType = .delivery ∨ input.movementType = .sales ∨ input.movementType = .adjustment
  | _ => False

/-- A transaction of the race. -/
inductive SealTxn where
  | post (calls : List Call) (h : ∀ c ∈ calls, c.IsPosting)
  | sealReconciliation (id : Uuid) (reads : DayReads)

def SealTxn.prog (env : Env) : SealTxn → Txn env
  | .post calls _ => callAll env calls
  | .sealReconciliation id reads => handleSealReconciliation env id reads

private theorem callAll_posts {calls : List Call} (h : ∀ c ∈ calls, c.IsPosting) :
    Prog.Each (S := schema env) (Posts env tank) held (callAll env calls) := by
  induction calls generalizing held with
  | nil => trivial
  | cons c calls ih =>
    have hc := h c mem_cons_self
    have hnx : ∀ H, Prog.Each (S := schema env) (Posts env tank) H (callAll env calls) :=
      fun H ↦ ih fun c' hc' ↦ h c' (mem_cons_of_mem c hc')
    cases c with
    | setOpeningBalance input =>
      refine each_setOpeningBalance (fun _ ↦ trivial) ⟨fun ht ↦ ?_, by simp [OpeningInput.toPost]⟩
        fun H r _ ↦ each_orRollback (fun _ ↦ hnx H) r
      exact .inl (congrArg (tankKey env) ht.symm)
    | postMovement input =>
      refine each_postMovement trivial ⟨fun ht ↦ ?_, ?_⟩ (each_orRollback fun _ ↦ hnx _)
      · exact .inl (congrArg (tankKey env) ht.symm)
      · rcases hc with hc | hc | hc <;> rw [hc] <;> exact nofun
    | reverseMovement id => exact hc.elim
    | postWriteOff t recon litres => exact hc.elim
    | receiveTransfer id => exact hc.elim

/-- The first transaction has posted to the tank, and the second is in the window of a seal. -/
def PostsIntoWindow (env : Env) (tank : Uuid) (l l' : Local (schema env)) : Prop :=
  inserted tank l.log ≠ [] ∧ InSealWindow env tank l'.prog
  deriving Decidable

/-- Nothing is posted to the tank inside the window of a seal, and the tank is opened only on a
ledger that sums to zero. -/
def SealsIsolated {T : Type} (env : Env) (tank : Uuid) (s : State (schema env) T) (a : Act T) :
    Prop :=
  s.Apart (PostsIntoWindow env tank) a ∧ s.Acting (OpensEmpty env tank) a

instance {T : Type} [DecidableEq T] [Fintype T] (s : State (schema env) T) (a : Act T) :
    Decidable (SealsIsolated env tank s a) :=
  inferInstanceAs (Decidable (_ ∧ _))

theorem sealContract_suits {T : Type} :
    Contract.Suits (T := T) (sealContract env tank) (SealsIsolated env tank) where
  cond hC hp := hC.2.of_prog hp
  compat {s t a u p} hC hp hinv hguar hne hu := by
    have hlog : SealLog env tank _ (s.log t) s.db s.stamp := hguar
    have hvw : (s.view t).ledger tank = s.db.ledger tank ++ inserted tank (s.log t) :=
      hlog.ledger_view
    refine ⟨hlog.idents_view hinv, ⟨_, hvw, hlog.above⟩, fun hkt ↦ ?_⟩
    have hnil : inserted tank (s.log t) = [] := by
      by_contra hne'
      rcases hkt with hhd | hwin
      · -- both would hold the lock of the tank
        exact hne (eq_of_held rfl hhd (hlog.locked hne'))
      · exact hC.1.not_clash hp hne hu ⟨hne', hwin⟩
    rw [hvw, hnil, append_nil]

/-- Every sealed physical figure of the tank is the sum of the ledger up to its watermark. -/
def StockDb.SealsExact (db : StockDb) (tank : Uuid) : Prop :=
  ∀ r ∈ db.sealedFor tank, sumLitres (upTo r.throughSeq (db.ledger tank)) = r.closingPhysical
  deriving Decidable

/-- In every interleaving of seals and postings that keeps the postings out of the window of the
seals, every sealed figure is exact. -/
theorem sealsExact_of_sealsIsolated {T : Type} [DecidableEq T] (txns : T → SealTxn)
    {db₀ : StockDb} (hmovements : db₀.movements = [])
    (hdrafts : ∀ r ∈ db₀.reconciliations, r.status ≠ .sealed)
    (hkeys : (db₀.reconciliations.map (·.id)).Nodup) {s : State (schema env) T}
    (h : Reach (SealsIsolated env tank) (start env db₀ fun t ↦ (txns t).prog env) s) :
    s.db.SealsExact tank := by
  have hled : db₀.ledger tank = [] := by simp [StockDb.ledger, hmovements]
  have hsl : db₀.sealedFor tank = [] := by
    rw [List.eq_nil_iff_forall_not_mem]
    intro r hr
    exact hdrafts r (mem_sealedFor.mp hr).1 (mem_sealedFor.mp hr).2.2
  have hinv : SealInv tank db₀ 1 := by
    refine ⟨one_pos, ?_, ?_, ?_⟩
    · rw [hled]
      exact ⟨by simp, by simp, by simp⟩
    · rw [StockDb.idents, map_map]
      exact hkeys
    · rw [hsl]
      simp
  have hsafe : ∀ t, (sealContract env tank).Safe ((txns t).prog env) ∅ [] db₀ 1 := fun t ↦ by
    cases txns t with
    | post calls hcal => exact safe_of_posts (callAll_posts hcal) (.nil hinv)
    | sealReconciliation id reads => exact safe_handleSealReconciliation id reads (.nil hinv)
  intro r hr
  exact ((Contract.sound sealContract_suits hinv hsafe h).1.anchored r hr).sum

def draftDb : StockDb :=
  { StockDb.empty with reconciliations := [⟨⟨0, 0, 0, 0, 0, 0, 0, 0, 0, 0⟩, 1, 7, 1, .draft⟩] }

/-- The tank is opened with 100 litres, 50 are delivered, and the day is sealed at `dip`
thousandths with a tolerance of one percent. -/
def raceTxns (dip : ℤ) : Fin 3 → SealTxn
  | 0 => .post [.setOpeningBalance ⟨7, 100, none⟩] (by simp [Call.IsPosting])
  | 1 => .post [.postMovement ⟨7, .delivery, some .delivery, some 4, 50, none⟩]
      (by simp [Call.IsPosting])
  | 2 => .sealReconciliation 1 ⟨0, some dip, some 100⟩

/-- The delivery commits after the figures were computed and before the watermark is read: the row
is sealed at 100 litres through a ledger of 150. -/
theorem not_sealsExact_of_posting_in_window :
    ∃ s : State (schema .plain) (Fin 3),
      Reach (fun _ _ ↦ True) (start .plain draftDb fun t ↦ (raceTxns 100000 t).prog .plain) s ∧
        ¬s.db.SealsExact 7 := by
  have hrun : ((start .plain draftDb fun t ↦ (raceTxns 100000 t).prog .plain).runs
      (fun _ _ ↦ True) (turns [(0, 4), (2, 4), (1, 4), (2, 5)])).map
        (fun s ↦ decide (s.db.SealsExact 7)) = some false := by
    decide +kernel
  obtain ⟨s, hs, hbad⟩ := map_eq_some_iff.mp hrun
  exact ⟨s, .of_runs hs, of_decide_eq_false hbad⟩

/-- A delivery before the figures are computed is counted: the day is sealed at 149 litres. -/
theorem sealsExact_of_sealsIsolated_early :
    ∃ s : State (schema .plain) (Fin 3),
      Reach (SealsIsolated .plain 7)
        (start .plain draftDb fun t ↦ (raceTxns 149000 t).prog .plain) s ∧
      (s.db.sealedFor 7).map (·.closingPhysical) = [149000] ∧ s.db.SealsExact 7 := by
  have hrun : ((start .plain draftDb fun t ↦ (raceTxns 149000 t).prog .plain).runs
      (SealsIsolated .plain 7) (turns [(0, 4), (2, 2), (1, 4), (2, 9)])).map
        (fun s ↦ (s.db.sealedFor 7).map (·.closingPhysical)) = some [149000] := by
    decide +kernel
  obtain ⟨s, hs, hsl⟩ := map_eq_some_iff.mp hrun
  exact ⟨s, .of_runs hs, hsl,
    sealsExact_of_sealsIsolated _ rfl (by decide) (by decide) (.of_runs hs)⟩

end FuelGrid.Stock
