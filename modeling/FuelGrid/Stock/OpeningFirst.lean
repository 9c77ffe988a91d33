import FuelGrid.Sql.RelyGuarantee
import FuelGrid.Stock.Ledger

/-!
# Opening first

Deliveries, sales and transfers may be posted to a tank only once it has an opening balance, and
`requiresOpening` names the three types. `PostMovement` reads the opening and inserts the row under
the advisory lock of the tank, and a reversal, which marks the opening before it takes that lock,
takes it before it commits: the opening that `PostMovement` has seen is still there when its row
commits.
-/

namespace FuelGrid.Stock

open Sql

/-- Each row of the log that needs an opening is inserted into a ledger that has one. -/
def OpeningFirst (db : StockDb) : List Write → Prop
  | [] => True
  | .insertMovement m :: ws =>
    (requiresOpening m.movementType → db.HasOpening m.tankId) ∧
      OpeningFirst (db.apply (.insertMovement m)) ws
  | w :: ws => OpeningFirst (db.apply w) ws

instance decidableOpeningFirst (db : StockDb) : (log : List Write) → Decidable (OpeningFirst db log)
  | [] => .isTrue trivial
  | .insertMovement m :: ws =>
    have := decidableOpeningFirst (db.apply (.insertMovement m)) ws
    inferInstanceAs (Decidable (_ ∧ _))
  | .markReversed id :: ws => decidableOpeningFirst (db.apply (.markReversed id)) ws
  | .receiveTransfer id outId inId :: ws =>
    decidableOpeningFirst (db.apply (.receiveTransfer id outId inId)) ws
  | .putReconciliation r :: ws => decidableOpeningFirst (db.apply (.putReconciliation r)) ws

/-- Every committed row of a delivery, a sale or a transfer was posted to a tank with an opening, on
the rows its transaction was committed to. -/
def OpeningLaw {env : Env} {T : Type} (s : State (schema env) T) : Prop :=
  ∀ c ∈ s.commits, OpeningFirst c.before c.writes
  deriving Decidable

private theorem openingFirst_append (env : Env) (db : StockDb) (ws vs : List Write) :
    OpeningFirst db (ws ++ vs) ↔
      OpeningFirst db ws ∧ OpeningFirst (replay (S := schema env) db ws) vs := by
  induction ws generalizing db with
  | nil => exact (iff_of_eq (true_and _)).symm
  | cons w ws ih =>
    rcases w with m | id | ⟨id, outId, inId⟩ | r
    · exact (and_congr_right fun _ ↦ ih _).trans and_assoc.symm
    · exact ih _
    · exact ih _
    · exact ih _

/-! ## What a log does to a ledger -/

def Write.row? : Write → Option Movement
  | .insertMovement m => some m
  | _ => none

def logRows (log : List Write) : List Movement := log.filterMap Write.row?

/-- The rows without their status. -/
def StockDb.rows (db : StockDb) : List Movement := db.movements.map Movement.frozen

/-- The log takes an opening back: it has the contra of one. -/
def ReversesOpening (log : List Write) : Prop :=
  ∃ m ∈ logRows log, m.movementType = .opening ∧ m.sourceRefType = some .correction
  deriving Decidable

section Replay

variable {env : Env} {db db' : StockDb} {log : List Write} {tank : Uuid} {m : Movement}

private theorem logRows_append (ws vs : List Write) :
    logRows (ws ++ vs) = logRows ws ++ logRows vs :=
  filterMap_append

private theorem mem_logRows : m ∈ logRows log ↔ .insertMovement m ∈ log := by
  rw [logRows, mem_filterMap]
  constructor
  · rintro ⟨w, hw, hrow⟩
    rcases w with x | _ | _ | _
    · rwa [← some.inj hrow]
    all_goals cases hrow
  · exact fun h ↦ ⟨_, h, rfl⟩

private theorem rows_replay (db : StockDb) (log : List Write) :
    (replay (S := schema env) db log).rows = db.rows ++ (logRows log).map Movement.frozen := by
  have hrs := replay_rows (S := schema env) StockDb.rows (fun w ↦ w.row?.map Movement.frozen)
    (fun db w ↦ ?_) db log
  · rw [hrs, logRows, List.map_filterMap]
  · rcases w with m | id | ⟨id, outId, inId⟩ | r
    · exact map_append
    · refine (map_map.trans (map_congr_left fun m _ ↦ ?_)).trans (append_nil _).symm
      exact Movement.frozen_reverse id m
    · exact (append_nil _).symm
    · exact (append_nil _).symm

private theorem ledger_replay_congr (h : db'.ledger tank = db.ledger tank) (log : List Write) :
    (replay (S := schema env) db' log).ledger tank =
      (replay (S := schema env) db log).ledger tank := by
  induction log generalizing db db' with
  | nil => exact h
  | cons w ws ih =>
    refine ih ?_
    rcases w with m | id | ⟨id, outId, inId⟩ | r
    · change (db'.movements ++ [m]).filter _ = (db.movements ++ [m]).filter _
      rw [filter_append, filter_append]
      exact congrArg (· ++ _) h
    · change (db'.apply (.markReversed id)).ledger tank = (db.apply (.markReversed id)).ledger tank
      rw [ledger_markReversed, ledger_markReversed, h]
    · exact h
    · exact h

private theorem opened_replay_congr (h : db'.ledger tank = db.ledger tank) (log : List Write) :
    (replay (S := schema env) db' log).HasOpening tank ↔
      (replay (S := schema env) db log).HasOpening tank := by
  rw [StockDb.HasOpening, StockDb.HasOpening, ledger_replay_congr h]

/-- The law of a log depends on the ledgers that it inserts into. -/
theorem OpeningFirst.congr (h : OpeningFirst db log)
    (hled : ∀ m ∈ logRows log, db'.ledger m.tankId = db.ledger m.tankId) :
    OpeningFirst db' log := by
  -- by induction from the end of the log, so that each insert has the replay of what precedes it
  induction log using List.reverseRecOn with
  | nil => trivial
  | append_singleton ws w ih =>
    rw [openingFirst_append .plain] at h ⊢
    rw [logRows_append] at hled
    refine ⟨ih h.1 fun m hm ↦ hled m (mem_append_left _ hm), ?_⟩
    rcases w with m | id | ⟨id, outId, inId⟩ | r
    · have hsm := hled m (mem_append_right _ mem_cons_self)
      exact ⟨fun hreq ↦ (opened_replay_congr hsm ws).mpr (h.2.1 hreq), trivial⟩
    all_goals trivial

/-- Replay leaves a ledger alone into which it inserts nothing and in which it reverses nothing. -/
theorem ledger_replay_of_untouched (hrs : ∀ m ∈ logRows log, m.tankId ≠ tank)
    (hrev : ∀ m ∈ db.ledger tank, .markReversed m.id ∉ log) :
    (replay (S := schema env) db log).ledger tank = db.ledger tank := by
  induction log generalizing db with
  | nil => rfl
  | cons w ws ih =>
    have hled : (db.apply w).ledger tank = db.ledger tank := by
      rcases w with m | id | ⟨id, outId, inId⟩ | r
      · change (db.movements ++ [m]).filter _ = _
        rw [filter_append, filter_cons_of_neg
          (by simpa using hrs m mem_cons_self)]
        exact append_nil _
      · rw [ledger_markReversed]
        refine (map_congr_left fun m hm ↦ if_neg fun hid ↦ ?_).trans (List.map_id _)
        exact hrev m hm (hid ▸ mem_cons_self)
      · rfl
      · rfl
    rw [replay_cons]
    refine (ih (fun m hm ↦ ?_) fun m hm hmem ↦ ?_).trans hled
    · exact hrs m (mem_logRows.mpr (mem_cons_of_mem _ (mem_logRows.mp hm)))
    · refine hrev m ?_ (mem_cons_of_mem _ hmem)
      rw [← hled]
      exact hm

private theorem mem_replay_of_not_reversed (hm : m ∈ db.movements)
    (hrev : .markReversed m.id ∉ log) :
    m ∈ (replay (S := schema env) db log).movements := by
  induction log generalizing db with
  | nil => exact hm
  | cons w ws ih =>
    rw [mem_cons, not_or] at hrev
    refine ih ?_ hrev.2
    rcases w with x | id | ⟨id, outId, inId⟩ | r
    · exact mem_append_left _ hm
    · refine mem_map.mpr ⟨m, hm, if_neg fun hid ↦ hrev.1 (by rw [hid])⟩
    · exact hm
    · exact hm

private theorem mem_replay_of_isOpening (hkt : ∀ m ∈ db.movements, m.IsOpening → m ∈ db'.movements)
    (hm : m ∈ (replay (S := schema env) db log).movements) (hop : m.IsOpening) :
    m ∈ (replay (S := schema env) db' log).movements := by
  induction log generalizing db db' with
  | nil => exact hkt m hm hop
  | cons w ws ih =>
    refine ih (fun x hx hxo ↦ ?_) hm
    rcases w with y | id | ⟨id, outId, inId⟩ | r
    · rcases mem_append.mp hx with hx | hx
      · exact mem_append_left _ (hkt x hx hxo)
      · exact mem_append_right _ hx
    · obtain ⟨y, hy, rfl⟩ := mem_map.mp hx
      exact mem_map_of_mem (hkt y hy (Movement.isOpening_of_reverse hxo))
    · exact hkt x hx hxo
    · exact hkt x hx hxo

end Replay

/-! ## Interleavings

`ReceiveTransfer` inserts its two rows itself and checks the stock of the source only, so it also
posts into a tank that was never opened. What is left is a condition on its calls: both tanks have
their opening when the order is read, and no opening is taken back before the tanks are locked
(`openingLaw_of_transfersOpened`). -/

section Contract

variable (env : Env)

/-- A receipt that has read its order and does not have the locks of both tanks. -/
def inReceipt : Txn env → Bool
  | .query (.tankProduct _) _ => true
  | .lock (.advisory _) (.lock (.advisory _) (.query (.sufficientStock _ _) _)) => true
  | .lock (.advisory _) (.query (.sufficientStock _ _) _) => true
  | _ => false

/-- The first transaction takes an opening back while the second relies on openings it has no lock
for. -/
def ReversesUnderReceipt (l l' : Local (schema env)) : Prop :=
  ReversesOpening l.log ∧ inReceipt env l'.prog
  deriving Decidable

/-- The order that the next statement reads. -/
def readsTransfer? : Txn env → Option Uuid
  | .query (.lockedTransfer id) _ => some id
  | _ => none

/-- An order that can be received is read while both of its tanks have an opening. -/
def ReadsOpened (l : Local (schema env)) (db : StockDb) : Prop :=
  ∀ id ∈ readsTransfer? env l.prog,
    ∀ t ∈ (replay (S := schema env) db l.log).transfers.find? (·.id = id),
      t.status = .approved ∨ t.status = .dispatched →
        (replay (S := schema env) db l.log).HasOpening t.fromTankId ∧
          (replay (S := schema env) db l.log).HasOpening t.toTankId
  deriving Decidable

/-- Transfers are received between opened tanks, and no opening is taken back under a receipt. -/
def TransfersOpened {T : Type} (s : State (schema env) T) (a : Act T) : Prop :=
  s.Apart (ReversesUnderReceipt env) a ∧ s.Acting (ReadsOpened env) a

instance {T : Type} [DecidableEq T] [Fintype T] (s : State (schema env) T) (a : Act T) :
    Decidable (TransfersOpened env s a) :=
  inferInstanceAs (Decidable (_ ∧ _))

/-- What the others leave to a transaction. -/
structure Leaves (l : Local (schema env)) (db db' : StockDb) : Prop where
  /-- the ledgers of locked tanks -/
  ledger : ∀ tank, tankKey env tank ∈ l.held → db'.ledger tank = db.ledger tank
  rows : db.rows ⊆ db'.rows
  ids : ∀ r ∈ db'.rows, r ∈ db.rows ∨ ∀ m ∈ logRows l.log, m.id ≠ r.id
  openings : inReceipt env l.prog → ∀ m ∈ db.movements, m.IsOpening → m ∈ db'.movements

/-- What a transaction owes to the others when it commits. -/
structure Owes (l : Local (schema env)) (db : StockDb) : Prop where
  locked : ∀ m ∈ logRows l.log, tankKey env m.tankId ∈ l.held
  reversed : ∀ m ∈ db.movements, .markReversed m.id ∈ l.log →
    tankKey env m.tankId ∈ l.held ∧ (m.movementType = .opening → ReversesOpening l.log)

/-- The ids of the rows are drawn, and no two rows have the same. -/
structure Drawn (db : StockDb) (n : ℕ) : Prop where
  nodup : (db.rows.map (·.id)).Nodup
  below : ∀ r ∈ db.rows, r.id < n

def openingContract : Contract (schema env) where
  inv := Drawn
  rely := Leaves env
  cond l db _ := ReadsOpened env l db
  guar l db _ := Owes env l db
  post _ db log := OpeningFirst db log
  inv_tick h := ⟨h.nodup, fun r hr ↦ (h.below r hr).trans (lt_succ_self _)⟩
  rely_refl _ _ := ⟨fun _ _ ↦ rfl, fun _ h ↦ h, fun _ h ↦ .inl h, fun _ _ h _ ↦ h⟩
  rely_trans h h' := {
    ledger := fun tank hk ↦ (h'.ledger tank hk).trans (h.ledger tank hk)
    rows := fun _ hr ↦ h'.rows (h.rows hr)
    ids := fun r hr ↦ (h'.ids r hr).elim (h.ids r) .inr
    openings := fun hp m hm ho ↦ h'.openings hp m (h.openings hp m hm ho) ho }

/-- The id that an insert draws. -/
def Write.rowIds (w : Write) : List ℕ := (w.row?.map (·.id)).toList

private theorem drawsStamp_rowIds : DrawsStamp (S := schema env) Write.rowIds := by
  intro q committed view n w hw i hi
  rcases w with m | _ | _ | _
  · obtain ⟨input, -, hins⟩ := insertMovement_of_mem_exec env hw
    rw [mem_singleton.mp hi, (insertMovement_eq_ok hins).1]
    rfl
  all_goals cases hi

theorem openingContract_suits {T : Type} :
    Contract.Suits (T := T) (openingContract env)
      (fun s a ↦ TransfersOpened env s a ∧ s.Distinct Write.rowIds) where
  cond hC hp := hC.1.2.of_prog hp
  compat {s t a u p} hC hp _ hguar hne hu := by
    have howes : Owes env (s.txn t (.commit a)) s.db := hguar
    have hvw : (s.view t).rows = s.db.rows ++ (logRows (s.log t)).map Movement.frozen :=
      rows_replay s.db (s.log t)
    constructor
    · intro tank hhd
      have hoth : ∀ k, tankKey env tank = k → k ∈ s.held t → False := fun k hk hkt ↦
        hne (eq_of_held rfl hhd (hk ▸ hkt))
      refine ledger_replay_of_untouched (fun m hm htk ↦ ?_) fun m hm hmem ↦ ?_
      · exact hoth _ (by rw [htk]) (howes.locked m hm)
      · obtain ⟨hmem', htk⟩ := mem_filter.mp hm
        exact hoth _ (by rw [of_decide_eq_true htk]) (howes.reversed m hmem' hmem).1
    · rw [hvw]
      exact List.subset_append_left _ _
    · intro r hr
      rw [hvw] at hr
      rcases mem_append.mp hr with hr | hr
      · exact .inl hr
      · obtain ⟨x, hx, rfl⟩ := mem_map.mp hr
        refine .inr fun m hm hid ↦ ?_
        exact hC.2.apart t u hne.symm _ (mem_logRows.mp hx) _ (mem_logRows.mp hm) x.id
          (mem_singleton_self _) (mem_singleton.mpr hid.symm)
    · intro hrec m hm hop
      refine mem_replay_of_not_reversed hm fun hmem ↦ ?_
      exact hC.1.1.not_clash hp hne hu ⟨(howes.reversed m hm hmem).2 hop.1, hrec⟩

end Contract

section Rules

variable {env : Env} {held held' : Set LockKey} {log : List Write} {db db' : StockDb} {n n' : ℕ}
  {l : Local (schema env)} {id : Uuid} {input : PostInput} {m : Movement} {R : StockDb → ℕ → Prop}
  {k : Except StockError Movement → Txn env} {t : Transfer} {w : Write}

/-! ### Logs -/

/-- The rows of the log have ids of their own, are inserted under the lock of their tank, and come
after the opening. -/
structure Inserts (env : Env) (held : Set LockKey) (log : List Write) (db : StockDb) (n : ℕ) :
    Prop where
  locked : ∀ m ∈ logRows log, tankKey env m.tankId ∈ held
  nodup : ((logRows log).map (·.id)).Nodup
  below : ∀ m ∈ logRows log, m.id < n
  fresh : ∀ m ∈ logRows log, ∀ r ∈ db.rows, m.id ≠ r.id
  first : OpeningFirst db log

/-- A reversal is settled when the tank of the row is locked and an opening has its contra. -/
def Reversed (env : Env) (held : Set LockKey) (log : List Write)
    (rows : List Movement) (id : Uuid) :
    Prop :=
  ∃ r ∈ rows, r.id = id ∧ tankKey env r.tankId ∈ held ∧
    (r.movementType = .opening → ReversesOpening log)

/-- The transaction can commit its log. -/
structure Ready (env : Env) (held : Set LockKey) (log : List Write) (db : StockDb) (n : ℕ) : Prop
    extends Inserts env held log db n where
  reversed : ∀ id, .markReversed id ∈ log →
    Reversed env held log (replay (S := schema env) db log).rows id

private theorem ready_nil : Ready env held [] db n := by
  refine ⟨⟨?_, nodup_nil, ?_, ?_, trivial⟩, ?_⟩ <;> intro m hm <;> cases hm

theorem Inserts.leaves (h : Inserts env held log db n) (hhd : held ⊆ l.held)
    (hlog : l.log = log) (hn : n ≤ n') (hlv : Leaves env l db db') :
    Inserts env held log db' n' where
  locked := h.locked
  nodup := h.nodup
  below m hm := (h.below m hm).trans_le hn
  fresh m hm r hr := by
    rcases hlv.ids r hr with hold | hnew
    · exact h.fresh m hm r hold
    · exact hnew m (hlog ▸ hm)
  first := h.first.congr fun m hm ↦ hlv.ledger _ (hhd (h.locked m hm))

theorem Reversed.mono {rows rows' : List Movement} {log' : List Write}
    (h : Reversed env held log rows id) (hrs : rows ⊆ rows') (hhd : held ⊆ held')
    (hlog : ReversesOpening log → ReversesOpening log') : Reversed env held' log' rows' id := by
  obtain ⟨r, hr, hid, hkey, hop⟩ := h
  exact ⟨r, hrs hr, hid, hhd hkey, fun ho ↦ hlog (hop ho)⟩

private theorem rows_replay_subset (hrs : db.rows ⊆ db'.rows) (log : List Write) :
    (replay (S := schema env) db log).rows ⊆ (replay (S := schema env) db' log).rows := by
  rw [rows_replay, rows_replay]
  exact List.append_subset.mpr
    ⟨fun _ hr ↦ mem_append_left _ (hrs hr), List.subset_append_right _ _⟩

private theorem rows_subset_append (db : StockDb) (log ws : List Write) :
    (replay (S := schema env) db log).rows ⊆ (replay (S := schema env) db (log ++ ws)).rows := by
  rw [replay_append, rows_replay _ ws]
  exact List.subset_append_left _ _

theorem ReversesOpening.append {ws : List Write} (h : ReversesOpening log) :
    ReversesOpening (log ++ ws) := by
  obtain ⟨m, hm, hop⟩ := h
  refine ⟨m, ?_, hop⟩
  rw [logRows_append]
  exact mem_append_left _ hm

theorem Ready.leaves (h : Ready env held log db n) (hhd : held ⊆ l.held) (hlog : l.log = log)
    (hn : n ≤ n') (hlv : Leaves env l db db') : Ready env held log db' n' where
  toInserts := h.toInserts.leaves hhd hlog hn hlv
  reversed id hid :=
    (h.reversed id hid).mono (rows_replay_subset hlv.rows log) subset_rfl fun ho ↦ ho

theorem Inserts.held_mono (h : Inserts env held log db n) (hhd : held ⊆ held') :
    Inserts env held' log db n :=
  { h with locked := fun m hm ↦ hhd (h.locked m hm) }

theorem Ready.held_mono (h : Ready env held log db n) (hhd : held ⊆ held') :
    Ready env held' log db n where
  toInserts := h.toInserts.held_mono hhd
  reversed id hid := (h.reversed id hid).mono (List.Subset.refl _) hhd fun ho ↦ ho

theorem Inserts.note (h : Inserts env held log db n) (hw : w.row? = none) (hn : n ≤ n') :
    Inserts env held (log ++ [w]) db n' := by
  have hrs : logRows (log ++ [w]) = logRows log := by
    rw [logRows_append, logRows, logRows, List.filterMap_cons_none hw]
    exact append_nil _
  have hfir : OpeningFirst (replay (S := schema env) db log) [w] := by
    rcases w with m | _ | _ | _
    · cases hw
    all_goals trivial
  refine ⟨?_, ?_, ?_, ?_, (openingFirst_append env db log [w]).mpr ⟨h.first, hfir⟩⟩ <;> rw [hrs]
  · exact h.locked
  · exact h.nodup
  · exact fun m hm ↦ (h.below m hm).trans_le hn
  · exact h.fresh

/-- A row is inserted under the lock of its tank, after the opening if it needs one. -/
theorem Inserts.insert (h : Inserts env held log db n) (hdrawn : Drawn db n)
    (hins : insertMovement (replay (S := schema env) db log) n input = .ok m)
    (hlock : tankKey env input.tankId ∈ held) (hopd : requiresOpening input.movementType →
      (replay (S := schema env) db log).HasOpening input.tankId) :
    Inserts env held (log ++ [.insertMovement m]) db (n + 1) := by
  have hid : m.id = n := by
    rw [(insertMovement_eq_ok hins).1]
    rfl
  have hrs : logRows (log ++ [.insertMovement m]) = logRows log ++ [m] := logRows_append _ _
  constructor
  · rw [hrs, forall_mem_append, List.forall_mem_singleton, insertMovement_tankId hins]
    exact ⟨h.locked, hlock⟩
  · rw [hrs, map_append, map_singleton, ← List.concat_eq_append]
    refine h.nodup.concat fun hmem ↦ ?_
    obtain ⟨x, hx, hxm⟩ := mem_map.mp hmem
    exact (h.below x hx).ne (hxm.trans hid)
  · rw [hrs, forall_mem_append, List.forall_mem_singleton, hid]
    exact ⟨fun x hx ↦ (h.below x hx).trans (lt_succ_self n), lt_succ_self n⟩
  · rw [hrs, forall_mem_append, List.forall_mem_singleton, hid]
    exact ⟨h.fresh, fun r hr ↦ (hdrawn.below r hr).ne'⟩
  · refine (openingFirst_append env db log _).mpr ⟨h.first, ?_, trivial⟩
    rw [insertMovement_movementType hins, insertMovement_tankId hins]
    exact hopd

theorem Ready.note (h : Ready env held log db n) (hw : w.row? = none)
    (hrev : ∀ id, w ≠ .markReversed id) (hn : n ≤ n') : Ready env held (log ++ [w]) db n' where
  toInserts := h.toInserts.note hw hn
  reversed id hid := by
    rcases mem_append.mp hid with hid | hid
    · exact (h.reversed id hid).mono (rows_subset_append db log _) subset_rfl .append
    · exact absurd (mem_singleton.mp hid).symm (hrev id)

section Ready

variable (h : Ready env held log db n) (hdrawn : Drawn db n)

include h hdrawn

theorem Ready.insert (hins : insertMovement (replay (S := schema env) db log) n input = .ok m)
    (hlock : tankKey env input.tankId ∈ held) (hopd : requiresOpening input.movementType →
      (replay (S := schema env) db log).HasOpening input.tankId) :
    Ready env held (log ++ [.insertMovement m]) db (n + 1) where
  toInserts := h.toInserts.insert hdrawn hins hlock hopd
  reversed id hid := by
    rcases mem_append.mp hid with hid | hid
    · exact (h.reversed id hid).mono (rows_subset_append db log _) subset_rfl .append
    · cases mem_singleton.mp hid

theorem Ready.owes (p : Txn env) : Owes env ⟨held, log, p⟩ db := by
  refine ⟨h.locked, fun m hm hmem ↦ ?_⟩
  have hfro : m.frozen ∈ db.rows := mem_map_of_mem hm
  obtain ⟨r, hr, hid, hkey, hop⟩ := h.reversed m.id hmem
  rw [rows_replay] at hr
  rcases mem_append.mp hr with hr | hr
  · obtain rfl : r = m.frozen := inj_on_of_nodup_map hdrawn.nodup hr hfro hid
    exact ⟨hkey, hop⟩
  · obtain ⟨x, hx, rfl⟩ := mem_map.mp hr
    exact absurd hid (h.fresh x hx m.frozen hfro)

theorem Ready.drawn : Drawn (replay (S := schema env) db log) n := by
  have hids : ((logRows log).map Movement.frozen).map (·.id) = (logRows log).map (·.id) :=
    map_map
  constructor
  · rw [rows_replay, map_append, hids]
    refine hdrawn.nodup.append h.nodup fun i hi hi' ↦ ?_
    obtain ⟨r, hr, rfl⟩ := mem_map.mp hi
    obtain ⟨m, hm, hmr⟩ := mem_map.mp hi'
    exact h.fresh m hm r hr hmr
  · rw [rows_replay, forall_mem_append, List.forall_mem_map]
    exact ⟨hdrawn.below, h.below⟩

end Ready

/-! ### Calls -/

section Stable

variable (hstable : ∀ {l : Local (schema env)} {db db' n n'}, held ⊆ l.held → l.log = log →
    n ≤ n' → Leaves env l db db' → R db n → R db' n')
  (hR : R db n)

include hstable hR

/-- To go past an insert, take the row as given. `R` is what the caller knows of the committed rows
and the others leave to it. -/
theorem safe_insertRow
    (hfl : ∀ e db' n', (openingContract env).Safe (k (.error e)) held log db' n')
    (hok : ∀ m db' n', R db' n' → Drawn db' n' →
      insertMovement (replay (S := schema env) db' log) n' input = .ok m →
      (openingContract env).Safe (k (.ok m)) held (log ++ [.insertMovement m]) db' (n' + 1)) :
    (openingContract env).Safe (insertRow env input k) held log db n := by
  refine safe_query fun db' n' hn hlv hdrawn _ ws r hout ↦ ?_
  have hR' := hstable subset_rfl rfl hn hlv hR
  obtain ⟨e, -, rfl, rfl⟩ | ⟨m, hins, rfl, rfl⟩ := logged_eq hout
  · rw [append_nil]
    exact hfl _ db' _
  · exact hok m db' n' hR' hdrawn hins

/-- To go past `PostMovement`, take the row as given; if it needs an opening, there is one. -/
theorem safe_postMovement
    (hfl : ∀ held' e db' n', (openingContract env).Safe (k (.error e)) held' log db' n')
    (hok : ∀ m db' n', R db' n' → Drawn db' n' →
      insertMovement (replay (S := schema env) db' log) n' input = .ok m →
      (requiresOpening input.movementType →
        (replay (S := schema env) db' log).HasOpening input.tankId) →
      (openingContract env).Safe (k (.ok m)) (insert (tankKey env input.tankId) held)
        (log ++ [.insertMovement m]) db' (n' + 1)) :
    (openingContract env).Safe (postMovement env input k) held log db n := by
  intro db1 n1 hn1 hlv1 _ _
  have hR1 := hstable subset_rfl rfl hn1 hlv1 hR
  have hsub : held ⊆ insert (tankKey env input.tankId) held := subset_insert _ _
  split
  next hreq =>
    refine safe_query fun db2 n2 hn2 hlv2 _ _ ws r hout ↦ ?_
    have hout : ([], decide ((replay (S := schema env) db2 log).HasOpening input.tankId)) =
        (ws, r) := hout
    obtain ⟨rfl, hhas⟩ := Prod.mk.inj hout
    have hR2 := hstable hsub rfl hn2 hlv2 hR1
    rw [append_nil]
    rcases r with _ | _
    · exact hfl _ _ _ _
    -- the tank is locked, so the opening that was read stays
    refine safe_insertRow
      (R := fun db' n' ↦ R db' n' ∧ (replay (S := schema env) db' log).HasOpening input.tankId)
      (fun hhd hlog hn hlv h ↦ ⟨hstable (hsub.trans hhd) hlog hn hlv h.1, ?_⟩)
      ⟨?_, of_decide_eq_true hhas⟩ (hfl _) fun m db' n' h hdrawn hins ↦
        hok m db' n' h.1 hdrawn hins fun _ ↦ h.2
    · exact (opened_replay_congr (hlv.ledger _ (hhd (mem_insert _ _))) log).mpr h.2
    · exact hstable hsub rfl (le_succ _) ((openingContract env).rely_refl ⟨_, log, .commit .done⟩ _)
        hR2
  next hreq =>
    exact safe_insertRow (fun hhd hlog hn hlv h ↦ hstable (hsub.trans hhd) hlog hn hlv h)
      hR1 (hfl _) fun m db' n' h hdrawn hins ↦ hok m db' n' h hdrawn hins fun h' ↦ absurd h' hreq

end Stable

variable {next : Txn env}
  (hnext : ∀ held log db n, Ready env held log db n →
    (openingContract env).Safe next held log db n)

include hnext

theorem safe_call_postMovement (h : Ready env held log db n) :
    (openingContract env).Safe (postMovement env input (orRollback env fun _ ↦ next)) held
      log db n := by
  refine safe_postMovement (fun hhd hlog hn hlv h ↦ h.leaves hhd hlog hn hlv) h
    (fun _ _ _ _ ↦ trivial) fun m db' n' h hdrawn hins hopd ↦ hnext _ _ _ _ ?_
  exact (h.held_mono (subset_insert _ _)).insert hdrawn hins (mem_insert _ _) hopd

theorem safe_call_setOpeningBalance {input : OpeningInput} (h : Ready env held log db n) :
    (openingContract env).Safe (setOpeningBalance env input (orRollback env fun _ ↦ next)) held
      log db n := by
  refine safe_query fun db1 n1 hn hlv _ _ ws r hout ↦ ?_
  obtain ⟨rfl, -⟩ := Prod.mk.inj hout
  have h1 := h.leaves subset_rfl rfl (hn.trans (le_succ n1)) hlv
  rw [append_nil]
  rcases r with _ | _
  · refine safe_postMovement (fun hhd hlog hn hlv h ↦ h.leaves hhd hlog hn hlv) h1
      (fun held' e db' n' ↦ ?_) fun m db' n' h hdrawn hins hopd ↦ hnext _ _ _ _ ?_
    · split <;> trivial
    · exact (h.held_mono (subset_insert _ _)).insert hdrawn hins (mem_insert _ _) hopd
  · trivial

variable {tank : Uuid}

theorem safe_call_postWriteOff {recon : Uuid} {litres : ℚ} (h : Ready env held log db n) :
    (openingContract env).Safe (postWriteOff env tank recon litres (orRollback env fun _ ↦ next))
      held log db n := by
  intro db1 n1 hn hlv _ _
  have h1 := (h.leaves subset_rfl rfl hn hlv).held_mono (subset_insert (tankKey env tank) held)
  refine safe_insertRow (fun hhd hlog hn hlv h ↦ h.leaves hhd hlog hn hlv) h1
    (fun _ _ _ ↦ trivial) fun m db' n' h hdrawn hins ↦ hnext _ _ _ _ ?_
  exact h.insert hdrawn hins (mem_insert _ _) fun hreq ↦ absurd hreq Bool.false_ne_true

omit hnext in
private theorem safe_refused : (openingContract env).Safe (.query (.getMovement id) fun
      | none => orRollback env (fun _ : Movement ↦ next) (.error .errMovementNotFound)
      | some _ => orRollback env (fun _ : Movement ↦ next) (.error .errAlreadyReversed)) held log db
      n := by
  refine safe_query fun db1 n1 _ _ _ _ ws r _ ↦ ?_
  rcases r with _ | _ <;> trivial

/-- A reversal marks the row first. Until the contra is inserted, the log is not ready. -/
theorem safe_contra {orig : Movement} (h : Ready env held log db n)
    (hrow : ∃ r ∈ (replay (S := schema env) db log).rows,
      r.id = id ∧ r.tankId = orig.tankId ∧ r.movementType = orig.movementType) :
    (openingContract env).Safe (postMovement env orig.contra (orRollback env fun _ ↦ next)) held
      (log ++ [.markReversed id]) db n := by
  refine safe_postMovement
    (R := fun db n ↦ Inserts env held (log ++ [.markReversed id]) db n ∧
      (∀ id', .markReversed id' ∈ log →
        Reversed env held log (replay (S := schema env) db log).rows id') ∧
      ∃ r ∈ (replay (S := schema env) db log).rows,
        r.id = id ∧ r.tankId = orig.tankId ∧ r.movementType = orig.movementType)
    (fun hhd hlog hn hlv h ↦ ?_) ⟨h.toInserts.note rfl le_rfl, h.reversed, hrow⟩
    (fun _ _ _ _ ↦ trivial) fun m db' n' h hdrawn hins hopd ↦ hnext _ _ _ _ ?_
  · obtain ⟨r, hr, hsm⟩ := h.2.2
    have hrs : (replay (S := schema env) _ log).rows ⊆ (replay (S := schema env) _ log).rows :=
      rows_replay_subset hlv.rows log
    exact ⟨h.1.leaves hhd hlog hn hlv,
      fun id' hid ↦ (h.2.1 id' hid).mono hrs subset_rfl fun ho ↦ ho, r, hrs hr, hsm⟩
  · have hsub := subset_insert (tankKey env orig.contra.tankId) held
    have hrs : (replay (S := schema env) db' log).rows ⊆ (replay (S := schema env) db'
        (log ++ [.markReversed id] ++ [.insertMovement m])).rows := by
      rw [append_assoc]
      exact rows_subset_append db' log _
    refine ⟨(h.1.held_mono hsub).insert hdrawn hins (mem_insert _ _) hopd, fun id' hid ↦ ?_⟩
    rw [append_assoc] at hid
    rcases mem_append.mp hid with hid | hid
    · exact (h.2.1 id' hid).mono hrs hsub fun ho ↦ ho.append.append
    · obtain rfl : id' = id := by simpa using hid
      obtain ⟨r, hr, hrid, htk, hty⟩ := h.2.2
      refine ⟨r, hrs hr, hrid, htk ▸ mem_insert _ _, fun hop ↦ ⟨m, ?_, ?_, ?_⟩⟩
      · exact mem_logRows.mpr (mem_concat_self)
      · rw [insertMovement_movementType hins]
        exact hty.symm.trans hop
      · rw [insertMovement_sourceRefType hins]
        rfl

theorem safe_call_reverseMovement (h : Ready env held log db n) :
    (openingContract env).Safe (reverseMovement env id (orRollback env fun _ ↦ next)) held log db
      n := by
  refine safe_query fun db1 n1 hn1 hlv1 _ _ ws r hout ↦ ?_
  obtain ⟨rfl, -⟩ := Prod.mk.inj hout
  have h1 := h.leaves subset_rfl rfl (hn1.trans (le_succ n1)) hlv1
  rw [append_nil]
  rcases r with _ | _
  · exact safe_refused
  intro db2 n2 hn2 hlv2 _ _
  have h2 := (h1.leaves subset_rfl rfl hn2 hlv2).held_mono (subset_insert (.movement id) held)
  refine safe_query fun db3 n3 hn3 hlv3 _ _ ws r hout ↦ ?_
  have h3 := h2.leaves subset_rfl rfl (hn3.trans (le_succ n3)) hlv3
  have hout : loggedUpdate (.markReversed id) (Movement.reverse id)
    ((replay (S := schema env) db3 log).movements.find? fun m ↦ m.id = id ∧ m.status = .posted)
      = (ws, r) := hout
  rcases hfi : (replay (S := schema env) db3 log).movements.find?
    fun m ↦ m.id = id ∧ m.status = .posted with _ | m <;> rw [hfi] at hout <;> cases hout
  · rw [append_nil]
    exact safe_refused
  have hid : m.id = id ∧ m.status = .posted := by simpa using find?_some hfi
  refine safe_contra hnext h3 ⟨m.frozen, ?_, hid.1, ?_, ?_⟩
  · exact mem_map_of_mem (mem_of_find?_eq_some hfi)
  · exact (Movement.reverse_tankId id m).symm
  · exact (Movement.reverse_movementType id m).symm

/-! ### Transfers -/

omit hnext in
private theorem opened_replay_of_receipt (hp : inReceipt env l.prog) (hlv : Leaves env l db db')
    (h : (replay (S := schema env) db log).HasOpening tank) :
    (replay (S := schema env) db' log).HasOpening tank := by
  obtain ⟨m, hm, hop⟩ := h
  obtain ⟨hmem, htk⟩ := mem_filter.mp hm
  exact ⟨m, mem_filter.mpr
    ⟨mem_replay_of_isOpening (hlv.openings hp) hmem hop, htk⟩, hop⟩

omit hnext in
private theorem opened_append (h : (replay (S := schema env) db log).HasOpening tank) :
    (replay (S := schema env) db (log ++ [.insertMovement m])).HasOpening tank := by
  obtain ⟨x, hx, hop⟩ := h
  obtain ⟨hmem, htk⟩ := mem_filter.mp hx
  rw [replay_append]
  exact ⟨x, mem_filter.mpr ⟨mem_append_left _ hmem, htk⟩, hop⟩

/-- What a receipt knows from its order on: the log is ready, and both tanks have an opening. -/
structure Receives (env : Env) (t : Transfer) (held : Set LockKey) (log : List Write) (db : StockDb)
    (n : ℕ) : Prop extends Ready env held log db n where
  source : (replay (S := schema env) db log).HasOpening t.fromTankId
  target : (replay (S := schema env) db log).HasOpening t.toTankId

omit hnext in
theorem Receives.leaves (h : Receives env t held log db n) {p : Txn env} (hp : inReceipt env p)
    (hn : n ≤ n') (hlv : Leaves env ⟨held, log, p⟩ db db') :
    Receives env t held log db' n' where
  toReady := h.toReady.leaves subset_rfl rfl hn hlv
  source := opened_replay_of_receipt hp hlv h.source
  target := opened_replay_of_receipt hp hlv h.target

omit hnext in
theorem Receives.held_mono (h : Receives env t held log db n) (hhd : held ⊆ held') :
    Receives env t held' log db n :=
  { h with toReady := h.toReady.held_mono hhd }

omit hnext in
/-- Once both tanks are locked, the receipt does not depend on the others. -/
theorem Receives.locked_leaves (h : Receives env t held log db n)
    (hfrom : tankKey env t.fromTankId ∈ held) (hto : tankKey env t.toTankId ∈ held)
    (hhd : held ⊆ l.held) (hlog : l.log = log) (hn : n ≤ n') (hlv : Leaves env l db db') :
    Receives env t held log db' n' where
  toReady := h.toReady.leaves hhd hlog hn hlv
  source := (opened_replay_congr (hlv.ledger _ (hhd hfrom)) log).mpr h.source
  target := (opened_replay_congr (hlv.ledger _ (hhd hto)) log).mpr h.target

private theorem safe_legs (hfrom : tankKey env t.fromTankId ∈ held)
    (hto : tankKey env t.toTankId ∈ held) (h : Receives env t held log db n) :
    (openingContract env).Safe
      (insertRow env (t.leg t.fromTankId (-t.litres)) fun
        | .error e => orRollback env (fun _ : Transfer ↦ next) (.error e)
        | .ok out => insertRow env (t.leg t.toTankId t.litres) fun
          | .error e => orRollback env (fun _ : Transfer ↦ next) (.error e)
          | .ok inn => .query (.receiveTransfer t.id out.id inn.id) fun
            | none => orRollback env (fun _ : Transfer ↦ next) (.error .errNoRows)
            | some t' => orRollback env (fun _ : Transfer ↦ next) (.ok t')) held log db n := by
  refine safe_insertRow
    (fun hhd hlog hn hlv h ↦ Receives.locked_leaves h hfrom hto hhd hlog hn hlv) h
    (fun _ _ _ ↦ trivial) fun out db1 n1 h1 hdr1 hout ↦ ?_
  have h2 : Receives env t held (log ++ [.insertMovement out]) db1 (n1 + 1) :=
    ⟨h1.toReady.insert hdr1 hout hfrom fun _ ↦ h1.source, opened_append h1.source,
      opened_append h1.target⟩
  refine safe_insertRow
    (fun hhd hlog hn hlv h ↦ Receives.locked_leaves h hfrom hto hhd hlog hn hlv) h2
    (fun _ _ _ ↦ trivial) fun inn db3 n3 h3 hdr3 hinn ↦ ?_
  have h4 := h3.toReady.insert hdr3 hinn hto fun _ ↦ h3.target
  refine safe_query fun db5 n5 hn5 hlv5 _ _ ws r hupd ↦ ?_
  have h5 := h4.leaves subset_rfl rfl hn5 hlv5
  have hupd : loggedUpdate (.receiveTransfer t.id out.id inn.id) _ _ = (ws, r) := hupd
  rcases hfi : (replay (S := schema env) db5 _).transfers.find? (·.id = t.id) with _ | t' <;>
    rw [hfi] at hupd <;> cases hupd
  · trivial
  · exact hnext _ _ _ _ (h5.note rfl nofun (le_succ n5))

private theorem safe_postTransfer (h : Receives env t held log db n) :
    (openingContract env).Safe (postTransfer env t (orRollback env fun _ ↦ next)) held
      log db n := by
  obtain ⟨hfrom, hto⟩ := Set.pair_subset_iff.mp (tankKeys_mem env t held)
  intro db1 n1 hn1 hlv1 _ _
  have h1 := (h.leaves rfl hn1 hlv1).held_mono
    (subset_insert (.advisory (min (env.hash t.fromTankId) (env.hash t.toTankId))) held)
  intro db2 n2 hn2 hlv2 _ _
  have h2 := (h1.leaves rfl hn2 hlv2).held_mono
    (subset_insert (.advisory (max (env.hash t.fromTankId) (env.hash t.toTankId))) _)
  refine safe_query fun db3 n3 hn3 hlv3 _ _ ws r hout ↦ ?_
  obtain ⟨rfl, -⟩ := Prod.mk.inj hout
  have h3 := h2.locked_leaves hfrom hto subset_rfl rfl (hn3.trans (le_succ n3)) hlv3
  rw [append_nil]
  rcases r with _ | _
  · trivial
  · exact safe_legs hnext hfrom hto h3

theorem safe_call_receiveTransfer (h : Ready env held log db n) :
    (openingContract env).Safe (receiveTransfer env id (orRollback env fun _ ↦ next)) held log db
      n := by
  refine safe_query fun db1 n1 hn1 hlv1 _ _ ws r hout ↦ ?_
  obtain ⟨rfl, -⟩ := Prod.mk.inj hout
  have h1 := h.leaves subset_rfl rfl (hn1.trans (le_succ n1)) hlv1
  rw [append_nil]
  rcases r with _ | _
  · trivial
  intro db2 n2 hn2 hlv2 _ _
  have h2 := (h1.leaves subset_rfl rfl hn2 hlv2).held_mono (subset_insert (.transfer id) held)
  refine safe_query fun db3 n3 hn3 hlv3 _ hc ws r hout ↦ ?_
  have h3 := h2.leaves subset_rfl rfl (hn3.trans (le_succ n3)) hlv3
  have hout : ([], (replay (S := schema env) db3 log).transfers.find? (·.id = id)) = (ws, r) := hout
  obtain ⟨rfl, hfi⟩ := Prod.mk.inj hout
  rw [append_nil]
  rcases r with _ | t
  · trivial
  dsimp only
  split
  · trivial
  next hst =>
    have hopd := hc id rfl t hfi (by tauto)
    have hrec : Receives env t _ log db3 (n3 + 1) := ⟨h3, hopd.1, hopd.2⟩
    refine safe_query fun db4 n4 hn4 hlv4 _ _ ws r hout ↦ ?_
    obtain ⟨rfl, -⟩ := Prod.mk.inj hout
    have h4 := hrec.leaves rfl (hn4.trans (le_succ n4)) hlv4
    rw [append_nil]
    rcases r with _ | fromProduct
    · trivial
    refine safe_query fun db5 n5 hn5 hlv5 _ _ ws r hout ↦ ?_
    obtain ⟨rfl, -⟩ := Prod.mk.inj hout
    have h5 := h4.leaves rfl (hn5.trans (le_succ n5)) hlv5
    rw [append_nil]
    rcases r with _ | toProduct
    · trivial
    dsimp only
    split
    · trivial
    exact safe_postTransfer hnext h5

omit hnext in
theorem safe_callAll (calls : List Call) (h : Ready env held log db n) :
    (openingContract env).Safe (callAll env calls) held log db n := by
  induction calls generalizing held log db n with
  | nil =>
    intro db' n' hn hlv hdrawn _
    have h' := h.leaves subset_rfl rfl hn hlv
    exact ⟨h'.owes hdrawn _, h'.drawn hdrawn, h'.first⟩
  | cons c calls ih =>
    have hnext : ∀ held log db n, Ready env held log db n →
        (openingContract env).Safe (callAll env calls) held log db n := fun _ _ _ _ h ↦ ih h
    cases c with
    | postMovement input => exact safe_call_postMovement hnext h
    | setOpeningBalance input => exact safe_call_setOpeningBalance hnext h
    | reverseMovement id => exact safe_call_reverseMovement hnext h
    | postWriteOff tank recon litres => exact safe_call_postWriteOff hnext h
    | receiveTransfer id => exact safe_call_receiveTransfer hnext h

end Rules

/-! ## Every run -/

/-- In every interleaving of transactions that open tanks, post, reverse, write off and transfer
stock, if transfers are received between opened tanks, then every committed row of a delivery, a
sale or a transfer comes after the opening of its tank. -/
theorem openingLaw_of_transfersOpened {env : Env} {T : Type} [DecidableEq T] (calls : T → List Call)
    {db₀ : StockDb} {n₀ : ℕ} (h₀ : Drawn db₀ n₀) {s : State (schema env) T}
    (h : Reach (TransfersOpened env) (State.init db₀ n₀ fun t ↦ callAll env (calls t)) s) :
    OpeningLaw s :=
  (Contract.sound (openingContract_suits env) h₀ (fun _ ↦ safe_callAll _ ready_nil)
    (h.strengthen fun hrch ↦ distinct_of_reach (drawsStamp_rowIds env) hrch)).2

def approvedOrder : Transfer where
  id := 40
  fromTankId := 1
  toTankId := 2
  productId := 1
  litres := 5000
  status := .approved
  outMovementId := none
  inMovementId := none
  litres_pos := by decide
  tanks_ne := by decide

/-- Tank 1 is opened with 10.000 and tank 2 too if `both`. Then the order is received. -/
def openAndReceive (both : Bool) : Bool → List Call
  | false =>
    .setOpeningBalance ⟨1, 10, none⟩ :: if both then [.setOpeningBalance ⟨2, 0, none⟩] else []
  | true => [.receiveTransfer 40]

private theorem drawn_empty (transfers : List Transfer) :
    Drawn { StockDb.empty with transfers } 1 :=
  ⟨nodup_nil, nofun⟩

/-- Tank 2 receives the transfer and was never opened. -/
theorem not_openingLaw_of_transfer :
    ∃ s : State (schema .plain) Bool,
      Reach (fun _ _ ↦ True)
        (State.init { StockDb.empty with transfers := [approvedOrder] } 1
          fun t ↦ callAll .plain (openAndReceive false t)) s ∧
      ¬OpeningLaw s :=
  exists_of_runs (turns [(false, 4), (true, 12)]) (by decide +kernel)

/-- With both tanks opened, the receipt is admitted and commits its two rows. -/
theorem openingLaw_of_transfersOpened_received :
    ∃ s : State (schema .plain) Bool,
      Reach (TransfersOpened .plain)
        (State.init { StockDb.empty with transfers := [approvedOrder] } 1
          fun t ↦ callAll .plain (openAndReceive true t)) s ∧
      s.db.movements.length = 4 ∧ OpeningLaw s := by
  refine exists_and_imp (fun s ↦ s.db.movements.length = 4)
    (exists_of_runs (turns [(false, 7), (true, 12)]) (by decide +kernel)) ?_
  rintro _ hs hlen
  exact ⟨hlen, openingLaw_of_transfersOpened _ (drawn_empty _) hs⟩

end FuelGrid.Stock
