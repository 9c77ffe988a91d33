import FuelGrid.Expenses.Handlers

/-!
# Petty cash and its account

Every transaction of a float is journaled, "so the float can never drift from the GL". The floats
and the account `petty_cash` are moved by the same amounts as long as

* amounts are whole cents: the float is rounded after the addition and the journal line before it;
* the other side of an entry is not `petty_cash` itself, which a spend can name as its account, and
  no expense is charged to or paid from `petty_cash`: posting an expense moves no float;
* nobody moves a float while it is being counted: `ReconcileFloat` reads the balance without a lock,
  posts the difference to that balance and then overwrites whatever the balance is.
-/

namespace FuelGrid.Expenses

open Sql
open Accounting (netOn netOn_append netOn_nil netOn_amountPair)

/-- The floats hold together what the entries leave on the account of petty cash. -/
def PettyLaw (chart : Chart) (db : ExpensesDb) : Prop :=
  ∀ account, chart.systemAccount "petty_cash" = some account →
    (db.floats.map (·.balance)).sum = netOn db.ledger.lines account

/-- The law, on floats whose balances are numbers. -/
structure Level (chart : Chart) (db : ExpensesDb) : Prop where
  keyed : (db.floats.map (·.id)).Nodup
  finite : ∀ f ∈ db.floats, f.balance ≠ ⊤
  law : PettyLaw chart db

def ExpensesDb.float? (db : ExpensesDb) (id : Uuid) : Option PettyFloat :=
  db.floats.find? (·.id = id)

/-! ## What a log moves -/

def Write.balance? : Write → Option (Uuid × Money)
  | .setBalance id balance => some (id, balance)
  | _ => none

def Write.line? : Write → Option JournalLine
  | .ledger w => w.line?
  | _ => none

def WritesFloat (id : Uuid) (log : List Write) : Prop :=
  id ∈ (log.filterMap Write.balance?).map Prod.fst

instance (id : Uuid) (log : List Write) : Decidable (WritesFloat id log) :=
  inferInstanceAs (Decidable (id ∈ (log.filterMap Write.balance?).map Prod.fst))

variable {row : PettyFloat}

section Replay

variable {env : Env} {db : ExpensesDb} {log : List Write} {id : Uuid} {balance : Money}

theorem lines_replay (db : ExpensesDb) (log : List Write) :
    (replay (S := schema env) db log).ledger.lines =
      db.ledger.lines ++ log.filterMap Write.line? := by
  refine replay_rows (S := schema env) (fun db ↦ db.ledger.lines) Write.line? (fun db w ↦ ?_) db log
  rcases w with _ | _ | _ | _ | _ | _ | w
  case ledger =>
    have hlns := @Accounting.lines_replay_eq env.chart db.ledger [w]
    exact hlns
  all_goals exact (append_nil _).symm

private theorem floats_replay (db : ExpensesDb) (log : List Write) :
    (replay (S := schema env) db log).floats
      = (log.filterMap Write.balance?).foldl (fun floats m ↦ setFloat m.1 m.2 floats)
          db.floats := by
  induction log generalizing db with
  | nil => rfl
  | cons w ws ih =>
    rw [replay_cons, ih]
    rcases w with _ | _ | _ | _ | _ | _ | _ <;> rfl

private theorem find?_setFloat_of_ne {id' : Uuid} (hne : id ≠ id') (floats : List PettyFloat) :
    (setFloat id' balance floats).find? (·.id = id) = floats.find? (·.id = id) := by
  induction floats with
  | nil => rfl
  | cons f floats ih =>
    rw [setFloat, map_cons, ← setFloat]
    by_cases hf : f.id = id'
    · have hid : f.id ≠ id := fun h ↦ hne (h.symm.trans hf)
      rw [if_pos hf, List.find?_cons_of_neg (by simpa using hid),
        List.find?_cons_of_neg (by simpa using hid), ih]
    · rw [if_neg hf, List.find?_cons, List.find?_cons, ih]

private theorem float?_replay (h : ¬WritesFloat id log) :
    (replay (S := schema env) db log).float? id = db.float? id := by
  rw [ExpensesDb.float?, floats_replay, ExpensesDb.float?]
  rw [WritesFloat] at h
  generalize db.floats = floats
  generalize log.filterMap Write.balance? = moves at h ⊢
  induction moves generalizing floats with
  | nil => rfl
  | cons m ms ih =>
    rw [map_cons, mem_cons, not_or] at h
    rw [foldl_cons, ih _ h.2, find?_setFloat_of_ne h.1]

private theorem ids_setFloat (floats : List PettyFloat) :
    (setFloat id balance floats).map (·.id) = floats.map (·.id) := by
  refine map_map.trans (map_congr_left fun f _ ↦ ?_)
  rw [comp_apply]
  split <;> rfl

private theorem sum_setFloat {floats : List PettyFloat} (hkd : (floats.map (·.id)).Nodup)
    (hrow : row ∈ floats) : ((setFloat row.id balance floats).map (·.balance)).sum + row.balance
      = (floats.map (·.balance)).sum + balance := by
  have hset : setFloat row.id balance floats
      = floats.map fun f ↦ if f.id = row.id then { row with balance } else f := by
    refine map_congr_left fun f hf ↦ ?_
    split
    next hid => rw [inj_on_of_nodup_map hkd hf hrow hid]
    · rfl
  have hsum : ∀ new : PettyFloat, row.id = new.id →
      ((floats.map fun f ↦ if f.id = new.id then new else f).map (·.balance)).sum + row.balance
        = (floats.map (·.balance)).sum + new.balance :=
    fun new hid ↦ sum_update hkd hrow hid (·.balance)
  rw [hset]
  exact hsum { row with balance } rfl

end Replay

/-! ## What a transaction owes at its commit -/

/-- What the log does to the floats, it does to the account. A float that it moves is locked. -/
inductive Settled (chart : Chart) (held : Set LockKey) (log : List Write)
    (db : ExpensesDb) : Prop
  | untouched (hlog : log.filterMap Write.balance? = [])
      (hnet : ∀ account, chart.systemAccount "petty_cash" = some account →
        netOn (log.filterMap Write.line?) account = 0)
  | moved {id : Uuid} {row : PettyFloat} {balance : ℤ}
      (hlog : log.filterMap Write.balance? = [(id, (balance : Money))])
      (hheld : .float id ∈ held) (hrow : db.float? id = some row)
      (hnet : ∀ account, chart.systemAccount "petty_cash" = some account →
        row.balance + netOn (log.filterMap Write.line?) account = balance)

section Settled

variable {env : Env} {chart : Chart} {held : Set LockKey} {log : List Write}
  {db db' : ExpensesDb}

theorem Settled.stable (h : Settled chart held log db)
    (hsm : ∀ id, .float id ∈ held → db'.float? id = db.float? id) : Settled chart held log db' := by
  cases h with
  | untouched hlog hnet => exact .untouched hlog hnet
  | moved hlog hhd hrow hnet => exact .moved hlog hhd ((hsm _ hhd).trans hrow) hnet

theorem Settled.append {ws : List Write} (h : Settled chart held log db)
    (hws : ∀ w ∈ ws, w.balance? = none ∧ w.line? = none) : Settled chart held (log ++ ws) db := by
  have hbal : (log ++ ws).filterMap Write.balance? = log.filterMap Write.balance? := by
    rw [filterMap_append, filterMap_eq_nil_iff.mpr fun w hw ↦ (hws w hw).1, append_nil]
  have hln : (log ++ ws).filterMap Write.line? = log.filterMap Write.line? := by
    rw [filterMap_append, filterMap_eq_nil_iff.mpr fun w hw ↦ (hws w hw).2, append_nil]
  cases h with
  | untouched hlog hnet => exact .untouched (hbal.trans hlog) (hln.symm ▸ hnet)
  | moved hlog hhd hrow hnet => exact .moved (hbal.trans hlog) hhd hrow (hln.symm ▸ hnet)

theorem Settled.locked (h : Settled chart held log db) {id : Uuid} (hid : WritesFloat id log) :
    .float id ∈ held := by
  cases h with
  | untouched hlog _ =>
    rw [WritesFloat, hlog] at hid
    cases hid
  | moved hlog hhd _ _ =>
    rw [WritesFloat, hlog] at hid
    rwa [mem_singleton.mp hid]

theorem Level.replay (h : Level env.chart db) (hs : Settled env.chart held log db) :
    Level env.chart (replay (S := schema env) db log) := by
  cases hs with
  | untouched hlog hnet =>
    have hflo : (Sql.replay (S := schema env) db log).floats = db.floats := by
      rw [floats_replay, hlog, List.foldl_nil]
    refine ⟨hflo ▸ h.keyed, hflo ▸ h.finite, fun account haccount ↦ ?_⟩
    rw [hflo, lines_replay, netOn_append, hnet account haccount, add_zero]
    exact h.law account haccount
  | @moved id row balance hlog _ hrow hnet =>
    obtain ⟨hmem, rfl⟩ := key_of_find? hrow
    have hflo : (Sql.replay (S := schema env) db log).floats =
        setFloat row.id balance db.floats := by
      rw [floats_replay, hlog, foldl_cons, List.foldl_nil]
    refine ⟨?_, fun f hf ↦ ?_, fun account haccount ↦ ?_⟩
    · rw [hflo, ids_setFloat]
      exact h.keyed
    · rw [hflo] at hf
      obtain ⟨g, hg, rfl⟩ := mem_map.mp hf
      split
      · exact WithTop.coe_ne_top
      · exact h.finite g hg
    · rw [hflo, lines_replay, netOn_append]
      refine WithTop.add_right_cancel (h.finite row hmem) ?_
      calc ((setFloat row.id balance db.floats).map (·.balance)).sum + row.balance
        _ = (db.floats.map (·.balance)).sum + balance := sum_setFloat h.keyed hmem
        _ = netOn db.ledger.lines account
              + (row.balance + netOn (log.filterMap Write.line?) account) := by
            rw [h.law account haccount, hnet account haccount]
        _ = _ := by rw [add_comm row.balance, add_assoc]

end Settled

/-! ## Interleavings

Who has locked a float or is counting it can rely on its row. -/

section Contract

variable (env : Env)

/-- The float of a count that has read the balance and does not have the row. -/
def inCount? : Txn env → Option Uuid
  | .query (.insertCount floatId _ _ _) _ => some floatId
  | .lock (.float floatId) (.query (.setBalance _ _) _) => some floatId
  | _ => none

/-- The first transaction moves a float that the second is counting. -/
def MovesCounted (l l' : Local (schema env)) : Prop :=
  ∃ id ∈ inCount? env l'.prog, WritesFloat id l.log

instance (l l' : Local (schema env)) : Decidable (MovesCounted env l l') :=
  inferInstanceAs (Decidable (∃ id ∈ inCount? env l'.prog, _))

def posting? : Txn env → Option Uuid
  | .query (.getExpense id) _ => some id
  | _ => none

/-- One of the two lines of the expense is on petty cash. -/
def Expense.OnPettyCash (e : Expense) : Prop :=
  e.accountKey = "petty_cash" ∨ e.paymentMode = .pettyCash
  deriving Decidable

/-- The expense that is posted, if it is one that can be, is not on petty cash. -/
def PostsElsewhere (l : Local (schema env)) (db : ExpensesDb) : Prop :=
  ∀ id ∈ posting? env l.prog, ∀ e ∈ db.expenses.find? (·.id = id), e.status = .approved →
    ¬e.OnPettyCash
  deriving Decidable

def pettyContract : Contract (schema env) where
  inv db _ := Level env.chart db
  rely l db db' := ∀ id, .float id ∈ l.held ∨ id ∈ inCount? env l.prog →
    db'.float? id = db.float? id
  cond l db _ := PostsElsewhere env l db
  guar l _ _ := ∀ id, WritesFloat id l.log → .float id ∈ l.held
  post _ _ _ := True
  inv_tick h := h
  rely_refl _ _ _ _ := rfl
  rely_trans h h' id hid := (h' id hid).trans (h id hid)

/-- Nobody moves a float that another one is counting, and no expense on petty cash is posted. -/
def CountsApart {T : Type} (s : State (schema env) T) (a : Act T) : Prop :=
  s.Apart (MovesCounted env) a ∧ s.Acting (PostsElsewhere env) a

instance {T : Type} [DecidableEq T] [Fintype T] (s : State (schema env) T) (a : Act T) :
    Decidable (CountsApart env s a) :=
  inferInstanceAs (Decidable (_ ∧ _))

theorem pettyContract_suits {T : Type} :
    Contract.Suits (T := T) (pettyContract env) (CountsApart env) where
  cond hC hp := hC.2.of_prog hp
  compat {s t a u p} hC hp _ hguar hne hu := by
    intro id hid
    refine float?_replay fun hwri ↦ ?_
    rcases hid with hhd | hcnt
    · exact hne (eq_of_held rfl hhd (hguar id hwri))
    · exact hC.1.not_clash hp hne hu ⟨id, hcnt, hwri⟩

end Contract

section Rules

variable {env : Env} {held : Set LockKey} {log : List Write} {db : ExpensesDb} {n : ℕ}
  {a : ExpensesResult} {chart : Chart} {account id : Uuid} {key : String}
  {lines : List JournalLine} {amount balance : Money} {req : TransactionRequest}
  {type : TxnType} {c x now : ℤ} {rec : CountReply}

theorem safe_commit (h : Settled env.chart held log db) :
    (pettyContract env).Safe (commit a) held log db n := by
  refine safe_reply rfl fun db1 n1 hr1 _ r _ ↦ ?_
  rcases r with e | _
  · trivial
  intro db2 n2 _ hr2 hinv _
  have h1 := h.stable fun id hid ↦ hr1 id (.inl hid)
  have h2 := h1.stable fun id hid ↦ hr2 id (.inl hid)
  exact ⟨fun id hid ↦ h.locked hid, hinv.replay h2, trivial⟩

private theorem safe_link {q : Query}
    (hq : ∀ committed view n, ∀ w ∈ (exec env q committed view n).1,
      w.balance? = none ∧ w.line? = none) (h : Settled env.chart held log db) :
    (pettyContract env).Safe (.query q fun _ ↦ commit a) held log db n := by
  refine safe_query fun db1 n1 _ hr _ _ ws r hout ↦ safe_commit ?_
  have h1 := h.stable fun id hid ↦ hr id (.inl hid)
  have hws : ∀ w ∈ ((schema env).exec q db1 (replay db1 log) n1).1,
      w.balance? = none ∧ w.line? = none := hq db1 (replay db1 log) n1
  rw [hout] at hws
  exact h1.append hws

def entryWrites (e : PostedEntry) : List Write :=
  (Accounting.Write.insertEntry e.entry :: e.lines.map .insertLine).map .ledger

private theorem balance?_entryWrites (e : PostedEntry) :
    (entryWrites e).filterMap Write.balance? = [] := by
  rw [entryWrites, filterMap_map]
  exact filterMap_eq_nil_iff.mpr fun _ _ ↦ rfl

private theorem line?_entryWrites (e : PostedEntry) :
    (entryWrites e).filterMap Write.line? = e.lines := by
  rw [entryWrites, filterMap_map, List.filterMap_cons_none rfl, filterMap_map]
  exact List.filterMap_some

/-- A float is moved, and then an entry posted that moves the account by the same amount. -/
theorem Settled.entry {e : PostedEntry} {balance : ℤ}
    (hlog : log.filterMap Write.balance? = [(id, (balance : Money))])
    (hlns : log.filterMap Write.line? = []) (hhd : .float id ∈ held)
    (hrow : db.float? id = some row)
    (hnet : ∀ account, chart.systemAccount "petty_cash" = some account →
      row.balance + netOn e.lines account = balance) :
    Settled chart held (log ++ entryWrites e) db := by
  have hbal : (log ++ entryWrites e).filterMap Write.balance? = [(id, (balance : Money))] := by
    rw [filterMap_append, balance?_entryWrites, append_nil, hlog]
  refine .moved hbal hhd hrow fun account haccount ↦ ?_
  rw [filterMap_append, line?_entryWrites, hlns, nil_append]
  exact hnet account haccount

/-- To go past `PostEntry`, take the entry with its lines as given. Locked floats have not moved. -/
theorem safe_postEntry {input : PostEntryInput} {k : PostedEntry → Txn env}
    (hk : ∀ held' e db' n', held ⊆ held' → (∀ id, .float id ∈ held → db'.float? id = db.float? id) →
      Forall₂ (PostedLine env.chart e.entry.id) input.lines e.lines →
      (pettyContract env).Safe (k e) held' (log ++ entryWrites e) db' n') :
    (pettyContract env).Safe (post input now k) held log db n := by
  refine Contract.safe_call
    (R := fun (db' : ExpensesDb) _ ↦ ∀ id, .float id ∈ held → db'.float? id = db.float? id)
    (fun {l db1 db2 _ _} hsub _ hr h id hid ↦ (hr id (.inl (hsub hid))).trans (h id hid))
    (fun _ _ ↦ rfl) (Accounting.answers_postCall input now) fun held' ws r db' n' hsub hsm hW ↦ ?_
  rcases r with e | a
  · trivial
  · obtain ⟨e, hent, rfl, hlns⟩ := hW
    rw [answerEntry, hent]
    exact hk held' e db' n' hsub hsm hlns

/-! ### Transactions of a float -/

section Net

variable (haccount : chart.systemAccount "petty_cash" = some account) (hkey : key ≠ "petty_cash")
  {entry : Uuid}

include haccount hkey

theorem systemAccount_ne : chart.systemAccount key ≠ some account := fun h ↦
  hkey (Accounting.Chart.systemKey_eq h haccount)

private theorem netOn_debit
    (h : Forall₂ (PostedLine chart entry) (amountPair "petty_cash" key amount none) lines) :
    netOn lines account = amount := by
  rw [netOn_amountPair h, if_pos haccount, if_neg (systemAccount_ne haccount hkey), add_zero]

private theorem netOn_credit
    (h : Forall₂ (PostedLine chart entry) (amountPair key "petty_cash" amount none) lines) :
    netOn lines account = -amount := by
  rw [netOn_amountPair h, if_pos haccount, if_neg (systemAccount_ne haccount hkey), zero_add]

end Net

/-- The amount is of whole cents, and a spend is charged to another account. -/
structure TransactionRequest.Plain (req : TransactionRequest) : Prop where
  whole : req.amount.Whole 2
  number : req.amount ≠ .nan
  elsewhere : req.txnType = some .spend → spendKey req.accountKey ≠ "petty_cash"

instance (req : TransactionRequest) : Decidable req.Plain :=
  decidable_of_iff (req.amount.Whole 2 ∧ req.amount ≠ .nan ∧
    (req.txnType = some .spend → spendKey req.accountKey ≠ "petty_cash"))
    ⟨fun h ↦ ⟨h.1, h.2.1, h.2.2⟩, fun h ↦ ⟨h.whole, h.number, h.elsewhere⟩⟩

/-- The lines of a transaction leave on petty cash what its float is moved by. -/
theorem netOn_transaction {entry : Uuid}
    (haccount : env.chart.systemAccount "petty_cash" = some account)
    (hamt : req.amount = .ofUnits 2 amount)
    (hspe : type = .spend → spendKey req.accountKey ≠ "petty_cash")
    (h : Forall₂ (PostedLine env.chart entry) (req.lines type) lines) :
    netOn lines account = if type.increases then amount else -amount := by
  cases type <;> rw [TransactionRequest.lines, hamt] at h
  case topup => exact netOn_debit haccount (by decide) h
  case spend => exact netOn_credit haccount (hspe rfl) h
  case reimbursement => exact netOn_debit haccount (by decide) h
  case adjustment => exact netOn_debit haccount (by decide) h
  case transfer => exact netOn_credit haccount (by decide) h

private theorem moveBalance_eq_some {amount : Numeric} {overdraw : Bool}
    (h : moveBalance db id type amount overdraw = .ok (some balance)) :
    ∃ row, db.float? id = some row ∧
      (.ofUnits 2 row.balance + if type.increases then amount else -amount : Numeric).store 14 2
        = some balance := by
  unfold moveBalance at h
  rcases hrow : db.floats.find? (·.id = id) with _ | row <;> rw [hrow] at h
  · cases h
  dsimp only at h
  generalize hmov : (.ofUnits 2 row.balance + if type.increases then amount else -amount : Numeric)
    = moved at h
  split at h
  · rcases hsto : moved.store 14 2 with _ | stored <;> rw [hsto] at h <;> cases h
    exact ⟨row, hrow, hmov ▸ hsto⟩
  · cases h

private theorem insertTransaction_amount {input : TransactionInput} {t : PettyTransaction}
    (h : insertTransaction db n input = .ok t) : input.amount.store 14 2 = some t.amount := by
  unfold insertTransaction at h
  rcases hsto : input.amount.store 14 2 with _ | amount <;> rw [hsto] at h
  · cases h
  dsimp only at h
  split at h
  · split at h <;> cases h
    rfl
  · cases h

private theorem exists_cents {x : Numeric} {u : Money} (hwh : x.Whole 2) (hnum : x ≠ .nan)
    (h : x.store 14 2 = some u) : ∃ c : ℤ, u = c ∧ x = .ofUnits 2 (c : Money) := by
  obtain ⟨_, c, -, -, rfl⟩ := Numeric.store_eq_some hnum h
  exact ⟨c, rfl, hwh.eq_ofUnits h⟩

private theorem moved_cents {b : ℤ}
    (h : (.ofUnits 2 (b : Money) + if type.increases then .ofUnits 2 (c : Money)
      else -.ofUnits 2 (c : Money) : Numeric).store 14 2 = some balance) :
    balance = ((b + if type.increases then c else -c : ℤ) : Money) := by
  split at h
  next hi =>
    rw [ofUnits_add] at h
    rw [if_pos hi]
    exact store_ofUnits h
  next hi =>
    rw [ofUnits_neg, ofUnits_add] at h
    rw [if_neg hi]
    exact store_ofUnits h

private theorem safe_recordMoved (hreq : req.Plain) (hty : req.txnType = some type)
    (hhd : .float req.floatId ∈ held) (hrow : db.float? req.floatId = some row)
    (hfin : row.balance ≠ ⊤)
    (hmov : (.ofUnits 2 row.balance + if type.increases then req.amount else -req.amount
      : Numeric).store 14 2 = some balance) :
    (pettyContract env).Safe (recordMoved env req type balance) held
      [.setBalance req.floatId balance]
      db n := by
  refine safe_query fun db1 n1 _ hr1 _ _ ws r hout ↦ ?_
  obtain ⟨e, -, rfl, rfl⟩ | ⟨t, hins, rfl, rfl⟩ := logged_eq hout
  · trivial
  obtain ⟨c, -, hamt⟩ := exists_cents hreq.whole hreq.number (insertTransaction_amount hins)
  obtain ⟨b, hb⟩ := WithTop.ne_top_iff_exists.mp hfin
  rw [hamt, ← hb] at hmov
  obtain rfl := moved_cents hmov
  refine safe_postEntry fun held2 e db2 n2 hsub hsm hlns ↦ ?_
  have hrow2 : db2.float? req.floatId = some row := by
    rw [hsm _ hhd, hr1 _ (.inl hhd), hrow]
  refine safe_link (fun _ _ _ w hw ↦ by
    obtain ⟨x, -, rfl⟩ := map_eq_some_iff.mp (mem_toList.mp hw)
    exact ⟨rfl, rfl⟩)
    (.entry rfl rfl (hsub hhd) hrow2 fun account haccount ↦ ?_)
  rw [netOn_transaction haccount hamt (fun hspe ↦ hreq.elsewhere (hspe ▸ hty)) hlns, ← hb]
  split <;> rfl

private theorem safe_transaction (hreq : req.Plain) :
    (pettyContract env).Safe (handlePettyCashTransaction env req) held [] db n := by
  unfold handlePettyCashTransaction
  rcases hty : req.txnType with _ | type
  · trivial
  dsimp only
  split
  · trivial
  split
  · trivial
  refine safe_reply rfl ?_
  rintro db1 n1 _ _ (_ | status) _
  · trivial
  dsimp only
  split
  · trivial
  intro db2 n2 _ _ _ _
  refine safe_query fun db3 n3 _ _ hinv _ ws r hout ↦ ?_
  obtain ⟨e, -, rfl, rfl⟩ | ⟨-, rfl, rfl⟩ | ⟨balance, hmove, rfl, rfl⟩ := loggedRow_eq hout
  · trivial
  · trivial
  obtain ⟨row, hrow, hsto⟩ := moveBalance_eq_some hmove
  exact safe_recordMoved hreq hty (mem_insert _ _) hrow
    (hinv.finite row (key_of_find? hrow).1) hsto

/-! ### Counts -/

private theorem greatestZero_ofUnits (u : ℤ) :
    greatestZero (.ofUnits 2 (u : Money)) = .ofUnits 2 ((max u 0 : ℤ) : Money) := by
  have hle : ofUnits 2 (u : Money) ≤ .ofUnits 2 0 ↔ u ≤ 0 :=
    Numeric.ofUnits_le_ofUnits.trans WithTop.coe_le_coe
  unfold greatestZero
  rw [← ofUnits_zero 2]
  by_cases hu : u ≤ 0
  · rw [if_pos (hle.mpr hu), max_eq_right hu]
    rfl
  · rw [if_neg (hle.not.mpr hu), max_eq_left (not_le.mp hu).le]

structure CountRequest.Plain (req : CountRequest) : Prop where
  whole : req.counted.Whole 2
  number : req.counted ≠ .nan

instance (req : CountRequest) : Decidable req.Plain :=
  decidable_of_iff (req.counted.Whole 2 ∧ req.counted ≠ .nan)
    ⟨fun h ↦ ⟨h.1, h.2⟩, fun h ↦ ⟨h.whole, h.number⟩⟩

/-- What the insert of a count of `c` cents returns when `x` cents were expected. -/
structure Counted (x c : ℤ) (rec : CountReply) : Prop where
  bound : |c - x| < 10 ^ 14
  short : rec.shortAmount = .ofUnits 2 ((max (x - c) 0 : ℤ) : Money)
  surplus : rec.overAmount = .ofUnits 2 ((max (c - x) 0 : ℤ) : Money)

private theorem insertCount_eq_ok {floatId reconciledBy : Uuid} {counted : Numeric}
    (hwh : counted.Whole 2) (hnum : counted ≠ .nan)
    (h : insertCount db n floatId x counted reconciledBy = .ok rec) :
    ∃ c : ℤ, counted = .ofUnits 2 (c : Money) ∧ Counted x c rec := by
  unfold insertCount at h
  split at h
  next countedCash variance hcash hvar =>
    obtain ⟨c, -, rfl⟩ := exists_cents hwh hnum hcash
    have hover : (.ofUnits 2 (c : Money) + -.ofUnits 2 (x : Money) : Numeric)
        = .ofUnits 2 ((c - x : ℤ) : Money) := by
      rw [ofUnits_neg, ofUnits_add, sub_eq_add_neg]
      rfl
    have hsho : (.ofUnits 2 (x : Money) + -.ofUnits 2 (c : Money) : Numeric)
        = .ofUnits 2 ((x - c : ℤ) : Money) := by
      rw [ofUnits_neg, ofUnits_add, sub_eq_add_neg]
      rfl
    rw [hover] at hvar h
    rw [hsho] at h
    split at h <;> cases h
    refine ⟨c, rfl, ?_, greatestZero_ofUnits _, greatestZero_ofUnits _⟩
    obtain ⟨v, hv, hvar'⟩ := map_eq_some_iff.mp hvar
    have huni : (((c - x : ℤ) : ℚ) / 10 ^ 2) * 10 ^ 2 = (c - x : ℤ) :=
      div_mul_cancel₀ _ (by norm_num)
    have hbou := abs_lt_of_store hv
    rw [huni] at hbou
    exact_mod_cast hbou
  · cases h

theorem Counted.lines_eq (h : Counted x c rec) : rec.lines env
      = if c < x then amountPair "cash_over_short" "petty_cash" ((x - c : ℤ) : Money) none
        else if x < c then amountPair "petty_cash" "cash_over_short" ((c - x : ℤ) : Money) none
        else [] := by
  have hz : ∀ u : ℤ, |u| < 10 ^ 14 →
      env.isZeroMoney (.ofUnits 2 ((max u 0 : ℤ) : Money)) = decide (max u 0 = 0) := by
    intro u hu
    refine env.isZeroMoney_ofUnits _ (lt_of_le_of_lt ?_ hu)
    rw [abs_of_nonneg (le_max_right u 0)]
    exact max_le (le_abs_self u) (abs_nonneg u)
  have hsho := hz (x - c) (abs_sub_comm c x ▸ h.bound)
  rw [CountReply.lines, h.short, h.surplus, hsho, hz _ h.bound]
  rcases lt_trichotomy c x with hlt | rfl | hgt
  · have hmax : max (x - c) 0 = x - c := max_eq_left (by omega)
    have hne : x - c ≠ 0 := by omega
    rw [hmax, if_pos hlt, decide_eq_false hne]
    rfl
  · rw [sub_self, max_self, if_neg (lt_irrefl c), if_neg (lt_irrefl c)]
    rfl
  · have hmin : max (x - c) 0 = 0 := max_eq_right (by omega)
    have hmax : max (c - x) 0 = c - x := max_eq_left (by omega)
    have hne : c - x ≠ 0 := by omega
    rw [hmin, hmax, if_neg hgt.not_gt, if_pos hgt, decide_eq_false hne]
    rfl

/-- The lines of a count leave on petty cash what was counted above the expectation. -/
theorem Counted.netOn_eq (h : Counted x c rec) {entry : Uuid}
    (haccount : env.chart.systemAccount "petty_cash" = some account)
    (hlns : Forall₂ (PostedLine env.chart entry) (rec.lines env) lines) :
    (x : Money) + netOn lines account = c := by
  rw [h.lines_eq] at hlns
  rcases lt_trichotomy c x with hlt | rfl | hgt
  · rw [if_pos hlt] at hlns
    rw [netOn_credit haccount (by decide) hlns]
    exact congrArg ((↑) : ℤ → Money) (show x + -(x - c) = c by omega)
  · rw [if_neg (lt_irrefl c), if_neg (lt_irrefl c)] at hlns
    rw [forall₂_nil_left_iff.mp hlns, netOn_nil, add_zero]
  · rw [if_neg hgt.not_gt, if_pos hgt] at hlns
    rw [netOn_debit haccount (by decide) hlns]
    exact congrArg ((↑) : ℤ → Money) (show x + (c - x) = c by omega)

private theorem safe_postVariance {req : CountRequest} (hctd : Counted x c rec)
    (hx : row.balance = x)
    (hhd : .float req.floatId ∈ held) (hrow : db.float? req.floatId = some row) :
    (pettyContract env).Safe (postVariance env req rec) held
      [.insertCount rec.row, .setBalance req.floatId (c : Money)] db n := by
  unfold postVariance
  split
  next hno =>
    refine safe_commit (.moved rfl hhd hrow fun account haccount ↦ ?_)
    have hnil : Forall₂ (PostedLine env.chart 0) (rec.lines env) [] := hno ▸ .nil
    rw [hx]
    exact hctd.netOn_eq haccount hnil
  · refine safe_postEntry fun held2 e db2 n2 hsub hsm hlns ↦ ?_
    have hrow2 : db2.float? req.floatId = some row := (hsm _ hhd).trans hrow
    refine safe_link (fun _ _ _ w hw ↦ by
      obtain ⟨x, -, rfl⟩ := map_eq_some_iff.mp (mem_toList.mp hw)
      exact ⟨rfl, rfl⟩)
      (.entry rfl rfl (hsub hhd) hrow2 fun account haccount ↦ ?_)
    rw [hx]
    exact hctd.netOn_eq haccount hlns

private theorem safe_reconcile {req : CountRequest} (hreq : req.Plain) :
    (pettyContract env).Safe (handleReconcilePettyCash env req) held [] db n := by
  unfold handleReconcilePettyCash
  split
  · trivial
  split
  · trivial
  refine safe_reply rfl fun db1 n1 _ hinv expected hexp ↦ ?_
  have hexp : (db1.float? req.floatId).map (·.balance) = expected := hexp
  rcases expected with _ | expected
  · trivial
  obtain ⟨row, hrow, rfl⟩ := map_eq_some_iff.mp hexp
  obtain ⟨x, hx⟩ := WithTop.ne_top_iff_exists.mp (hinv.finite row (key_of_find? hrow).1)
  -- until the row is locked, the run condition keeps it as it was read
  refine safe_query fun db2 n2 _ hr2 _ _ ws r hout ↦ ?_
  obtain ⟨e, -, rfl, rfl⟩ | ⟨rec, hins, rfl, rfl⟩ := logged_eq hout
  · trivial
  rw [← hx] at hins
  obtain ⟨c, hc, hctd⟩ := insertCount_eq_ok hreq.whole hreq.number hins
  intro db3 n3 _ hr3 _ _
  refine safe_query fun db4 n4 _ hr4 _ _ ws r hout ↦ ?_
  have hout : storeCount req.floatId req.counted = (ws, r) := hout
  rw [storeCount, hc] at hout
  rcases hsto : (ofUnits 2 (c : Money)).store 14 2 with _ | balance <;>
    rw [hsto] at hout <;> cases hout
  · trivial
  obtain rfl := store_ofUnits hsto
  refine safe_postVariance hctd hx.symm (mem_insert _ _) ?_
  rw [hr4 _ (.inl (mem_insert _ _)), hr3 _ (.inr rfl), hr2 _ (.inr rfl), hrow]

private theorem safe_postExpense {actor : Uuid} :
    (pettyContract env).Safe (handlePostExpense env actor id now) held [] db n := by
  refine safe_query fun db1 n1 _ _ _ hc ws r hout ↦ ?_
  have hout : ([], db1.expenses.find? (·.id = id)) = (ws, r) := hout
  obtain ⟨rfl, hfi⟩ := Prod.mk.inj hout
  rcases r with _ | exp
  · trivial
  dsimp only
  split
  · trivial
  next happ =>
    have hels := hc id rfl exp hfi (not_not.mp happ)
    rw [Expense.OnPettyCash, not_or] at hels
    refine safe_postEntry fun held2 e db2 n2 _ _ hlns ↦ ?_
    intro db3 n3 _ _ _ _
    refine safe_query fun db4 n4 _ _ _ _ ws r hout ↦ ?_
    obtain ⟨-, rfl, rfl⟩ | ⟨exp', hmark, rfl, rfl⟩ := loggedUpdate_eq hout
    · trivial
    have hmode : exp.paymentMode.account ≠ "petty_cash" := by
      have hne := hels.2
      rcases hm : exp.paymentMode with _ | _ | _ | _ <;> rw [hm] at hne
      case pettyCash => exact absurd rfl hne
      all_goals decide
    have hset : Settled env.chart (insert (.expense id) held2) ([] ++ entryWrites e) db4 := by
      refine .untouched (balance?_entryWrites e) fun account haccount ↦ ?_
      rw [nil_append, line?_entryWrites, netOn_amountPair hlns,
        if_neg (systemAccount_ne haccount hels.1), if_neg (systemAccount_ne haccount hmode),
        add_zero]
    refine safe_commit (hset.append fun w hw ↦ ?_)
    rw [mem_singleton.mp hw]
    exact ⟨rfl, rfl⟩

end Rules

/-! ## Every run

Under the conditions above the floats hold in every interleaving what the account says
(`pettyLaw_of_countsApart`). The first commit outside of them can part the two for good. -/

/-- Amounts and counts are whole cents, and a spend is not charged to petty cash. -/
def ExpensesOp.Plain : ExpensesOp → Prop
  | .transaction req => req.Plain
  | .reconcile req => req.Plain
  | .postExpense _ _ _ => True

instance (op : ExpensesOp) : Decidable op.Plain :=
  match op with
  | .transaction req => inferInstanceAs (Decidable req.Plain)
  | .reconcile req => inferInstanceAs (Decidable req.Plain)
  | .postExpense _ _ _ => .isTrue trivial

/-- In every interleaving of requests in whole cents that keeps counted floats where they are and
posts no expense on petty cash, the floats hold what the account says. -/
theorem pettyLaw_of_countsApart {env : Env} {T : Type} [DecidableEq T] (ops : T → ExpensesOp)
    (hops : ∀ t, (ops t).Plain) {db₀ : ExpensesDb} {n₀ : ℕ} (h₀ : Level env.chart db₀)
    {s : State (schema env) T}
    (h : Reach (CountsApart env) (State.init db₀ n₀ fun t ↦ (ops t).prog env) s) :
    PettyLaw env.chart s.db := by
  refine (Contract.sound (pettyContract_suits env) h₀ (fun t ↦ ?_) h).1.law
  have hop := hops t
  rcases hreq : ops t with req | req | ⟨actor, id, now⟩ <;> rw [hreq] at hop
  · exact safe_transaction hop
  · exact safe_reconcile hop
  · exact safe_postExpense

/-- Amounts are read exactly, and the chart has the accounts that petty cash is moved against. -/
def Env.small : Env where
  positive
    | .nan => true
    | .infinity negative => !negative
    | .finite x => 0 < x
  nonNegative
    | .nan => true
    | .infinity negative => !negative
    | .finite x => 0 ≤ x
  isZeroMoney
    | .finite x => x = 0
    | _ => false
  chart := {
    accounts := [
      ⟨1, "1010", "Petty cash", .asset, .debit, some "petty_cash", .active⟩,
      ⟨2, "1100", "Bank", .asset, .debit, some "bank", .active⟩,
      ⟨3, "5900", "Cash over and short", .expense, .debit, some "cash_over_short", .active⟩,
      ⟨4, "6000", "Operating expense", .expense, .debit, some "operating_expense", .active⟩]
    ids_nodup := by decide }
  isZeroMoney_ofUnits u _ := by
    change decide ((u : ℚ) / 10 ^ 2 = 0) = decide (u = 0)
    simp

/-- A new float, an approved expense of 50.00 from petty cash and an open period. -/
def newFloat : ExpensesDb where
  floats := [⟨10, 0, .active⟩]
  transactions := []
  counts := []
  expenses := [{
    id := 20
    stationId := none
    expenseDate := 3
    amount := (5000 : ℤ)
    accountKey := "operating_expense"
    paymentMode := .pettyCash
    status := .approved
    journalEntryId := none
    amount_pos := by decide }]
  ledger := { entries := [], lines := [], periods := [Accounting.smallPeriod .opened] }

theorem level_newFloat : Level Env.small.chart newFloat := by
  refine ⟨by decide, fun f hf ↦ ?_, fun account _ ↦ rfl⟩
  rw [mem_singleton.mp hf]
  exact WithTop.zero_ne_top

/-- The expense is credited to petty cash, and the float still has all of it. -/
theorem not_pettyLaw_of_pettyExpense :
    ∃ s : State (schema .small) Unit,
      Reach (fun _ _ ↦ True)
        (State.init newFloat 100 fun _ ↦ (ExpensesOp.postExpense 8 20 3).prog .small) s ∧
      ¬PettyLaw Env.small.chart s.db := by
  refine exists_and_imp (fun s ↦ (s.db.floats.map (·.balance)).sum ≠ netOn s.db.ledger.lines 1)
    (exists_of_runs (turns [((), 12)]) (by decide +kernel)) ?_
  rintro _ _ hne
  exact fun h ↦ hne (h 1 rfl)

def topUpAndCount : Bool → ExpensesOp
  | false => .transaction {
      actor := 8
      floatId := 10
      txnType := some .topup
      amount := .finite 100
      badDate := false
      date := 3
      accountKey := none
      overdraw := false
      now := 3 }
  | true => .reconcile {
      actor := 8
      floatId := 10
      counted := .finite 90
      badDate := false
      date := 3
      now := 3 }

/-- The count reads the balance after the top-up has committed. -/
theorem pettyLaw_of_countsApart_twice :
    ∃ s : State (schema .small) Bool,
      Reach (CountsApart .small)
        (State.init newFloat 100 fun t ↦ (topUpAndCount t).prog .small) s ∧
      (s.db.floats.map (·.balance)).sum = (9000 : ℤ) ∧ PettyLaw Env.small.chart s.db := by
  refine exists_and_imp (fun s ↦ (s.db.floats.map (·.balance)).sum = (9000 : ℤ))
    (exists_of_runs (turns [(false, 14), (true, 14)]) (by decide +kernel)) ?_
  rintro _ hs hsum
  have hpla : ∀ t, (topUpAndCount t).Plain := by decide +kernel
  exact ⟨hsum, pettyLaw_of_countsApart topUpAndCount hpla level_newFloat hs⟩

end FuelGrid.Expenses
