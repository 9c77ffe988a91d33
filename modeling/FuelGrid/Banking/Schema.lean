import FuelGrid.Accounting.Calls

/-!
# Cash reconciliations and bank deposits

The tables and the SQL statements of `internal/banking` for the cash that a station's shifts have
collected: a reconciliation of each operating day compares the cash that was expected with the cash
that was counted, and a deposit carries reconciled cash to the bank. Both post to the journal, so
the general ledger sits in this database as a part (`ledgerPart`). One tenant's rows are modelled.
-/

namespace FuelGrid.Banking

open Sql

structure OperatingDay where
  id : Uuid
  businessDate : ℤ

structure Env where
  /-- Whether `parseDecimal` takes the text and the `float64` it returns is not `< 0`, which holds
  of `NaN`. -/
  nonNegative : Numeric → Bool
  /-- As `nonNegative`, with `<= 0`. -/
  positive : Numeric → Bool
  chart : Chart
  stations : List Uuid
  bankAccounts : List Uuid
  days : List OperatingDay

/-! ## Tables

Money is `numeric(14,2)` in cents, with `⊤` for `NaN`. -/

inductive ReconStatus where
  | draft | submitted | approved | posted | rejected
  deriving DecidableEq

structure CashReconciliation where
  id : Uuid
  stationId : Uuid
  operatingDayId : Uuid
  expectedCash : Money
  countedCash : Money
  variance : Money
  status : ReconStatus
  journalEntryId : Option Uuid
  reviewedBy : Option Uuid
  createdBy : Uuid
  deriving DecidableEq

inductive DepositStatus where
  | draft | prepared | inTransit | confirmed | posted | voided
  deriving DecidableEq

structure BankDeposit where
  id : Uuid
  stationId : Uuid
  bankAccountId : Uuid
  amount : Money
  expectedBankDate : Option ℤ
  actualBankDate : Option ℤ
  status : DepositStatus
  preparedEntryId : Option Uuid
  confirmedEntryId : Option Uuid
  createdBy : Uuid

structure DepositLine where
  depositId : Uuid
  reconId : Uuid
  amount : Money
  /-- `chk_bdl_amount` -/
  amount_pos : 0 < amount

structure BankingDb where
  recons : List CashReconciliation
  deposits : List BankDeposit
  depositLines : List DepositLine
  ledger : AccountingDb

/-! ## Statements

Payments and shifts are written elsewhere. The creation of a reconciliation is given the payments of
its time, each with the operating day of its shift. -/

/-- A row of `payments`, with the operating day of its shift. -/
structure Tender where
  operatingDayId : Uuid
  /-- `tender_type = 'cash'` -/
  cash : Bool
  /-- `status = 'recorded'` -/
  recorded : Bool
  amount : Money
  deriving DecidableEq

/-- The cash that the shifts of a day should have collected. -/
def expectedCash (payments : List Tender) (day : Uuid) : Money :=
  ((payments.filter fun p ↦ p.operatingDayId = day ∧ p.cash ∧ p.recorded).map (·.amount)).sum

section Statements

variable (env : Env)

/-- The insert of `CreateCashReconciliation`. The station and the day are checked one by one. -/
def insertRecon (db : BankingDb) (n : ℕ) (station day createdBy : Uuid) (payments : List Tender) :
    Except PgError CashReconciliation :=
  match (ofUnits 2 (expectedCash payments day)).store 14 2 with
  | none => .error .numericOverflow
  | some expectedCash =>
    -- uq_cash_recon_day
    if ∃ c ∈ db.recons, c.operatingDayId = day then .error .uniqueViolation
    -- cash_recon_station_fk, cash_recon_day_fk
    else if station ∈ env.stations ∧ ∃ d ∈ env.days, d.id = day then
      .ok {
        id := n
        stationId := station
        operatingDayId := day
        expectedCash
        countedCash := 0
        variance := 0
        status := .draft
        journalEntryId := none
        reviewedBy := none
        createdBy }
    else .error .foreignKeyViolation

/-- The update of `SubmitCashReconciliation`. The variance is computed from the text. -/
def submitRecon (db : BankingDb) (id : Uuid) (counted : Numeric) :
    Except PgError (Option CashReconciliation) :=
  match db.recons.find? (fun c ↦ c.id = id ∧ (c.status = .draft ∨ c.status = .rejected)) with
  | none => .ok none
  | some c =>
    match counted.store 14 2, (counted + -.ofUnits 2 c.expectedCash).store 14 2 with
    | some countedCash, some variance =>
      .ok (some { c with countedCash, variance, status := .submitted })
    | _, _ => .error .numericOverflow

structure CashPosting where
  stationId : Uuid
  businessDate : ℤ
  counted : Money
  expected : Money
  shortAmount : Money
  overAmount : Money
  status : ReconStatus

def postingFor (db : BankingDb) (id : Uuid) : Option CashPosting :=
  (db.recons.find? (·.id = id)).bind fun c ↦
    (env.days.find? (·.id = c.operatingDayId)).map fun d ↦ {
      stationId := c.stationId
      businessDate := d.businessDate
      counted := c.countedCash
      expected := c.expectedCash
      shortAmount := max (c.expectedCash - c.countedCash) 0
      overAmount := max (c.countedCash - c.expectedCash) 0
      status := c.status }

/-- The update of `MarkCashReconciliationPosted`. -/
def markPosted (db : BankingDb) (id reviewedBy entry : Uuid) : Option CashReconciliation :=
  (db.recons.find? (fun c ↦ c.id = id ∧ c.status = .submitted)).map fun c ↦
    { c with status := .posted, reviewedBy := some reviewedBy, journalEntryId := some entry }

structure DepositInput where
  stationId : Uuid
  bankAccountId : Uuid
  expectedBankDate : Option ℤ
  createdBy : Uuid

/-- The insert of `CreateDeposit`. -/
def insertDeposit (n : ℕ) (input : DepositInput) : Except PgError BankDeposit :=
  -- bank_deposit_station_fk, bank_deposit_account_fk
  if input.stationId ∈ env.stations ∧ input.bankAccountId ∈ env.bankAccounts then
    .ok {
      id := n
      stationId := input.stationId
      bankAccountId := input.bankAccountId
      amount := 0
      expectedBankDate := input.expectedBankDate
      actualBankDate := none
      status := .draft
      preparedEntryId := none
      confirmedEntryId := none
      createdBy := input.createdBy }
  else .error .foreignKeyViolation

/-- The insert of `AddDepositLine`. The reconciliation has to exist; its station, its status and its
cash are not looked at. -/
def insertDepositLine (db : BankingDb) (deposit recon : Uuid) (amount : Numeric) :
    Except PgError DepositLine :=
  match amount.store 14 2 with
  | none => .error .numericOverflow
  | some amount =>
    if amount_pos : 0 < amount then
      -- uq_bdl_recon
      if ∃ l ∈ db.depositLines, l.reconId = recon then .error .uniqueViolation
      -- bdl_deposit_fk, bdl_recon_fk
      else if (∃ d ∈ db.deposits, d.id = deposit) ∧ ∃ c ∈ db.recons, c.id = recon then
        .ok { depositId := deposit, reconId := recon, amount, amount_pos }
      else .error .foreignKeyViolation
    else .error .checkViolation

/-- `COALESCE((SELECT SUM(amount) FROM bank_deposit_lines …), 0)` -/
def depositTotal (lines : List DepositLine) (deposit : Uuid) : Money :=
  ((lines.filter (·.depositId = deposit)).map (·.amount)).sum

/-- The update of `PrepareDeposit`. -/
def prepareDeposit (db : BankingDb) (id : Uuid) : Except PgError (Option BankDeposit) :=
  match db.deposits.find? (fun d ↦ d.id = id ∧ d.status = .draft) with
  | none => .ok none
  | some d =>
    match (ofUnits 2 (depositTotal db.depositLines id)).store 14 2 with
    | none => .error .numericOverflow
    | some amount => .ok (some { d with amount, status := .prepared })

/-- The update of `ConfirmDeposit`. -/
def confirmDeposit (db : BankingDb) (id : Uuid) (actualDate : ℤ) : Option BankDeposit :=
  (db.deposits.find? fun d ↦ d.id = id ∧
      (d.status = .prepared ∨ d.status = .inTransit ∨ d.status = .confirmed)).map fun d ↦
    { d with status := .posted, actualBankDate := some actualDate }

/-- The update of `SetDepositPreparedEntry`. -/
def setPreparedEntry (db : BankingDb) (id entry : Uuid) : Option BankDeposit :=
  (db.deposits.find? (·.id = id)).map fun d ↦ { d with preparedEntryId := some entry }

/-- The update of `SetDepositConfirmedEntry`. -/
def setConfirmedEntry (db : BankingDb) (id entry : Uuid) : Option BankDeposit :=
  (db.deposits.find? (·.id = id)).map fun d ↦ { d with confirmedEntryId := some entry }

end Statements

/-- The statements. `createdBy` is the `SELECT … FOR UPDATE` of the approval, `getDeposit` a read on
another connection. -/
inductive Query where
  | insertRecon (station day createdBy : Uuid) (payments : List Tender)
  | submitRecon (id : Uuid) (counted : Numeric)
  | postingFor (id : Uuid)
  | createdBy (id : Uuid)
  | markPosted (id reviewedBy entry : Uuid)
  | insertDeposit (input : DepositInput)
  | insertDepositLine (deposit recon : Uuid) (amount : Numeric)
  | getDeposit (id : Uuid)
  | prepareDeposit (id : Uuid)
  | setPreparedEntry (id entry : Uuid)
  | confirmDeposit (id : Uuid) (actualDate : ℤ)
  | setConfirmedEntry (id entry : Uuid)
  | ledger (q : Accounting.Query)

abbrev Reply : Query → Type
  | .insertRecon _ _ _ _ => Except PgError CashReconciliation
  | .submitRecon _ _ => Except PgError (Option CashReconciliation)
  | .postingFor _ => Option CashPosting
  | .createdBy _ => Option Uuid
  | .markPosted _ _ _ => Option CashReconciliation
  | .insertDeposit _ => Except PgError BankDeposit
  | .insertDepositLine _ _ _ => Except PgError DepositLine
  | .getDeposit _ => Option BankDeposit
  | .prepareDeposit _ => Except PgError (Option BankDeposit)
  | .setPreparedEntry _ _ => Option BankDeposit
  | .confirmDeposit _ _ => Option BankDeposit
  | .setConfirmedEntry _ _ => Option BankDeposit
  | .ledger q => Accounting.Reply q

inductive Write where
  | insertRecon (c : CashReconciliation)
  | setRecon (c : CashReconciliation)
  | insertDeposit (d : BankDeposit)
  | setDeposit (d : BankDeposit)
  | insertDepositLine (l : DepositLine)
  | ledger (w : Accounting.Write)

def BankingDb.apply (db : BankingDb) : Write → BankingDb
  | .insertRecon c => { db with recons := db.recons ++ [c] }
  | .setRecon c => { db with recons := db.recons.map fun x ↦ if x.id = c.id then c else x }
  | .insertDeposit d => { db with deposits := db.deposits ++ [d] }
  | .setDeposit d => { db with deposits := db.deposits.map fun x ↦ if x.id = d.id then d else x }
  | .insertDepositLine l => { db with depositLines := db.depositLines ++ [l] }
  | .ledger w => { db with ledger := db.ledger.apply w }

variable (env : Env)

def exec : (q : Query) → (committed view : BankingDb) → ℕ → List Write × Reply q
  | .insertRecon station day createdBy payments, _, db, n =>
    logged .insertRecon (insertRecon env db n station day createdBy payments)
  | .submitRecon id counted, _, db, _ => loggedRow .setRecon (submitRecon db id counted)
  | .postingFor id, _, db, _ => ([], postingFor env db id)
  | .createdBy id, _, db, _ => ([], (db.recons.find? (·.id = id)).map (·.createdBy))
  | .markPosted id reviewedBy entry, _, db, _ =>
    loggedUpdate .setRecon (markPosted db id reviewedBy entry)
  | .insertDeposit input, _, _, n => logged .insertDeposit (insertDeposit env n input)
  | .insertDepositLine deposit recon amount, _, db, _ =>
    logged .insertDepositLine (insertDepositLine db deposit recon amount)
  | .getDeposit id, committed, _, _ => ([], committed.deposits.find? (·.id = id))
  | .prepareDeposit id, _, db, _ => loggedRow .setDeposit (prepareDeposit db id)
  | .setPreparedEntry id entry, _, db, _ => loggedUpdate .setDeposit (setPreparedEntry db id entry)
  | .confirmDeposit id actualDate, _, db, _ =>
    loggedUpdate .setDeposit (confirmDeposit db id actualDate)
  | .setConfirmedEntry id entry, _, db, _ =>
    loggedUpdate .setDeposit (setConfirmedEntry db id entry)
  | .ledger q, committed, view, n =>
    ((Accounting.exec env.chart q committed.ledger view.ledger n).1.map .ledger,
      (Accounting.exec env.chart q committed.ledger view.ledger n).2)

/-- What a lock is taken on: a row, or the key of a unique index. -/
inductive LockKey where
  | recon (id : Uuid)
  | reconOfDay (day : Uuid)
  | deposit (id : Uuid)
  | depositOfRecon (recon : Uuid)
  | ledger (k : Accounting.LockKey)
  deriving DecidableEq

inductive BankingResult where
  | done
  | recon (c : CashReconciliation)
  | deposit (id : Uuid)
  deriving DecidableEq

@[reducible] def schema : Schema where
  Db := BankingDb
  Write := Write
  Query := Query
  Reply := Reply
  Key := LockKey
  Result := BankingResult
  Error := HttpError
  apply := BankingDb.apply
  exec := exec env

def ledgerPart : Part (Accounting.schema env.chart) (schema env) where
  part db := db.ledger
  put db ledger := { db with ledger }
  write := .ledger
  query := .ledger
  reply _ r := r
  key := .ledger
  result _ := .done
  error _ := .http 500 "internal error"
  put_part _ := rfl
  part_put _ _ := rfl
  put_put _ _ _ := rfl
  key_inj _ _ h := LockKey.ledger.inj h
  apply_write _ _ := rfl
  exec_writes _ _ _ _ := rfl
  exec_reply _ _ _ _ := rfl

instance : Ledgered env.chart (schema env) where
  http := .http
  ledger := ledgerPart env

end FuelGrid.Banking
