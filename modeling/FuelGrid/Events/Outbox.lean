import FuelGrid.Sql.Embed
import FuelGrid.Sql.Sessions

/-!
# The transactional outbox

The table `outbox_events` and the code around it: `WriteOutbox`, the in-process bus, the publisher's
`processOnce` and the scheduler's `outboxSweepJob`.
-/

namespace FuelGrid.Events

open Sql Concurrent

/-! ## Tables

An event is known by its position in the table. Its id is drawn before the insert but shown to
nobody until the commit, so only its being unique matters. -/

/-- `Event`: the columns that no update may touch. -/
structure Event where
  tenantId : Option Uuid
  type : String
  version : ℤ
  aggregateType : String
  aggregateId : String
  actorId : Option Uuid
  payload : String
  metadata : Option String
  occurredAt : ℤ
  correlationId : String
  causationId : String
  deriving DecidableEq

/-- A row of `outbox_events`: the event and the publisher's progress. -/
structure OutboxRow where
  event : Event
  publishedAt : Option ℤ
  attemptCount : ℕ
  failedAt : Option ℤ

namespace OutboxRow

variable (r : OutboxRow)

/-- `published_at IS NULL AND failed_at IS NULL` -/
def Pending : Prop := r.publishedAt = none ∧ r.failedAt = none
  deriving Decidable

/-- `published_at IS NULL AND failed_at IS NOT NULL AND failed_at <= $1` -/
def Expired (cutoff : ℤ) : Prop := r.publishedAt = none ∧ ∃ at' ∈ r.failedAt, at' ≤ cutoff
  deriving Decidable

/-- `SET published_at = now()` -/
def publish (now : ℤ) : OutboxRow := { r with publishedAt := some now }

/-- `SET attempt_count = $2, failed_at = $3` -/
def fail (attemptCount : ℕ) (failedAt : Option ℤ) : OutboxRow := { r with attemptCount, failedAt }

/-- `SET failed_at = NULL, attempt_count = 0` -/
def requeue : OutboxRow := { r with failedAt := none, attemptCount := 0 }

end OutboxRow

variable (H : Schema)

/-- The outbox, the finishing times in the ledger of job runs, and what the handlers work on. -/
structure EventsDb where
  outbox : List OutboxRow
  jobRuns : List (Option ℤ)
  work : H.Db

/-! ## Statements -/

inductive PgError where
  | restrictViolation

/-- What the statements use from outside of the tables. -/
structure Env where
  /-- `ORDER BY occurred_at`, which leaves the order of equal times open. -/
  order : List (OutboxRow × ℕ) → List (OutboxRow × ℕ)
  order_perm : ∀ rows, (order rows).Perm rows
  order_sorted : ∀ rows,
    (order rows).Pairwise fun r r' ↦ r.1.event.occurredAt ≤ r'.1.event.occurredAt

/-- A polled event: its id, the envelope, and the failed attempts so far. -/
structure Polled where
  id : Uuid
  event : Event
  attempts : ℕ

/-- The statements. The poll is `candidates` on the snapshot of its start and `lockedRow` for each
row that it has locked; the sweep's update is `deadLettered` and `requeue`. -/
inductive Query where
  | candidates
  | lockedRow (id : Uuid)
  | markPublished (ids : List Uuid) (now : ℤ)
  | recordFailure (id : Uuid) (attemptCount : ℕ) (failedAt : Option ℤ)
  | deadLettered (cutoff : ℤ)
  | requeue (id : Uuid) (cutoff : ℤ)
  | pruneJobRuns (cutoff : ℤ)
  | insertEvent (e : Event)
  | work (q : H.Query)

abbrev Reply : Query H → Type
  | .candidates => List Uuid
  | .lockedRow _ => Option Polled
  | .markPublished _ _ => Except PgError Unit
  | .recordFailure _ _ _ => Except PgError Unit
  | .deadLettered _ => List Uuid
  | .requeue _ _ => Except PgError Bool
  | .pruneJobRuns _ => ℕ
  | .insertEvent _ => Unit
  | .work q => H.Reply q

inductive Write where
  | setPublished (id : Uuid) (now : ℤ)
  | setFailure (id : Uuid) (attemptCount : ℕ) (failedAt : Option ℤ)
  | setRequeued (id : Uuid)
  | pruneJobRuns (cutoff : ℤ)
  | insertEvent (e : Event)
  | work (w : H.Write)

inductive LockKey where
  | row (id : Uuid)
  | work (k : H.Key)
  deriving DecidableEq

inductive EventsError where
  /-- What `WriteOutbox` refuses. -/
  | event (message : String)
  | work (e : H.Error)

section Statements

variable {H}

/-- The run ended and is old enough to be pruned. -/
def Finished (cutoff : ℤ) (finishedAt : Option ℤ) : Prop := ∃ at' ∈ finishedAt, at' ≤ cutoff
  deriving Decidable

def EventsDb.apply (db : EventsDb H) : Write H → EventsDb H
  | .setPublished id now => { db with outbox := db.outbox.modify id (·.publish now) }
  | .setFailure id n failedAt => { db with outbox := db.outbox.modify id (·.fail n failedAt) }
  | .setRequeued id => { db with outbox := db.outbox.modify id (·.requeue) }
  | .pruneJobRuns cutoff => { db with jobRuns := db.jobRuns.filter (¬Finished cutoff ·) }
  | .insertEvent e => { db with outbox := db.outbox ++ [⟨e, none, 0, none⟩] }
  | .work w => { db with work := H.apply db.work w }

/-- `assert_outbox_event_immutable`: an update may touch the progress columns only. -/
def assertOutboxEventImmutable (old new : OutboxRow) : Except PgError Unit :=
  if new.event = old.event then .ok () else .error .restrictViolation

/-- Update a row, if there is one, and log it when the trigger lets it through. -/
def updateRow (rows : List OutboxRow) (id : Uuid) (set : OutboxRow → OutboxRow) (w : Write H) :
    List (Write H) × Except PgError Unit :=
  match rows[id]? with
  | none => ([], .ok ())
  | some r =>
    match assertOutboxEventImmutable r (set r) with
    | .ok () => ([w], .ok ())
    | .error e => ([], .error e)

/-- `UPDATE outbox_events SET published_at = now() WHERE id = ANY($1)` -/
def markPublished (rows : List OutboxRow) (now : ℤ) : List Uuid →
    List (Write H) × Except PgError Unit
  | [] => ([], .ok ())
  | id :: ids =>
    match updateRow rows id (·.publish now) (.setPublished id now), markPublished rows now ids with
    | (ws, .ok ()), (ws', .ok ()) => (ws ++ ws', .ok ())
    | (_, .error e), _ => ([], .error e)
    | _, (_, .error e) => ([], .error e)

/-- The sweep's update of a row it has locked. -/
def requeue (rows : List OutboxRow) (id : Uuid) (cutoff : ℤ) :
    List (Write H) × Except PgError Bool :=
  match rows[id]? with
  | none => ([], .ok false)
  | some r =>
    if r.Expired cutoff then
      match updateRow rows id (·.requeue) (.setRequeued id) with
      | (ws, .ok ()) => (ws, .ok true)
      | (_, .error e) => ([], .error e)
    else ([], .ok false)

def candidates (env : Env) (rows : List OutboxRow) : List Uuid :=
  (env.order (rows.zipIdx.filter fun r ↦ r.1.Pending)).map (·.2)

/-- The poll's second look at a row it has locked. -/
def lockedRow (rows : List OutboxRow) (id : Uuid) : Option Polled :=
  match rows[id]? with
  | none => none
  | some r => if r.Pending then some ⟨id, r.event, r.attemptCount⟩ else none

/-- The rows the sweep finds, with their ids. -/
def deadLettered (rows : List OutboxRow) (cutoff : ℤ) : List Uuid :=
  (rows.zipIdx.filter fun r ↦ r.1.Expired cutoff).map (·.2)

def exec (env : Env) :
    (q : Query H) → (committed view : EventsDb H) → ℕ → List (Write H) × Reply H q
  | .candidates, _, db, _ => ([], candidates env db.outbox)
  | .lockedRow id, _, db, _ => ([], lockedRow db.outbox id)
  | .markPublished ids now, _, db, _ => markPublished db.outbox now ids
  | .recordFailure id n failedAt, _, db, _ =>
    updateRow db.outbox id (·.fail n failedAt) (.setFailure id n failedAt)
  | .deadLettered cutoff, _, db, _ => ([], deadLettered db.outbox cutoff)
  | .requeue id cutoff, _, db, _ => requeue db.outbox id cutoff
  | .pruneJobRuns cutoff, _, db, _ =>
    ([.pruneJobRuns cutoff], (db.jobRuns.filter (Finished cutoff ·)).length)
  | .insertEvent e, _, _, _ => ([.insertEvent e], ())
  | .work q, committed, db, n =>
    let out := H.exec q committed.work db.work n
    (out.1.map .work, out.2)

end Statements

/-- The outbox and the tables around it as a database of transactions. -/
@[reducible] def schema (env : Env) : Schema where
  Db := EventsDb H
  Write := Write H
  Query := Query H
  Reply := Reply H
  Key := LockKey H
  Result := H.Result
  Error := EventsError H
  shares := fun
    | .row _ => none
    | .work k => (H.shares k).map .work
  shares_inj := by
    rintro (_ | k₁) (_ | k₂) k h₁ h₂
    · cases h₁
    · cases h₁
    · cases h₂
    · obtain ⟨k₁', hk₁, rfl⟩ := map_eq_some_iff.mp h₁
      obtain ⟨k₂', hk₂, heq⟩ := map_eq_some_iff.mp h₂
      cases heq
      rw [H.shares_inj k₁ k₂ k₁' hk₁ hk₂]
  apply := EventsDb.apply
  exec := exec env

/-- What the handlers work on sits in the database. -/
def workPart (env : Env) : Part H (schema H env) where
  part := EventsDb.work
  put db x := { db with work := x }
  write := .work
  query := .work
  reply _ r := r
  key := .work
  result a := a
  error := .work
  put_part _ := rfl
  part_put _ _ := rfl
  put_put _ _ _ := rfl
  key_inj _ _ h := by cases h; rfl
  apply_write _ _ := rfl
  exec_writes _ _ _ _ := rfl
  exec_reply _ _ _ _ := rfl

/-! ## Writing events

What the handlers and the business transactions work on is a parameter `H`. A business transaction
writes its events in the same transaction as its own changes. -/

/-- An event as `WriteOutbox` is called with it. A time that is not given is the present. -/
structure NewEvent where
  tenantId : Option Uuid
  type : String
  version : ℤ
  aggregateType : String
  aggregateId : String
  actorId : Option Uuid
  payload : String
  metadata : Option String
  occurredAt : Option ℤ
  correlationId : String
  causationId : String

/-- The defaults of `WriteOutbox`. -/
def NewEvent.fill (e : NewEvent) (now : ℤ) : Event where
  tenantId := e.tenantId
  type := e.type
  version := if e.version = 0 then 1 else e.version
  aggregateType := e.aggregateType
  aggregateId := e.aggregateId
  actorId := e.actorId
  payload := if e.payload = "" then "null" else e.payload
  metadata := e.metadata
  occurredAt := e.occurredAt.getD now
  correlationId := e.correlationId
  causationId := e.causationId

variable {H} (env : Env)

def writeOutbox (now : ℤ) (e : NewEvent) (next : Prog (schema H env)) : Prog (schema H env) :=
  if e.type = "" then .rollback (.event "events: WriteOutbox requires Type")
  else if e.aggregateType = "" then .rollback (.event "events: WriteOutbox requires AggregateType")
  else if e.aggregateId = "" then .rollback (.event "events: WriteOutbox requires AggregateID")
  else .query (.insertEvent (e.fill now)) fun _ ↦ next

def writeAll (now : ℤ) (next : Prog (schema H env)) : List NewEvent → Prog (schema H env)
  | [] => next
  | e :: es => writeOutbox env now e (writeAll now next es)

/-- A business transaction that writes the events its result calls for before it commits. -/
def businessTxn (now : ℤ) (p : Prog H) (events : H.Result → List NewEvent) : Prog (schema H env) :=
  p.call (workPart H env) fun
    | .ok a => writeAll env now (.commit a) (events a)
    | .error e => .rollback (.work e)

/-! ## The bus

A handler runs transactions of its own (`Body`), on another connection than the pass that called it,
while the transaction of the pass stays open with the locks on the polled rows. -/

/-- A handler has one connection for its transactions, a pass has one for the outbox. -/
inductive Conn where
  | outbox | work
  deriving DecidableEq

/-- What a handler can end with: how the transaction that made it fail has ended. -/
abbrev Failure (H : Schema) := Outcome (EventsError H) H.Result

/-- What is noted of a pass: when it dispatches an event, over which tables, and what each handler
has returned when the dispatch is over. -/
inductive Note (H : Schema) where
  | dispatch (id : Uuid) (e : Event) (db : EventsDb H)
  | returned (id : Uuid) (e : Event) (results : List (Option (Failure H)))

/-- The body of a handler: transactions one after the other, and the error it returns. -/
inductive Body (H : Schema) where
  | ret (err : Option (Failure H))
  | txn (p : Prog H) (next : Failure H → Body H)

abbrev Handler (H : Schema) := Event → Body H

/-- `InProcessBus`: the handlers that were subscribed to each type of event. -/
structure Bus (H : Schema) where
  handlers : String → List (Handler H)

/-- The handlers that an event of the type is dispatched to. -/
def Bus.matching (bus : Bus H) (type : String) : List (Handler H) :=
  bus.handlers type ++ bus.handlers "*"

variable {T : Type} [DecidableEq T]

/-- A process of the application. -/
abbrev App (H : Schema) (env : Env) (T : Type) [DecidableEq T] :=
  Client (schema H env) T (Note H) [Conn.outbox, Conn.work]

/-- Execute a statement of the outbox. -/
abbrev ask (q : Query H) : App H env T (Option (Reply H q)) :=
  Client.query (S := schema H env) .outbox q

def Body.run : Body H → App H env T (Option (Failure H))
  | .ret err => pure err
  | .txn p next => do
    let outcome ← Client.runTxn .work (p.lift (workPart H env))
    (next outcome).run

/-- Call the handlers in order; one that fails does not keep the others from being called. -/
def callHandlers (e : Event) : List (Handler H) → List (Option (Failure H)) →
    App H env T (List (Option (Failure H)))
  | [], results => pure results
  | h :: hs, results => do
    let err ← (h e).run env
    callHandlers e hs (results ++ [err])

/-- `Publish`, with the errors of the handlers joined. -/
def publish (bus : Bus H) (id : Uuid) (e : Event) : App H env T (List (Failure H)) := do
  Client.note (.dispatch id e)
  let results ← callHandlers env e (bus.matching e.type) []
  Client.note fun _ ↦ .returned id e results
  pure (results.filterMap fun err ↦ err)

/-! ## The publisher

The poll is a sequence of locks that are skipped instead of waited for, each with a second look at
the row. The `UPDATE`s find their rows locked by the poll and do not wait. -/

def maxOutboxAttempts : ℕ := 10

structure OutboxFailure where
  id : Uuid
  attemptCount : ℕ
  deadLetter : Bool

def classifyFailure (id : Uuid) (priorAttempts : ℕ) : OutboxFailure where
  id := id
  attemptCount := priorAttempts + 1
  deadLetter := decide (maxOutboxAttempts ≤ priorAttempts + 1)

/-- `SafeDefaults` of the batch size. -/
def batchSize (configured : ℤ) : ℕ := if configured ≤ 0 then 100 else configured.toNat

/-- The rows of the poll, locked one after the other until there are enough. A row that another
session has locked is skipped, and so is one that does not match any more. -/
def lockRows (limit : ℕ) : List Uuid → List Polled → App H env T (Option (List Polled))
  | [], batch => pure (some batch)
  | id :: ids, batch =>
    if limit ≤ batch.length then pure (some batch)
    else do
      match ← Client.tryLock .outbox (LockKey.row id) with
      | none => pure none
      | some false => lockRows limit ids batch
      | some true =>
        match ← ask env (.lockedRow id) with
        | none => pure none
        | some none => lockRows limit ids batch
        | some (some e) => lockRows limit ids (batch ++ [e])

/-- `SELECT … ORDER BY occurred_at LIMIT $1 FOR UPDATE SKIP LOCKED`; `none` when it fails. -/
def poll (limit : ℕ) : App H env T (Option (List Polled)) := do
  match ← ask env .candidates with
  | none => pure none
  | some ids => lockRows env limit ids []

/-- The loop over the batch, with the ids it has dispatched and the failures so far. -/
def dispatchAll (bus : Bus H) : List Polled → List Uuid → List OutboxFailure →
    App H env T (List Uuid × List OutboxFailure)
  | [], dispatched, failures => pure (dispatched, failures)
  | p :: batch, dispatched, failures => do
    let errs ← publish env bus p.id p.event
    if errs.isEmpty then dispatchAll bus batch (dispatched ++ [p.id]) failures
    else dispatchAll bus batch dispatched (failures ++ [classifyFailure p.id p.attempts])

/-- Record the failures and commit. `now` is when each of them is recorded. -/
def recordFailures (now : Uuid → ℤ) : List OutboxFailure → App H env T Unit
  | [] => do
    let _ ← Client.commit .outbox
    pure ()
  | f :: fs => do
    let failedAt := if f.deadLetter then some (now f.id) else none
    match ← ask env (.recordFailure f.id f.attemptCount failedAt) with
    | some (.ok ()) => recordFailures now fs
    | _ => Client.rollback .outbox

/-- What `processOnce` does after the dispatches. -/
def record (startedAt : ℤ) (now : Uuid → ℤ) (dispatched : List Uuid)
    (failures : List OutboxFailure) : App H env T Unit :=
  if dispatched = [] ∧ failures = [] then Client.rollback .outbox
  else if dispatched = [] then recordFailures env now failures
  else do
    match ← ask env (.markPublished dispatched startedAt) with
    | some (.ok ()) => recordFailures env now failures
    | _ => Client.rollback .outbox

def processOnce (bus : Bus H) (configured : ℤ) (startedAt : ℤ) (now : Uuid → ℤ) :
    App H env T Unit := do
  let ok ← Client.begin .outbox
  if ok then
    match ← poll env (batchSize configured) with
    | none => Client.rollback .outbox
    | some [] => do
      let _ ← Client.commit .outbox
      pure ()
    | some batch => do
      let (dispatched, failures) ← dispatchAll env bus batch [] []
      record env startedAt now dispatched failures
  else pure ()

/-! ## The sweep

Its `UPDATE` is a read of the rows that match, and for each of them a lock and a second look. -/

/-- The sweep's update of the rows it has found, which counts those that still match. -/
def requeueRows (cutoff : ℤ) : List Uuid → ℕ → App H env T (Option ℕ)
  | [], requeued => do
    let ok ← Client.commit .outbox
    pure (if ok then some requeued else none)
  | id :: ids, requeued => do
    let ok ← Client.lock .outbox (LockKey.row id)
    if ok then
      match ← ask env (.requeue id cutoff) with
      | some (.ok hit) => requeueRows cutoff ids (if hit then requeued + 1 else requeued)
      | _ => do
        Client.rollback .outbox
        pure none
    else do
      Client.rollback .outbox
      pure none

/-- The update of the dead-lettered rows, a transaction of its own; `none` when it fails. -/
def requeueDeadLettered (cutoff : ℤ) : App H env T (Option ℕ) := do
  let ok ← Client.begin .outbox
  if ok then
    match ← ask env (.deadLettered cutoff) with
    | some ids => requeueRows env cutoff ids 0
    | none => do
      Client.rollback .outbox
      pure none
  else pure none

/-- The deletion of old job runs, a transaction of its own; `none` when it fails. -/
def pruneJobRuns (cutoff : ℤ) : App H env T (Option ℕ) := do
  let ok ← Client.begin .outbox
  if ok then
    match ← ask env (.pruneJobRuns cutoff) with
    | some pruned => do
      let ok ← Client.commit .outbox
      pure (if ok then some pruned else none)
    | none => do
      Client.rollback .outbox
      pure none
  else pure none

/-- `outboxSweepJob`; the time is read once for each half. -/
def outboxSweepJob (requeueAfter jobRunRetention now later : ℤ) :
    App H env T (Except String String) := do
  let requeued ← (if 0 < requeueAfter then requeueDeadLettered env (now - requeueAfter)
    else pure (some 0))
  match requeued with
  | none => pure (.error "requeue dead-lettered events")
  | some requeued => do
    let pruned ← (if 0 < jobRunRetention then pruneJobRuns env (later - jobRunRetention)
      else pure (some 0))
    match pruned with
    | none => pure (.error "prune job_runs")
    | some pruned => pure (.ok s!"events_requeued={requeued} job_runs_pruned={pruned}")

/-- What the processes of a run do. -/
inductive Job (H : Schema) where
  | pass (configured startedAt : ℤ) (now : Uuid → ℤ)
  | sweep (requeueAfter jobRunRetention now later : ℤ)
  | business (now : ℤ) (p : Prog H) (events : H.Result → List NewEvent)

def Job.proc (bus : Bus H) : Job H → App H env T Unit
  | .pass configured startedAt now => processOnce env bus configured startedAt now
  | .sweep requeueAfter jobRunRetention now later => do
    let _ ← outboxSweepJob env requeueAfter jobRunRetention now later
    pure ()
  | .business now p events => do
    let _ ← Client.runTxn .work (businessTxn env now p events)
    pure ()

/-- The configuration of a run. -/
abbrev AppConfig (H : Schema) (env : Env) (T : Type) [DecidableEq T] :=
  Config (sessions (schema H env) T (Note H) [Conn.outbox, Conn.work])

/-- An empty outbox, before any job has begun. -/
def start (bus : Bus H) (work : H.Db) (jobRuns : List (Option ℤ)) (stamp : ℕ) (jobs : T → Job H) :
    AppConfig H env T where
  shared := .init ⟨[], jobRuns, work⟩ stamp
  proc t := (jobs t).proc env bus

end FuelGrid.Events
