import FuelGrid.Accounting.JournalSafety

/-!
# Posting into closed and locked periods

`resolvePostingPeriod` refuses a locked period, and a closed one unless the caller allows it.
-/

namespace FuelGrid.Accounting

open Sql

variable {chart : Chart} {e : JournalEntry} {id : Uuid} {now startDate endDate : ℤ}

/-- The entries of the answered calls, with the call each one belongs to. -/
def AccountingResult.posted : AccountingResult → List (JournalCall × PostedEntry)
  | .journal posted => posted
  | .period _ => []

def Write.entry : Write → Option JournalEntry
  | .insertEntry e => some e
  | _ => none

/-- No period with the id has the status. -/
def NotIn (status : PeriodStatus) (periods : List Period) (id : Uuid) : Prop :=
  ∀ p ∈ periods, p.id = id → p.status ≠ status
  deriving Decidable

/-- What a transaction that posts keeps when it commits onto `before`: none of its entries goes
into a locked period, and none that was posted without `AllowClosed` into a closed one. -/
structure PostingLaw (posted : List (JournalCall × PostedEntry)) (before : AccountingDb)
    (writes : List Write) : Prop where
  locked : ∀ w ∈ writes, ∀ e ∈ w.entry, NotIn .locked before.periods e.periodId
  closed : ∀ x ∈ posted, x.1.allowClosed = false →
    Write.insertEntry x.2.entry ∈ writes ∧ NotIn .closed before.periods x.2.entry.periodId

variable {posted : List (JournalCall × PostedEntry)} {p : Period} {l : Local (schema chart)}

instance (posted : List (JournalCall × PostedEntry)) (before : AccountingDb)
    (writes : List Write) : Decidable (PostingLaw posted before writes) :=
  decidable_of_iff (_ ∧ _) ⟨fun h ↦ ⟨h.1, h.2⟩, fun h ↦ ⟨h.locked, h.closed⟩⟩

/-- Every commit so far kept the posting law. -/
def PeriodLockLaw {T : Type} (s : State (schema chart) T) : Prop :=
  ∀ c ∈ s.commits, PostingLaw c.result.posted c.before c.writes
  deriving Decidable

/-! ## The window

The status is read in one statement; the entry is inserted by a later one and committed later still.
The row of the period is not locked in between (the foreign key of the entry takes a key lock only,
which an update of the status does not wait for), so a transition can commit inside that window and
the entry lands in a period that is closed or locked by then. -/

/-- The entry the transaction inserts next, if its next statement is that insert. -/
def nextEntry : Txn chart → Option NewEntry
  | .query (.insertEntry input) _ => some input
  | _ => none

/-- The periods a transaction has in use: it has resolved them for an entry that it inserts next
or has inserted. -/
def periodsInUse (l : Local (schema chart)) : List Uuid :=
  (l.log.filterMap Write.entry).map (·.periodId) ++ (nextEntry l.prog).toList.map (·.periodId)

def Write.shut : Write → Option Uuid
  | .setPeriod p => if p.status = .closed ∨ p.status = .locked then some p.id else none
  | _ => none

/-- The first transaction closes or locks a period that the second has in use. -/
def ShutsInUse (l l' : Local (schema chart)) : Prop :=
  ∃ w ∈ l.log, ∃ i ∈ w.shut, i ∈ periodsInUse l'
  deriving Decidable

def periodIds (periods : List Period) : List Uuid := periods.map (·.id)

def Write.PeriodFree : Write → Prop
  | .insertEntry _ | .insertLine _ | .setReversed _ _ => True
  | .insertPeriod _ | .setPeriod _ => False

private theorem periods_replay_of_periodFree (db : AccountingDb) {log : List Write}
    (h : ∀ w ∈ log, w.PeriodFree) : (replay (S := schema chart) db log).periods = db.periods := by
  induction log generalizing db with
  | nil => rfl
  | cons w log ih =>
    rw [replay_cons, ih _ fun w hw ↦ h w (mem_cons_of_mem _ hw)]
    cases w with
    | insertEntry | insertLine | setReversed => rfl
    | insertPeriod p => exact (h _ mem_cons_self).elim
    | setPeriod p => exact (h _ mem_cons_self).elim

private theorem mem_periods_replay {db : AccountingDb} {log : List Write}
    (h : p ∈ (replay (S := schema chart) db log).periods) :
    p ∈ db.periods ∨ .insertPeriod p ∈ log ∨ .setPeriod p ∈ log := by
  induction log generalizing db with
  | nil => exact .inl h
  | cons w log ih =>
    rw [replay_cons] at h
    rcases ih h with hp | hp | hp
    · cases w with
      | insertEntry | insertLine | setReversed => exact .inl hp
      | insertPeriod p' =>
        rcases mem_snoc.mp hp with hp | rfl
        · exact .inl hp
        · exact .inr (.inl (mem_cons_self))
      | setPeriod p' =>
        obtain ⟨p0, hp0, heq⟩ := mem_map.mp hp
        split at heq
        · exact .inr (.inr (heq ▸ mem_cons_self))
        · exact .inl (heq ▸ hp0)
    · exact .inr (.inl (mem_cons_of_mem _ hp))
    · exact .inr (.inr (mem_cons_of_mem _ hp))

private theorem periodIds_replay (db : AccountingDb) {log : List Write}
    (h : ∀ p, .insertPeriod p ∉ log) :
    periodIds (replay (S := schema chart) db log).periods = periodIds db.periods := by
  induction log generalizing db with
  | nil => rfl
  | cons w log ih =>
    rw [replay_cons, ih _ fun p hp ↦ h p (mem_cons_of_mem _ hp)]
    cases w with
    | insertEntry | insertLine | setReversed => rfl
    | insertPeriod p => exact absurd mem_cons_self (h p)
    | setPeriod p =>
      refine map_map.trans (map_congr_left fun p' _ ↦ ?_)
      rw [comp_apply]
      split
      next hid => exact hid.symm
      · rfl

/-! ## The contract

No period is created while a transaction holds the lock on their index, and none that it has in use
gets closed or locked. -/

/-- The primary key of the periods, with ids drawn from the stamp. -/
structure PeriodInv (db : AccountingDb) (n : ℕ) : Prop where
  nodup : (periodIds db.periods).Nodup
  drawn : ∀ p ∈ db.periods, p.id < n

/-- How the periods can change under a transaction. -/
structure PeriodRely (l : Local (schema chart)) (db db' : AccountingDb) : Prop where
  ids : .periods ∈ l.held → periodIds db'.periods = periodIds db.periods
  inUse : ∀ p' ∈ db'.periods, p'.id ∈ periodsInUse l → p'.status = .closed ∨ p'.status = .locked →
    ∃ p ∈ db.periods, p.id = p'.id ∧ p.status = p'.status

/-- A transaction creates open periods only, under the lock on their index. -/
def CreatesOpen (l : Local (schema chart)) : Prop :=
  ∀ p, .insertPeriod p ∈ l.log → p.status = .opened ∧ .periods ∈ l.held

theorem PeriodRely.trans {db1 db2 db3 : AccountingDb} (h : PeriodRely l db1 db2)
    (h' : PeriodRely l db2 db3) : PeriodRely l db1 db3 where
  ids hhd := (h'.ids hhd).trans (h.ids hhd)
  inUse p3 hp3 huse hsh := by
    obtain ⟨p2, hp2, hid2, hst2⟩ := h'.inUse p3 hp3 huse hsh
    obtain ⟨p1, hp1, hid1, hst1⟩ := h.inUse p2 hp2 (hid2 ▸ huse) (hst2 ▸ hsh)
    exact ⟨p1, hp1, hid1.trans hid2, hst1.trans hst2⟩

/-- A status that would break the law does not appear on a period in use. -/
theorem PeriodRely.notIn {db db' : AccountingDb} (h : PeriodRely l db db') {status : PeriodStatus}
    (hsh : status = .closed ∨ status = .locked) {i : Uuid} (huse : i ∈ periodsInUse l)
    (hi : NotIn status db.periods i) : NotIn status db'.periods i := by
  rintro p' hp' rfl rfl
  obtain ⟨p, hp, hid, hst⟩ := h.inUse p' hp' huse hsh
  exact hi p hp hid hst

variable (chart) in
/-- The terms between postings and transitions. -/
def periodContract : Contract (schema chart) where
  inv := PeriodInv
  rely := PeriodRely
  cond _ _ _ := True
  guar l _ _ := CreatesOpen l
  post a db log := PostingLaw a.posted db log
  inv_tick h := ⟨h.nodup, fun p hp ↦ (h.drawn p hp).trans (lt_succ_self _)⟩
  rely_refl _ _ := ⟨fun _ ↦ rfl, fun p hp _ _ ↦ ⟨p, hp, rfl, rfl⟩⟩
  rely_trans := .trans

/-- A commit that shuts no period in use is one that the others rely on. -/
theorem periodRely_of_commit {l' : Local (schema chart)} (hcre : CreatesOpen l)
    (hexcl : .periods ∈ l.held → .periods ∉ l'.held) (hapa : ¬ShutsInUse l l')
    (db : AccountingDb) : PeriodRely l' db (replay (S := schema chart) db l.log) where
  ids hhd := periodIds_replay db fun p hp ↦ hexcl (hcre p hp).2 hhd
  inUse p hp huse hsh := by
    rcases mem_periods_replay hp with hold | hnew | hset
    · exact ⟨p, hold, rfl, rfl⟩
    · rw [(hcre p hnew).1] at hsh
      rcases hsh with h | h <;> cases h
    · have hw : (Write.setPeriod p).shut = some p.id := if_pos hsh
      exact absurd ⟨_, hset, p.id, hw, huse⟩ hapa

theorem periodContract_suits {T : Type} :
    (periodContract chart).Suits (State.Apart (T := T) ShutsInUse) where
  cond _ _ := trivial
  compat {s t a u p} hC ht _ hguar hne hu := by
    refine periodRely_of_commit (l := s.txn t (.commit a)) hguar (fun hhd hhd' ↦ ?_)
      (hC.not_clash ht hne hu) s.db
    exact hne (eq_of_held rfl hhd' hhd)

/-! ## Executing the transactions

The status read by the guard is still right at the commit, which is what the assertion `PeriodLog`
carries through the statements of a transaction. -/

/-- The assertion of a posting transaction. `entries` are the entries it has inserted, each with
the permission its call was made with. -/
structure PeriodLog (entries : List (Bool × JournalEntry)) (log : List Write) (db : AccountingDb) :
    Prop where
  free : ∀ w ∈ log, w.PeriodFree
  inserted : ∀ w ∈ log, ∀ e ∈ w.entry, e ∈ entries.map Prod.snd
  logged : ∀ x ∈ entries, .insertEntry x.2 ∈ log
  locked : ∀ x ∈ entries, NotIn .locked db.periods x.2.periodId
  closed : ∀ x ∈ entries, x.1 = false → NotIn .closed db.periods x.2.periodId

variable {allowClosed : Bool}

section Log

variable {entries : List (Bool × JournalEntry)} {held : Set LockKey} {log : List Write}
  {db db' : AccountingDb}

private theorem mem_periodsInUse {p : Txn chart} (h : .insertEntry e ∈ log) :
    e.periodId ∈ periodsInUse (⟨held, log, p⟩ : Local (schema chart)) := by
  refine mem_append_left _ (mem_map_of_mem ?_)
  exact mem_filterMap.mpr ⟨_, h, rfl⟩

theorem PeriodLog.rely (h : PeriodLog entries log db) {p : Txn chart}
    (hr : PeriodRely ⟨held, log, p⟩ db db') : PeriodLog entries log db' where
  free := h.free
  inserted := h.inserted
  logged := h.logged
  locked x hx := hr.notIn (.inr rfl) (mem_periodsInUse (h.logged x hx)) (h.locked x hx)
  closed x hx hall :=
    hr.notIn (.inl rfl) (mem_periodsInUse (h.logged x hx)) (h.closed x hx hall)

private theorem periodLog_nil (db : AccountingDb) : PeriodLog [] [] db where
  free w hw := by cases hw
  inserted w hw := by cases hw
  logged x hx := by cases hx
  locked x hx := by cases hx
  closed x hx := by cases hx

theorem PeriodLog.append (h : PeriodLog entries log db) {ws : List Write}
    (hws : ∀ w ∈ ws, w.PeriodFree ∧ w.entry = none) : PeriodLog entries (log ++ ws) db where
  free w hw := (mem_append.mp hw).elim (h.free w) fun hw ↦ (hws w hw).1
  inserted w hw e he := by
    rcases mem_append.mp hw with hw | hw
    · exact h.inserted w hw e he
    · rw [(hws w hw).2] at he
      cases he
  logged x hx := mem_append_left _ (h.logged x hx)
  locked := h.locked
  closed := h.closed

theorem PeriodLog.insertEntry (h : PeriodLog entries log db)
    (hlck : NotIn .locked db.periods e.periodId)
    (hcl : allowClosed = false → NotIn .closed db.periods e.periodId) :
    PeriodLog (entries ++ [(allowClosed, e)]) (log ++ [.insertEntry e]) db where
  free w hw := by
    rcases mem_snoc.mp hw with hw | rfl
    · exact h.free w hw
    · trivial
  inserted w hw e' he' := by
    rw [map_append]
    rcases mem_append.mp hw with hw | hw
    · exact mem_append_left _ (h.inserted w hw e' he')
    · rw [mem_singleton.mp hw] at he'
      cases he'
      exact mem_append_right _ mem_cons_self
  logged x hx := by
    rcases mem_snoc.mp hx with hx | rfl
    · exact mem_append_left _ (h.logged x hx)
    · exact mem_append_right _ mem_cons_self
  locked x hx := by
    rcases mem_append.mp hx with hx | hx
    · exact h.locked x hx
    · rwa [mem_singleton.mp hx]
  closed x hx hall := by
    rcases mem_append.mp hx with hx | hx
    · exact h.closed x hx hall
    · rw [mem_singleton.mp hx] at hall ⊢
      exact hcl hall

end Log

/-- The statements that write neither entries nor periods. -/
def Query.Quiet : Query → Prop
  | .insertEntry _ | .insertPeriod _ _ | .transition _ => False
  | _ => True

theorem Query.Quiet.writes {q : Query} (hq : q.Quiet) (committed view : AccountingDb) (n : ℕ) :
    ∀ w ∈ (exec chart q committed view n).1, w.PeriodFree ∧ w.entry = none := by
  intro w hw
  cases q with
  | insertEntry | insertPeriod | transition => exact hq.elim
  | coveringPeriod | systemAccount | entryBalanced | entryRow | entryLines | entryTotal | findEntry
  | assertBalanced | deferredBalance | findPeriod | getPeriod => cases hw
  | insertLine =>
    obtain ⟨l, -, rfl⟩ := mem_logged hw
    exact ⟨trivial, rfl⟩
  | insertSwapped =>
    obtain ⟨l, -, rfl⟩ := mem_map.mp hw
    exact ⟨trivial, rfl⟩
  | markReversed =>
    obtain ⟨-, rfl⟩ := mem_loggedMark hw
    exact ⟨trivial, rfl⟩

section Safe

variable {entries : List (Bool × JournalEntry)} {held : Set LockKey} {log : List Write}
  {db : AccountingDb} {n : ℕ} {next : PostedEntry → Txn chart}

theorem safe_quiet (q : Query) (hq : q.Quiet) {next : Reply q → Txn chart}
    (h : PeriodLog entries log db)
    (hnx : ∀ r log' db' n', PeriodLog entries log' db' →
      (periodContract chart).Safe (next r) held log' db' n') :
    (periodContract chart).Safe (.query q next) held log db n := fun db' n' _ hr _ _ ↦
  hnx _ _ db' (n' + 1) ((h.rely hr).append (hq.writes _ _ _))

/-- The status that the guard has let through is still right when the entry is inserted. -/
theorem safe_resolve_insert {date : ℤ} {new : Uuid → NewEntry} (hnew : ∀ i, (new i).periodId = i)
    {next : JournalEntry → Txn chart} (h : PeriodLog entries log db)
    (hnx : ∀ e log' db' n', PeriodLog (entries ++ [(allowClosed, e)]) log' db' →
      (periodContract chart).Safe (next e) held log' db' n') : (periodContract chart).Safe
      (resolvePostingPeriod chart date allowClosed fun i ↦ .query (.insertEntry (new i)) next)
      held log db n := by
  intro db1 n1 _ hr1 hinv1 _
  have h1 : PeriodLog entries log db1 := h.rely hr1
  change (periodContract chart).Safe (guardPeriod chart allowClosed _ _) held (log ++ []) db1
    (n1 + 1)
  rw [append_nil]
  refine safe_guardPeriod _ fun p hp hlck hcl db2 n2 _ hr2 _ _ ↦ ?_
  have hp : p ∈ db1.periods := by
    have hvw := mem_of_find?_eq_some hp
    rwa [periods_replay_of_periodFree db1 h1.free] at hvw
  -- the primary key: the guard has seen the status of the only period with this id
  have hun : ∀ {status}, p.status ≠ status → NotIn status db1.periods p.id :=
    fun hne p' hp' hid ↦ inj_on_of_nodup_map hinv1.nodup hp' hp hid ▸ hne
  have huse : p.id ∈ periodsInUse
      (⟨held, log, .query (.insertEntry (new p.id)) next⟩ : Local (schema chart)) := by
    refine mem_append_right _ ?_
    rw [nextEntry, Option.toList_some, map_singleton, hnew]
    exact mem_cons_self
  refine hnx _ _ db2 (n2 + 1) ((h1.rely hr2).insertEntry ?_ fun hall ↦ ?_)
  · change NotIn .locked db2.periods (new p.id).periodId
    rw [hnew]
    exact hr2.notIn (.inr rfl) huse (hun hlck)
  · change NotIn .closed db2.periods (new p.id).periodId
    rw [hnew]
    refine hr2.notIn (.inl rfl) huse (hun fun hst ↦ ?_)
    rw [hcl hst] at hall
    cases hall

private theorem safe_postLines_period {cur : Uuid} {lns : List PostLine} {posted : List JournalLine}
    {next : List JournalLine → Txn chart} (h : PeriodLog entries log db)
    (hnx : ∀ lines log' db' n', PeriodLog entries log' db' →
      (periodContract chart).Safe (next lines) held log' db' n') :
    (periodContract chart).Safe (postLines chart cur lns posted next) held log db n := by
  induction lns generalizing posted log db n with
  | nil => exact hnx posted log db n h
  | cons ln lns ih =>
    have hln : ∀ accountId log' db' n', PeriodLog entries log' db' →
        (periodContract chart).Safe (.query (.insertLine _) (answerLine chart fun l ↦
          postLines chart cur lns (posted ++ [l]) next)) held log' db' n' :=
      fun accountId log' db' n' h' ↦
        safe_quiet (.insertLine ⟨cur, accountId, money0 ln.debit, money0 ln.credit, ln.stationId,
          ln.memo⟩) trivial h' fun
          | .error _, _, _, _, _ => trivial
          | .ok _, _, _, _, h'' => ih h''
    simp only [postLines, resolveAccount]
    split
    next id _ => exact hln id log db n h
    · refine safe_quiet (.systemAccount ln.systemKey) trivial h fun r log' db' n' h' ↦ ?_
      cases r with
      | none => trivial
      | some id => exact hln id log' db' n' h'

private theorem safe_getEntry_period (h : PeriodLog entries log db)
    (hnx : ∀ p log' db' n', PeriodLog entries log' db' →
      (periodContract chart).Safe (next p) held log' db' n') :
    (periodContract chart).Safe (getEntry chart id next) held log db n := by
  refine safe_quiet (.entryRow id) trivial h fun r log1 db1 n1 h1 ↦ ?_
  cases r with
  | none => trivial
  | some e =>
    exact safe_quiet (.entryLines id) trivial h1 fun lines log2 db2 n2 h2 ↦
      safe_quiet (.entryTotal id) trivial h2 fun total log3 db3 n3 h3 ↦
        hnx ⟨e, lines, total⟩ log3 db3 n3 h3

private theorem safe_updateReversed_period {orig rev : Uuid} {next : Txn chart}
    (h : PeriodLog entries log db)
    (hnx : ∀ held' log' db' n', PeriodLog entries log' db' →
      (periodContract chart).Safe next held' log' db' n') :
    (periodContract chart).Safe (updateReversed chart orig rev next) held log db n := by
  refine safe_quiet (.findEntry orig) trivial h fun (found : Bool) log1 db1 n1 h1 ↦ ?_
  cases found with
  | false => exact hnx held log1 db1 n1 h1
  | true =>
    intro db2 n2 _ hr2 _ _
    refine safe_quiet (.markReversed orig rev) trivial (h1.rely hr2) fun r log3 db3 n3 h3 ↦ ?_
    cases r with
    | error e => trivial
    | ok updated => exact hnx _ log3 db3 n3 h3

/-- A call adds one entry, which it answers with if it was made without `AllowClosed`. -/
theorem safe_call_period (call : JournalCall) (h : PeriodLog entries log db)
    (hnx : ∀ p e held' log' db' n', PeriodLog (entries ++ [(call.allowClosed, e)]) log' db' →
      (call.allowClosed = false → p.entry = e) →
      (periodContract chart).Safe (next p) held' log' db' n') :
    (periodContract chart).Safe (call.prog chart now next) held log db n := by
  cases call with
  | post input =>
    simp only [JournalCall.prog, postEntry]
    split
    · trivial
    · refine safe_resolve_insert (fun _ ↦ rfl) h fun e log1 db1 n1 h1 ↦
        safe_postLines_period h1 fun lines log2 db2 n2 h2 ↦
        safe_quiet (.entryBalanced e.id) trivial h2 fun reply log3 db3 n3 h3 ↦ ?_
      unfold answerPosted
      split
      · exact hnx _ e held log3 db3 n3 h3 fun _ ↦ rfl
      · trivial
  | reverse entry postedBy memo =>
    simp only [JournalCall.prog, reverseEntry]
    refine safe_getEntry_period h fun orig log1 db1 n1 h1 ↦ ?_
    split
    · trivial
    · refine safe_resolve_insert (fun _ ↦ rfl) h1 fun rev log2 db2 n2 h2 ↦
        safe_quiet (.insertSwapped _ _) trivial h2 fun _ log3 db3 n3 h3 ↦
        safe_updateReversed_period h3 fun held' log4 db4 n4 h4 ↦
        safe_getEntry_period h4 fun p log5 db5 n5 h5 ↦ ?_
      exact hnx p rev held' log5 db5 n5 h5 nofun

/-- The calls made without `AllowClosed` answer with entries the transaction has inserted. -/
def Accounted (entries : List (Bool × JournalEntry)) (posted : List (JournalCall × PostedEntry)) :
    Prop :=
  ∀ x ∈ posted, x.1.allowClosed = false → (false, x.2.entry) ∈ entries

private theorem safe_deferred_period {ids : List Uuid} (h : PeriodLog entries log db)
    (hacc : Accounted entries posted) :
    (periodContract chart).Safe (deferred chart (.commit (.journal posted)) ids) held log db n := by
  induction ids generalizing log db n with
  | nil =>
    intro db' n' _ hr hinv _
    have h' : PeriodLog entries log db' := h.rely hr
    refine ⟨fun p hp ↦ (h'.free _ hp).elim, ?_, ⟨fun w hw e he ↦ ?_, fun x hx hall ↦ ?_⟩⟩
    · have hper : (replay (S := schema chart) db' log).periods = db'.periods :=
        periods_replay_of_periodFree db' h'.free
      exact ⟨hper ▸ hinv.nodup, hper ▸ hinv.drawn⟩
    · obtain ⟨x, hx, rfl⟩ := mem_map.mp (h'.inserted w hw e he)
      exact h'.locked x hx
    · exact ⟨h'.logged _ (hacc x hx hall), h'.closed _ (hacc x hx hall) rfl⟩
  | cons id ids ih =>
    refine safe_quiet (.assertBalanced id) trivial h fun r log' db' n' h' ↦ ?_
    cases r with
    | error e => trivial
    | ok _ => exact ih h'

theorem safe_journalTxn_period {calls : List JournalCall} (h : PeriodLog entries log db)
    (hacc : Accounted entries posted) :
    (periodContract chart).Safe (journalTxn chart now calls posted) held log db n := by
  induction calls generalizing entries posted held log db n with
  | nil => exact safe_deferred_period h hacc
  | cons call calls ih =>
    refine safe_call_period call h fun p e held' log' db' n' h' heq ↦ ih h' fun x hx hall ↦ ?_
    rcases mem_append.mp hx with hx | hx
    · exact mem_append_left _ (hacc x hx hall)
    · rw [mem_singleton.mp hx] at hall ⊢
      rw [heq hall, hall]
      exact mem_append_right _ mem_cons_self

private theorem insertPeriod_eq_ok (h : insertPeriod db n startDate endDate = .ok p) :
    p.id = n ∧ p.status = .opened := by
  simp only [Accounting.insertPeriod] at h
  split at h
  · split at h
    · cases h
    · cases h
      exact ⟨rfl, rfl⟩
  · cases h

/-- The new period commits: the lock on the index has kept its id fresh. -/
theorem safe_commit_insertPeriod (hop : p.status = .opened) (hdr : p.id < n)
    (hfr : p.id ∉ periodIds db.periods) (hhd : .periods ∈ held) :
    (periodContract chart).Safe (.commit (.period p)) held [.insertPeriod p] db n := by
  intro db' n' hn hr hinv _
  have hids : periodIds db'.periods = periodIds db.periods := hr.ids hhd
  rw [← hids] at hfr
  refine ⟨fun p' hp' ↦ ?_, ⟨?_, ?_⟩, ⟨fun w hw e he ↦ ?_, fun x hx ↦ by cases hx⟩⟩
  · cases mem_singleton.mp hp'
    exact ⟨hop, hhd⟩
  · change ((db'.periods ++ [p]).map _).Nodup
    rw [map_append]
    exact hinv.nodup.append (nodup_singleton _) (by simpa using hfr)
  · intro p' hp'
    rcases mem_snoc.mp hp' with hp' | rfl
    · exact hinv.drawn p' hp'
    · exact hdr.trans_le hn
  · rw [mem_singleton.mp hw] at he
    cases he

private theorem safe_createPeriod_period :
    (periodContract chart).Safe (createPeriod chart startDate endDate) ∅ [] db n := by
  intro db1 n1 _ _ _ _
  refine Contract.safe_query fun db2 n2 _ _ hinv2 _ ws r hout ↦ ?_
  obtain ⟨e, -, rfl, rfl⟩ | ⟨p, hres, rfl, rfl⟩ := logged_eq hout
  · cases e <;> trivial
  obtain ⟨rfl, hop⟩ := insertPeriod_eq_ok hres
  refine safe_commit_insertPeriod hop (lt_succ_self _) (fun hmem ↦ ?_) (mem_insert _ _)
  obtain ⟨p', hp', hid⟩ := mem_map.mp hmem
  exact (hinv2.drawn p' hp').ne hid

private theorem safe_refuseTransition_period :
    (periodContract chart).Safe (refuseTransition chart id) held log db n := by
  intro db1 n1 _ _ _ _
  cases (exec chart (.getPeriod id) db1 (replay (S := schema chart) db1 log) n1).2 <;> trivial

private theorem safe_commit_setPeriod :
    (periodContract chart).Safe (.commit (.period p)) held [.setPeriod p] db n := by
  intro db' n' _ _ hinv _
  have hids : periodIds (replay (S := schema chart) db' [.setPeriod p]).periods
      = periodIds db'.periods := periodIds_replay db' (by simp)
  refine ⟨fun p' hp' ↦ by simp at hp', ⟨hids ▸ hinv.nodup, fun p' hp' ↦ ?_⟩,
    ⟨fun w hw e he ↦ ?_, fun x hx ↦ by cases hx⟩⟩
  · have hid : p'.id ∈ periodIds db'.periods := hids ▸ mem_map_of_mem hp'
    obtain ⟨p0, hp0, hid0⟩ := mem_map.mp hid
    exact hid0 ▸ hinv.drawn p0 hp0
  · rw [mem_singleton.mp hw] at he
    cases he

private theorem safe_transition_period {t : Transition} :
    (periodContract chart).Safe (transition chart t) ∅ [] db n := by
  intro db1 n1 _ _ _ _
  change (periodContract chart).Safe (if (t.find db1).isSome then _ else _) ∅ [] db1 (n1 + 1)
  split
  · intro db2 n2 _ _ _ _ db3 n3 _ _ _ _
    change (periodContract chart).Safe (answerPeriod chart t.id ((t.find db3).map t.apply)) _
      ((t.find db3).map fun p ↦ Write.setPeriod (t.apply p)).toList db3 (n3 + 1)
    cases t.find db3 with
    | none => exact safe_refuseTransition_period
    | some p => exact safe_commit_setPeriod
  · exact safe_refuseTransition_period

end Safe

theorem safe_op_period (op : Op) {db : AccountingDb} {n : ℕ} :
    (periodContract chart).Safe (op.prog chart) ∅ [] db n := by
  cases op with
  | journal now calls =>
    exact safe_journalTxn_period (periodLog_nil db) fun x hx ↦ by cases hx
  | createPeriod startDate endDate => exact safe_createPeriod_period
  | transition edge id actorId now => exact safe_transition_period

/-! ## Every run

If no transaction that closes or locks a period commits while another one has the period in use for
an entry, every entry is committed into a period that was neither locked nor, unless allowed,
closed. -/

variable {T : Type} [DecidableEq T]

/-- If no transition that closes or locks a period commits while another transaction has the period
in use, no entry commits into a locked period and none without `AllowClosed` into a closed one. -/
theorem periodLockLaw_of_apart (chart : Chart) {ops : T → Op} {db : AccountingDb} {n : ℕ}
    (hkey : (periodIds db.periods).Nodup) (hdrawn : ∀ p ∈ db.periods, p.id < n)
    {s : State (schema chart) T}
    (hreach : Reach (State.Apart ShutsInUse)
      (State.init (S := schema chart) db n fun t ↦ (ops t).prog chart) s) : PeriodLockLaw s :=
  (Contract.sound periodContract_suits ⟨hkey, hdrawn⟩ (fun t ↦ safe_op_period (ops t)) hreach).2

/-- A posting without `AllowClosed`, and the two transitions that close and lock its period. -/
def postAndShut : Fin 3 → Op
  | 0 => .journal 0 [smallPost 20 1 3 (.finite 100) false]
  | 1 => .transition .closePeriod 0 9 1
  | 2 => .transition .lockPeriod 0 9 2

/-- In turn, the entry, the close and the lock all commit. -/
theorem periodLockLaw_of_apart_inTurn :
    ∃ s : State (schema smallChart) (Fin 3),
      Reach (State.Apart ShutsInUse) (openingState smallChart [smallPeriod .closing] 1 postAndShut)
        s ∧ s.commits.length = 3 ∧ PeriodLockLaw s := by
  refine exists_and_imp (fun s ↦ s.commits.length = 3)
    (exists_of_runs (turns [(0, 7), (1, 4), (2, 4)]) (by decide +kernel)) ?_
  rintro _ hrch hcom
  exact ⟨hcom, periodLockLaw_of_apart smallChart (by decide) (by decide) hrch⟩

/-- The period is closed and locked between the guard of the posting and its insert. -/
theorem not_periodLockLaw_of_shut_in_window :
    ∃ s : State (schema smallChart) (Fin 3),
      Reach (fun _ _ ↦ True) (openingState smallChart [smallPeriod .closing] 1 postAndShut) s ∧
        ¬PeriodLockLaw s :=
  exists_of_runs (turns [(0, 1), (1, 4), (2, 4), (0, 6)]) (by decide +kernel)

end FuelGrid.Accounting
