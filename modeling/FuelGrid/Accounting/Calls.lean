import FuelGrid.Accounting.Journal
import FuelGrid.Sql.Embed
import FuelGrid.Sql.Refusals
import FuelGrid.Sql.Select

/-!
# Calls of the journal

Most entries are posted by a handler that writes its own tables in the same transaction. Such a
handler calls `PostEntry` or `ReverseEntry` (`postCall`, `reverseCall`), refuses the request with
the answer of `journalErrorResponse` when the call fails, and goes on with the entry otherwise. When
the transaction commits, the deferred trigger checks the entries that it has inserted lines for
(`deferredBalance`). The schema of such a handler is `Ledgered`.
-/

namespace FuelGrid.Accounting

open Sql

variable (chart : Chart) {entry : Uuid} {lns : List PostLine} {input : PostEntryInput} {n n' : ℕ}
  {log : List Write} {next : List JournalLine → Txn chart} {now : ℤ}

/-- `PostEntry`, answered with the entry. -/
def postCall (input : PostEntryInput) (now : ℤ) : Txn chart :=
  postEntry chart input now fun e ↦ .commit (.journal [(.post input, e)])

/-- `ReverseEntry`, answered with the reversal. -/
def reverseCall (entry postedBy : Uuid) (memo : Option String) (now : ℤ) : Txn chart :=
  reverseEntry chart entry postedBy memo now fun e ↦
    .commit (.journal [(.reverse entry postedBy memo, e)])

/-- The entry of a call that was answered. -/
def AccountingResult.entry? : AccountingResult → Option PostedEntry
  | .journal ((_, e) :: _) => some e
  | _ => none

def journalErrorResponse : AccountingError → ℕ × String
  | .errUnbalanced => (422, "entry debits do not equal credits")
  | .errNoLines => (400, "entry has no lines")
  | .errNoPeriod => (422, "no accounting period covers this date")
  | .errPeriodClosed => (409, "the period is closed")
  | .errPeriodLocked => (409, "the period is locked")
  | .errSystemAccount =>
    (400, "a referenced system account is not configured; seed the chart of accounts")
  | _ => (500, "internal error")

/-! ## What a posted entry adds

What a caller knows of a call that was answered is `Posts`: one entry was inserted, with one line
for each line of the input, on the account the line names and with its amounts rounded to cents. -/

/-- The active account with a system key. -/
def Chart.systemAccount (key : String) : Option Uuid :=
  (chart.accounts.find? fun a ↦ a.systemKey = some key ∧ a.status = .active).map (·.id)

theorem Chart.systemKey_eq {chart : Chart} {key key' : String} {id : Uuid}
    (h : chart.systemAccount key = some id) (h' : chart.systemAccount key' = some id) :
    key = key' := by
  obtain ⟨a, ha, hid⟩ := map_eq_some_iff.mp h
  obtain ⟨a', ha', hid'⟩ := map_eq_some_iff.mp h'
  obtain rfl : a = a' := inj_on_of_nodup_map chart.ids_nodup (mem_of_find?_eq_some ha)
    (mem_of_find?_eq_some ha') (hid.trans hid'.symm)
  have hkey := find?_some ha
  have hkey' := find?_some ha'
  simp only [decide_eq_true_eq] at hkey hkey'
  exact some.inj (hkey.1.symm.trans hkey'.1)

def PostLine.account (ln : PostLine) : Option Uuid :=
  match ln.accountId with
  | some id => some id
  | none => chart.systemAccount ln.systemKey

/-- What `PostEntry` makes of a line. -/
structure PostedLine (entry : Uuid) (ln : PostLine) (l : JournalLine) : Prop where
  entry : l.journalEntryId = entry
  account : ln.account chart = some l.accountId
  debit : (money0 ln.debit).store 14 2 = some l.debit
  credit : (money0 ln.credit).store 14 2 = some l.credit
  station : l.stationId = ln.stationId

/-- What an answered `PostEntry` has inserted, with ids drawn from `n` to `n'`. -/
structure Posts (input : PostEntryInput) (n n' : ℕ) (e : JournalEntry) (lines : List JournalLine) :
    Prop where
  le_id : n ≤ e.id
  id_lt : e.id < n'
  sourceType : e.sourceType = input.sourceType
  sourceId : e.sourceId = input.sourceId
  /-- The debits are not all zero. -/
  positive : 0 < totalDebit lines
  posted : Forall₂ (PostedLine chart e.id) input.lines lines

/-- What an error of `PostEntry` says about the set-up of the ledger. -/
structure Refused (base : AccountingDb) (input : PostEntryInput) (e : AccountingError) : Prop where
  account : e = .errSystemAccount → ∃ ln ∈ input.lines, ln.account chart = none
  period : e = .errNoPeriod →
    ∀ p ∈ base.periods, ¬(p.startDate ≤ input.entryDate ∧ input.entryDate ≤ p.endDate)

section Within

variable {chart} {Q : Except AccountingError AccountingResult × List Write × ℕ → Prop}
  {committed base : AccountingDb} {lines : List JournalLine} {e : JournalEntry}
  {station : Option Uuid}

def Write.line? : Write → Option JournalLine
  | .insertLine l => some l
  | _ => none

theorem lines_replay_eq (db : AccountingDb) (ws : List Write) :
    (replay (S := schema chart) db ws).lines = db.lines ++ ws.filterMap Write.line? := by
  refine replay_rows (S := schema chart) AccountingDb.lines Write.line? (fun db w ↦ ?_) db ws
  rcases w with _ | _ | _ | _ | _
  case insertLine => rfl
  all_goals exact (append_nil _).symm

theorem lines_posted (db : AccountingDb) (e : JournalEntry) (lines : List JournalLine) :
    (replay (S := schema chart) db (.insertEntry e :: lines.map .insertLine)).lines
      = db.lines ++ lines := by
  rw [lines_replay_eq, List.filterMap_cons_none rfl, filterMap_map]
  exact congrArg (db.lines ++ ·) List.filterMap_some

theorem entries_posted (db : AccountingDb) (e : JournalEntry) (lines : List JournalLine) :
    (replay (S := schema chart) db (.insertEntry e :: lines.map .insertLine)).entries
      = db.entries ++ [e] := by
  suffices h : ∀ db' : AccountingDb,
      (replay (S := schema chart) db' (lines.map .insertLine)).entries = db'.entries from h _
  induction lines with
  | nil => exact fun _ ↦ rfl
  | cons l lines ih => exact fun _ ↦ ih _

private theorem linesOf_new (hold : ∀ l ∈ base.lines, l.journalEntryId < e.id)
    (hnew : ∀ l ∈ lines, l.journalEntryId = e.id) :
    linesOf (replay (S := schema chart) base (.insertEntry e :: lines.map .insertLine)).lines e.id
      = lines := by
  rw [lines_posted, linesOf, filter_append,
    filter_eq_nil_iff.mpr fun l hl hid ↦ (hold l hl).ne (of_decide_eq_true hid),
    filter_eq_self.mpr fun l hl ↦ decide_eq_true (hnew l hl)]
  rfl

theorem PostedLine.entry_of_forall₂ (h : Forall₂ (PostedLine chart entry) lns lines) :
    ∀ l ∈ lines, l.journalEntryId = entry := by
  induction h with
  | nil => exact nofun
  | cons hl _ ih => exact forall_mem_cons.mpr ⟨hl.entry, ih⟩

def amountPair (debit credit : String) (amount : Money) (station : Option Uuid) : List PostLine := [
  { systemKey := debit, debit := some (.ofUnits 2 amount),
    credit := some (.finite 0), stationId := station },
  { systemKey := credit, debit := some (.finite 0),
    credit := some (.ofUnits 2 amount), stationId := station }]

theorem PostedLine.pair {debit credit : String} {amount : Money}
    (h : Forall₂ (PostedLine chart entry) (amountPair debit credit amount station) lines) :
    ∃ d c, lines = [d, c] ∧ chart.systemAccount debit = some d.accountId ∧
      chart.systemAccount credit = some c.accountId ∧
      d.debit = amount ∧ d.credit = 0 ∧ c.debit = 0 ∧ c.credit = amount := by
  obtain ⟨d, rest, hd, hrest, rfl⟩ := forall₂_cons_left_iff.mp h
  obtain ⟨c, rest, hc, hnil, rfl⟩ := forall₂_cons_left_iff.mp hrest
  obtain rfl := forall₂_nil_left_iff.mp hnil
  have hz : ∀ {u}, (Numeric.finite 0).store 14 2 = some u → u = 0 := fun hu ↦
    store_ofUnits (ofUnits_zero 2 ▸ hu)
  exact ⟨d, c, rfl, hd.account, hc.account, store_ofUnits hd.debit, hz hd.credit,
    hz hc.debit, store_ofUnits hc.credit⟩

theorem PostedLine.station_of_forall₂ (h : Forall₂ (PostedLine chart entry) lns lines)
    (hlns : ∀ ln ∈ lns, ln.stationId = station) : ∀ l ∈ lines, l.stationId = station := by
  induction h with
  | nil => exact nofun
  | cons hl _ ih =>
    rw [forall_mem_cons] at hlns
    exact forall_mem_cons.mpr ⟨hl.station.trans hlns.1, ih hlns.2⟩

theorem Posts.lines_lt (h : Posts chart input n n' e lines) :
    ∀ l ∈ lines, l.journalEntryId < n' := by
  intro l hl
  rw [PostedLine.entry_of_forall₂ h.posted l hl]
  exact h.id_lt

theorem Posts.mono {m m' : ℕ} (h : Posts chart input n n' e lines) (hn : m ≤ n) (hn' : n' ≤ m') :
    Posts chart input m m' e lines :=
  { h with le_id := hn.trans h.le_id, id_lt := h.id_lt.trans_le hn' }

private theorem within_resolveAccount {ln : PostLine} {next : Uuid → Txn chart}
    (hfl : ∀ n', ln.account chart = none → Q (.error .errSystemAccount, log, n'))
    (hnx : ∀ id n', n ≤ n' → ln.account chart = some id →
      Q ((next id).within committed base log n')) :
    Q ((resolveAccount chart ln next).within committed base log n) := by
  unfold resolveAccount
  rcases hid : ln.accountId with _ | id
  · refine Prog.within_reply rfl fun r hr ↦ ?_
    have hacc : ln.account chart = r := by
      rw [PostLine.account, hid]
      exact hr
    rcases r with _ | id
    · exact hfl _ hacc
    · exact hnx id _ (le_succ n) hacc
  · exact hnx id n le_rfl (by rw [PostLine.account, hid])

private theorem within_postLines (posted : List JournalLine) (hfl : ∀ e ws n', e ≠ .errNoPeriod →
      (e = .errSystemAccount → ∃ ln ∈ lns, ln.account chart = none) → Q (.error e, ws, n'))
    (hnx : ∀ lines n', n ≤ n' → Forall₂ (PostedLine chart entry) lns lines →
      Q ((next (posted ++ lines)).within committed base (log ++ lines.map .insertLine) n')) :
    Q ((postLines chart entry lns posted next).within committed base log n) := by
  induction lns generalizing posted log n with
  | nil =>
    have := hnx [] n le_rfl .nil
    rwa [map_nil, append_nil, append_nil] at this
  | cons ln lns ih =>
    refine within_resolveAccount (fun n' hno ↦ ?_) fun account n' hn hacc ↦ ?_
    · exact hfl _ _ _ (by decide) fun _ ↦ ⟨ln, mem_cons_self, hno⟩
    refine Prog.within_step fun ws r hout ↦ ?_
    obtain ⟨e, -, rfl, rfl⟩ | ⟨l, hins, rfl, rfl⟩ := logged_eq hout
    · exact hfl _ _ _ (by simp) nofun
    obtain ⟨hent, hid, hstn, -, hdb, hcr⟩ := insertLine_eq_ok hins
    have hl : PostedLine chart entry ln l :=
      ⟨hent, hacc.trans (congrArg some hid.symm), hdb, hcr, hstn⟩
    refine ih (posted ++ [l]) (fun e ws n' hper hacc ↦ hfl e ws n' hper fun h ↦ ?_)
      fun lines n' hn' hlns ↦ ?_
    · obtain ⟨ln', hln', hno⟩ := hacc h
      exact ⟨ln', mem_cons_of_mem _ hln', hno⟩
    · rw [append_assoc, append_assoc]
      exact hnx (l :: lines) n' (by omega) (.cons hl hlns)

/-- `PostEntry` fails, or has inserted the entry with its lines. -/
theorem within_postCall (hold : ∀ l ∈ base.lines, l.journalEntryId < n)
    (hfl : ∀ e ws n', Refused chart base input e → Q (.error e, ws, n'))
    (hok : ∀ e lines n', Posts chart input n n' e lines →
      Q (.ok (.journal [(.post input, ⟨e, lines, totalDebit lines⟩)]),
        .insertEntry e :: lines.map .insertLine, n')) :
    Q ((postCall chart input now).within committed base [] n) := by
  have hoth : ∀ e : AccountingError, e ≠ .errSystemAccount → e ≠ .errNoPeriod →
      Refused chart base input e := fun e h h' ↦ ⟨fun heq ↦ absurd heq h, fun heq ↦ absurd heq h'⟩
  rw [postCall, postEntry]
  split
  · exact hfl _ _ _ (hoth _ (by decide) (by decide))
  refine Prog.within_reply rfl fun period hper ↦ ?_
  have hper : base.periods.find?
    (fun p ↦ p.startDate ≤ input.entryDate ∧ input.entryDate ≤ p.endDate) = period := hper
  refine guardPeriod_cases (P := fun p ↦ Q (p.within committed base [] (n + 1))) period
    (fun hno ↦ ?_) (hfl _ _ _ (hoth _ (by decide) (by decide)))
    (hfl _ _ _ (hoth _ (by decide) (by decide))) fun p _ _ _ ↦ ?_
  · refine hfl _ _ _ ⟨nofun, fun _ p hp ↦ ?_⟩
    simpa using List.find?_eq_none.mp (hper.trans hno) p hp
  refine Prog.within_step fun ws e hout ↦ ?_
  cases hout
  refine within_postLines [] (fun e ws n' hne hacc ↦ hfl e ws n' ⟨hacc, fun h ↦ absurd h hne⟩)
    fun lines n' hn hlns ↦ ?_
  refine Prog.within_reply rfl fun balanced hbal ↦ ?_
  -- the check sees the lines that the loop has inserted
  have hlinesOf : linesOf (replay (S := schema chart) base
      (.insertEntry (insertEntry (n + 1) (input.newEntry p.id now)) ::
        lines.map .insertLine)).lines (n + 1) = lines :=
    linesOf_new (fun l hl ↦ (hold l hl).trans (lt_succ_self n)) (PostedLine.entry_of_forall₂ hlns)
  have hbal : (decide (totalDebit (linesOf _ (n + 1)) = totalCredit (linesOf _ (n + 1)) ∧
    0 < totalDebit (linesOf _ (n + 1))), totalDebit (linesOf _ (n + 1))) = balanced := hbal
  rw [nil_append, singleton_append, hlinesOf] at hbal
  subst hbal
  rw [answerPosted]
  split
  next hpos =>
    exact hok _ lines _
      ⟨le_succ n, hn.trans (le_succ n'), rfl, rfl, (of_decide_eq_true hpos).2, hlns⟩
  · exact hfl _ _ _ (hoth _ (by decide) (by decide))

end Within

/-- What a call of `PostEntry` has inserted when it is answered, whatever its statements found. -/
def Posted (input : PostEntryInput) (ws : List Write) :
    Except AccountingError AccountingResult → Prop
  | .error _ => True
  | .ok a => ∃ e, a.entry? = some e ∧ ws = .insertEntry e.entry :: e.lines.map .insertLine ∧
      Forall₂ (PostedLine chart e.entry.id) input.lines e.lines

section Answers

variable {chart} {W : List Write → Except AccountingError AccountingResult → Prop}

private theorem answers_resolveAccount {ln : PostLine} {next : Uuid → Txn chart}
    (hfl : ∀ e, W log (.error e))
    (hnx : ∀ id, ln.account chart = some id → (next id).Answers W log) :
    (resolveAccount chart ln next).Answers W log := by
  unfold resolveAccount
  rcases hid : ln.accountId with _ | id
  · refine Prog.answers_step fun committed view n ws r hout ↦ ?_
    obtain ⟨rfl, hr⟩ := Prod.mk.inj hout
    rw [append_nil]
    have hacc : ln.account chart = r := by
      rw [PostLine.account, hid]
      exact hr
    rcases r with _ | id
    · exact hfl _
    · exact hnx id hacc
  · exact hnx id (by rw [PostLine.account, hid])

private theorem answers_postLines (posted : List JournalLine)
    (hfl : ∀ (lines : List JournalLine) e, W (log ++ lines.map .insertLine) (.error e))
    (hnx : ∀ lines, Forall₂ (PostedLine chart entry) lns lines →
      (next (posted ++ lines)).Answers W (log ++ lines.map .insertLine)) :
    (postLines chart entry lns posted next).Answers W log := by
  induction lns generalizing posted log with
  | nil =>
    have := hnx [] .nil
    rwa [map_nil, append_nil, append_nil] at this
  | cons ln lns ih =>
    have hno : ∀ e, W log (.error e) := fun e ↦ append_nil log ▸ hfl [] e
    refine answers_resolveAccount hno fun account hacc ↦ ?_
    refine Prog.answers_step fun committed view n ws r hout ↦ ?_
    obtain ⟨e, -, rfl, rfl⟩ | ⟨l, hins, rfl, rfl⟩ := logged_eq hout
    · exact hfl [] _
    obtain ⟨hent, hid, hstn, -, hdb, hcr⟩ := insertLine_eq_ok hins
    have hl : PostedLine chart entry ln l :=
      ⟨hent, hacc.trans (congrArg some hid.symm), hdb, hcr, hstn⟩
    refine ih (posted ++ [l]) (fun lines e ↦ ?_) fun lines hlns ↦ ?_
    · rw [append_assoc]
      exact hfl (l :: lines) e
    · rw [append_assoc, append_assoc]
      exact hnx (l :: lines) (.cons hl hlns)

/-- In any interleaving, `PostEntry` inserts nothing or one entry with lines, and if it is answered
with the lines of the input. -/
theorem answers_postCall_of (input : PostEntryInput) (now : ℤ) (hnil : ∀ e, W [] (.error e))
    (hfl : ∀ e (lines : List JournalLine) err,
      W (.insertEntry e :: lines.map .insertLine) (.error err))
    (hok : ∀ e, Forall₂ (PostedLine chart e.entry.id) input.lines e.lines →
      W (.insertEntry e.entry :: e.lines.map .insertLine) (.ok (.journal [(.post input, e)]))) :
    (postCall chart input now).Answers W [] := by
  rw [postCall, postEntry]
  split
  · exact hnil _
  refine Prog.answers_read rfl fun period ↦ ?_
  refine guardPeriod_cases (P := (Prog.Answers (S := schema chart) W · [])) period (fun _ ↦ hnil _)
    (hnil _) (hnil _) fun p _ _ _ ↦ ?_
  refine Prog.answers_step fun committed view n ws e hout ↦ ?_
  cases hout
  refine answers_postLines [] (hfl _) fun lines hlns ↦ ?_
  refine Prog.answers_read rfl fun balanced ↦ ?_
  rw [answerPosted]
  split
  · exact hok ⟨_, lines, _⟩ hlns
  · exact hfl _ lines _

/-- In any interleaving, an answered `PostEntry` has inserted one entry with its lines. -/
theorem answers_postCall (input : PostEntryInput) (now : ℤ) :
    (postCall chart input now).Answers (Posted chart input) [] :=
  answers_postCall_of input now (fun _ ↦ trivial) (fun _ _ _ ↦ trivial) fun e hlns ↦
    ⟨e, rfl, rfl, hlns⟩

end Answers

/-- To go past `PostEntry`, take a failed call and the entry with its lines. -/
theorem yields_postCall {S : Schema} {P : Part (schema chart) S} {Q : S.Result → S.Db → ℕ → Prop}
    {k : Except AccountingError AccountingResult → Prog S} {db view : S.Db}
    (hold : ∀ l ∈ (P.part view).lines, l.journalEntryId < n)
    (hfl : ∀ e (ws : List Write) n', Refused chart (P.part view) input e →
      (k (.error e)).Yields db Q (replay view (ws.map P.write)) n')
    (hok : ∀ e lines n', Posts chart input n n' e lines →
      (k (.ok (.journal [(.post input, ⟨e, lines, totalDebit lines⟩)]))).Yields db Q
        (replay view ((Write.insertEntry e :: lines.map .insertLine).map P.write)) n') :
    ((postCall chart input now).call P k).Yields db Q view n := by
  rw [Prog.yields_call_eq]
  exact within_postCall
    (Q := fun out ↦ (k out.1).Yields db Q (replay view (out.2.1.map P.write)) out.2.2) hold hfl hok

/-! ## Handlers that post

A handler that posts an entry refuses the request with what the journal answers, or goes on with the
entry. Its commit runs the deferred trigger first. -/

/-- A schema with the general ledger among its tables. -/
class Ledgered (chart : outParam Chart) (S : Schema) extends Refusals S where
  ledger : Part (schema chart) S

section Ledgered

variable {chart} {S : Schema} [Ledgered chart S] {Q : S.Result → S.Db → ℕ → Prop} {db view : S.Db}
  {k : PostedEntry → Prog S} {a : S.Result}

/-- Go on with the entry of a call of the journal, or answer with its error. -/
def answerEntry (k : PostedEntry → Prog S) : Except AccountingError AccountingResult → Prog S
  | .error e => refuse (journalErrorResponse e).1 (journalErrorResponse e).2
  | .ok a => match a.entry? with
    | some e => k e
    | none => internalError

def post (input : PostEntryInput) (now : ℤ) (k : PostedEntry → Prog S) : Prog S :=
  (postCall chart input now).call Ledgered.ledger (answerEntry k)

def commit (a : S.Result) : Prog S :=
  .query (Ledgered.ledger.query .deferredBalance) fun r ↦
    match Ledgered.ledger.reply .deferredBalance r with
    | .error _ => internalError
    | .ok () => .commit a

theorem yields_commit (hQ : Q a view (n + 1)) : (commit a).Yields db Q view n := by
  refine yields_step fun ws r hout ↦ ?_
  have hws := Ledgered.ledger.exec_writes .deferredBalance db view n
  rw [hout] at hws
  obtain rfl : ws = [] := hws
  dsimp only
  split
  · trivial
  · exact hQ

/-- To go past a posting, take the entry with its lines as given. -/
theorem yields_post (hold : ∀ l ∈ (Ledgered.ledger.part view).lines, l.journalEntryId < n)
    (hok : ∀ e lines n' ledger, Posts chart input n n' e lines →
      ledger.lines = (Ledgered.ledger.part view).lines ++ lines →
      (k ⟨e, lines, totalDebit lines⟩).Yields db Q (Ledgered.ledger.put view ledger) n') :
    (post input now k).Yields db Q view n := by
  refine yields_postCall chart hold (fun _ _ _ _ ↦ trivial) fun e lines n' hpst ↦ ?_
  rw [Part.replay_write]
  exact hok e lines n' _ hpst (lines_posted _ e lines)

end Ledgered

end FuelGrid.Accounting

-- what the handlers that post to the journal use of it
namespace FuelGrid

export Accounting (AccountingDb AccountingError AccountingResult Chart JournalEntry JournalLine
  Ledgered PostEntryInput PostLine PostedEntry PostedLine Posts amountPair answerEntry commit
  journalErrorResponse lines_posted post postCall yields_commit
  yields_post)

end FuelGrid
