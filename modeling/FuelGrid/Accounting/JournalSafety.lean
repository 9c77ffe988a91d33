import FuelGrid.Accounting.Journal
import FuelGrid.Sql.RelyGuarantee

/-!
# The journal under concurrent transactions

What holds of the committed journal, whatever the transactions and however they interleave: keys are
unique, lines belong to entries and accounts that exist, each entry balances, and reversals are
paired with the entries they reverse.
-/

namespace FuelGrid.Accounting

open Sql

variable {chart : Chart} {i rev orig cur j : Uuid} {entries : List JournalEntry}
  {e e' : JournalEntry}

/-! ## Logs

A transaction's own rows are those its log inserts into an empty ledger (`own`). Replaying the log
annotates the committed entries and appends the own rows (`entries_replay`, `lines_replay`), so the
facts about a view split into facts about committed rows, which the others keep, and facts about the
log. -/

/-- The rows that a log inserts. -/
def own (log : List Write) : AccountingDb := log.foldl AccountingDb.apply ⟨[], [], []⟩

/-- The annotations that a log makes: the entry and its reversal. -/
def marks (log : List Write) : List (Uuid × Uuid) :=
  log.filterMap fun
    | .setReversed id rev => some (id, rev)
    | _ => none

/-- The entry after the annotations. -/
def annotate (ms : List (Uuid × Uuid)) (e : JournalEntry) : JournalEntry :=
  ms.foldl (fun e m ↦ if e.id = m.1 then e.markReversed m.2 else e) e

def entryIds (entries : List JournalEntry) : List Uuid := entries.map (·.id)

private theorem mem_entryIds : i ∈ entryIds entries ↔ ∃ e ∈ entries, e.id = i := mem_map

theorem eq_of_id_eq (h : (entryIds entries).Nodup) (he : e ∈ entries) (he' : e' ∈ entries)
    (hid : e.id = e'.id) : e = e' :=
  inj_on_of_nodup_map h he he' hid

@[simp] theorem markReversed_id (rev : Uuid) (e : JournalEntry) : (e.markReversed rev).id = e.id :=
  rfl

/-- The two entries differ in the annotation only. -/
def JournalEntry.SameBut (e e' : JournalEntry) : Prop :=
  e' = { e with status := e'.status, reversedByEntryId := e'.reversedByEntryId }

theorem JournalEntry.SameBut.reversesEntryId (h : e.SameBut e') :
    e'.reversesEntryId = e.reversesEntryId := by
  rw [h]

private theorem annotate_sameBut (ms : List (Uuid × Uuid)) (e : JournalEntry) :
    e.SameBut (annotate ms e) := by
  induction ms generalizing e with
  | nil => rfl
  | cons m ms ih =>
    rw [annotate, foldl_cons, ← annotate]
    by_cases h : e.id = m.1
    · rw [if_pos h]
      exact ih (e.markReversed m.2)
    · rw [if_neg h]
      exact ih e

@[simp] theorem annotate_id (ms : List (Uuid × Uuid)) (e : JournalEntry) :
    (annotate ms e).id = e.id := by
  rw [annotate_sameBut ms e]

private theorem annotate_of_notMem {ms : List (Uuid × Uuid)} (h : e.id ∉ ms.map Prod.fst) :
    annotate ms e = e := by
  induction ms with
  | nil => rfl
  | cons m ms ih =>
    rw [map_cons, mem_cons, not_or] at h
    rw [annotate, foldl_cons, if_neg h.1, ← annotate, ih h.2]

private theorem annotate_of_mem {ms : List (Uuid × Uuid)} (hnd : (ms.map Prod.fst).Nodup)
    (h : (e.id, rev) ∈ ms) : annotate ms e = e.markReversed rev := by
  induction ms with
  | nil => cases h
  | cons m ms ih =>
    obtain ⟨hm, hms⟩ := nodup_cons.mp hnd
    rw [annotate, foldl_cons, ← annotate]
    rcases mem_cons.mp h with rfl | h'
    · rw [if_pos rfl, annotate_of_notMem (show (e.markReversed rev).id ∉ _ from hm)]
    · have hne : e.id ≠ m.1 := fun heq ↦ hm (heq ▸ mem_map_of_mem h')
      rw [if_neg hne, ih hms h']

private theorem replay_concat (db : AccountingDb) (log : List Write) (w : Write) :
    replay (S := schema chart) db (log ++ [w])
      = (replay (S := schema chart) db log).apply w :=
  replay_append (S := schema chart) db log [w]

private theorem own_concat (log : List Write) (w : Write) : own (log ++ [w]) = (own log).apply w :=
  List.foldl_append

private theorem marks_append (log log' : List Write) :
    marks (log ++ log') = marks log ++ marks log' :=
  filterMap_append

theorem lines_replay (db : AccountingDb) (log : List Write) :
    (replay (S := schema chart) db log).lines = db.lines ++ (own log).lines := by
  induction log using List.reverseRecOn with
  | nil => exact (append_nil _).symm
  | append_singleton log w ih =>
    rw [replay_concat, own_concat]
    cases w with
    | insertLine l =>
      change (replay (S := schema chart) db log).lines ++ [l] = _
      rw [ih, append_assoc]
      rfl
    | insertEntry e | setReversed i r | insertPeriod p | setPeriod p => exact ih

theorem entries_replay (db : AccountingDb) (log : List Write) :
    (replay (S := schema chart) db log).entries
      = db.entries.map (annotate (marks log)) ++ (own log).entries := by
  induction log using List.reverseRecOn with
  | nil => exact ((append_nil _).trans (List.map_id _)).symm
  | append_singleton log w ih =>
    rw [replay_concat, own_concat, marks_append]
    cases w with
    | insertEntry e =>
      change (replay (S := schema chart) db log).entries ++ [e] = _
      rw [ih, append_assoc, show marks [.insertEntry e] = [] from rfl, append_nil]
      rfl
    | setReversed i r =>
      change (replay (S := schema chart) db log).entries.map _ = _
      rw [ih, map_append, map_map]
      refine congrArg (· ++ _) (map_congr_left fun e _ ↦ ?_)
      refine Eq.trans ?_ List.foldl_append.symm
      rfl
    | insertLine l | insertPeriod p | setPeriod p =>
      change (replay (S := schema chart) db log).entries = _
      rw [ih, show marks [_] = [] from rfl, append_nil]
      rfl

/-! ## Invariant, rely and assertion

Nothing but the immutability trigger keeps two transactions from reversing one entry. The read at
the start of `ReverseEntry` takes no lock, so both can pass it. The update that marks the original
entry locks its row, and the trigger looks at the row again when the lock is granted. The assertion
of a transaction in progress (`JournalLog`) therefore ties each mark in its log to the lock it
holds, and what it may rely on (`JournalRely`) is that a locked row does not change. -/

private theorem linesOf_append (lines lines' : List JournalLine) (i : Uuid) :
    linesOf (lines ++ lines') i = linesOf lines i ++ linesOf lines' i := filter_append ..

private theorem linesOf_eq_nil {lines : List JournalLine} {ids : List Uuid}
    (h : ∀ l ∈ lines, l.journalEntryId ∈ ids) (hi : i ∉ ids) : linesOf lines i = [] :=
  filter_eq_nil_iff.mpr fun l hl heq ↦ hi (by simpa using of_decide_eq_true heq ▸ h l hl)

def Balanced (lines : List JournalLine) (entry : Uuid) : Prop :=
  totalDebit (linesOf lines entry) = totalCredit (linesOf lines entry)

/-- `rev` has the lines of `orig` with debit and credit swapped. -/
def Swapped (lines : List JournalLine) (orig rev : Uuid) : Prop :=
  linesOf lines rev = (linesOf lines orig).map (·.swap rev)

theorem Swapped.congr {lines lines' : List JournalLine} (h : Swapped lines orig rev)
    (horig : linesOf lines' orig = linesOf lines orig)
    (hrev : linesOf lines' rev = linesOf lines rev) : Swapped lines' orig rev := by
  rw [Swapped, horig, hrev]
  exact h

variable (chart) (ok : Money → Prop)

/-- The lines belong to entries of `ids` and to accounts of the chart, and their amounts are
`ok`. -/
structure LinesFine (ids : List Uuid) (lines : List JournalLine) : Prop where
  refs : ∀ l ∈ lines, l.journalEntryId ∈ ids
  accounts : ∀ l ∈ lines, ∃ a ∈ chart.accounts, a.id = l.accountId
  amounts : ∀ l ∈ lines, ok l.debit ∧ ok l.credit

/-- What holds of the committed journal. -/
structure JournalInv (db : AccountingDb) (n : ℕ) : Prop where
  nodup : (entryIds db.entries).Nodup
  drawn : ∀ i ∈ entryIds db.entries, i < n
  lines : LinesFine chart ok (entryIds db.entries) db.lines
  balanced : ∀ e ∈ db.entries, Balanced db.lines e.id
  /-- An entry is posted, or reversed by an entry with its lines swapped. -/
  status : ∀ e ∈ db.entries, (e.status = .posted ∧ e.reversedByEntryId = none) ∨
    (e.status = .reversed ∧ ∃ r ∈ db.entries, e.reversedByEntryId = some r.id ∧
      r.reversesEntryId = some e.id ∧ Swapped db.lines e.id r.id)
  /-- A reversal is recorded on the entry it reverses. -/
  reverses : ∀ r ∈ db.entries, ∀ i, r.reversesEntryId = some i →
    ∃ e ∈ db.entries, e.id = i ∧ e.reversedByEntryId = some r.id

def Seen (log : List Write) (db : AccountingDb) (i : Uuid) : Prop :=
  i ∈ entryIds db.entries ∨ i ∈ entryIds (own log).entries

structure JournalRely (l : Local (schema chart)) (db db' : AccountingDb) : Prop where
  /-- Entries stay, and a locked one does not change. -/
  kept : ∀ e ∈ db.entries, ∃ e' ∈ db'.entries, e'.id = e.id ∧ (.entry e.id ∈ l.held → e' = e)
  /-- Nobody takes an id of its own entries. -/
  fresh : ∀ i ∈ entryIds (own l.log).entries, i ∉ entryIds db.entries → i ∉ entryIds db'.entries
  /-- Nobody adds lines to committed entries or to its own. -/
  lines : ∀ i, Seen l.log db i → linesOf db'.lines i = linesOf db.lines i

/-- What a transaction with the own rows `o` and the marks `ms` has done so far. `pending` is a
reversal whose original is not yet marked. -/
structure JournalRows (pending : Option Uuid) (held : Set LockKey) (o : AccountingDb)
    (ms : List (Uuid × Uuid)) (db : AccountingDb) (n : ℕ) : Prop where
  nodup : (entryIds o.entries).Nodup
  drawn : ∀ i ∈ entryIds o.entries, i < n
  fresh : ∀ i ∈ entryIds o.entries, i ∉ entryIds db.entries
  lines : LinesFine chart ok (entryIds o.entries) o.lines
  marks_nodup : (ms.map Prod.fst).Nodup
  /-- An entry is marked under its lock, while it is posted, with a reversal of its own. -/
  mark : ∀ i j, (i, j) ∈ ms → .entry i ∈ held ∧
    ((∃ e ∈ db.entries, e.id = i ∧ e.status = .posted ∧ e.reversedByEntryId = none) ∨
      i ∈ entryIds o.entries) ∧
    ∃ r ∈ o.entries, r.id = j ∧ r.reversesEntryId = some i ∧
      Swapped (db.lines ++ o.lines) i j
  status : ∀ e ∈ o.entries,
    (e.status = .posted ∧ e.reversedByEntryId = none ∧ e.id ∉ ms.map Prod.fst) ∨
    (e.status = .reversed ∧ ∃ j, e.reversedByEntryId = some j ∧ (e.id, j) ∈ ms)
  linked : ∀ r ∈ o.entries, ∀ i, r.reversesEntryId = some i →
    (i, r.id) ∈ ms ∨ pending = some r.id

/-- What a transaction with this log has done so far. -/
abbrev JournalLog (pending : Option Uuid) (held : Set LockKey) (log : List Write)
    (db : AccountingDb) (n : ℕ) : Prop :=
  JournalRows chart ok pending held (own log) (marks log) db n

variable {chart ok} {pending : Option Uuid} {held : Set LockKey} {log : List Write}
  {db db' : AccountingDb} {n n' : ℕ} {l : Local (schema chart)} {ids ids' : List Uuid}
  {lines lines' : List JournalLine} {r : JournalEntry}

theorem LinesFine.append (h : LinesFine chart ok ids lines) (h' : LinesFine chart ok ids' lines') :
    LinesFine chart ok (ids ++ ids') (lines ++ lines') where
  refs l hl := (mem_append.mp hl).elim (fun hl ↦ mem_append_left _ (h.refs l hl))
    fun hl ↦ mem_append_right _ (h'.refs l hl)
  accounts l hl := (mem_append.mp hl).elim (h.accounts l) (h'.accounts l)
  amounts l hl := (mem_append.mp hl).elim (h.amounts l) (h'.amounts l)

theorem JournalRely.seen (h : JournalRely chart l db db') (hi : Seen l.log db i) :
    Seen l.log db' i := by
  rcases hi with hold | hown
  · obtain ⟨e, he, rfl⟩ := mem_entryIds.mp hold
    obtain ⟨e', he', hid, -⟩ := h.kept e he
    exact .inl (mem_entryIds.mpr ⟨e', he', hid⟩)
  · exact .inr hown

theorem JournalRely.swapped (h : JournalRely chart l db db') (hi : Seen l.log db i)
    (hj : Seen l.log db j) (hswap : Swapped (db.lines ++ (own l.log).lines) i j) :
    Swapped (db'.lines ++ (own l.log).lines) i j := by
  refine hswap.congr ?_ ?_
  · rw [linesOf_append, linesOf_append, h.lines i hi]
  · rw [linesOf_append, linesOf_append, h.lines j hj]

theorem JournalRely.trans {db1 db2 db3 : AccountingDb} (h : JournalRely chart l db1 db2)
    (h' : JournalRely chart l db2 db3) : JournalRely chart l db1 db3 where
  kept e he := by
    obtain ⟨e', he', hid, heq⟩ := h.kept e he
    obtain ⟨e'', he'', hid', heq'⟩ := h'.kept e' he'
    refine ⟨e'', he'', hid'.trans hid, fun hhd ↦ ?_⟩
    rw [heq' (hid ▸ hhd), heq hhd]
  fresh i hi hnot := h'.fresh i hi (h.fresh i hi hnot)
  lines i hi := by
    rw [h'.lines i (h.seen hi), h.lines i hi]

theorem JournalLog.rely (h : JournalLog chart ok pending held log db n) {p : Txn chart}
    (hrely : JournalRely chart ⟨held, log, p⟩ db db') (hn : n ≤ n') :
    JournalLog chart ok pending held log db' n' where
  nodup := h.nodup
  drawn i hi := (h.drawn i hi).trans_le hn
  fresh i hi := hrely.fresh i hi (h.fresh i hi)
  lines := h.lines
  marks_nodup := h.marks_nodup
  mark i j hmem := by
    obtain ⟨hhd, htar, r, hr, hid, hrev, hswap⟩ := h.mark i j hmem
    have hseen_i : Seen log db i := htar.imp_left fun ⟨e, he, hid, _⟩ ↦
      mem_entryIds.mpr ⟨e, he, hid⟩
    have hseen_j : Seen log db j := .inr (mem_entryIds.mpr ⟨r, hr, hid⟩)
    refine ⟨hhd, ?_, r, hr, hid, hrev, hrely.swapped hseen_i hseen_j hswap⟩
    -- a committed row that is marked is locked
    rcases htar with ⟨e, he, hid, hpd⟩ | hown
    · obtain ⟨e', he', -, heq⟩ := hrely.kept e he
      exact .inl ⟨e, heq (hid ▸ hhd) ▸ he', hid, hpd⟩
    · exact .inr hown
  status := h.status
  linked := h.linked

theorem JournalLog.lock (h : JournalLog chart ok pending held log db n) (k : LockKey) :
    JournalLog chart ok pending (insert k held) log db n :=
  { h with mark := fun i j hmem ↦ ⟨.inr (h.mark i j hmem).1, (h.mark i j hmem).2⟩ }

theorem JournalRows.tick {o : AccountingDb} {ms : List (Uuid × Uuid)}
    (h : JournalRows chart ok pending held o ms db n) :
    JournalRows chart ok pending held o ms db (n + 1) :=
  { h with drawn := fun i hi ↦ (h.drawn i hi).trans (lt_succ_self n) }

/-! ## Committing a log

What holds of the committed rows and of a log that satisfies the assertion holds after the commit.
-/

section JournalLog

variable (h : JournalLog chart ok pending held log db n)

include h

theorem JournalLog.linesOf_committed (hi : i ∈ entryIds db.entries) :
    linesOf (db.lines ++ (own log).lines) i = linesOf db.lines i := by
  rw [linesOf_append, linesOf_eq_nil h.lines.refs fun hown ↦ h.fresh i hown hi, append_nil]

theorem JournalLog.linesOf_own (hinv : JournalInv chart ok db n')
    (hi : i ∈ entryIds (own log).entries) :
    linesOf (db.lines ++ (own log).lines) i = linesOf (own log).lines i := by
  rw [linesOf_append, linesOf_eq_nil hinv.lines.refs (h.fresh i hi), nil_append]

theorem JournalLog.posted_of_marked (hinv : JournalInv chart ok db n') (he : e ∈ db.entries)
    (hmark : e.id ∈ (marks log).map Prod.fst) :
    e.status = .posted ∧ e.reversedByEntryId = none := by
  obtain ⟨⟨i, j⟩, hmem, heq⟩ := mem_map.mp hmark
  rcases (h.mark i j hmem).2.1 with ⟨e', he', hid, hpd⟩ | hown
  · rw [eq_of_id_eq hinv.nodup he he' (heq.symm.trans hid.symm)]
    exact hpd
  · exact absurd (mem_entryIds.mpr ⟨e, he, heq.symm⟩) (h.fresh i hown)

end JournalLog

private theorem entryIds_replay (db : AccountingDb) (log : List Write) :
    entryIds (replay (S := schema chart) db log).entries
      = entryIds db.entries ++ entryIds (own log).entries := by
  rw [entryIds, entries_replay, map_append, map_map]
  exact congrArg (· ++ _) (map_congr_left fun e _ ↦ annotate_id _ e)

private theorem mem_entries_replay : e ∈ (replay (S := schema chart) db log).entries ↔
      (∃ e0 ∈ db.entries, annotate (marks log) e0 = e) ∨ e ∈ (own log).entries := by
  rw [entries_replay, mem_append, mem_map]

section Commit

variable (h : JournalLog chart ok none held log db n) (hinv : JournalInv chart ok db n)

include h hinv

private theorem status_replay (he : e ∈ (replay (S := schema chart) db log).entries) :
    (e.status = .posted ∧ e.reversedByEntryId = none) ∨
      (e.status = .reversed ∧ ∃ r ∈ (replay (S := schema chart) db log).entries,
        e.reversedByEntryId = some r.id ∧ r.reversesEntryId = some e.id ∧
        Swapped (db.lines ++ (own log).lines) e.id r.id) := by
  -- a mark of the log comes with its reversal
  have hmar : ∀ j, (e.id, j) ∈ marks log →
      ∃ r ∈ (replay (S := schema chart) db log).entries, some j = some r.id ∧
        r.reversesEntryId = some e.id ∧ Swapped (db.lines ++ (own log).lines) e.id r.id := by
    intro j hj
    obtain ⟨-, -, r, hr, rfl, hrev, hswap⟩ := h.mark e.id j hj
    exact ⟨r, mem_entries_replay.mpr (.inr hr), rfl, hrev, hswap⟩
  rcases mem_entries_replay.mp he with ⟨e0, he0, rfl⟩ | hown
  · by_cases hmark : e0.id ∈ (marks log).map Prod.fst
    · obtain ⟨⟨i, j⟩, hmem, rfl : i = e0.id⟩ := mem_map.mp hmark
      rw [annotate_id] at hmar
      rw [annotate_of_mem h.marks_nodup hmem]
      exact .inr ⟨rfl, hmar j hmem⟩
    · rw [annotate_of_notMem hmark]
      rcases hinv.status e0 he0 with hpd | ⟨hst, r, hr, hby, hrev, hswap⟩
      · exact .inl hpd
      · refine .inr ⟨hst, annotate (marks log) r, mem_entries_replay.mpr (.inl ⟨r, hr, rfl⟩),
          ?_, ?_, ?_⟩
        · rw [annotate_id, hby]
        · rw [(annotate_sameBut _ r).reversesEntryId, hrev]
        · rw [annotate_id]
          exact hswap.congr (h.linesOf_committed (mem_entryIds.mpr ⟨e0, he0, rfl⟩))
            (h.linesOf_committed (mem_entryIds.mpr ⟨r, hr, rfl⟩))
  · rcases h.status e hown with ⟨hpd, hno, -⟩ | ⟨hst, j, hby, hmem⟩
    · exact .inl ⟨hpd, hno⟩
    · rw [hby]
      exact .inr ⟨hst, hmar j hmem⟩

private theorem reverses_replay (hr : r ∈ (replay (S := schema chart) db log).entries)
    (hrev : r.reversesEntryId = some i) : ∃ e ∈ (replay (S := schema chart) db log).entries,
      e.id = i ∧ e.reversedByEntryId = some r.id := by
  rcases mem_entries_replay.mp hr with ⟨r0, hr0, rfl⟩ | hown
  · rw [(annotate_sameBut _ r0).reversesEntryId] at hrev
    obtain ⟨e, he, hid, hby⟩ := hinv.reverses r0 hr0 i hrev
    -- an entry that is already reversed is not marked again
    have hmark : e.id ∉ (marks log).map Prod.fst := fun hmark ↦ by
      rw [(h.posted_of_marked hinv he hmark).2] at hby
      cases hby
    refine ⟨e, mem_entries_replay.mpr (.inl ⟨e, he, annotate_of_notMem hmark⟩), hid, ?_⟩
    rw [annotate_id, hby]
  · have hmem : (i, r.id) ∈ marks log := (h.linked r hown i hrev).resolve_right (by simp)
    rcases (h.mark i r.id hmem).2.1 with ⟨e, he, rfl, -⟩ | hmn
    · exact ⟨e.markReversed r.id,
        mem_entries_replay.mpr (.inl ⟨e, he, annotate_of_mem h.marks_nodup hmem⟩), rfl, rfl⟩
    · obtain ⟨e, he, rfl⟩ := mem_entryIds.mp hmn
      refine ⟨e, mem_entries_replay.mpr (.inr he), rfl, ?_⟩
      rcases h.status e he with ⟨-, -, hnot⟩ | ⟨-, j, hby, hj⟩
      · exact absurd (mem_map_of_mem hmem) hnot
      · have heq := inj_on_of_nodup_map h.marks_nodup hj hmem rfl
        rw [hby, (Prod.mk.inj heq).2]

private theorem inv_replay (hbal : ∀ i ∈ entryIds (own log).entries, Balanced (own log).lines i) :
    JournalInv chart ok (replay (S := schema chart) db log) n where
  nodup := by
    rw [entryIds_replay]
    exact nodup_append.mpr ⟨hinv.nodup, h.nodup, fun i hi j hj heq ↦
      h.fresh j hj (heq ▸ hi)⟩
  drawn i hi := by
    rw [entryIds_replay] at hi
    exact (mem_append.mp hi).elim (hinv.drawn i) (h.drawn i)
  lines := by
    rw [entryIds_replay, lines_replay]
    exact hinv.lines.append h.lines
  balanced e he := by
    have hid := mem_entryIds.mpr ⟨e, he, rfl⟩
    rw [entryIds_replay] at hid
    rw [Balanced, lines_replay]
    rcases mem_append.mp hid with hold | hown
    · obtain ⟨e0, he0, heq⟩ := mem_entryIds.mp hold
      rw [h.linesOf_committed hold, ← heq]
      exact hinv.balanced e0 he0
    · rw [h.linesOf_own hinv hown]
      exact hbal e.id hown
  status e he := by
    rw [lines_replay]
    exact status_replay h hinv he
  reverses r hr i hrev := reverses_replay h hinv hr hrev

end Commit

/-! ## The contract

A commit adds rows and marks posted entries reversed; it changes nothing else (`Frozen`). -/

/-- No line is changed or removed, and an entry changes only when a posted one is marked
reversed. -/
structure Frozen (before after : AccountingDb) : Prop where
  lines : before.lines <+: after.lines
  entries : ∀ e ∈ before.entries, ∃ e' ∈ after.entries,
    e' = e ∨ e.status = .posted ∧ ∃ rev, e' = e.markReversed rev

theorem JournalLog.frozen (h : JournalLog chart ok pending held log db n)
    (hinv : JournalInv chart ok db n') : Frozen db (replay (S := schema chart) db log) where
  lines := ⟨(own log).lines, (lines_replay db log).symm⟩
  entries e he := by
    refine ⟨annotate (marks log) e, mem_entries_replay.mpr (.inl ⟨e, he, rfl⟩), ?_⟩
    by_cases hmark : e.id ∈ (marks log).map Prod.fst
    · obtain ⟨⟨i, j⟩, hmem, rfl : i = e.id⟩ := mem_map.mp hmark
      exact .inr ⟨(h.posted_of_marked hinv he hmark).1, j, annotate_of_mem h.marks_nodup hmem⟩
    · exact .inl (annotate_of_notMem hmark)

variable (chart ok) in
/-- Postings, reversals and changes of periods, in any interleaving. -/
def journalContract : Contract (schema chart) where
  inv := JournalInv chart ok
  rely := JournalRely chart
  cond _ _ _ := True
  guar l db n := JournalLog chart ok none l.held l.log db n
  post _ db log := Frozen db (replay (S := schema chart) db log)
  inv_tick h := { h with drawn := fun i hi ↦ (h.drawn i hi).trans_le (le_succ _) }
  rely_refl _ _ := ⟨fun e he ↦ ⟨e, he, rfl, fun _ ↦ rfl⟩, fun _ _ hi ↦ hi, fun _ _ ↦ rfl⟩
  rely_trans := JournalRely.trans

def Write.entryId : Write → List ℕ
  | .insertEntry e => [e.id]
  | _ => []

private theorem entryIds_own (log : List Write) :
    entryIds (own log).entries = log.flatMap Write.entryId := by
  induction log using List.reverseRecOn with
  | nil => rfl
  | append_singleton log w ih =>
    rw [own_concat, List.flatMap_append, ← ih]
    cases w with
    | insertEntry e => exact map_append
    | setReversed i r =>
      rw [show [Write.setReversed i r].flatMap Write.entryId = [] from rfl, append_nil]
      change entryIds ((own log).entries.map _) = _
      rw [entryIds, map_map]
      exact map_congr_left fun e _ ↦ by
        change (if e.id = i then e.markReversed r else e).id = e.id
        split <;> rfl
    | insertLine l | insertPeriod p | setPeriod p => exact (append_nil _).symm

theorem mem_loggedMark {r : Except PgError Bool} {w : Write} (h : w ∈ (loggedMark orig rev r).1) :
    r = .ok true ∧ w = .setReversed orig rev := by
  match r, h with
  | .ok true, h => exact ⟨rfl, mem_singleton.mp h⟩
  | .ok false, h | .error e, h => cases h

private theorem drawsStamp : DrawsStamp (S := schema chart) Write.entryId := by
  intro q committed view n w hw i hi
  cases q with
  | insertEntry input =>
    obtain rfl := mem_singleton.mp hw
    exact mem_singleton.mp hi
  | insertLine input =>
    obtain ⟨l, -, rfl⟩ := mem_logged hw
    cases hi
  | insertSwapped orig rev =>
    obtain ⟨l, -, rfl⟩ := mem_map.mp hw
    cases hi
  | markReversed orig rev =>
    obtain ⟨-, rfl⟩ := mem_loggedMark hw
    cases hi
  | insertPeriod startDate endDate =>
    obtain ⟨p, -, rfl⟩ := mem_logged hw
    cases hi
  | transition t =>
    obtain ⟨p, -, rfl⟩ := map_eq_some_iff.mp (mem_toList.mp hw)
    cases hi
  | coveringPeriod date | systemAccount key | entryBalanced entry | entryRow id | entryLines id
  | entryTotal id | findEntry id | assertBalanced entry | deferredBalance
  | findPeriod t | getPeriod id => cases hw

/-- A commit moves the journal in a way that a transaction with other locks and other ids relies
on. -/
theorem JournalLog.rely_of_commit (h : JournalLog chart ok none held log db n)
    (hhd : ∀ k ∈ held, k ∉ l.held)
    (hids : ∀ w ∈ log, ∀ w' ∈ l.log, ∀ i ∈ w.entryId, i ∉ Write.entryId w') :
    JournalRely chart l db (replay (S := schema chart) db log) := by
  have hdisj : ∀ i ∈ entryIds (own log).entries, i ∉ entryIds (own l.log).entries := by
    intro i hi hi'
    obtain ⟨w, hw, hiw⟩ := mem_flatMap.mp (entryIds_own log ▸ hi)
    obtain ⟨w', hw', hiw'⟩ := mem_flatMap.mp (entryIds_own l.log ▸ hi')
    exact hids w hw w' hw' i hiw hiw'
  refine ⟨fun e he ↦ ?_, fun i hi hnot hmem ↦ ?_, fun i hi ↦ ?_⟩
  · refine ⟨annotate (marks log) e, mem_entries_replay.mpr (.inl ⟨e, he, rfl⟩), annotate_id _ e,
      fun hlck ↦ annotate_of_notMem fun hmark ↦ ?_⟩
    obtain ⟨⟨i, j⟩, hmem, rfl : i = e.id⟩ := mem_map.mp hmark
    exact hhd _ (h.mark e.id j hmem).1 hlck
  · rw [entryIds_replay] at hmem
    rcases mem_append.mp hmem with hold | hoth
    · exact hnot hold
    · exact hdisj i hoth hi
  · have hnot : i ∉ entryIds (own log).entries := fun hown ↦
      hi.elim (h.fresh i hown) (hdisj i hown)
    rw [lines_replay, linesOf_append, linesOf_eq_nil h.lines.refs hnot, append_nil]

variable {T : Type} {allowClosed : Bool} {now : ℤ} {id : Uuid}

theorem journalContract_suits :
    (journalContract chart ok).Suits fun (s : State (schema chart) T) _ ↦
      True ∧ s.Distinct Write.entryId where
  cond _ _ := trivial
  compat {s t a u p} hC _ _ hlog hne _ := by
    refine JournalLog.rely_of_commit hlog (fun k hk hk' ↦ ?_) (hC.2.apart t u hne.symm)
    exact hne (eq_of_held rfl hk' hk)

/-! ## What each statement does to the assertion -/

section Rows

variable {o : AccountingDb} {ms : List (Uuid × Uuid)}

theorem JournalRows.marks_lt (h : JournalRows chart ok pending held o ms db n)
    (hinv : JournalInv chart ok db n) (hmem : (i, j) ∈ ms) : i < n ∧ j < n := by
  obtain ⟨-, htar, r, hr, rfl, -⟩ := h.mark i j hmem
  refine ⟨?_, h.drawn _ (mem_entryIds.mpr ⟨r, hr, rfl⟩)⟩
  rcases htar with ⟨e, he, rfl, -⟩ | hown
  · exact hinv.drawn _ (mem_entryIds.mpr ⟨e, he, rfl⟩)
  · exact h.drawn i hown

/-- The entry `cur` is its own and no mark names it, so that lines can be added to it. -/
structure Current (o : AccountingDb) (ms : List (Uuid × Uuid)) (cur : Uuid) : Prop where
  mem : cur ∈ entryIds o.entries
  unmarked : ∀ i j, (i, j) ∈ ms → i ≠ cur ∧ j ≠ cur

theorem JournalRows.insertEntry (h : JournalRows chart ok none held o ms db n)
    (hinv : JournalInv chart ok db n) (input : NewEntry)
    (hpnd : ∀ i, input.reversesEntryId = some i → pending = some n) :
    JournalRows chart ok pending held
      { o with entries := o.entries ++ [Accounting.insertEntry n input] } ms db (n + 1) := by
  have hids : entryIds (o.entries ++ [Accounting.insertEntry n input]) =
      entryIds o.entries ++ [n] :=
    map_append
  refine ⟨?_, ?_, ?_, ⟨?_, h.lines.accounts, h.lines.amounts⟩, h.marks_nodup, ?_, ?_, ?_⟩
  · rw [hids]
    exact nodup_append.mpr ⟨h.nodup, nodup_singleton n, fun i hi j hj heq ↦
      (h.drawn i hi).ne (heq.trans (mem_singleton.mp hj))⟩
  · intro i hi
    rw [hids, mem_append, mem_singleton] at hi
    rcases hi with hold | rfl
    · exact (h.drawn i hold).trans (lt_succ_self n)
    · exact lt_succ_self i
  · intro i hi
    rw [hids, mem_append, mem_singleton] at hi
    rcases hi with hold | rfl
    · exact h.fresh i hold
    · exact fun hmem ↦ (hinv.drawn i hmem).ne rfl
  · intro l hl
    rw [hids]
    exact mem_append_left _ (h.lines.refs l hl)
  · intro i j hmem
    obtain ⟨hhd, htar, r, hr, hrest⟩ := h.mark i j hmem
    refine ⟨hhd, htar.imp_right fun hown ↦ ?_, r, mem_append_left _ hr, hrest⟩
    rw [hids]
    exact mem_append_left _ hown
  · intro e he
    rcases mem_snoc.mp he with hold | rfl
    · exact h.status e hold
    · refine .inl ⟨rfl, rfl, fun hmark ↦ ?_⟩
      obtain ⟨⟨i, j⟩, hmem, heq : i = n⟩ := mem_map.mp hmark
      exact (h.marks_lt hinv hmem).1.ne heq
  · intro r hr i hrev
    rcases mem_snoc.mp hr with hold | rfl
    · exact (h.linked r hold i hrev).imp_right (by simp)
    · exact .inr (hpnd i hrev)

theorem JournalRows.current (h : JournalRows chart ok none held o ms db n)
    (hinv : JournalInv chart ok db n) (input : NewEntry) :
    Current { o with entries := o.entries ++ [Accounting.insertEntry n input] } ms n where
  mem := mem_entryIds.mpr ⟨_, mem_concat_self, rfl⟩
  unmarked _ _ hmem := ⟨(h.marks_lt hinv hmem).1.ne, (h.marks_lt hinv hmem).2.ne⟩

theorem JournalRows.insertLines (h : JournalRows chart ok pending held o ms db n)
    (hcur : Current o ms cur) (hlns : LinesFine chart ok [cur] lines) :
    JournalRows chart ok pending held { o with lines := o.lines ++ lines } ms db n := by
  have hoth : ∀ i, i ≠ cur →
      linesOf (db.lines ++ (o.lines ++ lines)) i = linesOf (db.lines ++ o.lines) i := by
    intro i hi
    rw [← append_assoc, linesOf_append (db.lines ++ o.lines),
      linesOf_eq_nil hlns.refs (by simpa using hi), append_nil]
  refine ⟨h.nodup, h.drawn, h.fresh, ⟨?_, ?_, ?_⟩, h.marks_nodup, ?_, h.status, h.linked⟩
  · intro l hl
    rcases mem_append.mp hl with hold | hnew
    · exact h.lines.refs l hold
    · rw [mem_singleton.mp (hlns.refs l hnew)]
      exact hcur.mem
  · exact fun l hl ↦ (mem_append.mp hl).elim (h.lines.accounts l) (hlns.accounts l)
  · exact fun l hl ↦ (mem_append.mp hl).elim (h.lines.amounts l) (hlns.amounts l)
  · intro i j hmem
    obtain ⟨hhd, htar, r, hr, hid, hrev, hswap⟩ := h.mark i j hmem
    obtain ⟨hi, hj⟩ := hcur.unmarked i j hmem
    exact ⟨hhd, htar, r, hr, hid, hrev, hswap.congr (hoth i hi) (hoth j hj)⟩

theorem JournalRows.setReversed (h : JournalRows chart ok (some r.id) held o ms db n)
    (hhd : .entry orig ∈ held) (hnot : orig ∉ ms.map Prod.fst)
    (htar : (∃ e ∈ db.entries, e.id = orig ∧ e.status = .posted ∧
      e.reversedByEntryId = none) ∨ orig ∈ entryIds o.entries) (hr : r ∈ o.entries)
    (hrev : r.reversesEntryId = some orig) (hswap : Swapped (db.lines ++ o.lines) orig r.id) :
    JournalRows chart ok none held
      { o with entries := o.entries.map fun e ↦ if e.id = orig then e.markReversed r.id else e }
      (ms ++ [(orig, r.id)]) db n := by
  set f : JournalEntry → JournalEntry := fun e ↦ if e.id = orig then e.markReversed r.id else e
  have hf : ∀ e, (f e).id = e.id ∧ (f e).reversesEntryId = e.reversesEntryId := by
    intro e
    simp only [f]
    split <;> exact ⟨rfl, rfl⟩
  have hids : entryIds (o.entries.map f) = entryIds o.entries := by
    rw [entryIds, map_map]
    exact map_congr_left fun e _ ↦ (hf e).1
  refine ⟨hids ▸ h.nodup, hids ▸ h.drawn, hids ▸ h.fresh, hids ▸ h.lines, ?_, ?_, ?_, ?_⟩
  · rw [map_append]
    refine nodup_append.mpr ⟨h.marks_nodup, nodup_singleton _, fun i hi j hj heq ↦ ?_⟩
    have horig : i = orig := heq.trans (mem_singleton.mp hj)
    exact hnot (horig ▸ hi)
  · intro i j hmem
    rw [hids]
    rcases mem_append.mp hmem with hold | hnew
    · obtain ⟨hhd', htar', r', hr', hid, hrev', hswa'⟩ := h.mark i j hold
      exact ⟨hhd', htar', f r', mem_map_of_mem hr', (hf r').1.trans hid,
        (hf r').2.trans hrev', hswa'⟩
    · obtain ⟨rfl, rfl⟩ := Prod.mk.inj (mem_singleton.mp hnew)
      exact ⟨hhd, htar, f r, mem_map_of_mem hr, (hf r).1, (hf r).2.trans hrev, hswap⟩
  · intro e he
    obtain ⟨e0, he0, rfl⟩ := mem_map.mp he
    by_cases hid : e0.id = orig
    · have hfe : f e0 = e0.markReversed r.id := if_pos hid
      rw [hfe]
      exact .inr ⟨rfl, r.id, rfl, mem_append_right _ (by simp [hid])⟩
    · have hfe : f e0 = e0 := if_neg hid
      rw [hfe, map_append]
      rcases h.status e0 he0 with ⟨hpd, hno, hunm⟩ | ⟨hst, j, hby, hmem⟩
      · refine .inl ⟨hpd, hno, fun hmem ↦ ?_⟩
        rcases mem_append.mp hmem with hold | hnew
        · exact hunm hold
        · exact hid (mem_singleton.mp hnew)
      · exact .inr ⟨hst, j, hby, mem_append_left _ hmem⟩
  · intro r' hr' i hrev'
    obtain ⟨r0, hr0, rfl⟩ := mem_map.mp hr'
    rw [(hf r0).1]
    rw [(hf r0).2] at hrev'
    rcases h.linked r0 hr0 i hrev' with hold | hpnd
    · exact .inl (mem_append_left _ hold)
    · -- the pending reversal is the one that was just recorded
      have heq : r0 = r := eq_of_id_eq h.nodup hr0 hr (some.inj hpnd).symm
      rw [heq, hrev] at hrev'
      rw [heq, ← some.inj hrev']
      exact .inl (mem_concat_self)

end Rows

/-! ## Executing the programs -/

private theorem mem_entryIds_view :
    i ∈ entryIds (replay (S := schema chart) db log).entries ↔ Seen log db i := by
  rw [entryIds_replay, mem_append]
  rfl

private theorem own_append_lines (log : List Write) (ls : List JournalLine) :
    own (log ++ ls.map .insertLine) = { own log with lines := (own log).lines ++ ls } := by
  induction ls using List.reverseRecOn with
  | nil => rw [map_nil, append_nil, append_nil]
  | append_singleton ls l ih =>
    rw [map_append, map_singleton, ← append_assoc, own_concat, ih]
    exact congrArg (fun x ↦ { own log with lines := x }) (append_assoc ..)

private theorem marks_append_lines (log : List Write) (ls : List JournalLine) :
    marks (log ++ ls.map .insertLine) = marks log := by
  rw [marks_append, show marks (ls.map .insertLine) = [] from ?_, append_nil]
  exact filterMap_eq_nil_iff.mpr fun w hw ↦ by
    obtain ⟨l, -, rfl⟩ := mem_map.mp hw
    rfl

section Safe

variable {q : Query} {next : Reply q → Txn chart}

theorem safe_query (h : JournalLog chart ok pending held log db n)
    (hnx : ∀ db' n', JournalRely chart ⟨held, log, .query q next⟩ db db' →
      JournalInv chart ok db' n' → JournalLog chart ok pending held log db' n' →
      (journalContract chart ok).Safe
        (next (exec chart q db' (replay (S := schema chart) db' log) n').2) held
        (log ++ (exec chart q db' (replay (S := schema chart) db' log) n').1) db' (n' + 1)) :
    (journalContract chart ok).Safe (.query q next) held log db n :=
  fun db' n' hn hr hinv _ ↦ hnx db' n' hr hinv (h.rely hr hn)

theorem safe_read (hrd : (fun db view n ↦ (exec chart q db view n).1) = fun _ _ _ ↦ [])
    (h : JournalLog chart ok pending held log db n)
    (hnx : ∀ db' n', JournalRely chart ⟨held, log, .query q next⟩ db db' →
      JournalInv chart ok db' n' → JournalLog chart ok pending held log db' (n' + 1) →
      (journalContract chart ok).Safe
        (next (exec chart q db' (replay (S := schema chart) db' log) n').2) held log db'
        (n' + 1)) :
    (journalContract chart ok).Safe (.query q next) held log db n := by
  intro db' n' hn hr hinv _
  change (journalContract chart ok).Safe _ held
    (log ++ (fun db view n ↦ (exec chart q db view n).1) db' _ n') db' (n' + 1)
  rw [hrd, append_nil]
  exact hnx db' n' hr hinv (h.rely hr hn).tick

end Safe

theorem safe_guardPeriod {K : Contract (schema chart)} {next : Uuid → Txn chart}
    (found : Option Period)
    (hnx : ∀ p ∈ found, p.status ≠ .locked → (p.status = .closed → allowClosed) →
      K.Safe (next p.id) held log db n) :
    K.Safe (guardPeriod chart allowClosed next found) held log db n :=
  guardPeriod_cases (P := fun p ↦ K.Safe p held log db n) found
    (fun _ ↦ trivial) trivial trivial hnx

private theorem safe_resolvePostingPeriod {date : ℤ} {next : Uuid → Txn chart}
    (h : JournalLog chart ok pending held log db n) (hnx : ∀ periodId db' n',
      JournalRely chart ⟨held, log, resolvePostingPeriod chart date allowClosed next⟩ db db' →
      JournalLog chart ok pending held log db' n' →
      (journalContract chart ok).Safe (next periodId) held log db' n') :
    (journalContract chart ok).Safe (resolvePostingPeriod chart date allowClosed next) held log
      db n :=
  safe_read rfl h fun db' n' hr _ hlog ↦
    safe_guardPeriod _ fun p _ _ _ ↦ hnx p.id db' (n' + 1) hr hlog

/-- What is stored of the amounts of a line is `ok`. -/
def PostLine.Amounts (ok : Money → Prop) (ln : PostLine) : Prop :=
  (∀ v ∈ (money0 ln.debit).store 14 2, ok v) ∧ ∀ v ∈ (money0 ln.credit).store 14 2, ok v

private theorem safe_resolveAccount {ln : PostLine} {next : Uuid → Txn chart}
    (h : JournalLog chart ok pending held log db n)
    (hnx : ∀ accountId db' n', JournalLog chart ok pending held log db' n' →
      (journalContract chart ok).Safe (next accountId) held log db' n') :
    (journalContract chart ok).Safe (resolveAccount chart ln next) held log db n := by
  unfold resolveAccount
  split
  next id _ => exact hnx id db n h
  · refine safe_read rfl h fun db' n' _ _ hlog ↦ ?_
    simp only [exec]
    split
    · trivial
    next id _ => exact hnx id db' (n' + 1) hlog

private theorem safe_postLines {lns : List PostLine} (hok : ∀ ln ∈ lns, ln.Amounts ok)
    {posted : List JournalLine} {next : List JournalLine → Txn chart}
    (h : JournalLog chart ok none held log db n) (hcur : Current (own log) (marks log) cur)
    (hnx : ∀ lines log' db' n', JournalLog chart ok none held log' db' n' →
      entryIds (own log').entries = entryIds (own log).entries →
      (journalContract chart ok).Safe (next lines) held log' db' n') :
    (journalContract chart ok).Safe (postLines chart cur lns posted next) held log db n := by
  induction lns generalizing posted log db n with
  | nil => exact hnx posted log db n h rfl
  | cons ln lns ih =>
    refine safe_resolveAccount h fun accountId db1 n1 h1 ↦ safe_query h1 fun db2 n2 _ _ h2 ↦ ?_
    change (journalContract chart ok).Safe (answerLine chart _ (logged Write.insertLine _).2) held
      (log ++ (logged Write.insertLine _).1) db2 (n2 + 1)
    cases hins : insertLine chart _ with
    | error e => trivial
    | ok l =>
      obtain ⟨hent, -, -, hacc, hdb, hcr⟩ := insertLine_eq_ok hins
      obtain ⟨hokd, hokc⟩ := hok ln mem_cons_self
      have hfine : LinesFine chart ok [cur] [l] := by
        refine ⟨fun l' hl' ↦ ?_, fun l' hl' ↦ ?_, fun l' hl' ↦ ?_⟩ <;>
          obtain rfl := mem_singleton.mp hl'
        · exact mem_singleton.mpr hent
        · exact hacc
        · exact ⟨hokd _ hdb, hokc _ hcr⟩
      have hown := own_append_lines log [l]
      have hmar := marks_append_lines log [l]
      change (journalContract chart ok).Safe _ held (log ++ [l].map .insertLine) db2 (n2 + 1)
      refine ih (fun ln' hln' ↦ hok ln' (mem_cons_of_mem _ hln')) ?_ ?_ ?_
      · rw [JournalLog, hown, hmar]
        exact (h2.insertLines hcur hfine).tick
      · rw [hown, hmar]
        exact ⟨hcur.mem, hcur.unmarked⟩
      · intro lines log' db' n' hlog' hids
        refine hnx lines log' db' n' hlog' (hids.trans ?_)
        rw [hown]

section Calls

variable {next : PostedEntry → Txn chart}

theorem safe_postEntry {input : PostEntryInput} (hok : ∀ ln ∈ input.lines, ln.Amounts ok)
    (h : JournalLog chart ok none held log db n)
    (hnx : ∀ p log' db' n', JournalLog chart ok none held log' db' n' →
      entryIds (own log').entries = entryIds (own log).entries ++ [p.entry.id] →
      (journalContract chart ok).Safe (next p) held log' db' n') :
    (journalContract chart ok).Safe (postEntry chart input now next) held log db n := by
  unfold postEntry
  split
  · trivial
  · refine safe_resolvePostingPeriod h fun periodId db1 n1 _ h1 ↦
      safe_query h1 fun db2 n2 _ hinv2 h2 ↦ ?_
    set new := input.newEntry periodId now
    have hown := own_concat log (.insertEntry (insertEntry n2 new))
    have hmar : marks (log ++ [.insertEntry (insertEntry n2 new)]) = marks log := by
      rw [marks_append]
      exact append_nil _
    have hids : entryIds (own (log ++ [.insertEntry (insertEntry n2 new)])).entries
        = entryIds (own log).entries ++ [n2] := by
      rw [hown]
      exact map_append
    change (journalContract chart ok).Safe (postLines chart n2 _ _ _) held
      (log ++ [.insertEntry (insertEntry n2 new)]) db2 (n2 + 1)
    refine safe_postLines hok ?_ ?_ fun lines log' db3 n3 h3 hids' ↦
      safe_read rfl h3 fun db4 n4 _ _ h4 ↦ ?_
    · rw [JournalLog, hown, hmar]
      exact h2.insertEntry hinv2 new nofun
    · rw [hown, hmar]
      exact h2.current hinv2 new
    · unfold answerPosted
      split
      · exact hnx _ log' db4 (n4 + 1) h4 (hids'.trans hids)
      · trivial

private theorem safe_getEntry (h : JournalLog chart ok pending held log db n)
    (hnx : ∀ p db' n', JournalLog chart ok pending held log db' n' → p.entry.id = id →
      Seen log db' id → (journalContract chart ok).Safe (next p) held log db' n') :
    (journalContract chart ok).Safe (getEntry chart id next) held log db n := by
  refine safe_read rfl h fun db1 n1 _ _ h1 ↦ ?_
  simp only [exec]
  split
  · trivial
  next e hfd =>
    have hid : e.id = id := by simpa using find?_some hfd
    have hseen : Seen log db1 id :=
      mem_entryIds_view.mp (mem_entryIds.mpr ⟨e, mem_of_find?_eq_some hfd, hid⟩)
    refine safe_read rfl h1 fun db2 n2 hr2 _ h2 ↦
      safe_read rfl h2 fun db3 n3 hr3 _ h3 ↦ ?_
    exact hnx _ db3 (n3 + 1) h3 hid (hr3.seen (hr2.seen hseen))

/-- An entry that the trigger lets through is posted where it is stored, and not marked yet. -/
theorem JournalLog.unmarked_of_allowed (h : JournalLog chart ok pending held log db n)
    (hinv : JournalInv chart ok db n') (he : e ∈ (replay (S := schema chart) db log).entries)
    (hall : e.status = .draft ∨ e.status = .posted ∧ e.reversedByEntryId = none) :
    e.id ∉ (marks log).map Prod.fst ∧
      ((∃ e' ∈ db.entries, e'.id = e.id ∧ e'.status = .posted ∧ e'.reversedByEntryId = none) ∨
        e.id ∈ entryIds (own log).entries) := by
  have hlv : e.status ≠ .reversed := by
    rcases hall with hst | ⟨hst, -⟩ <;> simp [hst]
  rcases mem_entries_replay.mp he with ⟨e0, he0, rfl⟩ | hown
  · have hunm : e0.id ∉ (marks log).map Prod.fst := fun hmark ↦ by
      obtain ⟨⟨i, j⟩, hmem, rfl : i = e0.id⟩ := mem_map.mp hmark
      rw [annotate_of_mem h.marks_nodup hmem] at hlv
      exact hlv rfl
    rw [annotate_of_notMem hunm] at hlv ⊢
    refine ⟨hunm, .inl ⟨e0, he0, rfl, ?_⟩⟩
    exact (hinv.status e0 he0).resolve_right fun hrev ↦ hlv hrev.1
  · refine ⟨?_, .inr (mem_entryIds.mpr ⟨e, hown, rfl⟩)⟩
    rcases h.status e hown with ⟨-, -, hunm⟩ | ⟨hrev, -⟩
    · exact hunm
    · exact absurd hrev hlv

private theorem safe_updateReversed {next : Txn chart}
    (h : JournalLog chart ok (some r.id) held log db n)
    (hr : r ∈ (own log).entries) (hrev : r.reversesEntryId = some orig) (hseen : Seen log db orig)
    (hswap : Swapped (db.lines ++ (own log).lines) orig r.id)
    (hnx : ∀ held' log' db' n', JournalLog chart ok none held' log' db' n' →
      entryIds (own log').entries = entryIds (own log).entries →
      (journalContract chart ok).Safe next held' log' db' n') :
    (journalContract chart ok).Safe (updateReversed chart orig r.id next) held log db n := by
  have hseen_r : ∀ db, Seen log db r.id := fun _ ↦ .inr (mem_entryIds.mpr ⟨r, hr, rfl⟩)
  refine safe_read rfl h fun db1 n1 hr1 _ h1 ↦ ?_
  have hsee1 := hr1.seen hseen
  have hswa1 := hr1.swapped hseen (hseen_r db) hswap
  have hfd : ∃ e ∈ (replay (S := schema chart) db1 log).entries, e.id = orig :=
    mem_entryIds.mp (mem_entryIds_view.mpr hsee1)
  split
  case isFalse hnot => exact absurd (decide_eq_true hfd) hnot
  intro db2 n2 hn2 hr2 _ _
  have h2 := (h1.rely hr2 hn2).lock (.entry orig)
  have hsee2 := hr2.seen hsee1
  have hswa2 := hr2.swapped hsee1 (hseen_r db1) hswa1
  refine safe_query h2 fun db3 n3 hr3 hinv3 h3 ↦ ?_
  have hsee3 := hr3.seen hsee2
  have hswa3 := hr3.swapped hsee2 (hseen_r db2) hswa2
  change (journalContract chart ok).Safe (answerMark chart next (loggedMark orig r.id _).2) _
    (log ++ (loggedMark orig r.id _).1) db3 (n3 + 1)
  cases hres : Accounting.markReversed (replay (S := schema chart) db3 log) orig r.id with
  | error e => trivial
  | ok updated =>
    rcases markReversed_eq_ok hres with ⟨-, hno⟩ | ⟨rfl, e, he, rfl, hall⟩
    · obtain ⟨e, he, hid⟩ := mem_entryIds.mp (mem_entryIds_view.mpr hsee3)
      exact absurd hid (hno e he)
    · obtain ⟨hunm, htar⟩ := JournalLog.unmarked_of_allowed h3 hinv3 he hall
      have hrs := (h3.setReversed (mem_insert _ _) hunm htar hr hrev hswa3).tick
      change (journalContract chart ok).Safe next _ (log ++ [.setReversed e.id r.id]) db3 (n3 + 1)
      refine hnx _ _ _ _ ?_ ?_
      · rw [JournalLog, own_concat, marks_append]
        exact hrs
      · rw [entryIds_own, entryIds_own, List.flatMap_append]
        exact append_nil _

private theorem linesFine_swap (rev : Uuid) (h : LinesFine chart ok ids lines) :
    LinesFine chart ok [rev] ((linesOf lines i).map (·.swap rev)) := by
  refine ⟨fun l hl ↦ ?_, fun l hl ↦ ?_, fun l hl ↦ ?_⟩ <;>
    obtain ⟨l0, hl0, rfl⟩ := mem_map.mp hl
  · exact mem_singleton.mpr rfl
  · exact h.accounts l0 (mem_of_mem_filter hl0)
  · exact (h.amounts l0 (mem_of_mem_filter hl0)).symm

/-- `ReverseEntry` adds one entry of its own and marks the one it reverses. -/
theorem safe_reverseEntry {entry postedBy : Uuid} {memo : Option String}
    (h : JournalLog chart ok none held log db n)
    (hnx : ∀ p held' log' db' n', JournalLog chart ok none held' log' db' n' →
      entryIds (own log').entries = entryIds (own log).entries ++ [p.entry.id] →
      (journalContract chart ok).Safe (next p) held' log' db' n') :
    (journalContract chart ok).Safe (reverseEntry chart entry postedBy memo now next) held log
      db n := by
  refine safe_getEntry h fun orig db1 n1 h1 hid hsee1 ↦ ?_
  split
  · trivial
  refine safe_resolvePostingPeriod h1 fun periodId db2 n2 hr2 h2 ↦
    safe_query h2 fun db3 n3 hr3 hinv3 h3 ↦ ?_
  have hsee3 := hr3.seen (hr2.seen hsee1)
  -- the reversal is inserted; it is pending until the original is marked
  set new := orig.entry.reversal periodId postedBy memo now
  set r := insertEntry n3 new
  set log1 := log ++ [.insertEntry r]
  have hown1 : own log1 = (own log).apply (.insertEntry r) := own_concat log _
  have hmar1 : marks log1 = marks log := by
    rw [marks_append]
    exact append_nil _
  have hids1 : entryIds (own log1).entries = entryIds (own log).entries ++ [r.id] := by
    rw [hown1]
    exact map_append
  have h3' : JournalLog chart ok (some r.id) held log1 db3 (n3 + 1) := by
    rw [JournalLog, hown1, hmar1]
    exact h3.insertEntry hinv3 new fun _ _ ↦ rfl
  have hcur3 : Current (own log1) (marks log1) r.id := by
    rw [hown1, hmar1]
    exact h3.current hinv3 new
  have hsee3' : Seen log1 db3 orig.entry.id := by
    rw [Seen, hids1, hid]
    exact hsee3.imp_right (mem_append_left _)
  have hnol : linesOf (own log1).lines r.id = [] := by
    rw [hown1]
    exact linesOf_eq_nil h3.lines.refs fun hmem ↦ (h3.drawn _ hmem).ne rfl
  change (journalContract chart ok).Safe (.query (.insertSwapped orig.entry.id r.id) _) held log1
    db3 (n3 + 1)
  refine safe_query h3' fun db4 n4 hr4 hinv4 h4 ↦ ?_
  -- its lines are those of the original, swapped
  set view := replay (S := schema chart) db4 log1 with hvw
  have hlns : view.lines = db4.lines ++ (own log1).lines := lines_replay db4 log1
  set ls := (linesOf view.lines orig.entry.id).map (·.swap r.id) with hls
  have hfine : LinesFine chart ok [r.id] ls := by
    rw [hls, hlns]
    exact linesFine_swap r.id (hinv4.lines.append h4.lines)
  have hwri : (exec chart (.insertSwapped orig.entry.id r.id) db4 view n4).1
      = ls.map .insertLine := (map_map ..).symm
  change (journalContract chart ok).Safe _ held
    (log1 ++ (exec chart (.insertSwapped orig.entry.id r.id) db4 view n4).1) db4 (n4 + 1)
  rw [hwri]
  have hown2 := own_append_lines log1 ls
  have hmar2 := marks_append_lines log1 ls
  have hmem_r : r ∈ (own log1).entries := by
    rw [hown1]
    exact mem_concat_self
  refine safe_updateReversed (r := r) ?_ ?_ rfl ?_ ?_ fun held' log' db5 n5 h5 hids5 ↦
    safe_getEntry h5 fun p db6 n6 h6 hpid _ ↦ hnx p held' log' db6 n6 h6 ?_
  · rw [JournalLog, hown2, hmar2]
    exact (h4.insertLines hcur3 hfine).tick
  · rw [hown2]
    exact hmem_r
  · have hsee4 := hr4.seen hsee3'
    rw [Seen, hown2]
    exact hsee4
  · -- the reversal had no lines before
    have hfr : linesOf (db4.lines ++ (own log1).lines) r.id = [] := by
      rw [linesOf_append, hnol, append_nil]
      exact linesOf_eq_nil hinv4.lines.refs (h4.fresh _ hcur3.mem)
    have hself : linesOf ls r.id = ls := filter_eq_self.mpr fun l hl ↦ by
      simpa using hfine.refs l hl
    have hne : orig.entry.id ∉ [r.id] := by
      have hlt : entry < n3 := hsee3.elim (hinv3.drawn entry) (h3.drawn entry)
      rw [mem_singleton, hid]
      exact hlt.ne
    rw [Swapped, hown2, ← append_assoc, linesOf_append, linesOf_append _ ls, hfr, hself,
      linesOf_eq_nil hfine.refs hne, append_nil, nil_append, hls, hlns]
  · rw [hids5, hown2, hpid]
    exact hids1

end Calls

theorem safe_commit (h : JournalLog chart ok none held log db n)
    (hbal : ∀ i ∈ entryIds (own log).entries, Balanced (own log).lines i) (a : AccountingResult) :
    (journalContract chart ok).Safe (.commit a) held log db n := by
  intro db' n' hn hr hinv _
  have h' := h.rely hr hn
  exact ⟨h', inv_replay h' hinv hbal, JournalLog.frozen h' hinv⟩

/-- The deferred trigger establishes the balance of the entries it is fired for. -/
theorem safe_deferred {entries : List Uuid} {a : AccountingResult}
    (h : JournalLog chart ok none held log db n)
    (hbal : ∀ i ∈ entryIds (own log).entries, i ∈ entries ∨ Balanced (own log).lines i) :
    (journalContract chart ok).Safe (deferred chart (.commit a) entries) held log db n := by
  induction entries generalizing db n with
  | nil => exact safe_commit h (fun i hi ↦ (hbal i hi).resolve_left (by simp)) a
  | cons entry entries ih =>
    refine safe_read rfl h fun db' n' _ hinv h' ↦ ?_
    change (journalContract chart ok).Safe (answerBalanced chart _
      (assertBalanced (replay (S := schema chart) db' log) entry)) _ _ _ _
    cases hres : assertBalanced (replay (S := schema chart) db' log) entry with
    | error e => trivial
    | ok _ =>
      refine ih h' fun i hi ↦ ?_
      rcases hbal i hi with hmem | hdone
      · rcases mem_cons.mp hmem with rfl | hlat
        · have hsum := assertBalanced_eq_ok hres
          rw [lines_replay, JournalLog.linesOf_own h' hinv hi] at hsum
          exact .inr hsum
        · exact .inl hlat
      · exact .inr hdone

/-- The amounts that a call stores are `ok`. -/
def JournalCall.Amounts (ok : Money → Prop) : JournalCall → Prop
  | .post input => ∀ ln ∈ input.lines, ln.Amounts ok
  | .reverse _ _ _ => True

/-- A transaction of calls. Its entries are those the trigger is fired for. -/
theorem safe_journalTxn {calls : List JournalCall} (hok : ∀ call ∈ calls, call.Amounts ok)
    {posted : List (JournalCall × PostedEntry)} (h : JournalLog chart ok none held log db n)
    (hids : entryIds (own log).entries = posted.map (·.2.entry.id)) :
    (journalContract chart ok).Safe (journalTxn chart now calls posted) held log db n := by
  induction calls generalizing posted held log db n with
  | nil => exact safe_deferred h fun i hi ↦ .inl (hids ▸ hi)
  | cons call calls ih =>
    have hrest : ∀ p held' log' db' n', JournalLog chart ok none held' log' db' n' →
        entryIds (own log').entries = entryIds (own log).entries ++ [p.entry.id] →
        (journalContract chart ok).Safe (journalTxn chart now calls (posted ++ [(call, p)])) held'
          log' db' n' := by
      intro p held' log' db' n' h' hids'
      refine ih (fun c hc ↦ hok c (mem_cons_of_mem _ hc)) h' ?_
      rw [hids', hids, map_append]
      rfl
    cases call with
    | post input =>
      exact safe_postEntry (hok _ mem_cons_self) h fun p log' ↦ hrest p held log'
    | reverse entry postedBy memo => exact safe_reverseEntry h hrest

/-! ## Every transaction -/

private theorem journalLog_of_own_eq_nil (hents : (own log).entries = [])
    (hlns : (own log).lines = []) (hmar : marks log = []) :
    JournalLog chart ok pending held log db n := by
  refine ⟨?_, ?_, ?_, ⟨?_, ?_, ?_⟩, ?_, ?_, ?_, ?_⟩ <;>
    simp [entryIds, hents, hlns, hmar]

private theorem safe_commit_period {w : Write} (hents : (own [w]).entries = [])
    (hlns : (own [w]).lines = []) (hmar : marks [w] = []) (a : AccountingResult) :
    (journalContract chart ok).Safe (.commit a) held [w] db n :=
  safe_commit (journalLog_of_own_eq_nil hents hlns hmar) (by simp [hents, entryIds]) a

private theorem safe_createPeriod {startDate endDate : ℤ} :
    (journalContract chart ok).Safe (createPeriod chart startDate endDate) held [] db n := by
  intro db1 n1 _ _ _ _
  refine Contract.safe_query fun db2 n2 _ _ _ _ ws r hout ↦ ?_
  obtain ⟨e, -, rfl, rfl⟩ | ⟨p, -, rfl, rfl⟩ := logged_eq hout
  · cases e <;> trivial
  · exact safe_commit_period rfl rfl rfl _

private theorem safe_refuseTransition :
    (journalContract chart ok).Safe (refuseTransition chart id) held [] db n := by
  intro db' n' _ _ _ _
  simp only [exec]
  split <;> trivial

private theorem safe_transition {t : Transition} :
    (journalContract chart ok).Safe (transition chart t) held [] db n := by
  have hnil : JournalLog chart ok none held [] db n := journalLog_of_own_eq_nil rfl rfl rfl
  refine safe_read rfl hnil fun db1 n1 _ _ _ ↦ ?_
  split
  case isFalse => exact safe_refuseTransition
  intro db2 n2 _ _ _ _ db3 n3 _ _ _ _
  change (journalContract chart ok).Safe (answerPeriod chart t.id
      ((t.find (replay (S := schema chart) db3 [])).map t.apply)) _
    ((t.find (replay (S := schema chart) db3 [])).map fun p ↦ Write.setPeriod (t.apply p)).toList
    db3 (n3 + 1)
  cases t.find (replay (S := schema chart) db3 []) with
  | none => exact safe_refuseTransition
  | some p => exact safe_commit_period rfl rfl rfl _

/-- The amounts that an operation stores are `ok`. -/
def Op.Amounts (ok : Money → Prop) : Op → Prop
  | .journal _ calls => ∀ call ∈ calls, call.Amounts ok
  | _ => True

theorem op_amounts_true (ops : T → Op) (t : T) : (ops t).Amounts fun _ ↦ True := by
  have hcall (call : JournalCall) : call.Amounts fun _ ↦ True := by
    cases call with
    | post input => exact fun _ _ ↦ ⟨fun _ _ ↦ trivial, fun _ _ ↦ trivial⟩
    | reverse entry postedBy memo => trivial
  cases ops t with
  | journal now calls => exact fun call _ ↦ hcall call
  | createPeriod startDate endDate => trivial
  | transition edge id actorId now => trivial

theorem safe_op {op : Op} (hok : op.Amounts ok) :
    (journalContract chart ok).Safe (op.prog chart) ∅ [] db n := by
  cases op with
  | journal now calls =>
    exact safe_journalTxn hok (journalLog_of_own_eq_nil rfl rfl rfl) rfl
  | createPeriod startDate endDate => exact safe_createPeriod
  | transition edge id actorId now => exact safe_transition

/-- A ledger with an empty journal. -/
def newLedger (periods : List Period) : AccountingDb := ⟨periods, [], []⟩

/-- The machine with an empty journal and these transactions. -/
abbrev openingState {T : Type} (chart : Chart) (periods : List Period) (n : ℕ) (ops : T → Op) :
    State (schema chart) T :=
  State.init (newLedger periods) n fun t ↦ (ops t).prog chart

theorem journalInv_newLedger (periods : List Period) (n : ℕ) :
    JournalInv chart ok (newLedger periods) n := by
  refine ⟨?_, ?_, ⟨?_, ?_, ?_⟩, ?_, ?_, ?_⟩ <;> simp [newLedger, entryIds]

/-- In every state that transactions reach from an empty journal, in any interleaving, the
invariant holds, and every commit left the committed rows as they were. -/
theorem journalInv_of_reach [DecidableEq T] {ops : T → Op} {periods : List Period}
    {s : State (schema chart) T} (hok : ∀ t, (ops t).Amounts ok)
    (hrch : Reach (fun _ _ ↦ True) (openingState chart periods n ops) s) :
    JournalInv chart ok s.db s.stamp ∧ ∀ c ∈ s.commits, Frozen c.before c.after :=
  Contract.sound journalContract_suits (journalInv_newLedger periods n)
    (fun t ↦ safe_op (hok t)) (hrch.strengthen fun h ↦ distinct_of_reach drawsStamp h)

end FuelGrid.Accounting
