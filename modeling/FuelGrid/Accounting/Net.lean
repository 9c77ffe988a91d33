import FuelGrid.Accounting.Calls
import FuelGrid.Accounting.Reversal

/-!
# What a posted entry leaves on an account

The lines of an answered `PostEntry` are known by `PostedLine`. For amounts that are columns, such
as those a handler has read from its own tables, nothing is rounded, and the net amount that the
entry leaves on an account is that of the lines that name the account (`netOn_unitLine`,
`netOn_amountPair`). Entries carry the station of their document on every line, so the lines of one
station are all of the entry or none (`netOn_filter_station`).
-/

namespace FuelGrid.Accounting

open Sql

variable {chart : Chart} {entry account : Uuid} {lines : List JournalLine} {station : Option Uuid}

/-- The rows that match the first part of a list and those that match the rest. -/
theorem exists_append_of_forall₂ {α β : Type} {R : α → β → Prop} {xs ys : List α} {zs : List β}
    (h : Forall₂ R (xs ++ ys) zs) :
    ∃ as bs, zs = as ++ bs ∧ Forall₂ R xs as ∧ Forall₂ R ys bs := by
  induction xs generalizing zs with
  | nil => exact ⟨[], zs, rfl, .nil, h⟩
  | cons x xs ih =>
    obtain ⟨z, rest, hz, hrest, rfl⟩ := forall₂_cons_left_iff.mp h
    obtain ⟨as, bs, rfl, has, hbs⟩ := ih hrest
    exact ⟨z :: as, bs, rfl, .cons hz has, hbs⟩

theorem netOn_nil (account : Uuid) : netOn [] account = 0 := rfl

/-- A line with the amounts of two columns, on a system account. -/
def unitLine (systemKey : String) (debit credit : Money) (station : Option Uuid) : PostLine where
  systemKey
  debit := some (.ofUnits 2 debit)
  credit := some (.ofUnits 2 credit)
  stationId := station

theorem netOn_unitLine {key : String} {debit credit : Money}
    (h : Forall₂ (PostedLine chart entry) [unitLine key debit credit station] lines) :
    netOn lines account = if chart.systemAccount key = some account then debit - credit else 0 := by
  obtain ⟨l, rest, hl, hnil, rfl⟩ := forall₂_cons_left_iff.mp h
  obtain rfl := forall₂_nil_left_iff.mp hnil
  have hacc : chart.systemAccount key = some l.accountId := hl.account
  rw [netOn_cons, netOn_nil, add_zero, hacc, store_ofUnits hl.debit,
    store_ofUnits hl.credit]
  simp only [some.injEq]

theorem netOn_amountPair {debit credit : String} {amount : Money}
    (h : Forall₂ (PostedLine chart entry) (amountPair debit credit amount station) lines) :
    netOn lines account = (if chart.systemAccount debit = some account then amount else 0)
      + if chart.systemAccount credit = some account then -amount else 0 := by
  obtain ⟨d, c, rfl, hd, hc, hdd, hdc, hcd, hcc⟩ := PostedLine.pair h
  rw [netOn_cons, netOn_cons, netOn_nil, add_zero, hd, hc, hdd, hdc, hcd, hcc, sub_zero, zero_sub]
  simp only [some.injEq]

theorem netOn_filter_station {st : Uuid} (hlns : ∀ l ∈ lines, l.stationId = some st)
    (station : Uuid) :
    netOn (lines.filter (·.stationId = some station)) account
      = if st = station then netOn lines account else 0 := by
  split
  next h =>
    subst h
    rw [filter_eq_self.mpr fun l hl ↦ decide_eq_true (hlns l hl)]
  next h =>
    rw [filter_eq_nil_iff.mpr fun l hl hst ↦
      h (some.inj ((hlns l hl).symm.trans (of_decide_eq_true hst)))]
    rfl

end FuelGrid.Accounting
