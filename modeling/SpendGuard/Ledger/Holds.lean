import SpendGuard.Base.Sums
import SpendGuard.Ledger.ReserveSet
import SpendGuard.Ledger.System

/-!
What the projections say is held and spent on an account, and the invariant under which the entry a
procedure looks up for a reservation is the only one there is.
-/

namespace SpendGuard.Ledger

open Base

def LedgerEntry.opens (tenant reservation : Uuid) (e : LedgerEntry) : Bool :=
  e.account.tenant = tenant ∧ e.reservation = some reservation ∧ e.account.kind = .reservedHold ∧
    e.direction = .credit

def EntryDraft.opens (tenant reservation : Uuid) (d : EntryDraft) : Bool :=
  d.account.tenant = tenant ∧ d.reservation = some reservation ∧ d.account.kind = .reservedHold ∧
    d.direction = .credit

theorem Db.reserveEntry_eq_head? (db : Db) (tenant reservation : Uuid) :
    db.reserveEntry tenant reservation = (db.entries.filter (·.opens tenant reservation)).head? := by
  rw [List.head?_filter]
  rfl

/-- The account of a reservation; its unit is known from the entry only. -/
def Reservation.account (r : Reservation) (e : LedgerEntry) (k : AccountKind) : Account :=
  ⟨r.tenant, r.budget, r.window, e.account.unit, k⟩

def Commit.latestAmount (c : Commit) : ℕ :=
  (c.invoiceReconciledAmount <|> c.providerReportedAmount <|> c.estimatedAmount).getD 0

namespace Db

def reservedOn (db : Db) (a : Account) (r : Reservation) : ℤ :=
  match db.reserveEntry r.tenant r.id with
  | some e => if r.state = .reserved ∧ r.account e .reservedHold = a then e.amount else 0
  | none => 0

def committedOn (db : Db) (a : Account) (r : Reservation) : ℤ :=
  match db.reserveEntry r.tenant r.id, db.commit? r.tenant r.id with
  | some e, some c =>
    if r.state = .committed ∧ r.account e .committedSpend = a then c.latestAmount else 0
  | _, _ => 0

end Db

namespace SessionReservation

def heldOn (a : Account) (s : SessionReservation) : ℤ :=
  if s.status = .active ∧ s.tuple.account .reservedHold = a then
    s.reservedAmount - s.committedAmount else 0

def spentOn (a : Account) (s : SessionReservation) : ℤ :=
  if s.tuple.account .committedSpend = a then s.committedAmount else 0

end SessionReservation

namespace Db

def held (db : Db) (a : Account) : ℤ :=
  (db.reservations.map (db.reservedOn a)).sum + (db.sessions.map (·.heldOn a)).sum

def spent (db : Db) (a : Account) : ℤ :=
  (db.reservations.map (db.committedOn a)).sum + (db.sessions.map (·.spentOn a)).sum

structure Conserved (db : Db) : Prop where
  hold : ∀ a : Account, a.kind = .reservedHold → db.balance a = db.held a
  spend : ∀ a : Account, a.kind = .committedSpend → db.balance a = db.spent a

end Db

structure Commit.Sound (c : Commit) : Prop where
  id : c.id = c.reservation.digest ":commit_estimated"
  estimated : c.estimatedAmount ≠ none
  unreported : c.latestState = .estimated → c.providerReportedAmount = none
  uninvoiced : c.latestState ≠ .invoiceReconciled → c.invoiceReconciledAmount = none

structure Db.Booked (db : Db) : Prop where
  opened : ∀ r ∈ db.reservations, ∃ e, db.entries.filter (·.opens r.tenant r.id) = [e] ∧
    e.account = r.account e .reservedHold
  ids : (db.reservations.map (·.id)).Nodup
  sessionIds : (db.sessions.map (·.id)).Nodup
  credits : ∀ e ∈ db.entries, ∀ tenant id, e.opens tenant id = true →
    id ∈ db.reservations.map (·.id) ∨ id ∈ db.sessions.map (·.id)
  commits : ∀ c ∈ db.commits, c.Sound ∧
    ∃ r ∈ db.reservations, r.id = c.reservation ∧ r.tenant = c.tenant ∧ r.state = .committed
  within : ∀ s ∈ db.sessions, s.committedAmount ≤ s.reservedAmount

namespace Db.Posted

variable {db db' : Db} {x : LedgerTransaction} {ds : List EntryDraft} {tenant reservation : Uuid}

theorem filter_opens (h : db.Posted db' x ds) (tenant reservation : Uuid) : ∃ l : List (EntryDraft × ℕ),
    l.map Prod.fst = ds.filter (·.opens tenant reservation) ∧
    db'.entries.filter (·.opens tenant reservation) =
      db.entries.filter (·.opens tenant reservation) ++ numberedEntries x.id l := by
  obtain ⟨l, rfl, he⟩ := h.entries
  refine ⟨l.filter (·.1.opens tenant reservation), ?_, ?_⟩
  · rw [List.filter_map]
    rfl
  · rw [he, List.filter_append, numberedEntries, List.filter_map]
    rfl

theorem filter_opens_of_none (h : db.Posted db' x ds)
    (hds : ∀ d ∈ ds, d.opens tenant reservation = false) :
    db'.entries.filter (·.opens tenant reservation) =
      db.entries.filter (·.opens tenant reservation) := by
  obtain ⟨l, hl, he⟩ := h.filter_opens tenant reservation
  rw [List.filter_eq_nil_iff.mpr (by simpa using hds), List.map_eq_nil_iff] at hl
  rw [he, hl]
  exact List.append_nil _

theorem credits (h : db.Posted db' x ds) {e : LedgerEntry} (he : e ∈ db'.entries)
    (hopens : e.opens tenant reservation = true) :
    e ∈ db.entries ∨ ∃ d ∈ ds, d.opens tenant reservation = true := by
  obtain ⟨l, rfl, hentries⟩ := h.entries
  rw [hentries, List.mem_append] at he
  cases he with
  | inl hold => exact .inl hold
  | inr hnew =>
    obtain ⟨d, hd, rfl⟩ := List.mem_map.mp hnew
    exact .inr ⟨d.1, List.mem_map_of_mem hd, hopens⟩

end Db.Posted

namespace Db.Booked

variable {db : Db}

theorem reserveEntry (h : db.Booked) {r : Reservation} (hr : r ∈ db.reservations) :
    ∃ e, db.reserveEntry r.tenant r.id = some e ∧ e.account = r.account e .reservedHold := by
  obtain ⟨e, he, haccount⟩ := h.opened r hr
  exact ⟨e, by rw [Db.reserveEntry_eq_head?, he]; rfl, haccount⟩

theorem filter_opens_fresh (h : db.Booked) {tenant id : Uuid} (hr : id ∉ db.reservations.map (·.id))
    (hs : id ∉ db.sessions.map (·.id)) : db.entries.filter (·.opens tenant id) = [] := by
  rw [List.filter_eq_nil_iff]
  intro e he hopens
  cases h.credits e he tenant id hopens with
  | inl hmem => exact hr hmem
  | inr hmem => exact hs hmem

theorem filter_reservation (h : db.Booked) {r : Reservation} (hr : r ∈ db.reservations) :
    db.reservations.filter (fun x => x.id = r.id) = [r] := filter_eq_singleton_of_nodup h.ids hr

theorem reservation? (h : db.Booked) {r : Reservation} (hr : r ∈ db.reservations) :
    db.reservation? r.tenant r.id = some r := by
  have hsplit : db.reservations.filter (fun x => x.tenant = r.tenant ∧ x.id = r.id) =
      (db.reservations.filter fun x => x.id = r.id).filter fun x => x.tenant = r.tenant := by
    simp [List.filter_filter]
  rw [Db.reservation?, ← List.head?_filter, hsplit, h.filter_reservation hr]
  simp

theorem filter_session (h : db.Booked) {s : SessionReservation} (hs : s ∈ db.sessions) :
    db.sessions.filter (fun x => x.id = s.id) = [s] := filter_eq_singleton_of_nodup h.sessionIds hs

end Db.Booked

theorem Db.reservation?_some {db : Db} {tenant id : Uuid} {r : Reservation}
    (h : db.reservation? tenant id = some r) : r ∈ db.reservations ∧ r.tenant = tenant ∧ r.id = id :=
  ⟨List.mem_of_find?_eq_some h, by simpa using List.find?_some h⟩

theorem Db.commit?_some {db : Db} {tenant reservation : Uuid} {c : Commit}
    (h : db.commit? tenant reservation = some c) :
    c ∈ db.commits ∧ c.tenant = tenant ∧ c.reservation = reservation :=
  ⟨List.mem_of_find?_eq_some h, by simpa using List.find?_some h⟩

theorem Db.session?_some {db : Db} {id : Uuid} {s : SessionReservation} (h : db.session? id = some s) :
    s ∈ db.sessions ∧ s.id = id :=
  ⟨List.mem_of_find?_eq_some h, by simpa using List.find?_some h⟩

end SpendGuard.Ledger
