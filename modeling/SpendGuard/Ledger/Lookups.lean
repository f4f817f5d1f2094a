import SpendGuard.Ledger.Epochs
import SpendGuard.Ledger.HardCap

/-!
What a later look into the tables finds again: transactions and entries are appended, and of a reservation
only the state changes.
-/

namespace SpendGuard.Ledger

open Base Base.Proc

/-- A row that the call may append to `ledger_transactions`. -/
def MoneyCall.Row (c : MoneyCall) (x : LedgerTransaction) : Prop :=
  match c.fenced with
  | some (t, op) => t.Posted op x
  | none => SessionRow x

def LedgerCall.Row : LedgerCall → LedgerTransaction → Prop
  | .money c => c.Row
  | .denied r => r.transaction.Posted .deniedDecision
  | .lease _ | .tombstone _ | .queryDecision _ _ => fun _ => False

/-- A reservation is found again, and once it is not reserved any more in the same state. -/
def Db.KeepsReservations (db db' : Db) : Prop :=
  ∀ tenant id r, db.reservation? tenant id = some r →
    ∃ s, db'.reservation? tenant id = some { r with state := s } ∧ (r.state ≠ .reserved → s = r.state)

structure LedgerCall.Extends (c : LedgerCall) (db db' : Db) : Prop where
  transactions : ∃ rows, (∀ x ∈ rows, c.Row x) ∧ db'.transactions = db.transactions ++ rows
  entries : db.entries <+: db'.entries
  reservations : db.KeepsReservations db'

def Db.Settled (db : Db) (tenant reservation : Uuid) : Prop :=
  ∃ r, db.reservation? tenant reservation = some r ∧ r.state ≠ .reserved

section Transactions

variable {db db' : Db} {c : MoneyCall} {now : ℕ}

theorem writes_of_fenced {t : TransactionArgs} {op : OperationKind} (hc : c.fenced = some (t, op)) :
    Writes (AppendsOnly c.Row) c.body := by
  cases c.shape with
  | fenced hc' hk hbody =>
    rw [hbody]
    apply (writes_fencedPost (hk.mono fun _ hf => hf.mono ?_)).map
    intro x hx
    rw [MoneyCall.Row, hc']
    exact hx
  | session hc' _ _ => cases hc.symm.trans hc'

theorem MoneyCall.writes_body (c : MoneyCall) : Writes (AppendsOnly c.Row) c.body := by
  cases c with
  | post r => exact writes_of_fenced rfl
  | commitEstimated r => exact writes_of_fenced rfl
  | providerReported r => exact writes_of_fenced rfl
  | invoiceReconciled r => exact writes_of_fenced rfl
  | release r => exact writes_of_fenced rfl
  | sessionReserve r => exact (writes_postSessionReserve r).map
  | sessionCommitDelta r => exact (writes_postSessionCommitDelta r).map
  | sessionRelease reasonCode r => exact (writes_postSessionRelease reasonCode r).map
  | sessionExpire r => exact (writes_postSessionExpire r).map

theorem exec_map_eq_ok {α β : Type} {f : α → β} {x : SqlProc α} {b : β}
    (h : exec now (f <$> x) db = .ok (b, db')) : ∃ a, exec now x db = .ok (a, db') := by
  change exec now (x >>= fun a => Pure.pure (f a)) db = _ at h
  obtain ⟨a, _, hx, hpure⟩ := exec_bind_eq_ok.mp h
  cases hpure
  exact ⟨a, hx⟩

theorem MoneyCall.run_of_exec {a : LedgerReply} (h : exec now c.body db = .ok (a, db')) :
    c.run now db = .ok db' := by
  cases c <;> exact congrArg (Prod.snd <$> ·) (exec_map_eq_ok h).choose_spec

theorem Db.Posted.entries_prefix {x : LedgerTransaction} {ds : List EntryDraft} (h : db.Posted db' x ds) :
    db.entries <+: db'.entries := by
  obtain ⟨l, -, hentries⟩ := h.entries
  exact ⟨_, hentries.symm⟩

theorem MoneyCall.Effect.entries_prefix (h : c.Effect db db') : db.entries <+: db'.entries := by
  cases h with
  | same h => exact h.entries ▸ List.prefix_rfl
  | post h => exact h.posted.entries_prefix
  | commitEstimated h => exact h.posted.choose_spec.entries_prefix
  | providerReported _ _ h => exact h.posted.choose_spec.entries_prefix
  | invoiceReconciled _ _ h => exact h.posted.choose_spec.entries_prefix
  | release h => exact h.posted.choose_spec.entries_prefix
  | sessionDenied h => exact h.posted.choose_spec.entries_prefix
  | sessionReserve _ _ h => exact h.posted.choose_spec.entries_prefix
  | sessionCommitDelta h => exact h.posted.choose_spec.entries_prefix
  | sessionRelease h => exact h.posted.choose_spec.entries_prefix
  | sessionExpire h => exact h.posted.choose_spec.entries_prefix

theorem find?_of_prefix {α : Type} {xs ys : List α} {p : α → Bool} {a : α} (h : xs <+: ys)
    (ha : xs.find? p = some a) : ys.find? p = some a := by
  obtain ⟨zs, rfl⟩ := h
  rw [List.find?_append, ha, Option.some_or]

end Transactions

section Reservations

variable {db db' : Db} {c : MoneyCall} {now : ℕ}

theorem keepsReservations_of_eq (h : db'.reservations = db.reservations) : db.KeepsReservations db' := by
  intro tenant id r hr
  refine ⟨r.state, ?_, fun _ => rfl⟩
  rw [Db.reservation?, h]
  exact hr

theorem prefix_addReservation (rs : List Reservation) (r : Reservation) : rs <+: addReservation rs r := by
  unfold addReservation
  split
  · exact List.prefix_rfl
  · exact List.prefix_append _ _

theorem prefix_foldl_addReservation (xs rs : List Reservation) : rs <+: xs.foldl addReservation rs := by
  induction xs generalizing rs with
  | nil => exact List.prefix_rfl
  | cons x xs ih => exact (prefix_addReservation rs x).trans (ih (addReservation rs x))

theorem LedgerPost.Posted.keepsReservations {r : LedgerPost} (h : r.Posted db db') :
    db.KeepsReservations db' := by
  intro tenant id x hx
  refine ⟨x.state, ?_, fun _ => rfl⟩
  rw [Db.reservation?, h.reservations]
  exact find?_of_prefix (prefix_foldl_addReservation _ _) hx

theorem reservation?_set {tenant id : Uuid} {new : ReservationState}
    (h : db'.reservations = (db.setReservationState tenant id .reserved new).reservations)
    (tenant' id' : Uuid) : db'.reservation? tenant' id' = (db.reservation? tenant' id').map fun r =>
      if r.id = id ∧ r.tenant = tenant ∧ r.state = .reserved then { r with state := new } else r := by
  rw [Db.reservation?, h, Db.setReservationState, List.find?_map, Db.reservation?]
  congr 2
  funext r
  rw [Function.comp_apply]
  split <;> rfl

theorem keepsReservations_set {tenant id : Uuid} {new : ReservationState}
    (h : db'.reservations = (db.setReservationState tenant id .reserved new).reservations) :
    db.KeepsReservations db' := by
  intro tenant' id' r hr
  rw [reservation?_set h, hr, Option.map_some]
  split
  · next hmatch => exact ⟨new, rfl, fun hne => absurd hmatch.2.2 hne⟩
  · exact ⟨r.state, rfl, fun _ => rfl⟩

theorem MoneyCall.Effect.keepsReservations (h : c.Effect db db') : db.KeepsReservations db' := by
  cases h with
  | same h => exact keepsReservations_of_eq h.reservations
  | post h => exact h.keepsReservations
  | commitEstimated h => exact keepsReservations_set h.reservations
  | providerReported _ _ h => exact keepsReservations_of_eq h.reservations
  | invoiceReconciled _ _ h => exact keepsReservations_of_eq h.reservations
  | release h => exact keepsReservations_set h.reservations
  | sessionDenied h => exact keepsReservations_of_eq h.reservations
  | sessionReserve _ _ h => exact keepsReservations_of_eq h.reservations
  | sessionCommitDelta h => exact keepsReservations_of_eq h.reservations
  | sessionRelease h => exact keepsReservations_of_eq h.reservations
  | sessionExpire h => exact keepsReservations_of_eq h.reservations

theorem Db.Settled.keeps {tenant reservation : Uuid} (h : db.Settled tenant reservation)
    (hk : db.KeepsReservations db') : db'.Settled tenant reservation := by
  obtain ⟨r, hr, hstate⟩ := h
  obtain ⟨s, hs, hsame⟩ := hk tenant reservation r hr
  exact ⟨_, hs, hsame hstate ▸ hstate⟩

theorem CommitPost.Committed.isSettled {r : CommitPost} {res : Reservation} {e : LedgerEntry}
    (h : r.Committed db db' res e) : db'.Settled r.transaction.tenant r.reservation := by
  have hres : res.tenant = r.transaction.tenant ∧ res.id = r.reservation := by
    simpa using List.find?_some h.found
  refine ⟨{ res with state := .committed }, ?_, nofun⟩
  rw [reservation?_set h.reservations, h.found, Option.map_some, if_pos ⟨hres.2, hres.1, h.reserved⟩]

theorem LedgerCall.extends_of_exec {c : LedgerCall} {a : LedgerReply} (h : exec now c.body db = .ok (a, db')) :
    c.Extends db db' := by
  have hscopes {α : Type} {x : SqlProc α} {a : α} (hx : Writes ScopesOnly x)
      (hrun : exec now x db = .ok (a, db')) : db'.transactions = db.transactions ∧
        db'.entries = db.entries ∧ db'.reservations = db.reservations := by
    have hquiet : Quiet (fun v : Db => (v.transactions, v.entries, v.reservations)) x := by
      apply hx.mono
      intro f hf v
      obtain ⟨scopes, events, hv⟩ := hf v
      rw [hv]
    simpa using hquiet.exec_eq hrun
  cases c with
  | money c =>
    have heffect := MoneyCall.effect (MoneyCall.run_of_exec h)
    exact ⟨transactions_of_exec c.writes_body h, heffect.entries_prefix, heffect.keepsReservations⟩
  | denied r =>
    obtain ⟨id, hrun⟩ := exec_map_eq_ok h
    rcases exec_postDeniedDecisionTransaction hrun with ⟨rfl, -⟩ | ⟨-, hrecorded⟩
    · exact ⟨⟨[], by simp⟩, List.prefix_rfl, keepsReservations_of_eq rfl⟩
    · rw [hrecorded.result]
      exact ⟨⟨[_], by simpa using ⟨_, rfl⟩, rfl⟩, List.prefix_rfl, keepsReservations_of_eq rfl⟩
  | lease r =>
    obtain ⟨_, hrun⟩ := exec_map_eq_ok h
    obtain ⟨ht, he, hr⟩ := hscopes (scopesOnly_acquireFencingLease r) hrun
    exact ⟨⟨[], by simp [ht]⟩, he ▸ List.prefix_rfl, keepsReservations_of_eq hr⟩
  | tombstone tenant =>
    obtain ⟨_, hrun⟩ := exec_map_eq_ok h
    obtain ⟨ht, he, hr⟩ := hscopes (scopesOnly_tombstoneTenant tenant) hrun
    exact ⟨⟨[], by simp [ht]⟩, he ▸ List.prefix_rfl, keepsReservations_of_eq hr⟩
  | queryDecision tenant key =>
    obtain ⟨_, hrun⟩ := exec_map_eq_ok h
    cases hrun
    exact ⟨⟨[], by simp⟩, List.prefix_rfl, keepsReservations_of_eq rfl⟩

end Reservations

section History

def LedgerCall.run (db : Db) (c : ℕ × LedgerCall) : Except PgError Db := Prod.snd <$> exec c.1 c.2.body db

/-- Nothing posted is changed or removed, nor a reservation that is settled. -/
def Db.Continues (db db' : Db) : Prop :=
  db.transactions <+: db'.transactions ∧ db.entries <+: db'.entries ∧ db.KeepsReservations db'

theorem Db.Continues.trans {a b c : Db} (h : a.Continues b) (h' : b.Continues c) : a.Continues c := by
  refine ⟨h.1.trans h'.1, h.2.1.trans h'.2.1, ?_⟩
  intro tenant id r hr
  obtain ⟨s, hs, hsame⟩ := h.2.2 tenant id r hr
  obtain ⟨s', hs', hsame'⟩ := h'.2.2 tenant id _ hs
  refine ⟨s', hs', fun hne => ?_⟩
  obtain rfl := hsame hne
  exact hsame' hne

theorem history_append_only {db : Db} {tr : List ((ℕ × LedgerCall) × Db)}
    (h : Trace (fun db c db' => LedgerCall.run db c = .ok db') db tr) :
    (db :: tr.map Prod.snd).Pairwise Db.Continues := by
  apply h.pairwise (I := fun _ => True) (fun _ _ _ _ _ => trivial) trivial
  · exact fun _ _ _ => Db.Continues.trans
  · intro s c s' _ hstep
    obtain ⟨_, hrun⟩ := map_snd_eq_ok hstep
    have hx := LedgerCall.extends_of_exec hrun
    obtain ⟨rows, -, hrows⟩ := hx.transactions
    exact ⟨⟨rows, hrows.symm⟩, hx.entries, hx.reservations⟩

theorem fundedLedger_continues :
    ∃ tr, Trace (fun db c db' => LedgerCall.run db c = .ok db') fundedLedger tr ∧
    (tr.map fun p => p.2.entries.length) = [4, 8, 8] ∧
    (fundedLedger :: tr.map Prod.snd).Pairwise Db.Continues := by
  have hrun : (runAll LedgerCall.run fundedLedger [(0, .money (.post (capReserve 1 10))),
      (0, .money (.commitEstimated (capReport 2 1 10 "sidecar-1" 1))), (0, .tombstone ⟨1, []⟩)]).map
        (·.map fun p => p.2.entries.length) = some [4, 8, 8] := by decide +kernel
  obtain ⟨tr, htr, hentries⟩ := Option.map_eq_some_iff.mp hrun
  have htrace := (runAll_spec htr).1
  exact ⟨tr, htrace, hentries, history_append_only htrace⟩

end History

end SpendGuard.Ledger
