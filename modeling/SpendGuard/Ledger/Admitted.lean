import SpendGuard.Ledger.Duplicates

/-!
Exactly which commits `post_commit_estimated_transaction` accepts under a new key.
-/

namespace SpendGuard.Ledger

open Base Base.Proc

section Balance

variable {db : Db} {tx unit : Uuid} {l : List (EntryDraft × ℕ)}

end Balance

section Exec

variable {now : ℕ} {db db' : Db} {r : CommitPost} {res : Reservation} {e : LedgerEntry}

end Exec

/-- The ledger holds a commit of the amount for the reservation: the transaction and its entry on the
committed spend. -/
def Db.HasCommit (db : Db) (tenant reservation : Uuid) (amount : ℤ) : Prop :=
  ∃ x ∈ db.transactions, x.tenant = tenant ∧ x.operationKind = .commitEstimated ∧
    ∃ e ∈ db.entries, e.transaction = x.id ∧ e.reservation = some reservation ∧
      e.account.kind = .committedSpend ∧ e.direction = .credit ∧ e.amount = amount

structure Db.Grows (db db' : Db) : Prop where
  transactions : ∀ x ∈ db.transactions, x ∈ db'.transactions
  entries : ∀ e ∈ db.entries, e ∈ db'.entries

section Recorded

variable {db db' : Db} {tenant reservation : Uuid} {amount : ℤ}

theorem Db.HasCommit.grows (h : db.HasCommit tenant reservation amount) (hg : db.Grows db') :
    db'.HasCommit tenant reservation amount := by
  obtain ⟨x, hx, htenant, hkind, e, he, hentry⟩ := h
  exact ⟨x, hg.transactions x hx, htenant, hkind, e, hg.entries e he, hentry⟩

theorem Db.Posted.grows {x : LedgerTransaction} {ds : List EntryDraft} (h : db.Posted db' x ds) :
    db.Grows db' := by
  obtain ⟨l, -, hentries⟩ := h.entries
  constructor
  · intro y hy
    rw [h.transactions]
    exact List.mem_append_left _ hy
  · intro e he
    rw [hentries]
    exact List.mem_append_left _ he

theorem MoneyCall.Effect.grows {c : MoneyCall} (h : c.Effect db db') : db.Grows db' := by
  cases h with
  | same h => exact ⟨h.transactions, fun e he => h.entries ▸ he⟩
  | post h => exact h.posted.grows
  | commitEstimated h => exact h.posted.choose_spec.grows
  | providerReported _ _ h => exact h.posted.choose_spec.grows
  | invoiceReconciled _ _ h => exact h.posted.choose_spec.grows
  | release h => exact h.posted.choose_spec.grows
  | sessionDenied h => exact h.posted.choose_spec.grows
  | sessionReserve _ _ h => exact h.posted.choose_spec.grows
  | sessionCommitDelta h => exact h.posted.choose_spec.grows
  | sessionRelease h => exact h.posted.choose_spec.grows
  | sessionExpire h => exact h.posted.choose_spec.grows

theorem Db.HasCommit.along {tr : List ((ℕ × MoneyCall) × Db)} (h : db.HasCommit tenant reservation amount)
    (htrace : Trace MoneyCall.Step db tr) : ∀ p ∈ tr, p.2.HasCommit tenant reservation amount := by
  apply htrace.always (I := fun db => db.HasCommit tenant reservation amount)
  · intro db c db' hdb hstep
    exact hdb.grows (MoneyCall.effect hstep).grows
  · exact h

end Recorded

end SpendGuard.Ledger
