import SpendGuard.Base.Run
import SpendGuard.Ledger.Adjust
import SpendGuard.Ledger.Release
import SpendGuard.Ledger.Session

/-!
The procedures that move money, as the steps of one system.  Each runs alone, as it does under the
row locks it takes.
-/

namespace SpendGuard.Ledger

open Base Base.Proc

inductive MoneyCall
  | post (r : LedgerPost)
  | commitEstimated (r : CommitPost)
  | providerReported (r : CommitPost)
  | invoiceReconciled (r : InvoicePost)
  | release (r : ReleasePost)
  | sessionReserve (r : SessionReserve)
  | sessionCommitDelta (r : SessionCommit)
  | sessionRelease (reasonCode : String) (r : SessionClose)
  | sessionExpire (r : SessionClose)

def MoneyCall.run (now : ℕ) (db : Db) : MoneyCall → Except PgError Db
  | .post r => Prod.snd <$> exec now (postLedgerTransaction r) db
  | .commitEstimated r => Prod.snd <$> exec now (postCommitEstimatedTransaction r) db
  | .providerReported r => Prod.snd <$> exec now (postProviderReportedTransaction r) db
  | .invoiceReconciled r => Prod.snd <$> exec now (postInvoiceReconciledTransaction r) db
  | .release r => Prod.snd <$> exec now (postReleaseTransaction r) db
  | .sessionReserve r => Prod.snd <$> exec now (postSessionReserve r) db
  | .sessionCommitDelta r => Prod.snd <$> exec now (postSessionCommitDelta r) db
  | .sessionRelease reasonCode r => Prod.snd <$> exec now (postSessionRelease reasonCode r) db
  | .sessionExpire r => Prod.snd <$> exec now (postSessionExpire r) db

theorem map_snd_eq_ok {ε α σ : Type} {x : Except ε (α × σ)} {s : σ} (h : Prod.snd <$> x = .ok s) :
    ∃ a, x = .ok (a, s) := by
  cases x with
  | error e => cases h
  | ok p =>
    cases h
    exact ⟨p.1, rfl⟩

inductive MoneyCall.Effect (db db' : Db) : MoneyCall → Prop
  | same {c : MoneyCall} (h : db.SameBooks db')
      (hreport : ∀ r, c = .providerReported r →
        db.findTransaction r.transaction.tenant .providerReport r.transaction.idempotencyKey ≠ none)
      (hinvoice : ∀ r, c = .invoiceReconciled r →
        db.findTransaction r.transaction.tenant .invoiceReconcile r.transaction.idempotencyKey ≠ none) :
      Effect db db' c
  | post {r : LedgerPost} (h : r.Posted db db') : Effect db db' (.post r)
  | commitEstimated {r : CommitPost} {res : Reservation} {e : LedgerEntry}
      (h : r.Committed db db' res e) : Effect db db' (.commitEstimated r)
  | providerReported {r : CommitPost} {c : Commit} {e : LedgerEntry}
      (hnew : db.findTransaction r.transaction.tenant .providerReport r.transaction.idempotencyKey = none)
      (hstate : c.latestState = .estimated)
      (h : db.Adjusted db' r.transaction .providerReport r.reservation r.amount c e c.estimatedAmount
        (estimatedRow c) (Commit.providerReported r.amount e)) : Effect db db' (.providerReported r)
  | invoiceReconciled {r : InvoicePost} {c : Commit} {e : LedgerEntry}
      (hnew : db.findTransaction r.transaction.tenant .invoiceReconcile r.transaction.idempotencyKey = none)
      (hstate : c.latestState = .estimated ∨ c.latestState = .providerReported)
      (h : db.Adjusted db' r.transaction .invoiceReconcile r.reservation r.amount c e c.baseline
        (reconcilableRow r.transaction.tenant c) (Commit.invoiceReconciled r.amount e)) :
      Effect db db' (.invoiceReconciled r)
  | release {r : ReleasePost} {res : Reservation} {e : LedgerEntry} (h : r.Released db db' res e) :
      Effect db db' (.release r)
  | sessionDenied {r : SessionReserve} (h : r.Recorded .denied db db') : Effect db db' (.sessionReserve r)
  | sessionReserve {r : SessionReserve} (hpos : 0 < r.amount)
      (hcovered : r.amount ≤ db.balance (r.tuple.account .availableBudget))
      (h : r.Recorded .active db db') : Effect db db' (.sessionReserve r)
  | sessionCommitDelta {r : SessionCommit} {s : SessionReservation} (h : r.Applied db db' s) :
      Effect db db' (.sessionCommitDelta r)
  | sessionRelease {reasonCode : String} {r : SessionClose} {s : SessionReservation}
      (h : r.Closed .released db db' s) : Effect db db' (.sessionRelease reasonCode r)
  | sessionExpire {r : SessionClose} {s : SessionReservation} (h : r.Closed .expired db db' s) :
      Effect db db' (.sessionExpire r)

theorem MoneyCall.effect {now : ℕ} {db db' : Db} {c : MoneyCall} (h : c.run now db = .ok db') :
    c.Effect db db' := by
  cases c with
  | post r =>
    obtain ⟨_, hrun⟩ := map_snd_eq_ok h
    cases exec_postLedgerTransaction hrun with
    | inl hsame => exact .same (hsame.1 ▸ .refl db) (by simp) (by simp)
    | inr hpost => exact .post hpost.2
  | commitEstimated r =>
    obtain ⟨_, hrun⟩ := map_snd_eq_ok h
    cases exec_postCommitEstimatedTransaction hrun with
    | inl hsame => exact .same (hsame ▸ .refl db) (by simp) (by simp)
    | inr hcommit =>
      obtain ⟨res, e, hcommit⟩ := hcommit
      exact .commitEstimated hcommit
  | providerReported r =>
    obtain ⟨_, hrun⟩ := map_snd_eq_ok h
    cases exec_postProviderReportedTransaction hrun with
    | inl hsame => exact .same (hsame.1 ▸ .refl db) (by rintro _ ⟨⟩; exact hsame.2) (by simp)
    | inr hreport =>
      obtain ⟨hnew, c, e, hstate, hreport⟩ := hreport
      exact .providerReported hnew hstate hreport
  | invoiceReconciled r =>
    obtain ⟨_, hrun⟩ := map_snd_eq_ok h
    cases exec_postInvoiceReconciledTransaction hrun with
    | inl hsame => exact .same (hsame.1 ▸ .refl db) (by simp) (by rintro _ ⟨⟩; exact hsame.2)
    | inr hinvoice =>
      obtain ⟨hnew, c, e, hstate, hinvoice⟩ := hinvoice
      exact .invoiceReconciled hnew hstate hinvoice
  | release r =>
    obtain ⟨_, hrun⟩ := map_snd_eq_ok h
    cases exec_postReleaseTransaction hrun with
    | inl hsame => exact .same (hsame ▸ .refl db) (by simp) (by simp)
    | inr hrelease =>
      obtain ⟨res, e, hrelease⟩ := hrelease
      exact .release hrelease
  | sessionReserve r =>
    obtain ⟨_, hrun⟩ := map_snd_eq_ok h
    rcases exec_postSessionReserve hrun with hsame | ⟨hpos, hdenied | ⟨hcovered, hactive⟩⟩
    · exact .same (hsame ▸ .refl db) (by simp) (by simp)
    · exact .sessionDenied hdenied
    · exact .sessionReserve hpos hcovered hactive
  | sessionCommitDelta r =>
    obtain ⟨_, hrun⟩ := map_snd_eq_ok h
    cases exec_postSessionCommitDelta hrun with
    | inl hsame => exact .same hsame (by simp) (by simp)
    | inr happlied => exact .sessionCommitDelta happlied.choose_spec
  | sessionRelease reasonCode r =>
    obtain ⟨_, hrun⟩ := map_snd_eq_ok h
    cases exec_postSessionRelease hrun with
    | inl hsame => exact .same hsame (by simp) (by simp)
    | inr hclosed => exact .sessionRelease hclosed.choose_spec
  | sessionExpire r =>
    obtain ⟨_, hrun⟩ := map_snd_eq_ok h
    cases exec_postSessionExpire hrun with
    | inl hsame => exact .same hsame (by simp) (by simp)
    | inr hclosed => exact .sessionExpire hclosed.choose_spec

def MoneyCall.Step (db : Db) (c : ℕ × MoneyCall) (db' : Db) : Prop := c.2.run c.1 db = .ok db'

end SpendGuard.Ledger
