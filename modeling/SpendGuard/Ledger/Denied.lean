import SpendGuard.Ledger.Posting

namespace SpendGuard.Ledger

open Base Base.Proc

/-- The arguments of `post_denied_decision_transaction`. -/
structure DeniedPost where
  transaction : TransactionArgs
  lockOrderToken : String
  audit : AuditArgs

def refuseReserved (t : TransactionArgs) (winner : String) : SqlProc Unit := do
  let db ← read
  require (db.findTransaction t.tenant .reserve t.idempotencyKey = none) ⟨"40P03", "idempotency_key " ++
    t.idempotencyKey ++ " already used by reserve" ++ winner ++
      "; cannot record DENY for the same logical request"⟩

def postDeniedWrites (r : DeniedPost) : SqlProc Uuid := do
  refuseReserved r.transaction " (concurrent winner)"
  match ← insertTransaction r.transaction .deniedDecision r.lockOrderToken with
  | some id => return id
  | none =>
    insertAudit (r.transaction.auditRow .deniedDecision r.audit)
    return r.transaction.id

def postDeniedFenced (r : DeniedPost) : SqlProc Uuid := do
  fencingCas r.transaction (fun s => s == .reservation || s == .budgetWindow)
    "denied_decision (need reservation or budget_window)"
  match ← idempotentReplay r.transaction .deniedDecision with
  | some id => return id
  | none => postDeniedWrites r

def postDeniedDecisionTransaction (r : DeniedPost) : SqlProc Uuid := do
  match ← idempotentReplay r.transaction .deniedDecision with
  | some id => return id
  | none =>
    refuseReserved r.transaction ""
    postDeniedFenced r

structure DeniedPost.Recorded (r : DeniedPost) (db db' : Db) : Prop where
  new : db.findTransaction r.transaction.tenant .deniedDecision r.transaction.idempotencyKey = none
  unused : ∀ x ∈ db.transactions, x.id ≠ r.transaction.id
  audited : db.AuditFresh (r.transaction.auditRow .deniedDecision r.audit)
  result : db' = (db.insertTransaction (r.transaction.row .deniedDecision r.lockOrderToken)).insertAudit
    (r.transaction.auditRow .deniedDecision r.audit)

theorem exec_refuseReserved_bind {α : Type} {now : ℕ} {db : Db} {t : TransactionArgs} {winner : String}
    {f : Unit → SqlProc α} {r : α × Db} :
    exec now (refuseReserved t winner >>= f) db = .ok r ↔
      db.findTransaction t.tenant .reserve t.idempotencyKey = none ∧ exec now (f ()) db = .ok r := by
  apply exec_bind_of_iff
  intro u
  rw [refuseReserved, exec_read_bind, exec_require]

theorem exec_postDeniedDecisionTransaction {now : ℕ} {db db' : Db} {r : DeniedPost} {id : Uuid}
    (h : exec now (postDeniedDecisionTransaction r) db = .ok (id, db')) :
    (db' = db ∧ ∃ x, db.findTransaction r.transaction.tenant .deniedDecision r.transaction.idempotencyKey =
        some x ∧ x.requestHash = r.transaction.requestHash ∧ x.id = id) ∨
      (id = r.transaction.id ∧ r.Recorded db db') := by
  rw [postDeniedDecisionTransaction, exec_idempotentReplay_bind] at h
  rcases h with ⟨hnew, h⟩ | ⟨x, hx, hhash, h⟩
  · rw [exec_refuseReserved_bind, postDeniedFenced, exec_fencingCas_bind, exec_idempotentReplay_bind] at h
    obtain ⟨-, -, ⟨-, h⟩ | ⟨x, hx, -⟩⟩ := h
    · rw [postDeniedWrites, exec_refuseReserved_bind, exec_bind_eq_ok] at h
      obtain ⟨-, inserted, db₁, hinsert, h⟩ := h
      cases inserted with
      | none =>
        obtain ⟨-, hunused, rfl⟩ := exec_insertTransaction_none.mp hinsert
        rw [exec_insertAudit_bind] at h
        obtain ⟨⟨-, haudit⟩, h⟩ := h
        cases h
        exact .inr ⟨rfl, hnew, hunused, ⟨haudit.event, haudit.decision, haudit.sequence, haudit.key⟩, rfl⟩
      | some id' =>
        obtain ⟨-, x, hx, -⟩ := exec_insertTransaction_some.mp hinsert
        rw [hnew] at hx
        cases hx
    · rw [hnew] at hx
      cases hx
  · cases h
    exact .inl ⟨rfl, x, hx, hhash, rfl⟩

def LedgerTransaction.decides (x : LedgerTransaction) : Bool :=
  x.operationKind = .reserve ∨ x.operationKind = .deniedDecision

/-- The query a sidecar makes before it decides: the first decision under the key that has its audit
row. -/
def queryDecisionOutcome (tenant : Uuid) (key : String) : SqlProc (Option LedgerTransaction) := do
  let db ← read
  return db.transactions.find? fun x => x.tenant = tenant ∧ x.idempotencyKey = key ∧ x.decides ∧
    ∃ r ∈ db.audit, r.transaction = x.id ∧ r.eventType = .decision

end SpendGuard.Ledger
