import SpendGuard.Ledger.Posting

/-!
The helpers of the session procedures: the signed audit context and its checks, the transaction with
its two audit rows, and the double entry.
-/

namespace SpendGuard.Ledger

open Base Base.Proc

/-- The JSON under `data_b64`. -/
structure SessionAuditData where
  sessionEventType : Option String
  sessionReservation : Option String
  phase : Option String
  eventOutcome : Option SessionOutcome
  deriving DecidableEq

/-- The `decision` or `outcome` object of an audit context. -/
structure SignedEnvelope where
  /-- The caller's `audit_outbox_id`, or the one the procedure mints. -/
  outboxId : Uuid
  auditEventId : Option Uuid
  data : Option SessionAuditData
  producerSequence : Option ℕ
  signature : Option Bytes
  deriving DecidableEq

structure SessionAuditContext where
  producerId : Option String
  signingKeyId : Option String
  decisionId : Option Uuid
  recordedAt : Option ℕ
  timeSeconds : Option ℤ
  timeNanos : Option ℤ
  decision : SignedEnvelope
  outcome : SignedEnvelope
  deriving DecidableEq

def sessionWorkload : String := "session-reservation-ledger"

def sessionProducer : String := "ledger:session-reservation-ledger"

def invalidContext (what : String) : PgError := ⟨"22023", "SESSION_AUDIT_CONTEXT_INVALID: " ++ what⟩

def invalidData (what : String) : PgError :=
  ⟨"22023", "SESSION_AUDIT_DATA_INVALID: " ++ what ++ " mismatch"⟩

def sessionValidateAuditData (d : SessionAuditData) (eventType : String) (session : Uuid)
    (phase : String) (outcome : SessionOutcome) : SqlProc Unit := do
  require (d.sessionEventType = some eventType) (invalidData "session_event_type")
  require (d.sessionReservation = some session.text) (invalidData "session_reservation_id")
  require (d.phase = some phase) (invalidData "phase")
  require (d.eventOutcome = some outcome) (invalidData "event_outcome")

structure CheckedEnvelope where
  outboxId : Uuid
  auditEventId : Uuid
  data : SessionAuditData
  producerSequence : ℕ
  signature : Bytes

def SignedEnvelope.checked (e : SignedEnvelope) : Option CheckedEnvelope := do
  return ⟨e.outboxId, ← e.auditEventId, ← e.data, ← e.producerSequence, ← e.signature⟩

/-- What `session_ledger_tx` is called with; `id` is the transaction id it mints. -/
structure SessionTx where
  id : Uuid
  tenant : Uuid
  operationKind : OperationKind
  idempotencyKey : String
  requestHash : Bytes
  eventType : String
  session : Uuid
  context : Option SessionAuditContext
  auditOutcome : SessionOutcome

def SessionTx.row (t : SessionTx) (decision event : Uuid) : LedgerTransaction where
  id := t.id
  tenant := t.tenant
  operationKind := t.operationKind
  idempotencyKey := t.idempotencyKey
  requestHash := t.requestHash
  auditDecisionEventId := event
  decisionId := decision
  lockOrderToken := "session:" ++ sha256Hex t.idempotencyKey
  fencingScope := none
  fencingEpochAtPost := none

def SessionTx.auditRow (t : SessionTx) (decision : Uuid) (e : CheckedEnvelope) (type : EventType)
    (suffix : String) : AuditRow where
  outboxId := e.outboxId
  auditDecisionEventId := e.auditEventId
  decisionId := decision
  tenant := t.tenant
  transaction := t.id
  eventType := type
  operationKind := t.operationKind
  fencingEpoch := 1
  workload := sessionWorkload
  producerSequence := e.producerSequence
  idempotencyKey := t.idempotencyKey
  mirrorKey := t.idempotencyKey ++ suffix

/-- A plain `INSERT`: a key already there is an error, not a replay. -/
def insertSessionTransaction (x : LedgerTransaction) : SqlProc Unit := do
  acquire (.transactionKey x.tenant x.operationKind x.idempotencyKey)
  acquire (.transactionId x.id)
  let db ← read
  require (∀ y ∈ db.transactions, y.id ≠ x.id) (uniqueViolation "ledger_transactions_pkey")
  require (db.findTransaction x.tenant x.operationKind x.idempotencyKey = none)
    (uniqueViolation "ledger_transactions_tenant_id_operation_kind_idempotency_ke_key")
  write (·.insertTransaction x)

def sessionLedgerTx (t : SessionTx) : SqlProc Uuid := do
  let c ← demand t.context ⟨"22023",
    "SESSION_AUDIT_CONTEXT_REQUIRED: signed audit_context is required for session events"⟩
  require (∀ p ∈ c.producerId, p = sessionProducer)
    (invalidContext "producer_id must be ledger:session-reservation-ledger")
  require (c.signingKeyId.any ("ed25519:".isPrefixOf ·) = true)
    (invalidContext "signing_key_id must be ed25519:*")
  let times := invalidContext "decision_id, recorded_at, and time fields are required"
  let decision ← demand c.decisionId times
  require (c.recordedAt.isSome ∧ c.timeSeconds.isSome ∧ c.timeNanos.isSome) times
  let fields := invalidContext "decision/outcome signed envelope fields are required"
  let d ← demand c.decision.checked fields
  let o ← demand c.outcome.checked fields
  sessionValidateAuditData d.data t.eventType t.session "decision" t.auditOutcome
  sessionValidateAuditData o.data t.eventType t.session "outcome" t.auditOutcome
  require (d.signature.length = 64 ∧ o.signature.length = 64)
    (invalidContext "Ed25519 signatures must be 64 bytes")
  insertSessionTransaction (t.row decision d.auditEventId)
  insertAudit (t.auditRow decision d .decision ":decision")
  insertAudit (t.auditRow decision o .outcome ":outcome")
  return t.id

def sessionDrafts (s : SessionTuple) (session : Uuid) (debit credit : AccountKind) (n : ℕ) :
    List EntryDraft :=
  let pricing : Pricing := ⟨s.pricing.version, s.pricing.snapshotHash, some s.pricing.fxRateVersion,
    some s.pricing.unitConversionVersion⟩
  [⟨s.account debit, .debit, n, pricing, some session, 1⟩,
    ⟨s.account credit, .credit, n, pricing, some session, 1⟩]

def sessionPostTwoEntries (tx : Uuid) (s : SessionTuple) (session : Uuid) (debit credit : AccountKind)
    (amount : ℤ) : SqlProc Unit :=
  if amount ≤ 0 then return ()
  else do
    let numbered ← allocateSequences (sessionDrafts s session debit credit amount.toNat)
    write (·.insertEntries (numbered.map fun d => d.1.entry tx d.2))
    assertPerUnitBalanceNow tx

def sessionAccountId (a : Account) : SqlProc Unit := do
  let db ← read
  require (a ∈ db.accounts) ⟨"22023", "ledger_account not found for kind=" ++ a.kind.text ++ " tenant=" ++
    a.tenant.text ++ " budget=" ++ a.budget.text ++ " window=" ++ a.window.text ++ " unit=" ++ a.unit.text⟩

/-- `FOR UPDATE` over the two account rows that exist, ordered by kind. -/
def lockSessionAccounts (s : SessionTuple) (kinds : List AccountKind) : SqlProc Unit := do
  let db ← read
  lockAccounts ((kinds.map s.account).filter (· ∈ db.accounts))

section Exec

variable {now : ℕ} {db db' : Db}

section Bind

variable {α : Type} {f : Unit → SqlProc α} {r : α × Db}

theorem exec_sessionValidateAuditData_bind {d : SessionAuditData} {eventType phase : String}
    {session : Uuid} {outcome : SessionOutcome} :
    exec now (sessionValidateAuditData d eventType session phase outcome >>= f) db = .ok r ↔
      d = ⟨some eventType, some session.text, some phase, some outcome⟩ ∧ exec now (f ()) db = .ok r := by
  apply exec_bind_of_iff
  intro u
  cases d
  simp only [sessionValidateAuditData, exec_require_bind, exec_require, SessionAuditData.mk.injEq,
    and_assoc]

theorem exec_insertSessionTransaction_bind {x : LedgerTransaction} :
    exec now (insertSessionTransaction x >>= f) db = .ok r ↔
      ((∀ y ∈ db.transactions, y.id ≠ x.id) ∧
        db.findTransaction x.tenant x.operationKind x.idempotencyKey = none) ∧
      exec now (f ()) (db.insertTransaction x) = .ok r := by
  apply exec_bind_of_iff
  intro u
  simp only [insertSessionTransaction, exec_acquire_bind, exec_read_bind, exec_require_bind, exec_write,
    Except.ok.injEq, and_assoc, eq_comm (b := u)]

@[simp] theorem exec_sessionAccountId_bind {a : Account} :
    exec now (sessionAccountId a >>= f) db = .ok r ↔ a ∈ db.accounts ∧ exec now (f ()) db = .ok r := by
  apply exec_bind_of_iff
  intro u
  simp only [sessionAccountId, exec_read_bind, exec_require]

@[simp] theorem exec_lockSessionAccounts_bind {s : SessionTuple} {kinds : List AccountKind} :
    exec now (lockSessionAccounts s kinds >>= f) db = exec now (f ()) db := by
  have hlock : exec now (lockSessionAccounts s kinds) db = .ok ((), db) := exec_lockAccounts _
  rw [exec_bind, hlock]
  rfl

end Bind

theorem exec_sessionLedgerTx {t : SessionTx} {id : Uuid}
    (h : exec now (sessionLedgerTx t) db = .ok (id, db')) :
    id = t.id ∧ (∀ y ∈ db.transactions, y.id ≠ t.id) ∧ ∃ decision event au,
      db' = { db with transactions := db.transactions ++ [t.row decision event], audit := au } := by
  simp only [sessionLedgerTx, exec_demand_bind, exec_require_bind, exec_sessionValidateAuditData_bind,
    exec_insertSessionTransaction_bind, exec_insertAudit_bind, exec_pure, Except.ok.injEq,
    Prod.mk.injEq] at h
  obtain ⟨c, -, -, -, decision, -, -, d, -, o, -, -, -, -, ⟨hfresh, -⟩, -, -, hid, hdb⟩ := h
  exact ⟨hid.symm, hfresh, decision, d.auditEventId, _, hdb.symm⟩

def sessionPosted (s : SessionTuple) (session : Uuid) (debit credit : AccountKind) (amount : ℤ) :
    List EntryDraft :=
  if amount ≤ 0 then [] else sessionDrafts s session debit credit amount.toNat

theorem netCredit_sessionPosted {s : SessionTuple} {session : Uuid} {debit credit : AccountKind} {amount : ℤ}
    {a : Account} (hamount : 0 ≤ amount) :
    netCredit (sessionPosted s session debit credit amount) a =
      (if s.account debit = a then -amount else 0) + if s.account credit = a then amount else 0 := by
  unfold sessionPosted
  split
  · have hzero : amount = 0 := by omega
    simp [hzero]
  · have hnat : (amount.toNat : ℤ) = amount := by omega
    simp [sessionDrafts, EntryDraft.creditPositive, hnat]

theorem exec_sessionPostTwoEntries {tx session : Uuid} {s : SessionTuple} {debit credit : AccountKind}
    {amount : ℤ} {u : Unit}
    (h : exec now (sessionPostTwoEntries tx s session debit credit amount) db = .ok (u, db')) :
    ∃ l al, l.map Prod.fst = sessionPosted s session debit credit amount ∧
      db' = { db with allocators := al, entries := db.entries ++ numberedEntries tx l } := by
  unfold sessionPostTwoEntries at h
  unfold sessionPosted
  split at h
  · cases h
    exact ⟨[], db.allocators, by simp [*], by simp [numberedEntries]⟩
  · obtain ⟨l, db₁, halloc, hrun⟩ := exec_bind_eq_ok.mp h
    obtain ⟨hl, al, rfl⟩ := exec_allocateSequences halloc
    simp only [exec_write_bind, exec_assertPerUnitBalanceNow] at hrun
    obtain ⟨-, hdb⟩ := hrun
    cases hdb
    exact ⟨l, al, by simp [*], rfl⟩

theorem exec_sessionLedgerTx_bind {α : Type} {t : SessionTx} {k : Uuid → SqlProc α} {r : α × Db}
    (h : exec now (sessionLedgerTx t >>= k) db = .ok r) :
    ∃ db₁ x, x.id = t.id ∧ db.Posted db₁ x [] ∧ (∃ ts au, db₁ = { db with transactions := ts, audit := au }) ∧
      exec now (k t.id) db₁ = .ok r := by
  obtain ⟨id, db₁, htx, hrun⟩ := exec_bind_eq_ok.mp h
  obtain ⟨rfl, hfresh, decision, event, au, rfl⟩ := exec_sessionLedgerTx htx
  refine ⟨_, t.row decision event, rfl, ⟨hfresh, rfl, [], rfl, ?_⟩, ⟨_, _, rfl⟩, hrun⟩
  simp [numberedEntries]

theorem exec_sessionTxEntries_bind {α : Type} {t : SessionTx} {s : SessionTuple} {session : Uuid}
    {debit credit : AccountKind} {amount : ℤ} {k : Uuid → SqlProc α} {r : α × Db}
    (h : exec now (sessionLedgerTx t >>= fun id =>
      sessionPostTwoEntries id s session debit credit amount >>= fun _ => k id) db = .ok r) :
    ∃ db₁ x, x.id = t.id ∧ db.Posted db₁ x (sessionPosted s session debit credit amount) ∧
      (∃ ts au al es,
        db₁ = { db with transactions := ts, audit := au, allocators := al, entries := es }) ∧
      exec now (k t.id) db₁ = .ok r := by
  obtain ⟨id, db₁, htx, hrest⟩ := exec_bind_eq_ok.mp h
  obtain ⟨_, db₂, hentries, hrun⟩ := exec_bind_eq_ok.mp hrest
  obtain ⟨rfl, hfresh, decision, event, au, rfl⟩ := exec_sessionLedgerTx htx
  obtain ⟨l, al, hl, rfl⟩ := exec_sessionPostTwoEntries hentries
  exact ⟨_, t.row decision event, rfl, ⟨hfresh, rfl, l, hl, rfl⟩, ⟨_, _, _, _, rfl⟩, hrun⟩

end Exec

end SpendGuard.Ledger
