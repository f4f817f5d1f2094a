import SpendGuard.Ledger.Commit

namespace SpendGuard.Ledger

open Base Base.Proc

/-- A later report above the last one debits `available_budget`, one below it pays back; no delta, or
one that is `NULL`, moves nothing. -/
def adjustDrafts (e : LedgerEntry) (reservation : Uuid) : Option ℤ → List EntryDraft
  | none => []
  | some delta =>
    if 0 < delta then
      [settleDraft e reservation .availableBudget .debit delta.toNat,
        settleDraft e reservation .committedSpend .credit delta.toNat]
    else if delta < 0 then
      [settleDraft e reservation .committedSpend .debit (-delta).toNat,
        settleDraft e reservation .availableBudget .credit (-delta).toNat]
    else []

def adjustKinds (delta : Option ℤ) : List AccountKind :=
  if delta.any (· ≠ 0) then [.committedSpend, .availableBudget] else []

def adjustToken (e : LedgerEntry) (delta : Option ℤ) (noop : String) : String :=
  if delta.any (· ≠ 0) then
    lockOrderToken [e.account.lockKey .availableBudget, e.account.lockKey .committedSpend]
  else "v1:" ++ sha256Hex noop

/-- The accounting of a provider report or an invoice: the delta's two entries under a new
transaction, then what the procedure writes besides them. -/
def adjustCommitted (t : TransactionArgs) (op : OperationKind) (e : LedgerEntry) (reservation : Uuid)
    (delta : Option ℤ) (noop : String) (projections : SqlProc Unit) : SqlProc Uuid := do
  resolveAccounts ((adjustKinds delta).map e.account.withKind)
  lockAccounts ((adjustKinds delta).map e.account.withKind)
  let numbered ← allocateSequences (adjustDrafts e reservation delta)
  match ← insertTransaction t op (adjustToken e delta noop) with
  | some id => return id
  | none =>
    write (·.insertEntries (numbered.map fun d => d.1.entry t.id d.2))
    assertPerUnitBalanceNow t.id
    projections
    return t.id

/-- `UPDATE commits`, which must hit one row. -/
def updateCommit (p : Commit → Bool) (f : Commit → Commit) (label : String) : SqlProc Unit := do
  let db ← read
  let n := (db.commits.filter p).length
  require (n = 1) ⟨"P0001", label ++ ": UPDATE commits affected " ++ toString n ++ " rows (expected 1)"⟩
  write (·.updateCommits p f)

def lockCommitted (tenant reservation : Uuid) : SqlProc Unit := do
  let res ← lockReservation tenant reservation
  require (res.state = .committed) ⟨"P0001", "RESERVATION_STATE_CONFLICT: reservations.current_state=" ++
    res.state.text ++ ", expected committed"⟩

/-- The row of `commits`, locked, in one of the states the procedure accepts. -/
def lockCommit (tenant reservation : Uuid) (states : CommitState → Bool) (missing expected : String) :
    SqlProc Commit := do
  acquire (.commit reservation)
  let db ← read
  let c ← demand (db.commit? tenant reservation) ⟨"P0001", missing ++ reservation.text⟩
  require (states c.latestState = true) ⟨"P0001", "RESERVATION_STATE_CONFLICT: commits.latest_state=" ++
    c.latestState.text ++ ", expected " ++ expected⟩
  return c

def findReserveEntry (tenant reservation : Uuid) : SqlProc LedgerEntry := do
  let db ← read
  demand (db.reserveEntry tenant reservation)
    ⟨"P0001", "reserve credit entry not found for reservation " ++ reservation.text⟩

def Commit.providerReported (amount : ℤ) (e : LedgerEntry) (c : Commit) : Commit :=
  { c with
    latestState := .providerReported
    providerReportedAmount := some amount.toNat
    deltaToReserved := amount - e.amount }

def postProviderReportedChecked (r : CommitPost) : SqlProc Uuid := do
  let tenant := r.transaction.tenant
  lockCommitted tenant r.reservation
  let c ← lockCommit tenant r.reservation (· == .estimated)
    "COMMIT_NOT_FOUND: provider_report requires prior commit_estimated for reservation " "estimated"
  let e ← findReserveEntry tenant r.reservation
  checkUnit r.unit e
  checkPricing r.pricing e
  checkAmount "provider_amount" r.amount e deferredOverrun
  adjustCommitted r.transaction .providerReport e r.reservation (c.estimatedAmount.map fun n : ℕ => r.amount - n)
    "provider_report:noop" do
      insertAudit (r.transaction.auditRow .providerReport r.audit)
      updateCommit (fun x => x.id = c.id ∧ x.latestState = .estimated)
        (Commit.providerReported r.amount e) "commit_lifecycle_race"

def postProviderReportedFenced (r : CommitPost) : SqlProc Uuid := do
  fencingCas r.transaction (allowedScope .providerReport) "operation provider_report"
  -- a duplicate that waited for the fencing row finds the winner's transaction here
  match ← idempotentReplay r.transaction .providerReport with
  | some id => return id
  | none => postProviderReportedChecked r

def postProviderReportedTransaction (r : CommitPost) : SqlProc Uuid := do
  match ← idempotentReplay r.transaction .providerReport with
  | some id => return id
  | none => postProviderReportedFenced r

/-- A JSON string that the procedure casts to `UUID`. -/
inductive UuidText
  | uuid (u : Uuid)
  | malformed (s : String)
  deriving DecidableEq

def UuidText.cast? : UuidText → Option Uuid
  | .uuid u => some u
  | .malformed _ => none

/-- `cloudevent_payload`: a field is `none` when it is absent or has another JSON type.  `data` is
`some none` when `data_b64` is a string that is not base64. -/
structure AuditPayload where
  specversion : Option String
  type : Option String
  source : Option String
  id : Option UuidText
  timeSeconds : Option ℤ
  timeNanos : Option ℤ
  datacontenttype : Option String
  data : Option (Option Bytes)
  tenantid : Option UuidText
  runid : Option String
  decisionid : Option UuidText
  schemaBundleId : Option String
  producerId : Option String
  producerSequence : Option ℤ
  signingKeyId : Option String
  deriving DecidableEq

def AuditPayload.typed (p : AuditPayload) : Bool :=
  p.specversion.isSome && p.type.isSome && p.source.isSome && p.id.isSome && p.timeSeconds.isSome &&
    p.timeNanos.isSome && p.datacontenttype.isSome && p.data.isSome && p.tenantid.isSome &&
    p.runid.isSome && p.decisionid.isSome && p.schemaBundleId.isSome && p.producerId.isSome &&
    p.producerSequence.isSome && p.signingKeyId.isSome

/-- One of the two audit rows of a reconciliation; `signature` is `some none` when it is not hex. -/
structure InvoiceAuditArgs where
  auditDecisionEventId : Option UuidText
  outboxId : Option UuidText
  eventType : Option String
  signature : Option (Option Bytes)
  payload : Option AuditPayload
  deriving DecidableEq

/-- The arguments of `post_invoice_reconciled_transaction`. -/
structure InvoicePost where
  transaction : TransactionArgs
  unit : Option Uuid
  reservation : Uuid
  amount : ℤ
  pricing : Pricing
  decisionRow : InvoiceAuditArgs
  outcomeRow : InvoiceAuditArgs
  outcomeSequence : ℤ

/-- Raise `AUDIT_INVARIANT_VIOLATED` unless `p`. -/
def ensureAudit (p : Prop) [Decidable p] (message : String) : Except PgError Unit :=
  if p then .ok () else .error ⟨"P0001", "AUDIT_INVARIANT_VIOLATED: " ++ message⟩

def castAudit (t : Option UuidText) (message : String) : Except PgError Uuid :=
  match t.bind UuidText.cast? with
  | some u => .ok u
  | none => .error ⟨"P0001", "AUDIT_INVARIANT_VIOLATED: " ++ message⟩

def matchIdentity (row : String) : List (Option UuidText × Uuid) → Except PgError Unit
  | [] => .ok ()
  | (t, u) :: rest => do
    let v ← castAudit t (row ++ " payload cast failed")
    ensureAudit (v = u) (row ++ " payload identity mismatch")
    matchIdentity row rest

def InvoiceAuditArgs.typed (a : InvoiceAuditArgs) : Bool :=
  a.auditDecisionEventId.isSome && a.outboxId.isSome && a.eventType.isSome && a.signature.isSome

def checkAuditData (row : String) (p : AuditPayload) : Except PgError Unit := do
  ensureAudit (p.data.bind id ≠ none) (row ++ " data_b64 not base64-decodable")
  ensureAudit (p.data.bind id ≠ some []) (row ++ " data_b64 must be non-empty")

structure AuditPairIds where
  outcomeEvent : Uuid
  decisionOutbox : Uuid
  outcomeOutbox : Uuid

/-- Steps 9 to 15: the two rows are well typed and describe one reconciliation. -/
def checkAuditPair (r : InvoicePost) (dec out : AuditPayload) : Except PgError AuditPairIds := do
  let t := r.transaction
  ensureAudit (out.typed = true) "outcome payload field type/presence mismatch"
  ensureAudit (dec.typed = true) "decision payload field type/presence mismatch"
  ensureAudit (r.outcomeRow.typed = true) "outcome row top-level field type/presence mismatch"
  ensureAudit (r.decisionRow.typed = true) "decision row top-level field type/presence mismatch"
  let outcomeEvent ← castAudit r.outcomeRow.auditDecisionEventId
    "outcome audit_decision_event_id not a UUID"
  let decisionOutbox ← castAudit r.decisionRow.outboxId "decision audit_outbox_id not a UUID"
  let outcomeOutbox ← castAudit r.outcomeRow.outboxId "outcome audit_outbox_id not a UUID"
  ensureAudit (decisionOutbox ≠ outcomeOutbox) "decision and outcome share audit_outbox_id"
  ensureAudit (r.decisionRow.signature.bind id ≠ none) "decision signature_hex not hex-decodable"
  ensureAudit (r.outcomeRow.signature.bind id ≠ none) "outcome signature_hex not hex-decodable"
  ensureAudit (out.specversion = some "1.0" ∧ out.type = some "spendguard.audit.outcome" ∧
    out.datacontenttype = some "application/json" ∧
    r.outcomeRow.eventType = some "spendguard.audit.outcome") "outcome payload literal mismatch"
  matchIdentity "outcome"
    [(out.id, outcomeEvent), (out.tenantid, t.tenant), (out.decisionid, t.decisionId)]
  ensureAudit (out.producerSequence = some r.outcomeSequence) "outcome payload identity mismatch"
  checkAuditData "outcome" out
  ensureAudit (t.auditDecisionEventId = outcomeEvent) "ledger_tx anchor != outcome event id"
  let derived := outcomeEvent.digest ":decision"
  matchIdentity "decision" [(r.decisionRow.auditDecisionEventId, derived), (dec.id, derived),
    (dec.tenantid, t.tenant), (dec.decisionid, t.decisionId)]
  ensureAudit (dec.producerSequence = some (r.outcomeSequence - 1)) "decision payload identity mismatch"
  ensureAudit (dec.specversion = some "1.0" ∧ dec.type = some "spendguard.audit.decision" ∧
    dec.datacontenttype = some "application/json" ∧ dec.signingKeyId ≠ some "" ∧
    r.decisionRow.eventType = some "spendguard.audit.decision") "decision payload literal mismatch"
  checkAuditData "decision" dec
  ensureAudit (dec.producerId.any ("ledger:".isPrefixOf ·) = true ∧ dec.runid = out.runid ∧
    dec.source = out.source ∧ dec.timeSeconds = out.timeSeconds ∧ dec.timeNanos = out.timeNanos ∧
    dec.schemaBundleId = out.schemaBundleId) "decision/outcome metadata divergence"
  return ⟨outcomeEvent, decisionOutbox, outcomeOutbox⟩

def InvoicePost.auditRow (r : InvoicePost) (outbox event : Uuid) (e : EventType) (sequence : ℤ)
    (suffix : String) : AuditRow where
  outboxId := outbox
  auditDecisionEventId := event
  decisionId := r.transaction.decisionId
  tenant := r.transaction.tenant
  transaction := r.transaction.id
  eventType := e
  operationKind := .invoiceReconcile
  fencingEpoch := r.transaction.fencingEpoch
  workload := r.transaction.workload
  producerSequence := sequence.toNat
  idempotencyKey := r.transaction.idempotencyKey
  mirrorKey := r.transaction.idempotencyKey ++ suffix

def Commit.invoiceReconciled (amount : ℤ) (e : LedgerEntry) (c : Commit) : Commit :=
  { c with
    latestState := .invoiceReconciled
    invoiceReconciledAmount := some amount.toNat
    deltaToReserved := amount - e.amount }

/-- `COALESCE(provider_reported, estimated)`. -/
def Commit.baseline (c : Commit) : Option ℕ := c.providerReportedAmount <|> c.estimatedAmount

def postInvoiceReconciledChecked (r : InvoicePost) : SqlProc Uuid := do
  let tenant := r.transaction.tenant
  lockCommitted tenant r.reservation
  let c ← lockCommit tenant r.reservation (fun s => s == .estimated || s == .providerReported)
    "RESERVATION_STATE_CONFLICT: invoice_reconcile requires prior commit_estimated for reservation "
    "estimated or provider_reported"
  let e ← findReserveEntry tenant r.reservation
  checkUnit r.unit e
  checkPricing r.pricing e
  checkAmount "invoice_amount" r.amount e deferredOverrun
  require (2 ≤ r.outcomeSequence) ⟨"P0001",
    "INVALID_PRODUCER_SEQUENCE: outcome seq must be >= 2 to back-derive decision seq; got " ++
      toString r.outcomeSequence⟩
  let dec ← demand r.decisionRow.payload ⟨"P0001", "AUDIT_INVARIANT_VIOLATED: decision payload not object"⟩
  let out ← demand r.outcomeRow.payload ⟨"P0001", "AUDIT_INVARIANT_VIOLATED: outcome payload not object"⟩
  let ids ← ofExcept (checkAuditPair r dec out)
  adjustCommitted r.transaction .invoiceReconcile e r.reservation (c.baseline.map fun n : ℕ => r.amount - n)
    "invoice_reconcile:noop" do
      insertAudit (r.auditRow ids.decisionOutbox (ids.outcomeEvent.digest ":decision") .decision
        (r.outcomeSequence - 1) ":decision")
      insertAudit (r.auditRow ids.outcomeOutbox ids.outcomeEvent .outcome r.outcomeSequence ":outcome")
      updateCommit (fun x => x.id = c.id ∧ x.tenant = tenant ∧
          (x.latestState = .estimated ∨ x.latestState = .providerReported))
        (Commit.invoiceReconciled r.amount e) "RESERVATION_STATE_CONFLICT"

def postInvoiceReconciledFenced (r : InvoicePost) : SqlProc Uuid := do
  fencingCas r.transaction (allowedScope .invoiceReconcile) "operation invoice_reconcile"
  match ← idempotentReplay r.transaction .invoiceReconcile with
  | some id => return id
  | none => postInvoiceReconciledChecked r

def postInvoiceReconciledTransaction (r : InvoicePost) : SqlProc Uuid := do
  match ← idempotentReplay r.transaction .invoiceReconcile with
  | some id => return id
  | none => postInvoiceReconciledFenced r

section Exec

variable {now : ℕ} {db db' : Db} {id : Uuid}

section Bind

variable {α : Type} {f : Unit → SqlProc α} {r : α × Db}

@[simp] theorem exec_lockCommitted_bind {tenant res : Uuid} :
    exec now (lockCommitted tenant res >>= f) db = .ok r ↔
      (∃ x, db.reservation? tenant res = some x ∧ x.state = .committed) ∧
        exec now (f ()) db = .ok r := by
  apply exec_bind_of_iff
  intro u
  simp only [lockCommitted, exec_lockReservation_bind, exec_require]
  constructor
  · rintro ⟨x, hx, hstate, hu⟩
    exact ⟨⟨x, hx, hstate⟩, hu⟩
  · rintro ⟨⟨x, hx, hstate⟩, hu⟩
    exact ⟨x, hx, hstate, hu⟩

@[simp] theorem exec_lockCommit_bind {k : Commit → SqlProc α} {tenant res : Uuid}
    {states : CommitState → Bool} {missing expected : String} :
    exec now (lockCommit tenant res states missing expected >>= k) db = .ok r ↔
      ∃ c, db.commit? tenant res = some c ∧ states c.latestState = true ∧ exec now (k c) db = .ok r := by
  rw [exec_bind_eq_ok]
  simp only [lockCommit, exec_acquire_bind, exec_read_bind, exec_demand_bind, exec_require_bind,
    exec_pure, Except.ok.injEq, Prod.mk.injEq]
  constructor
  · rintro ⟨_, _, ⟨c, hc, hstate, rfl, rfl⟩, hrun⟩
    exact ⟨c, hc, hstate, hrun⟩
  · rintro ⟨c, hc, hstate, hrun⟩
    exact ⟨c, db, ⟨c, hc, hstate, rfl, rfl⟩, hrun⟩

@[simp] theorem exec_findReserveEntry_bind {k : LedgerEntry → SqlProc α} {tenant res : Uuid} :
    exec now (findReserveEntry tenant res >>= k) db = .ok r ↔
      ∃ e, db.reserveEntry tenant res = some e ∧ exec now (k e) db = .ok r := by
  simp [exec_bind_eq_ok, findReserveEntry]

@[simp] theorem exec_updateCommit {p : Commit → Bool} {g : Commit → Commit} {label : String}
    {u : Unit × Db} :
    exec now (updateCommit p g label) db = .ok u ↔
      (db.commits.filter p).length = 1 ∧ u = ((), db.updateCommits p g) := by
  simp only [updateCommit, exec_read_bind, exec_require_bind, exec_write, Except.ok.injEq,
    eq_comm (b := u)]

end Bind

/-- What a report that is not a replay finds and leaves behind. `baseline` is the amount the delta
is taken from, `p` and `f` are the test and the effect of its `UPDATE commits`. -/
structure Db.Adjusted (db db' : Db) (t : TransactionArgs) (op : OperationKind) (reservation : Uuid)
    (amount : ℤ) (c : Commit) (e : LedgerEntry) (baseline : Option ℕ) (p : Commit → Bool)
    (f : Commit → Commit) : Prop where
  committed : ∃ res, db.reservation? t.tenant reservation = some res ∧ res.state = .committed
  commit : db.commit? t.tenant reservation = some c
  entry : db.reserveEntry t.tenant reservation = some e
  positive : 0 < amount
  within : amount ≤ e.amount
  posted : ∃ token, db.Posted db' (t.row op token)
    (adjustDrafts e reservation (baseline.map fun n : ℕ => amount - n))
  one : (db.commits.filter p).length = 1
  commits : db'.commits = (db.updateCommits p f).commits
  reservations : db'.reservations = db.reservations
  sessions : db'.sessions = db.sessions

theorem exec_adjustCommitted {t : TransactionArgs} {op : OperationKind} {e : LedgerEntry}
    {reservation : Uuid} {delta : Option ℤ} {noop : String} {projections : SqlProc Unit}
    (hnew : db.findTransaction t.tenant op t.idempotencyKey = none)
    (h : exec now (adjustCommitted t op e reservation delta noop projections) db = .ok (id, db')) :
    ∃ l al token, l.map Prod.fst = adjustDrafts e reservation delta ∧
      (∀ x ∈ db.transactions, x.id ≠ t.id) ∧
      exec now projections (({ db with allocators := al }.insertTransaction (t.row op token)).insertEntries
        (numberedEntries t.id l)) = .ok ((), db') := by
  simp only [adjustCommitted, exec_resolveAccounts_bind, exec_lockAccounts_bind] at h
  obtain ⟨-, hpost⟩ := h
  obtain ⟨l, al, hl, hfresh, hwrites⟩ := exec_allocate_insert hnew hpost
  simp only [exec_write_bind, exec_assertPerUnitBalanceNow_bind] at hwrites
  obtain ⟨-, hrun⟩ := hwrites
  obtain ⟨_, _, hprojections, hdone⟩ := exec_bind_eq_ok.mp hrun
  cases hdone
  exact ⟨l, al, _, hl, hfresh, hprojections⟩

/-- The test of the provider report's `UPDATE commits`. -/
def estimatedRow (c : Commit) (x : Commit) : Bool := x.id = c.id ∧ x.latestState = .estimated

/-- The test of the reconciliation's `UPDATE commits`. -/
def reconcilableRow (tenant : Uuid) (c : Commit) (x : Commit) : Bool :=
  x.id = c.id ∧ x.tenant = tenant ∧ (x.latestState = .estimated ∨ x.latestState = .providerReported)

theorem exec_postProviderReportedChecked {r : CommitPost}
    (hnew : db.findTransaction r.transaction.tenant .providerReport r.transaction.idempotencyKey = none)
    (h : exec now (postProviderReportedChecked r) db = .ok (id, db')) :
    ∃ c e, c.latestState = .estimated ∧ db.Adjusted db' r.transaction .providerReport r.reservation
      r.amount c e c.estimatedAmount (estimatedRow c) (Commit.providerReported r.amount e) := by
  simp only [postProviderReportedChecked, exec_lockCommitted_bind, exec_lockCommit_bind,
    exec_findReserveEntry_bind, exec_checkUnit_bind, exec_checkPricing_bind, exec_checkAmount_bind] at h
  obtain ⟨hres, c, hc, hstate, e, he, -, -, ⟨hpos, hle⟩, hadjust⟩ := h
  obtain ⟨l, al, token, hl, hfresh, hwrites⟩ := exec_adjustCommitted hnew hadjust
  simp only [exec_insertAudit_bind, exec_updateCommit] at hwrites
  obtain ⟨-, hone, hdb⟩ := hwrites
  cases hdb
  exact ⟨c, e, by simpa using hstate, hres, hc, he, hpos, hle, ⟨token, hfresh, rfl, l, hl, rfl⟩, hone,
    rfl, rfl, rfl⟩

theorem exec_postProviderReportedTransaction {r : CommitPost}
    (h : exec now (postProviderReportedTransaction r) db = .ok (id, db')) :
    db' = db ∧ db.findTransaction r.transaction.tenant .providerReport r.transaction.idempotencyKey ≠ none ∨
    db.findTransaction r.transaction.tenant .providerReport r.transaction.idempotencyKey = none ∧ ∃ c e, c.latestState = .estimated ∧ db.Adjusted db' r.transaction .providerReport
      r.reservation r.amount c e c.estimatedAmount (estimatedRow c)
      (Commit.providerReported r.amount e) := by
  rw [postProviderReportedTransaction, exec_idempotentReplay_bind] at h
  rcases h with ⟨hnew, hrun⟩ | ⟨x, hx, -, hrun⟩
  · simp only [postProviderReportedFenced, exec_fencingCas_bind, exec_idempotentReplay_bind, hnew,
      true_and, reduceCtorEq, false_and, exists_false, or_false] at hrun
    exact .inr ⟨hnew, exec_postProviderReportedChecked hnew hrun.2⟩
  · cases hrun
    exact .inl ⟨rfl, by simp [hx]⟩

theorem exec_postInvoiceReconciledChecked {r : InvoicePost}
    (hnew : db.findTransaction r.transaction.tenant .invoiceReconcile r.transaction.idempotencyKey = none)
    (h : exec now (postInvoiceReconciledChecked r) db = .ok (id, db')) :
    ∃ c e, (c.latestState = .estimated ∨ c.latestState = .providerReported) ∧
      db.Adjusted db' r.transaction .invoiceReconcile r.reservation r.amount c e c.baseline
        (reconcilableRow r.transaction.tenant c) (Commit.invoiceReconciled r.amount e) := by
  simp only [postInvoiceReconciledChecked, exec_lockCommitted_bind, exec_lockCommit_bind,
    exec_findReserveEntry_bind, exec_checkUnit_bind, exec_checkPricing_bind, exec_checkAmount_bind,
    exec_require_bind, exec_demand_bind, exec_ofExcept_bind] at h
  obtain ⟨hres, c, hc, hstate, e, he, -, -, ⟨hpos, hle⟩, -, _, -, _, -, _, -, hadjust⟩ := h
  obtain ⟨l, al, token, hl, hfresh, hwrites⟩ := exec_adjustCommitted hnew hadjust
  simp only [exec_insertAudit_bind, exec_updateCommit] at hwrites
  obtain ⟨-, -, hone, hdb⟩ := hwrites
  cases hdb
  exact ⟨c, e, by simpa using hstate, hres, hc, he, hpos, hle, ⟨token, hfresh, rfl, l, hl, rfl⟩, hone,
    rfl, rfl, rfl⟩

theorem exec_postInvoiceReconciledTransaction {r : InvoicePost}
    (h : exec now (postInvoiceReconciledTransaction r) db = .ok (id, db')) :
    db' = db ∧ db.findTransaction r.transaction.tenant .invoiceReconcile r.transaction.idempotencyKey ≠ none ∨
    db.findTransaction r.transaction.tenant .invoiceReconcile r.transaction.idempotencyKey = none ∧ ∃ c e, (c.latestState = .estimated ∨ c.latestState = .providerReported) ∧
      db.Adjusted db' r.transaction .invoiceReconcile r.reservation r.amount c e c.baseline
        (reconcilableRow r.transaction.tenant c) (Commit.invoiceReconciled r.amount e) := by
  rw [postInvoiceReconciledTransaction, exec_idempotentReplay_bind] at h
  rcases h with ⟨hnew, hrun⟩ | ⟨x, hx, -, hrun⟩
  · simp only [postInvoiceReconciledFenced, exec_fencingCas_bind, exec_idempotentReplay_bind, hnew,
      true_and, reduceCtorEq, false_and, exists_false, or_false] at hrun
    exact .inr ⟨hnew, exec_postInvoiceReconciledChecked hnew hrun.2⟩
  · cases hrun
    exact .inl ⟨rfl, by simp [hx]⟩

end Exec

end SpendGuard.Ledger
