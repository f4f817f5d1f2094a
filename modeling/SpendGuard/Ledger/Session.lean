import SpendGuard.Ledger.SessionLedger

namespace SpendGuard.Ledger

open Base Base.Proc

namespace Db

def session? (db : Db) (id : Uuid) : Option SessionReservation := db.sessions.find? fun s => s.id = id

def sessionByKey (db : Db) (tenant : Uuid) (session route key : String) : Option SessionReservation :=
  db.sessions.find? fun s => s.tuple.tenant = tenant ∧ s.sessionId = session ∧ s.route = route ∧
    s.reserveIdempotencyKey = key

def sessionCommit? (db : Db) (session : Uuid) (streaming : String) : Option SessionCommitDelta :=
  db.sessionCommits.find? fun c => c.sessionReservation = session ∧ c.streamingCommitId = streaming

def sessionEvent? (db : Db) (session : Uuid) (op : SessionOperation) (key : String) :
    Option SessionEvent :=
  db.sessionEvents.find? fun e => e.sessionReservation = session ∧ e.operation = op ∧
    e.idempotencyKey = key

def insertSession (db : Db) (s : SessionReservation) : Db := { db with sessions := db.sessions ++ [s] }

def updateSession (db : Db) (id : Uuid) (f : SessionReservation → SessionReservation) : Db :=
  { db with sessions := db.sessions.map fun s => if s.id = id then f s else s }

def insertSessionCommit (db : Db) (c : SessionCommitDelta) : Db :=
  { db with sessionCommits := db.sessionCommits ++ [c] }

def insertSessionEvent (db : Db) (e : SessionEvent) : Db :=
  { db with sessionEvents := db.sessionEvents ++ [e] }

end Db

def sessionAuditType (name : String) : String := "spendguard.audit.session." ++ name

def replayOutcome (found : Option (Bytes × SessionOutcome)) (hash : Bytes) (message : String) :
    SqlProc (Option SessionOutcome) :=
  match found with
  | none => return none
  | some (stored, outcome) => do
    require (stored = hash) ⟨"40P03", message⟩
    return some outcome

def insertSessionEvent (e : SessionEvent) : SqlProc Unit := do
  acquire (.sessionEvent e.sessionReservation e.operation e.idempotencyKey)
  let db ← read
  require (db.sessionEvent? e.sessionReservation e.operation e.idempotencyKey = none)
    (uniqueViolation "session_reservation_events_session_reservation_id_operation_key")
  write (·.insertSessionEvent e)

/-- The request of `post_session_reserve`. `id` and `transaction` are the ids the server mints, the
contexts those selected for the two verdicts, `requestHash` is
`session_reservation_request_hash(p_request)`. -/
structure SessionReserve where
  tuple : SessionTuple
  sessionId : String
  route : String
  amount : ℤ
  ttlSeconds : ℤ
  idempotencyKey : String
  requestHash : Bytes
  id : Uuid
  mintedTtl : Option Timestamp
  transaction : Uuid
  accepted : Option SessionAuditContext
  denied : Option SessionAuditContext

namespace SessionReserve

def ttl (r : SessionReserve) (now : ℕ) : Timestamp :=
  r.mintedTtl.getD (.time (now + r.ttlSeconds.toNat * second))

def acceptedOutcome (r : SessionReserve) (ttl : Timestamp) : SessionOutcome where
  status := "accepted"
  sessionReservation := r.id
  reservedAmount := some r.amount
  committedAmount := 0
  remainingAmount := r.amount
  releasedAmount := some 0
  ttlExpiresAt := some ttl
  tuple := r.tuple

def deniedOutcome (r : SessionReserve) (available : ℤ) (ttl : Timestamp) : SessionOutcome where
  status := "denied"
  reason := some "INSUFFICIENT_AVAILABLE_BUDGET"
  sessionReservation := r.id
  requestedAmount := some r.amount
  availableAmount := some available
  committedAmount := 0
  remainingAmount := 0
  releasedAmount := some 0
  ttlExpiresAt := some ttl
  tuple := r.tuple

/-- The signed outcome of a denial is known before the balance is, so it leaves the balance out. -/
def deniedAuditOutcome (r : SessionReserve) (ttl : Timestamp) : SessionOutcome :=
  { r.deniedOutcome 0 ttl with
    availableAmount := none, sessionId := some r.sessionId, route := some r.route }

def row (r : SessionReserve) (status : SessionStatus) (ttl : Timestamp) (outcome : SessionOutcome) :
    SessionReservation where
  id := r.id
  tuple := r.tuple
  sessionId := r.sessionId
  route := r.route
  reservedAmount := r.amount.toNat
  committedAmount := 0
  releasedAmount := 0
  status := status
  ttlExpiresAt := ttl
  reserveIdempotencyKey := r.idempotencyKey
  reserveRequestHash := r.requestHash
  reserveTransaction := none
  reserveOutcome := outcome

def tx (r : SessionReserve) : SessionStatus → SessionOutcome → SessionTx
  | .active, outcome => ⟨r.transaction, r.tuple.tenant, .reserve, "session_reserve:" ++ r.id.text,
      r.requestHash, sessionAuditType "reserve", r.id, r.accepted, outcome⟩
  | _, outcome => ⟨r.transaction, r.tuple.tenant, .deniedDecision,
      "session_reserve_denied:" ++ r.id.text, r.requestHash, sessionAuditType "denied", r.id, r.denied,
      outcome⟩

end SessionReserve

def replayReserve (r : SessionReserve) : SqlProc (Option SessionOutcome) := do
  let db ← read
  replayOutcome ((db.sessionByKey r.tuple.tenant r.sessionId r.route r.idempotencyKey).map
    fun s => (s.reserveRequestHash, s.reserveOutcome)) r.requestHash
    "idempotency_key reused with different session reserve payload"

/-- `INSERT … ON CONFLICT` on the request key; the primary key still raises. -/
def insertSessionReserve (r : SessionReserve) (row : SessionReservation) :
    SqlProc (Option SessionOutcome) := do
  acquire (.sessionKey r.tuple.tenant r.sessionId r.route r.idempotencyKey)
  match ← replayReserve r with
  | some outcome => return some outcome
  | none =>
    acquire (.sessionId r.id)
    let db ← read
    require (db.session? r.id = none) (uniqueViolation "session_reservations_pkey")
    write (·.insertSession row)
    return none

def recordReserve (r : SessionReserve) (status : SessionStatus) (ttl : Timestamp)
    (outcome auditOutcome : SessionOutcome) : SqlProc SessionOutcome := do
  match ← insertSessionReserve r (r.row status ttl outcome) with
  | some stored => return stored
  | none =>
    let t := r.tx status auditOutcome
    let id ← sessionLedgerTx t
    let answer := { outcome with transaction := some id }
    if status = .active then
      sessionPostTwoEntries id r.tuple r.id .availableBudget .reservedHold r.amount
    write (·.updateSession r.id fun s =>
      { s with reserveTransaction := some id, reserveOutcome := answer })
    insertSessionEvent ⟨r.id, .reserve, t.eventType, r.idempotencyKey, r.requestHash, some id,
      some r.amount, answer⟩
    return answer

def decideReserve (r : SessionReserve) : SqlProc SessionOutcome := do
  sessionAccountId (r.tuple.account .availableBudget)
  sessionAccountId (r.tuple.account .reservedHold)
  let db ← read
  let available := db.balance (r.tuple.account .availableBudget)
  let now ← clock
  let ttl := r.ttl now
  if available < r.amount then
    recordReserve r .denied ttl (r.deniedOutcome available ttl) (r.deniedAuditOutcome ttl)
  else recordReserve r .active ttl (r.acceptedOutcome ttl) (r.acceptedOutcome ttl)

def postSessionReserve (r : SessionReserve) : SqlProc SessionOutcome := do
  require (0 < r.amount) ⟨"22023", "INVALID_AMOUNT: estimated_amount_atomic must be > 0"⟩
  require (0 < r.ttlSeconds) ⟨"22023", "INVALID_TTL: ttl_seconds must be > 0"⟩
  let p := r.tuple.pricing
  require (∀ x ∈ [r.sessionId, r.route, r.idempotencyKey, p.version, p.fxRateVersion,
      p.unitConversionVersion], x ≠ "") ⟨"22023",
    "INVALID_REQUEST: required session, route, idempotency, and pricing fields must be non-empty"⟩
  match ← replayReserve r with
  | some outcome => return outcome
  | none =>
    let db ← read
    require (p ∈ db.pricingSnapshots)
      ⟨"P0001", "PRICING_VERSION_UNKNOWN: pricing freeze not present in ledger cache"⟩
    lockSessionAccounts r.tuple [.availableBudget, .reservedHold]
    match ← replayReserve r with
    | some outcome => return outcome
    | none => decideReserve r

def lockSession (id : Uuid) : SqlProc SessionReservation := do
  acquire (.session id)
  let db ← read
  demand (db.session? id) ⟨"P0001", "SESSION_RESERVATION_NOT_FOUND: " ++ id.text⟩

namespace SessionReservation

/-- `reserved - committed - released`. -/
def remaining (s : SessionReservation) : ℤ := s.reservedAmount - s.committedAmount - s.releasedAmount

def outcome (s : SessionReservation) (status : String) : SessionOutcome where
  status := status
  sessionReservation := s.id
  committedAmount := s.committedAmount
  remainingAmount := s.remaining
  tuple := s.tuple

end SessionReservation

/-- The fields a commit may repeat; each must then agree with the session. -/
structure SessionCommitClaims where
  tenant : Option Uuid
  budget : Option Uuid
  window : Option Uuid
  unit : Option Uuid
  pricingVersion : Option String
  priceSnapshotHash : Option Bytes
  fxRateVersion : Option String
  unitConversionVersion : Option String

/-- The request of `post_session_commit_delta`; `transaction` is the id the procedure mints. -/
structure SessionCommit where
  session : Uuid
  streamingCommitId : String
  delta : ℤ
  requestOutcome : String
  idempotencyKey : String
  requestHash : Bytes
  claims : SessionCommitClaims
  transaction : Uuid
  context : Option SessionAuditContext

def matchClaim {α : Type} [DecidableEq α] (claimed : Option α) (actual : α) (code field : String) :
    SqlProc Unit :=
  require (∀ x ∈ claimed, x = actual)
    ⟨"P0001", code ++ "_MISMATCH: commit " ++ field ++ " differs from session reservation"⟩

def matchClaims (c : SessionCommitClaims) (t : SessionTuple) : SqlProc Unit := do
  matchClaim c.tenant t.tenant "TENANT" "tenant_id"
  matchClaim c.budget t.budget "BUDGET" "budget_id"
  matchClaim c.window t.window "WINDOW" "window_instance_id"
  matchClaim c.unit t.unit "UNIT" "unit_id"
  matchClaim c.pricingVersion t.pricing.version "PRICING_VERSION" "pricing_version"
  matchClaim c.priceSnapshotHash t.pricing.snapshotHash "PRICE_SNAPSHOT_HASH" "price_snapshot_hash"
  matchClaim c.fxRateVersion t.pricing.fxRateVersion "FX_RATE_VERSION" "fx_rate_version"
  matchClaim c.unitConversionVersion t.pricing.unitConversionVersion "UNIT_CONVERSION_VERSION"
    "unit_conversion_version"

namespace SessionCommit

/-- The denial of a commit, or `none` when it is applied. -/
def denial (r : SessionCommit) (s : SessionReservation) (now : ℕ) : Option SessionOutcome :=
  if s.status ≠ .active then
    some { s.outcome "denied" with
      reason := some "SESSION_NOT_ACTIVE", sessionStatus := some s.status }
  else if s.ttlExpiresAt.passed now then
    some { s.outcome "denied" with
      reason := some "SESSION_TTL_EXPIRED", ttlExpiresAt := some s.ttlExpiresAt }
  else if s.reservedAmount < s.committedAmount + r.delta then
    some { s.outcome "denied" with
      reason := some "OVERRUN_RESERVATION", attemptedDelta := some r.delta
      -- here the source leaves the released amount out
      remainingAmount := s.reservedAmount - s.committedAmount }
  else none

def appliedOutcome (r : SessionCommit) (s : SessionReservation) : SessionOutcome :=
  { s.outcome "accepted" with
    streamingCommitId := some r.streamingCommitId
    amountDelta := some r.delta
    committedAmount := s.committedAmount + r.delta
    remainingAmount := s.reservedAmount - (s.committedAmount + r.delta) }

def tx (r : SessionCommit) (s : SessionReservation) (op : OperationKind) (key type : String)
    (outcome : SessionOutcome) : SessionTx :=
  ⟨r.transaction, s.tuple.tenant, op, key ++ ":" ++ r.session.text ++ ":" ++ r.streamingCommitId,
    r.requestHash, sessionAuditType type, r.session, r.context, outcome⟩

end SessionCommit

def replayCommit (r : SessionCommit) : SqlProc (Option SessionOutcome) := do
  let db ← read
  replayOutcome ((db.sessionCommit? r.session r.streamingCommitId).map fun c => (c.requestHash, c.outcome))
    r.requestHash "streaming_commit_id reused with different payload"

def recordCommit (r : SessionCommit) (type : String) (applied : Bool) (tx : Uuid)
    (outcome : SessionOutcome) : SqlProc SessionOutcome := do
  let answer := { outcome with transaction := some tx }
  let db ← read
  require (db.sessionCommit? r.session r.streamingCommitId = none)
    (uniqueViolation "session_commit_deltas_pkey")
  write (·.insertSessionCommit ⟨r.session, r.streamingCommitId, r.delta.toNat, r.requestOutcome,
    r.idempotencyKey, r.requestHash, applied, tx, answer⟩)
  insertSessionEvent ⟨r.session, .commitDelta, sessionAuditType type, r.streamingCommitId, r.requestHash,
    some tx, if applied then some r.delta else none, answer⟩
  return answer

def applyCommit (r : SessionCommit) (s : SessionReservation) : SqlProc SessionOutcome := do
  lockSessionAccounts s.tuple [.reservedHold, .committedSpend]
  sessionAccountId (s.tuple.account .reservedHold)
  sessionAccountId (s.tuple.account .committedSpend)
  let outcome := r.appliedOutcome s
  let tx ← sessionLedgerTx (r.tx s .commitEstimated "session_commit" "commit_delta" outcome)
  sessionPostTwoEntries tx s.tuple r.session .reservedHold .committedSpend r.delta
  write (·.updateSession r.session fun x =>
    { x with committedAmount := s.committedAmount + r.delta.toNat })
  recordCommit r "commit_delta" true tx outcome

def denyCommit (r : SessionCommit) (s : SessionReservation) (outcome : SessionOutcome) :
    SqlProc SessionOutcome := do
  let tx ← sessionLedgerTx (r.tx s .deniedDecision "session_commit_denied" "denied" outcome)
  recordCommit r "denied" false tx outcome

def postSessionCommitDelta (r : SessionCommit) : SqlProc SessionOutcome := do
  require (r.streamingCommitId ≠ "" ∧ r.idempotencyKey ≠ "")
    ⟨"22023", "INVALID_REQUEST: streaming_commit_id and idempotency_key are required"⟩
  require (0 < r.delta) ⟨"22023", "INVALID_AMOUNT: amount_atomic_delta must be > 0"⟩
  match ← replayCommit r with
  | some outcome => return outcome
  | none =>
    let s ← lockSession r.session
    match ← replayCommit r with
    | some outcome => return outcome
    | none =>
      matchClaims r.claims s.tuple
      let now ← clock
      match r.denial s now with
      | some outcome => denyCommit r s outcome
      | none => applyCommit r s

/-- The request of `post_session_release` (with its reason code) or `post_session_expire`. -/
structure SessionClose where
  session : Uuid
  idempotencyKey : String
  requestHash : Bytes
  transaction : Uuid
  context : Option SessionAuditContext

structure CloseKind where
  operation : SessionOperation
  name : String
  status : SessionStatus
  auditName : String
  reasonCode : Option String

def releaseKind (reasonCode : String) : CloseKind :=
  ⟨.release, "release", .released, "release", some reasonCode⟩

def expireKind : CloseKind := ⟨.expire, "expire", .expired, "expired", none⟩

def replayClose (k : CloseKind) (r : SessionClose) : SqlProc (Option SessionOutcome) := do
  let db ← read
  replayOutcome ((db.sessionEvent? r.session k.operation r.idempotencyKey).map
    fun e => (e.requestHash, e.outcome)) r.requestHash
    (k.name ++ " idempotency_key reused with different payload")

def SessionClose.tx (r : SessionClose) (s : SessionReservation) (op : OperationKind) (key type : String)
    (outcome : SessionOutcome) : SessionTx :=
  ⟨r.transaction, s.tuple.tenant, op, key ++ ":" ++ r.session.text ++ ":" ++ r.idempotencyKey,
    r.requestHash, sessionAuditType type, r.session, r.context, outcome⟩

def recordClose (k : CloseKind) (r : SessionClose) (type : String) (tx : Option Uuid)
    (amount : Option ℤ) (outcome : SessionOutcome) : SqlProc SessionOutcome := do
  let answer := { outcome with transaction := tx }
  insertSessionEvent ⟨r.session, k.operation, sessionAuditType type, r.idempotencyKey, r.requestHash, tx,
    amount, answer⟩
  return answer

def closeActive (k : CloseKind) (r : SessionClose) (s : SessionReservation) : SqlProc SessionOutcome := do
  let amount : ℤ := s.reservedAmount - s.committedAmount
  lockSessionAccounts s.tuple [.reservedHold, .availableBudget]
  sessionAccountId (s.tuple.account .reservedHold)
  sessionAccountId (s.tuple.account .availableBudget)
  let outcome := { s.outcome "accepted" with
    reasonCode := k.reasonCode, sessionStatus := some k.status
    releasedThisCall := some amount, releasedAmount := some amount, remainingAmount := 0 }
  let tx ← sessionLedgerTx (r.tx s .release ("session_" ++ k.name) k.auditName outcome)
  sessionPostTwoEntries tx s.tuple r.session .reservedHold .availableBudget amount
  write (·.updateSession r.session fun x =>
    { x with status := k.status, releasedAmount := s.reservedAmount - s.committedAmount })
  recordClose k r k.auditName (some tx) (some amount) outcome

def closeClosed (k : CloseKind) (r : SessionClose) (s : SessionReservation) : SqlProc SessionOutcome :=
  recordClose k r k.auditName none (some 0) { s.outcome "accepted" with
    reasonCode := k.reasonCode, sessionStatus := some s.status
    releasedThisCall := some 0, releasedAmount := some s.releasedAmount }

def denyExpire (r : SessionClose) (s : SessionReservation) : SqlProc SessionOutcome := do
  let outcome := { s.outcome "denied" with
    reason := some "SESSION_TTL_NOT_EXPIRED", ttlExpiresAt := some s.ttlExpiresAt }
  let tx ← sessionLedgerTx (r.tx s .deniedDecision "session_expire_denied" "denied" outcome)
  recordClose expireKind r "denied" (some tx) none outcome

def postSessionRelease (reasonCode : String) (r : SessionClose) : SqlProc SessionOutcome := do
  let k := releaseKind reasonCode
  require (reasonCode ≠ "" ∧ r.idempotencyKey ≠ "")
    ⟨"22023", "INVALID_REQUEST: reason_code and idempotency_key are required"⟩
  match ← replayClose k r with
  | some outcome => return outcome
  | none =>
    let s ← lockSession r.session
    match ← replayClose k r with
    | some outcome => return outcome
    | none => if s.status = .active then closeActive k r s else closeClosed k r s

def postSessionExpire (r : SessionClose) : SqlProc SessionOutcome := do
  require (r.idempotencyKey ≠ "") ⟨"22023", "INVALID_REQUEST: idempotency_key is required"⟩
  match ← replayClose expireKind r with
  | some outcome => return outcome
  | none =>
    let s ← lockSession r.session
    match ← replayClose expireKind r with
    | some outcome => return outcome
    | none =>
      let now ← clock
      if s.status = .active then
        if s.ttlExpiresAt.passed now then closeActive expireKind r s else denyExpire r s
      else closeClosed expireKind r s

section Exec

variable {now : ℕ} {db db' : Db} {outcome : SessionOutcome}

theorem exec_replayOutcome {found : Option (Bytes × SessionOutcome)} {hash : Bytes} {message : String}
    {o : Option SessionOutcome} (h : exec now (replayOutcome found hash message) db = .ok (o, db')) :
    db' = db ∧ found.map Prod.snd = o := by
  unfold replayOutcome at h
  cases found with
  | none =>
    cases h
    exact ⟨rfl, rfl⟩
  | some p =>
    simp only [exec_require_bind, exec_pure, Except.ok.injEq, Prod.mk.injEq] at h
    obtain ⟨-, rfl, rfl⟩ := h
    exact ⟨rfl, rfl⟩

variable {α : Type} {k : Option SessionOutcome → SqlProc α} {u : α × Db} {r : SessionClose} {s : SessionReservation}
  {o : SessionOutcome}

theorem exec_replayOutcome_bind {found : Db → Option (Bytes × SessionOutcome)} {hash : Bytes}
    {message : String} {r : α × Db}
    (h : exec now ((read >>= fun db => replayOutcome (found db) hash message) >>= k) db = .ok r) :
    (∃ o, (found db).map Prod.snd = some o ∧ exec now (k (some o)) db = .ok r) ∨
      (found db).map Prod.snd = none ∧ exec now (k none) db = .ok r := by
  obtain ⟨o, db₁, hreplay, hrun⟩ := exec_bind_eq_ok.mp h
  obtain ⟨rfl, hfound⟩ := exec_replayOutcome hreplay
  cases o with
  | none => exact .inr ⟨hfound, hrun⟩
  | some o => exact .inl ⟨o, hfound, hrun⟩

@[simp] theorem exec_insertSessionEvent_bind {e : SessionEvent} {f : Unit → SqlProc α}
    {r : α × Db} :
    exec now (insertSessionEvent e >>= f) db = .ok r ↔
      db.sessionEvent? e.sessionReservation e.operation e.idempotencyKey = none ∧
        exec now (f ()) (db.insertSessionEvent e) = .ok r := by
  apply exec_bind_of_iff
  intro u
  simp only [insertSessionEvent, exec_acquire_bind, exec_read_bind, exec_require_bind, exec_write,
    Except.ok.injEq, eq_comm (b := u)]

structure Db.Keeps (db db' : Db) (session : Uuid) (o : SessionOutcome) : Prop where
  commits : ∀ c ∈ db'.sessionCommits,
    c ∈ db.sessionCommits ∨ c.sessionReservation = session ∧ c.outcome = o
  events : ∀ e ∈ db'.sessionEvents,
    e ∈ db.sessionEvents ∨ e.sessionReservation = session ∧ e.outcome = o

def SessionReserve.stored (r : SessionReserve) (db : Db) : Option SessionOutcome :=
  (db.sessionByKey r.tuple.tenant r.sessionId r.route r.idempotencyKey).map (·.reserveOutcome)

def SessionCommit.stored (r : SessionCommit) (db : Db) : Option SessionOutcome :=
  (db.sessionCommit? r.session r.streamingCommitId).map (·.outcome)

def SessionClose.stored (r : SessionClose) (op : SessionOperation) (db : Db) : Option SessionOutcome :=
  (db.sessionEvent? r.session op r.idempotencyKey).map (·.outcome)

theorem exec_replayReserve_bind {r : SessionReserve}
    (h : exec now (replayReserve r >>= k) db = .ok u) :
    (∃ o, r.stored db = some o ∧ exec now (k (some o)) db = .ok u) ∨
      r.stored db = none ∧ exec now (k none) db = .ok u := by
  have hreplay := exec_replayOutcome_bind h
  rwa [Option.map_map] at hreplay

theorem exec_replayCommit_bind {r : SessionCommit}
    (h : exec now (replayCommit r >>= k) db = .ok u) :
    (∃ o, r.stored db = some o ∧ exec now (k (some o)) db = .ok u) ∨
      r.stored db = none ∧ exec now (k none) db = .ok u := by
  have hreplay := exec_replayOutcome_bind h
  rwa [Option.map_map] at hreplay

theorem exec_replayClose_bind {c : CloseKind} (h : exec now (replayClose c r >>= k) db = .ok u) :
    (∃ o, r.stored c.operation db = some o ∧ exec now (k (some o)) db = .ok u) ∨
      r.stored c.operation db = none ∧ exec now (k none) db = .ok u := by
  have hreplay := exec_replayOutcome_bind h
  rwa [Option.map_map] at hreplay

structure SessionReserve.Opens (r : SessionReserve) (status : SessionStatus) (s : SessionReservation) :
    Prop where
  id : s.id = r.id
  tuple : s.tuple = r.tuple
  reserved : s.reservedAmount = r.amount.toNat
  committed : s.committedAmount = 0
  released : s.releasedAmount = 0
  status : s.status = status

structure SessionReserve.Recorded (r : SessionReserve) (status : SessionStatus) (db db' : Db) :
    Prop where
  fresh : db.session? r.id = none
  posted : ∃ x, db.Posted db' x (if status = .active then
    sessionPosted r.tuple r.id .availableBudget .reservedHold r.amount else [])
  sessions : ∃ s, r.Opens status s ∧ db'.sessions = db.sessions ++ [s]
  reservations : db'.reservations = db.reservations
  commits : db'.commits = db.commits

structure SessionReserve.Answers (r : SessionReserve) (db db' : Db) (o figures : SessionOutcome) :
    Prop where
  answer : ∃ tx, o = { figures with transaction := tx }
  row : ∀ s ∈ db'.sessions, s ∈ db.sessions ∨ s.reserveOutcome = o
  kept : db.Keeps db' r.id o

theorem exec_insertSessionReserve_bind {r : SessionReserve} {row : SessionReservation}
        (h : exec now (insertSessionReserve r row >>= k) db = .ok u) :
    (∃ o, r.stored db = some o ∧ exec now (k (some o)) db = .ok u) ∨
      db.session? r.id = none ∧ exec now (k none) (db.insertSession row) = .ok u := by
  obtain ⟨o, db₁, hinsert, hrun⟩ := exec_bind_eq_ok.mp h
  rw [insertSessionReserve, exec_acquire_bind] at hinsert
  rcases exec_replayReserve_bind hinsert with ⟨stored, hfound, hstored⟩ | ⟨-, hnew⟩
  · cases hstored
    exact .inl ⟨stored, hfound, hrun⟩
  · simp only [exec_acquire_bind, exec_read_bind, exec_require_bind, exec_write_bind, exec_pure,
      Except.ok.injEq, Prod.mk.injEq] at hnew
    obtain ⟨hfresh, rfl, rfl⟩ := hnew
    exact .inr ⟨hfresh, hrun⟩

theorem Db.updateSession_insertSession {db : Db}
    {f : SessionReservation → SessionReservation} (h : db.session? s.id = none) :
    ((db.insertSession s).updateSession s.id f).sessions = db.sessions ++ [f s] := by
  have hother : ∀ x ∈ db.sessions, x.id ≠ s.id := by
    intro x hx
    simpa using List.find?_eq_none.mp h x hx
  have hold : db.sessions.map (fun x => if x.id = s.id then f x else x) = db.sessions := by
    calc db.sessions.map (fun x => if x.id = s.id then f x else x)
        = db.sessions.map id := List.map_congr_left fun x hx => if_neg (hother x hx)
      _ = db.sessions := List.map_id _
  simp [Db.updateSession, Db.insertSession, hold]

theorem Db.keeps_insertSessionEvent {db db₁ : Db} {e : SessionEvent} {session : Uuid}
    (hc : db₁.sessionCommits = db.sessionCommits)
    (he : db₁.sessionEvents = db.sessionEvents) (hs : e.sessionReservation = session)
    (ho : e.outcome = o) : db.Keeps (db₁.insertSessionEvent e) session o := by
  constructor
  · intro c hmem
    exact .inl (hc ▸ hmem)
  · intro x hmem
    rw [Db.insertSessionEvent, List.mem_append, List.mem_singleton, he] at hmem
    apply hmem.imp_right
    rintro rfl
    exact ⟨hs, ho⟩

theorem exec_recordReserve {r : SessionReserve} {status : SessionStatus} {ttl : Timestamp}
    {auditOutcome : SessionOutcome}
    (h : exec now (recordReserve r status ttl o auditOutcome) db = .ok (outcome, db')) :
    db' = db ∧ r.stored db = some outcome ∨ r.Recorded status db db' ∧ r.Answers db db' outcome o := by
  rw [recordReserve] at h
  rcases exec_insertSessionReserve_bind h with ⟨stored, hfound, hstored⟩ | ⟨hfresh, hrun⟩
  · cases hstored
    exact .inl ⟨rfl, hfound⟩
  right
  have hsessions : ∀ f : SessionReservation → SessionReservation,
      ((db.insertSession (r.row status ttl o)).updateSession r.id f).sessions =
        db.sessions ++ [f (r.row status ttl o)] := fun f => Db.updateSession_insertSession hfresh
  have hrow : ∀ f : SessionReservation → SessionReservation, ∀ s ∈
      ((db.insertSession (r.row status ttl o)).updateSession r.id f).sessions,
        s ∈ db.sessions ∨ s = f (r.row status ttl o) := by
    intro f s hs
    rwa [hsessions, List.mem_append, List.mem_singleton] at hs
  by_cases hactive : status = .active
  · simp only [hactive, if_true] at hrun
    obtain ⟨db₁, x, -, hposted, ⟨ts, au, al, es, rfl⟩, hrest⟩ := exec_sessionTxEntries_bind hrun
    simp only [exec_write_bind, exec_insertSessionEvent_bind, exec_pure] at hrest
    obtain ⟨-, hdb⟩ := hrest
    cases hdb
    subst hactive
    refine ⟨⟨hfresh, ⟨x, ?_⟩, ⟨_, ?_, hsessions _⟩, rfl, rfl⟩, ⟨_, rfl⟩, ?_,
      Db.keeps_insertSessionEvent rfl rfl rfl rfl⟩
    · rw [if_pos rfl]
      exact ⟨hposted.fresh, hposted.transactions, hposted.entries⟩
    · exact ⟨rfl, rfl, rfl, rfl, rfl, rfl⟩
    · intro s hs
      apply (hrow _ s hs).imp_right
      rintro rfl
      rfl
  · simp only [hactive, if_false] at hrun
    obtain ⟨db₁, x, -, hposted, ⟨ts, au, rfl⟩, hrest⟩ := exec_sessionLedgerTx_bind hrun
    simp only [exec_write_bind, exec_insertSessionEvent_bind, exec_pure] at hrest
    obtain ⟨-, hdb⟩ := hrest
    cases hdb
    refine ⟨⟨hfresh, ⟨x, ?_⟩, ⟨_, ?_, hsessions _⟩, rfl, rfl⟩, ⟨_, rfl⟩, ?_,
      Db.keeps_insertSessionEvent rfl rfl rfl rfl⟩
    · rw [if_neg hactive]
      exact ⟨hposted.fresh, hposted.transactions, hposted.entries⟩
    · exact ⟨rfl, rfl, rfl, rfl, rfl, rfl⟩
    · intro s hs
      apply (hrow _ s hs).imp_right
      rintro rfl
      rfl

theorem exec_postSessionReserve_answer {r : SessionReserve}
    (h : exec now (postSessionReserve r) db = .ok (outcome, db')) :
    db' = db ∧ r.stored db = some outcome ∨ r.stored db = none ∧ 0 < r.amount ∧
      (r.Recorded .denied db db' ∧ (∃ available, r.Answers db db' outcome
          (r.deniedOutcome available (r.ttl now))) ∨
        r.amount ≤ db.balance (r.tuple.account .availableBudget) ∧ r.Recorded .active db db' ∧
          r.Answers db db' outcome (r.acceptedOutcome (r.ttl now))) := by
  simp only [postSessionReserve, exec_require_bind] at h
  obtain ⟨hpos, -, -, hrun⟩ := h
  rcases exec_replayReserve_bind hrun with ⟨stored, hfound, hstored⟩ | ⟨-, hfirst⟩
  · cases hstored
    exact .inl ⟨rfl, hfound⟩
  simp only [exec_read_bind, exec_require_bind, exec_lockSessionAccounts_bind] at hfirst
  rcases exec_replayReserve_bind hfirst.2 with ⟨stored, hfound, hstored⟩ | ⟨hnone, hdecide⟩
  · cases hstored
    exact .inl ⟨rfl, hfound⟩
  simp only [decideReserve, exec_sessionAccountId_bind, exec_read_bind, exec_clock_bind] at hdecide
  obtain ⟨-, -, hverdict⟩ := hdecide
  split at hverdict
  · exact (exec_recordReserve hverdict).imp_right fun hrec => ⟨hnone, hpos, .inl ⟨hrec.1, _, hrec.2⟩⟩
  · rename_i havailable
    exact (exec_recordReserve hverdict).imp_right
      fun hrec => ⟨hnone, hpos, .inr ⟨not_lt.mp havailable, hrec⟩⟩

theorem exec_postSessionReserve {r : SessionReserve}
    (h : exec now (postSessionReserve r) db = .ok (outcome, db')) :
    db' = db ∨ 0 < r.amount ∧ (r.Recorded .denied db db' ∨
      r.amount ≤ db.balance (r.tuple.account .availableBudget) ∧ r.Recorded .active db db') := by
  rcases exec_postSessionReserve_answer h with hreplay | ⟨-, hpos, hdenied | ⟨havailable, hactive, -⟩⟩
  · exact .inl hreplay.1
  · exact .inr ⟨hpos, .inl hdenied.1⟩
  · exact .inr ⟨hpos, .inr ⟨havailable, hactive⟩⟩

@[simp] theorem exec_lockSession_bind {session : Uuid} {k : SessionReservation → SqlProc α}
    {r : α × Db} :
    exec now (lockSession session >>= k) db = .ok r ↔
      ∃ s, db.session? session = some s ∧ exec now (k s) db = .ok r := by
  simp [exec_bind_eq_ok, lockSession]

theorem exec_matchClaims_bind {c : SessionCommitClaims} {t : SessionTuple}
    {f : Unit → SqlProc α} {r : α × Db} (h : exec now (matchClaims c t >>= f) db = .ok r) :
    exec now (f ()) db = .ok r := by
  obtain ⟨_, db₁, hmatch, hrun⟩ := exec_bind_eq_ok.mp h
  simp only [matchClaims, matchClaim, exec_require_bind, exec_require] at hmatch
  obtain ⟨-, -, -, -, -, -, -, -, hdb⟩ := hmatch
  cases hdb
  exact hrun

theorem Db.Posted.sameBooks {db db' : Db} {x : LedgerTransaction} (h : db.Posted db' x [])
    (hr : db'.reservations = db.reservations) (hc : db'.commits = db.commits)
    (hs : db'.sessions = db.sessions) : db.SameBooks db' := by
  obtain ⟨l, hl, he⟩ := h.entries
  obtain rfl := List.map_eq_nil_iff.mp hl
  refine ⟨?_, by simpa [numberedEntries] using he, hr, hc, hs⟩
  intro y hy
  rw [h.transactions]
  exact List.mem_append_left _ hy

/-- A call that finds the session and leaves it alone, and answers with its figures. -/
structure SessionReservation.Untouched (s : SessionReservation) (db db' : Db) (o : SessionOutcome) :
    Prop where
  books : db.SameBooks db'
  found : db.session? s.id = some s
  session : o.sessionReservation = s.id
  committed : o.committedAmount = s.committedAmount
  remaining : o.remainingAmount = s.remaining ∨
    s.status = .active ∧ o.remainingAmount = s.reservedAmount - s.committedAmount
  kept : db.Keeps db' s.id o

structure SessionCommit.Applied (r : SessionCommit) (db db' : Db) (s : SessionReservation) : Prop where
  found : db.session? r.session = some s
  active : s.status = .active
  positive : 0 < r.delta
  within : s.committedAmount + r.delta ≤ s.reservedAmount
  posted : ∃ x, db.Posted db' x
    (sessionPosted s.tuple r.session .reservedHold .committedSpend r.delta)
  sessions : db'.sessions = (db.updateSession r.session fun x =>
    { x with committedAmount := s.committedAmount + r.delta.toNat }).sessions
  reservations : db'.reservations = db.reservations
  commits : db'.commits = db.commits

theorem SessionCommit.denial_eq_none {r : SessionCommit}
    (h : r.denial s now = none) :
    s.status = .active ∧ s.committedAmount + r.delta ≤ s.reservedAmount := by
  unfold SessionCommit.denial at h
  split at h
  · cases h
  split at h
  · cases h
  split at h
  · cases h
  · rename_i hstatus _ hwithin
    exact ⟨not_not.mp hstatus, not_lt.mp hwithin⟩

theorem SessionCommit.denial_figures {r : SessionCommit}
    (h : r.denial s now = some o) : o.sessionReservation = s.id ∧
      o.committedAmount = s.committedAmount ∧ (o.remainingAmount = s.remaining ∨
        s.status = .active ∧ o.remainingAmount = s.reservedAmount - s.committedAmount) := by
  unfold SessionCommit.denial at h
  split at h
  · cases h
    exact ⟨rfl, rfl, .inl rfl⟩
  · rename_i hstatus
    split at h
    · cases h
      exact ⟨rfl, rfl, .inl rfl⟩
    split at h
    · cases h
      exact ⟨rfl, rfl, .inr ⟨not_not.mp hstatus, rfl⟩⟩
    · cases h

theorem exec_recordCommit {r : SessionCommit} {type : String} {applied : Bool} {tx : Uuid}
    (h : exec now (recordCommit r type applied tx o) db = .ok (outcome, db')) :
    outcome = { o with transaction := some tx } ∧ db.Keeps db' r.session outcome ∧
      ∃ cs es, db' = { db with sessionCommits := cs, sessionEvents := es } := by
  simp only [recordCommit, exec_read_bind, exec_require_bind, exec_write_bind,
    exec_insertSessionEvent_bind, exec_pure] at h
  obtain ⟨-, -, hdb⟩ := h
  cases hdb
  refine ⟨rfl, ⟨?_, ?_⟩, _, _, rfl⟩
  · intro c hc
    rw [Db.insertSessionEvent, Db.insertSessionCommit, List.mem_append, List.mem_singleton] at hc
    apply hc.imp_right
    rintro rfl
    exact ⟨rfl, rfl⟩
  · intro e he
    rw [Db.insertSessionEvent, Db.insertSessionCommit, List.mem_append, List.mem_singleton] at he
    apply he.imp_right
    rintro rfl
    exact ⟨rfl, rfl⟩

theorem exec_denyCommit {r : SessionCommit}
    (h : exec now (denyCommit r s o) db = .ok (outcome, db')) :
    db.SameBooks db' ∧ (∃ tx, outcome = { o with transaction := tx }) ∧
      db.Keeps db' r.session outcome := by
  rw [denyCommit] at h
  obtain ⟨db₁, x, -, hposted, ⟨ts, au, rfl⟩, hrun⟩ := exec_sessionLedgerTx_bind h
  obtain ⟨hanswer, hkept, cs, es, rfl⟩ := exec_recordCommit hrun
  have hbooks : db.SameBooks { db with transactions := ts, audit := au } :=
    Db.Posted.sameBooks ⟨hposted.fresh, hposted.transactions, hposted.entries⟩ rfl rfl rfl
  exact ⟨⟨hbooks.transactions, rfl, rfl, rfl, rfl⟩, ⟨_, hanswer⟩, hkept.commits, hkept.events⟩

theorem exec_postSessionCommitDelta_answer {r : SessionCommit}
    (h : exec now (postSessionCommitDelta r) db = .ok (outcome, db')) :
    db' = db ∧ r.stored db = some outcome ∨ r.stored db = none ∧ ∃ s, s.id = r.session ∧
      (s.Untouched db db' outcome ∨ r.Applied db db' s ∧ db.Keeps db' r.session outcome ∧
        ∃ tx, outcome = { r.appliedOutcome s with transaction := tx }) := by
  simp only [postSessionCommitDelta, exec_require_bind] at h
  obtain ⟨-, hpos, hrun⟩ := h
  rcases exec_replayCommit_bind hrun with ⟨stored, hfound, hstored⟩ | ⟨-, hlock⟩
  · cases hstored
    exact .inl ⟨rfl, hfound⟩
  rw [exec_lockSession_bind] at hlock
  obtain ⟨s, hs, hlocked⟩ := hlock
  have hid : s.id = r.session := by simpa using List.find?_some hs
  rcases exec_replayCommit_bind hlocked with ⟨stored, hfound, hstored⟩ | ⟨hnone, hmatch⟩
  · cases hstored
    exact .inl ⟨rfl, hfound⟩
  refine .inr ⟨hnone, s, hid, ?_⟩
  have hverdict := exec_matchClaims_bind hmatch
  rw [exec_clock_bind] at hverdict
  cases hdenial : r.denial s now with
  | some o =>
    simp only [hdenial] at hverdict
    obtain ⟨hbooks, ⟨tx, rfl⟩, hkept⟩ := exec_denyCommit hverdict
    obtain ⟨hsession, hcommitted, hremaining⟩ := SessionCommit.denial_figures hdenial
    exact .inl ⟨hbooks, hid ▸ hs, hsession, hcommitted, hremaining, hid ▸ hkept⟩
  | none =>
    obtain ⟨hactive, hwithin⟩ := SessionCommit.denial_eq_none hdenial
    simp only [hdenial, applyCommit, exec_lockSessionAccounts_bind, exec_sessionAccountId_bind] at hverdict
    obtain ⟨-, -, happly⟩ := hverdict
    obtain ⟨db₁, x, -, hposted, ⟨ts, au, al, es, rfl⟩, hrest⟩ := exec_sessionTxEntries_bind happly
    rw [exec_write_bind] at hrest
    obtain ⟨hanswer, hkept, cs, evs, rfl⟩ := exec_recordCommit hrest
    exact .inr ⟨⟨hs, hactive, hpos, hwithin,
      ⟨x, hposted.fresh, hposted.transactions, hposted.entries⟩, rfl, rfl, rfl⟩,
      ⟨hkept.commits, hkept.events⟩, _, hanswer⟩

theorem exec_postSessionCommitDelta {r : SessionCommit}
    (h : exec now (postSessionCommitDelta r) db = .ok (outcome, db')) :
    db.SameBooks db' ∨ ∃ s, r.Applied db db' s := by
  rcases exec_postSessionCommitDelta_answer h with ⟨rfl, -⟩ | ⟨-, s, -, huntouched | happlied⟩
  · exact .inl (.refl _)
  · exact .inl huntouched.books
  · exact .inr ⟨s, happlied.1⟩

structure SessionClose.Closed (r : SessionClose) (status : SessionStatus) (db db' : Db)
    (s : SessionReservation) : Prop where
  found : db.session? r.session = some s
  active : s.status = .active
  posted : ∃ x, db.Posted db' x (sessionPosted s.tuple r.session .reservedHold .availableBudget
    (s.reservedAmount - s.committedAmount))
  sessions : db'.sessions = (db.updateSession r.session fun x =>
    { x with status := status, releasedAmount := s.reservedAmount - s.committedAmount }).sessions
  reservations : db'.reservations = db.reservations
  commits : db'.commits = db.commits

/-- What a call that ends in a release or an expiry can have done, with its answer. -/
inductive SessionClose.Answers (r : SessionClose) (status : SessionStatus) (db db' : Db)
    (s : SessionReservation) (o : SessionOutcome) : Prop
  | untouched (h : s.Untouched db db' o)
  | closed (h : r.Closed status db db' s) (session : o.sessionReservation = s.id)
      (committed : o.committedAmount = s.committedAmount) (remaining : o.remainingAmount = 0)
      (kept : db.Keeps db' s.id o)

theorem exec_closeActive {k : CloseKind}
    (hs : db.session? r.session = some s) (hactive : s.status = .active)
    (h : exec now (closeActive k r s) db = .ok (outcome, db')) :
    r.Answers k.status db db' s outcome := by
  have hid : s.id = r.session := by simpa using List.find?_some hs
  simp only [closeActive, exec_lockSessionAccounts_bind, exec_sessionAccountId_bind] at h
  obtain ⟨-, -, hclose⟩ := h
  obtain ⟨db₁, x, -, hposted, ⟨ts, au, al, es, rfl⟩, hrest⟩ := exec_sessionTxEntries_bind hclose
  simp only [recordClose, exec_write_bind, exec_insertSessionEvent_bind, exec_pure] at hrest
  obtain ⟨-, hdb⟩ := hrest
  cases hdb
  refine .closed ⟨hs, hactive, ⟨x, ?_⟩, rfl, rfl, rfl⟩ rfl rfl rfl ?_
  · exact ⟨hposted.fresh, hposted.transactions, hposted.entries⟩
  · exact Db.keeps_insertSessionEvent rfl rfl hid.symm rfl

theorem exec_closeClosed {k : CloseKind}
    (hs : db.session? r.session = some s)
    (h : exec now (closeClosed k r s) db = .ok (outcome, db')) : s.Untouched db db' outcome := by
  have hid : s.id = r.session := by simpa using List.find?_some hs
  simp only [closeClosed, recordClose, exec_insertSessionEvent_bind, exec_pure] at h
  obtain ⟨-, hdb⟩ := h
  cases hdb
  refine ⟨⟨fun _ hx => hx, rfl, rfl, rfl, rfl⟩, hid ▸ hs, rfl, rfl, .inl rfl, ?_⟩
  exact Db.keeps_insertSessionEvent rfl rfl hid.symm rfl

theorem exec_denyExpire
    (hs : db.session? r.session = some s)
    (h : exec now (denyExpire r s) db = .ok (outcome, db')) : s.Untouched db db' outcome := by
  have hid : s.id = r.session := by simpa using List.find?_some hs
  rw [denyExpire] at h
  obtain ⟨db₁, x, -, hposted, ⟨ts, au, rfl⟩, hrun⟩ := exec_sessionLedgerTx_bind h
  simp only [recordClose, exec_insertSessionEvent_bind, exec_pure] at hrun
  obtain ⟨-, hdb⟩ := hrun
  cases hdb
  refine ⟨Db.Posted.sameBooks ⟨hposted.fresh, hposted.transactions, hposted.entries⟩ rfl rfl rfl,
    hid ▸ hs, rfl, rfl, .inl rfl, ?_⟩
  exact Db.keeps_insertSessionEvent rfl rfl hid.symm rfl

theorem exec_postSessionRelease_answer {reason : String}
    (h : exec now (postSessionRelease reason r) db = .ok (outcome, db')) :
    db' = db ∧ r.stored .release db = some outcome ∨ r.stored .release db = none ∧
      ∃ s, s.id = r.session ∧ r.Answers .released db db' s outcome := by
  simp only [postSessionRelease, exec_require_bind] at h
  obtain ⟨-, hrun⟩ := h
  rcases exec_replayClose_bind hrun with ⟨stored, hfound, hstored⟩ | ⟨-, hlock⟩
  · cases hstored
    exact .inl ⟨rfl, hfound⟩
  rw [exec_lockSession_bind] at hlock
  obtain ⟨s, hs, hlocked⟩ := hlock
  have hid : s.id = r.session := by simpa using List.find?_some hs
  rcases exec_replayClose_bind hlocked with ⟨stored, hfound, hstored⟩ | ⟨hnone, hclose⟩
  · cases hstored
    exact .inl ⟨rfl, hfound⟩
  refine .inr ⟨hnone, s, hid, ?_⟩
  by_cases hactive : s.status = .active
  · simp only [hactive, if_true] at hclose
    exact exec_closeActive hs hactive hclose
  · simp only [hactive, if_false] at hclose
    exact .untouched (exec_closeClosed hs hclose)

theorem exec_postSessionExpire_answer
    (h : exec now (postSessionExpire r) db = .ok (outcome, db')) :
    db' = db ∧ r.stored .expire db = some outcome ∨ r.stored .expire db = none ∧
      ∃ s, s.id = r.session ∧ r.Answers .expired db db' s outcome := by
  simp only [postSessionExpire, exec_require_bind] at h
  obtain ⟨-, hrun⟩ := h
  rcases exec_replayClose_bind hrun with ⟨stored, hfound, hstored⟩ | ⟨-, hlock⟩
  · cases hstored
    exact .inl ⟨rfl, hfound⟩
  rw [exec_lockSession_bind] at hlock
  obtain ⟨s, hs, hlocked⟩ := hlock
  have hid : s.id = r.session := by simpa using List.find?_some hs
  rcases exec_replayClose_bind hlocked with ⟨stored, hfound, hstored⟩ | ⟨hnone, hclose⟩
  · cases hstored
    exact .inl ⟨rfl, hfound⟩
  refine .inr ⟨hnone, s, hid, ?_⟩
  rw [exec_clock_bind] at hclose
  by_cases hactive : s.status = .active
  · simp only [hactive, if_true] at hclose
    split at hclose
    · exact exec_closeActive hs hactive hclose
    · exact .untouched (exec_denyExpire hs hclose)
  · simp only [hactive, if_false] at hclose
    exact .untouched (exec_closeClosed hs hclose)

theorem SessionClose.Answers.books {status : SessionStatus}
    (h : r.Answers status db db' s o) :
    db.SameBooks db' ∨ ∃ s, r.Closed status db db' s := by
  cases h with
  | untouched h => exact .inl h.books
  | closed h => exact .inr ⟨s, h⟩

theorem exec_postSessionRelease {reason : String}
    (h : exec now (postSessionRelease reason r) db = .ok (outcome, db')) :
    db.SameBooks db' ∨ ∃ s, r.Closed .released db db' s := by
  rcases exec_postSessionRelease_answer h with ⟨rfl, -⟩ | ⟨-, s, -, hanswer⟩
  · exact .inl (.refl _)
  · exact hanswer.books

theorem exec_postSessionExpire
    (h : exec now (postSessionExpire r) db = .ok (outcome, db')) :
    db.SameBooks db' ∨ ∃ s, r.Closed .expired db db' s := by
  rcases exec_postSessionExpire_answer h with ⟨rfl, -⟩ | ⟨-, s, -, hanswer⟩
  · exact .inl (.refl _)
  · exact hanswer.books

end Exec

end SpendGuard.Ledger
