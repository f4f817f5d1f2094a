import SpendGuard.Audit.Payload
import SpendGuard.Ledger.SessionLedger

/-!
Who writes the audit outbox: the ledger's handlers, from the event of a caller; the session procedures
and the control plane, from what they put together themselves.
-/

namespace SpendGuard.Audit

open Base Ledger

structure Postgres where
  castUuid : String → Option Uuid
  castBigint : String → Option Int64
  castInt : String → Option ℤ
  castNumeric : String → Option ℤ
  /-- A `NUMERIC(4,3)`, in thousandths. -/
  castNumeric43 : String → Option ℤ
  /-- The seconds since the epoch and the nanoseconds of a `TIMESTAMPTZ`. -/
  castTimestamptz : String → Option (Int64 × Int64)
  castHex : String → Option Bytes
  castJsonb : Bytes → Option Json
  jsonbText : Json → String

structure AuditRequest where
  tenantId : String
  decisionId : String
  /-- Of reserve and deny only. -/
  auditDecisionEventId : String := ""
  auditEvent : Option CloudEvent
  producerSequence : UInt64

/-- What invoice reconcile adds: the ids it mints, the reservation, and the ledger's signer. -/
structure InvoiceMint where
  decisionOutboxId : Uuid
  outcomeOutboxId : Uuid
  reservation : Uuid
  signingKeyId : String
  signature : Bytes

/-- The `decision` or `outcome` object of a session's audit context, as texts. -/
structure EnvelopeText where
  auditOutboxId : Option String
  auditEventId : Option String
  dataB64 : Option String
  producerSequence : Option String
  signatureHex : Option String

structure AuditContextText where
  producerId : Option String
  signingKeyId : Option String
  decisionId : Option String
  recordedAt : Option String
  timeSeconds : Option String
  timeNanos : Option String
  decision : EnvelopeText
  outcome : EnvelopeText

/-- What `session_ledger_tx` mints for an envelope whose own value is empty. -/
structure MintedEnvelope where
  outboxId : Uuid
  eventId : Uuid
  sequence : Int64

structure SessionWrite where
  tenant : Uuid
  sessionEventType : String
  sessionReservation : Uuid
  context : Option AuditContextText
  eventOutcome : Json
  mintedDecisionId : Uuid
  /-- The clock, in seconds and nanoseconds. -/
  clock : Int64 × Int64
  mintedDecision : MintedEnvelope
  mintedOutcome : MintedEnvelope

structure OpeningDeposit where
  outboxId : Uuid
  tenant : Uuid
  decision : Uuid
  auditEvent : Uuid
  amountAtomic : String

section Writers

variable (fl : FloatText) (parseUuid : String → Option Uuid) (pg : Postgres)

def required (text field : String) : Except String Unit := check (text ≠ "") (field ++ " required")

def parseUuidField (text field : String) : Except String Uuid :=
  found (parseUuid text) (field ++ ": invalid uuid")

def decisionRow (outboxId : Uuid) (req : AuditRequest) : Except String OutboxRow := do
  required req.tenantId "tenant_id"
  required req.decisionId "decision_id"
  required req.auditDecisionEventId "audit_decision_event_id"
  let e ← found req.auditEvent "audit_event (CloudEvent) required for audit_outbox row"
  let tenant ← parseUuidField parseUuid req.tenantId "tenant_id"
  let decision ← parseUuidField parseUuid req.decisionId "decision_id"
  let _ ← parseUuidField parseUuid req.auditDecisionEventId "audit_decision_event_id"
  return ⟨outboxId, tenant, decision, "spendguard.audit.decision", cloudeventPayload fl e,
    e.producerSignature, req.producerSequence.toInt64.toInt⟩

def reserveSetRow := decisionRow fl parseUuid

def recordDeniedDecisionRow := decisionRow fl parseUuid

def commitEstimatedRow (req : AuditRequest) : Except String OutboxRow := do
  required req.tenantId "tenant_id"
  required req.decisionId "decision_id"
  let e ← found req.auditEvent "audit_event required"
  let tenant ← parseUuidField parseUuid req.tenantId "tenant_id"
  let decision ← parseUuidField parseUuid req.decisionId "decision_id"
  let id ← parseUuidField parseUuid e.id "audit_event.id"
  return ⟨id, tenant, decision, "spendguard.audit.outcome", cloudeventPayload fl e, e.producerSignature,
    req.producerSequence.toInt64.toInt⟩

/-- Release and provider report want an event of one type and of the request's decision. -/
def typedRow (type : String) (req : AuditRequest) : Except String OutboxRow := do
  required req.tenantId "tenant_id"
  required req.decisionId "decision_id"
  let e ← found req.auditEvent "audit_event required"
  let tenant ← parseUuidField parseUuid req.tenantId "tenant_id"
  let decision ← parseUuidField parseUuid req.decisionId "decision_id"
  check (e.type = type) ("audit_event.type must be " ++ type ++ "; got '" ++ e.type ++ "'")
  check (e.decisionId = req.decisionId) "audit_event.decision_id must match request.decision_id"
  let id ← parseUuidField parseUuid e.id "audit_event.id"
  return ⟨id, tenant, decision, type, cloudeventPayload fl e, e.producerSignature,
    req.producerSequence.toInt64.toInt⟩

def releaseRow := typedRow fl parseUuid "spendguard.audit.outcome"

def providerReportRow := typedRow fl parseUuid "spendguard.audit.decision"

def invoiceDecision (m : InvoiceMint) (decision derived : Uuid) (outcomeSeq : ℕ) (e : CloudEvent) : CloudEvent :=
  { e with
    type := "spendguard.audit.decision"
    id := derived.text
    datacontenttype := "application/json"
    data := (Json.render (.obj [
      ("decision_id", .str decision.text), ("operation_kind", .str "invoice_reconcile"),
      ("reservation_id", .str m.reservation.text),
      ("transition", .str "any -> invoice_reconciled (server-minted decision)")])).toUTF8.data.toList
    producerId := "ledger:invoice-reconcile"
    producerSequence := .ofNat (outcomeSeq - 1)
    signingKeyId := m.signingKeyId }

/-- The checks of `post_invoice_reconciled_transaction` on the two payloads that can fail. -/
def assertInvoicePayloads (tenant decision id : Uuid) (outcomeSeq : ℕ) (e d : CloudEvent) : Except String Unit := do
  check (e.specversion = "1.0" ∧ e.datacontenttype = "application/json")
    "AUDIT_INVARIANT_VIOLATED: outcome payload literal mismatch"
  check (pg.castUuid e.id = some id ∧ pg.castUuid e.tenantId = some tenant ∧
    pg.castUuid e.decisionId = some decision ∧ e.producerSequence.toNat = outcomeSeq)
    "AUDIT_INVARIANT_VIOLATED: outcome payload identity mismatch"
  check (e.data ≠ []) "AUDIT_INVARIANT_VIOLATED: outcome data_b64 must be non-empty"
  check (pg.castUuid d.id = some (id.digest ":decision"))
    "AUDIT_INVARIANT_VIOLATED: decision payload identity mismatch"
  check (d.signingKeyId ≠ "") "AUDIT_INVARIANT_VIOLATED: decision payload literal mismatch"

def invoiceReconcileRows (m : InvoiceMint) (req : AuditRequest) : Except String (List OutboxRow) := do
  required req.tenantId "tenant_id"
  required req.decisionId "decision_id"
  let e ← found req.auditEvent "audit_event required"
  let tenant ← parseUuidField parseUuid req.tenantId "tenant_id"
  let decision ← parseUuidField parseUuid req.decisionId "decision_id"
  check (e.type = "spendguard.audit.outcome")
    ("audit_event.type must be spendguard.audit.outcome; got '" ++ e.type ++ "'")
  check (e.decisionId = req.decisionId) "audit_event.decision_id must match request.decision_id"
  let id ← parseUuidField parseUuid e.id "audit_event.id"
  let seq := req.producerSequence.toNat
  check (seq < 2 ^ 63) ("producer_sequence " ++ toString seq ++ " exceeds i64::MAX")
  check (2 ≤ seq) ("producer_sequence must be >= 2 to back-derive decision seq; got " ++ toString seq)
  let d := invoiceDecision m decision (id.digest ":decision") seq e
  assertInvoicePayloads pg tenant decision id seq e d
  return [⟨m.decisionOutboxId, tenant, decision, "spendguard.audit.decision", extractCloudeventPayload d, m.signature,
      seq - 1⟩,
    ⟨m.outcomeOutboxId, tenant, decision, "spendguard.audit.outcome", extractCloudeventPayload e, e.producerSignature,
      seq⟩]

def nullif (text : Option String) : Option String := text.filter (· ≠ "")

def coalesce {α : Type} (cast : String → Option α) (text : Option String) (minted : α) : Except String α :=
  match nullif text with
  | none => .ok minted
  | some s => found (cast s) ("invalid input syntax: " ++ s)

def SessionWrite.dataB64 (w : SessionWrite) (phase : String) (x : EnvelopeText) : String :=
  (nullif x.dataB64).getD (String.ofList (Base64.encodeLines (pg.jsonbText (.obj [
    ("session_event_type", .str w.sessionEventType), ("session_reservation_id", .str w.sessionReservation.text),
    ("phase", .str phase), ("event_outcome", w.eventOutcome)])).toUTF8.data.toList))

def sessionValidateAuditText (w : SessionWrite) (phase dataB64 : String) : Except String Unit := do
  check (dataB64 ≠ "") "SESSION_AUDIT_DATA_INVALID: data_b64 is required"
  let data ← found (Base64.decodeLoose [] 0 dataB64.toList) "invalid base64"
  let v ← found (pg.castJsonb data) "invalid input syntax for type json"
  check (v.get? "session_event_type" >>= Json.asStr? = some w.sessionEventType)
    "SESSION_AUDIT_DATA_INVALID: session_event_type mismatch"
  check (v.get? "session_reservation_id" >>= Json.asStr? = some w.sessionReservation.text)
    "SESSION_AUDIT_DATA_INVALID: session_reservation_id mismatch"
  check (v.get? "phase" >>= Json.asStr? = some phase) "SESSION_AUDIT_DATA_INVALID: phase mismatch"
  -- `jsonb` values are equal if they are printed alike
  check ((v.get? "event_outcome").map pg.jsonbText = some (pg.jsonbText w.eventOutcome))
    "SESSION_AUDIT_DATA_INVALID: event_outcome mismatch"

def sessionPayload (type : String) (event tenant decision : Uuid) (seconds nanos sequence : Int64)
    (dataB64 signingKeyId : String) : Json :=
  .obj [("specversion", .str "1.0"), ("type", .str type),
    ("source", .str "urn:spendguard:ledger:session-reservations"), ("id", .str event.text),
    ("time_seconds", .int seconds.toInt), ("time_nanos", .int nanos.toInt),
    ("datacontenttype", .str "application/json"), ("data_b64", .str dataB64), ("tenantid", .str tenant.text),
    ("runid", .str ""), ("decisionid", .str decision.text), ("schema_bundle_id", .str ""),
    ("producer_id", .str sessionProducer), ("producer_sequence", .int sequence.toInt),
    ("signing_key_id", .str signingKeyId)]

structure SessionStamp where
  decision : Uuid
  seconds : Int64
  nanos : Int64
  signingKeyId : String

def sessionRow (w : SessionWrite) (stamp : SessionStamp) (phase type : String) (x : EnvelopeText)
    (minted : MintedEnvelope) : Except String OutboxRow := do
  let outboxId ← coalesce pg.castUuid x.auditOutboxId minted.outboxId
  let event ← coalesce pg.castUuid x.auditEventId minted.eventId
  let sequence ← coalesce pg.castBigint x.producerSequence minted.sequence
  check (x.auditEventId.isSome ∧ x.dataB64.isSome ∧ x.producerSequence.isSome ∧ x.signatureHex.isSome)
    "SESSION_AUDIT_CONTEXT_INVALID: decision/outcome signed envelope fields are required"
  sessionValidateAuditText pg w phase (w.dataB64 pg phase x)
  let signature ← found (x.signatureHex >>= pg.castHex) "invalid hexadecimal"
  check (signature.length = 64) "SESSION_AUDIT_CONTEXT_INVALID: Ed25519 signatures must be 64 bytes"
  return ⟨outboxId, w.tenant, stamp.decision, type,
    sessionPayload type event w.tenant stamp.decision stamp.seconds stamp.nanos sequence (w.dataB64 pg phase x)
      stamp.signingKeyId, signature, sequence.toInt⟩

/-- The audit rows of `session_ledger_tx`.  The source makes the same checks for both rows before it
writes either; the order changes only which error is raised. -/
def sessionLedgerTxRows (w : SessionWrite) : Except String (List OutboxRow) := do
  let c ← found w.context "SESSION_AUDIT_CONTEXT_REQUIRED: signed audit_context is required for session events"
  let decision ← coalesce pg.castUuid c.decisionId w.mintedDecisionId
  let recorded ← coalesce pg.castTimestamptz c.recordedAt w.clock
  check (∀ p ∈ c.producerId, p = sessionProducer)
    "SESSION_AUDIT_CONTEXT_INVALID: producer_id must be ledger:session-reservation-ledger"
  let key ← found ((nullif c.signingKeyId).filter ("ed25519:".isPrefixOf ·))
    "SESSION_AUDIT_CONTEXT_INVALID: signing_key_id must be ed25519:*"
  check (c.decisionId.isSome ∧ c.recordedAt.isSome ∧ c.timeSeconds.isSome ∧ c.timeNanos.isSome)
    "SESSION_AUDIT_CONTEXT_INVALID: decision_id, recorded_at, and time fields are required"
  let seconds ← coalesce pg.castBigint c.timeSeconds recorded.1
  let nanos ← coalesce pg.castBigint c.timeNanos recorded.2
  let stamp : SessionStamp := ⟨decision, seconds, nanos, key⟩
  let d ← sessionRow pg w stamp "decision" "spendguard.audit.decision" c.decision w.mintedDecision
  let o ← sessionRow pg w stamp "outcome" "spendguard.audit.outcome" c.outcome w.mintedOutcome
  return [d, o]

def openingDepositRow (d : OpeningDeposit) : OutboxRow where
  auditOutboxId := d.outboxId
  tenantId := d.tenant
  decisionId := d.decision
  eventType := "spendguard.audit.decision"
  cloudeventPayload := .obj [("specversion", .str "1.0"), ("type", .str "spendguard.audit.decision"),
    ("id", .str d.auditEvent.text), ("source", .str "control-plane-runner"), ("tenantid", .str d.tenant.text),
    ("data_b64", .str (base64 ("\x7b\"kind\":\"operator_adjustment\",\"reason\":" ++
      "\"control_plane_opening_deposit\",\"amount_atomic\":\"" ++ d.amountAtomic ++ "\"\x7d").toUTF8.data.toList)),
    ("producer_sequence", .int 1)]
  cloudeventPayloadSignature := []
  producerSequence := 1

inductive Write
  | reserveSet (outboxId : Uuid) (req : AuditRequest)
  | recordDeniedDecision (outboxId : Uuid) (req : AuditRequest)
  | commitEstimated (req : AuditRequest)
  | release (req : AuditRequest)
  | providerReport (req : AuditRequest)
  | invoiceReconcile (m : InvoiceMint) (req : AuditRequest)
  | session (w : SessionWrite)
  | openingDeposit (d : OpeningDeposit)

/-- The rows written, all of them with `pending_forward` set. -/
def Write.rows : Write → Except String (List OutboxRow)
  | .reserveSet outboxId req => do return [← reserveSetRow fl parseUuid outboxId req]
  | .recordDeniedDecision outboxId req => do return [← recordDeniedDecisionRow fl parseUuid outboxId req]
  | .commitEstimated req => do return [← commitEstimatedRow fl parseUuid req]
  | .release req => do return [← releaseRow fl parseUuid req]
  | .providerReport req => do return [← providerReportRow fl parseUuid req]
  | .invoiceReconcile m req => invoiceReconcileRows parseUuid pg m req
  | .session w => sessionLedgerTxRows pg w
  | .openingDeposit d => return [openingDepositRow d]

def CloudEvent.timed (e : CloudEvent) : CloudEvent := { e with time := some (e.time.getD {}) }

def AuditRequest.Sound (req : AuditRequest) : Prop :=
  ∀ e ∈ req.auditEvent, e.timed.Storable parseUuid ∧ parseUuid e.tenantId = parseUuid req.tenantId ∧
    parseUuid e.decisionId = parseUuid req.decisionId

def SessionWrite.SoundEnvelope (w : SessionWrite) (phase : String) (x : EnvelopeText) (minted : MintedEnvelope) :
    Prop :=
  (Base64.decode (w.dataB64 pg phase x).toList).isSome = true ∧
    ∀ n, coalesce pg.castBigint x.producerSequence minted.sequence = .ok n → 0 ≤ n.toInt

def Write.Sound : Write → Prop
  | .reserveSet _ req | .recordDeniedDecision _ req | .commitEstimated req | .release req | .providerReport req
  | .invoiceReconcile _ req => req.Sound parseUuid
  | .session w => ∀ c ∈ w.context, w.SoundEnvelope pg "decision" c.decision w.mintedDecision ∧
    w.SoundEnvelope pg "outcome" c.outcome w.mintedOutcome
  | .openingDeposit _ => False

end Writers

section Forwarding

variable {fl : FloatText} {parseUuid : String → Option Uuid} {row : OutboxRow} {p : Json} {key s : String}

variable {e : CloudEvent}

theorem Carries.timed (h : Carries p e) : Carries p e.timed := { h with }

variable {req : AuditRequest}

section Session

variable {pg : Postgres} {w : SessionWrite}

end Session

variable {pg : Postgres}

end Forwarding

def plainPostgres : Postgres where
  castUuid := anyUuid
  castBigint text := text.toInt?.map .ofInt
  castInt := String.toInt?
  castNumeric := String.toInt?
  castNumeric43 _ := some 0
  castTimestamptz _ := some (0, 0)
  castHex _ := none
  castJsonb _ := none
  jsonbText := Json.render

end SpendGuard.Audit
