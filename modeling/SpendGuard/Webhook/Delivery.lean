import SpendGuard.Base.Check
import SpendGuard.Base.Hex
import SpendGuard.Ledger.RequestHash
import SpendGuard.Ledger.Unique

/-!
A delivery of the provider webhook: its checks, the provenance by which the ledger knows its event, and the hash
of its business intent, on both sides.
-/

namespace SpendGuard.Webhook

open Base Ledger RequestHash

structure PricingBody where
  pricingVersion : String
  priceSnapshotHashHex : String
  fxRateVersion : String
  unitConversionVersion : String
  deriving DecidableEq

structure WebhookBody where
  eventKind : String
  tenantId : String
  providerAccount : String
  providerEventId : String
  reservationId : String
  amountAtomic : String
  unitId : String
  pricing : PricingBody
  deriving DecidableEq

structure HttpRequest where
  provider : String
  signature : Option String
  body : Bytes

inductive EventKind
  | providerReport | invoiceReconcile
  deriving DecidableEq

namespace EventKind

def text : EventKind → String
  | .providerReport => "provider_report"
  | .invoiceReconcile => "invoice_reconcile"

def read? (s : String) : Option EventKind :=
  if s = "provider_report" then some .providerReport
  else if s = "invoice_reconcile" then some .invoiceReconcile
  else none

def operation : EventKind → OperationKind
  | .providerReport => .providerReport
  | .invoiceReconcile => .invoiceReconcile

end EventKind

inductive LedgerCode
  | unspecified | fencingEpochStale | lockOrderTokenMismatch | deadlockTimeout | syncReplicaUnavailable
  | pricingVersionUnknown | unitNormalizationRequired | budgetExhausted | schemaBundleUnknown
  | reservationStateConflict | pricingFreezeMismatch | overrunReservation | reservationTtlExpired
  | tenantDisabled | signatureInvalid | auditInvariantViolated | duplicateDecisionEvent
  | idempotencyConflict | multiReservationCommitDeferred
  deriving DecidableEq

inductive ReceiverError
  | invalidRequest (message : String)
  | unknownProvider
  | unauthorized (message : String)
  | conflict
  | ledgerTransient (message : String)
  | ledgerExact (status : ℕ) (code : LedgerCode) (message : String)
  | internal (message : String)
  | db
  deriving DecidableEq

def reusedKey : String := "idempotency_key reused"

def contains (s t : String) : Bool := decide (t.toList <:+: s.toList)

def ledgerCodeToHttp (code : LedgerCode) (message : String) : ℕ :=
  match code with
  | .fencingEpochStale | .lockOrderTokenMismatch | .deadlockTimeout | .syncReplicaUnavailable => 503
  | .pricingVersionUnknown | .unitNormalizationRequired | .budgetExhausted | .schemaBundleUnknown
  | .reservationStateConflict | .pricingFreezeMismatch | .overrunReservation | .reservationTtlExpired => 422
  | .tenantDisabled | .signatureInvalid => 401
  | .auditInvariantViolated | .duplicateDecisionEvent => 500
  | .idempotencyConflict => 409
  | .multiReservationCommitDeferred => 501
  | .unspecified => if contains message reusedKey then 409 else 502

def mapLedgerError (code : LedgerCode) (message : String) : ReceiverError :=
  if ledgerCodeToHttp code message = 409 then .conflict
  else .ledgerExact (ledgerCodeToHttp code message) code message

structure Receiver where
  hmac : Bytes → Bytes
  readBody : Bytes → Except String WebhookBody
  parseUuid : String → Option Uuid
  sha256 : Bytes → Bytes
  deriveDecisionId : String → Uuid
  fencingScope : Uuid
  fencingEpoch : ℕ
  workload : String

def allowedProviders : List String := ["mock-llm"]

structure Delivery (R : Receiver) where
  provider : String
  kind : EventKind
  tenantId : String
  tenant : Uuid
  providerAccount : String
  providerEventId : String
  reservationId : String
  reservation : Uuid
  amount : ℕ
  unitId : String
  unit : Uuid
  pricing : PricingFreeze
  allowed : provider ∈ allowedProviders
  tenant_read : R.parseUuid tenantId = some tenant
  reservation_read : R.parseUuid reservationId = some reservation
  unit_read : R.parseUuid unitId = some unit

def WebhookBody.complete (b : WebhookBody) : Bool :=
  b.tenantId ≠ "" && b.providerAccount ≠ "" && b.providerEventId ≠ "" && b.reservationId ≠ "" &&
    b.amountAtomic ≠ "" && b.unitId ≠ "" && b.pricing.pricingVersion ≠ "" &&
    b.pricing.priceSnapshotHashHex ≠ "" && b.pricing.fxRateVersion ≠ "" &&
    b.pricing.unitConversionVersion ≠ ""

def readAmount (s : String) : Except ReceiverError ℕ := do
  check (s ≠ "" ∧ (utf8 s).length ≤ 38 ∧ s.toList.all Char.isDigit = true)
    (.invalidRequest "amount_atomic must be 1-38 ASCII digits (NUMERIC(38,0))")
  let amount ← found (parseDigits s.toList) (.invalidRequest "amount_atomic")
  check (0 < amount) (.invalidRequest "amount_atomic must be > 0")
  return amount

def readSnapshotHash (s : String) : Except ReceiverError Bytes := do
  let hash ← found (Hex.decode s) (.invalidRequest "price_snapshot_hash_hex")
  check (hash ≠ []) (.invalidRequest "price_snapshot_hash_hex must be non-empty")
  return hash

def authenticate (R : Receiver) (req : HttpRequest) : Except ReceiverError Unit := do
  let text ← found req.signature (.unauthorized "missing X-SpendGuard-Signature")
  let signature ← found (Hex.decode text) (.unauthorized "signature not hex")
  check (R.hmac req.body = signature) (.unauthorized "signature mismatch")

def receive (R : Receiver) (req : HttpRequest) : Except ReceiverError (Delivery R) := do
  let ⟨hallowed⟩ ← checked (req.provider ∈ allowedProviders) .unknownProvider
  authenticate R req
  let b ← (R.readBody req.body).mapError fun e => .invalidRequest ("body json: " ++ e)
  check (b.complete = true) (.invalidRequest "missing required field")
  let ⟨tenant, htenant⟩ ← foundWith (R.parseUuid b.tenantId) (.invalidRequest "tenant_id")
  let ⟨reservation, hreservation⟩ ← foundWith (R.parseUuid b.reservationId) (.invalidRequest "reservation_id")
  let ⟨unit, hunit⟩ ← foundWith (R.parseUuid b.unitId) (.invalidRequest "unit_id")
  let amount ← readAmount b.amountAtomic
  let snapshotHash ← readSnapshotHash b.pricing.priceSnapshotHashHex
  let kind ← found (EventKind.read? b.eventKind) (.invalidRequest ("unknown event_kind: " ++ b.eventKind))
  return ⟨req.provider, kind, b.tenantId, tenant, b.providerAccount, b.providerEventId, b.reservationId, reservation,
    amount, b.unitId, unit,
    ⟨b.pricing.pricingVersion, snapshotHash, b.pricing.fxRateVersion, b.pricing.unitConversionVersion⟩,
    hallowed, htenant, hreservation, hunit⟩

def intentBytes (head mark tenant reservation : String) (amount : ℕ) (unit : String) (pricing : PricingFreeze)
    (provenance : String) : Bytes :=
  utf8 head ++ (utf8 tenant ++ (utf8 "|reservation|" ++ (utf8 reservation ++ (utf8 mark ++
    (utf8 (toString amount) ++ (utf8 "|unit|" ++ (utf8 unit ++ (pricing.bytes ++
      (utf8 "|provenance|" ++ utf8 provenance)))))))))

def providerReportBytes : String → String → ℕ → String → PricingFreeze → String → Bytes :=
  intentBytes "v1:provider_report:business_intent:" "|provider_amount|"

def invoiceReconcileBytes : String → String → ℕ → String → PricingFreeze → String → Bytes :=
  intentBytes "v1:invoice_reconcile:business_intent:" "|invoice_amount|"

def EventKind.bytes : EventKind → String → String → ℕ → String → PricingFreeze → String → Bytes
  | .providerReport => providerReportBytes
  | .invoiceReconcile => invoiceReconcileBytes

namespace Delivery

variable {R : Receiver}

def provenance (d : Delivery R) : String :=
  d.kind.text ++ ":" ++ d.provider ++ ":" ++ d.providerAccount ++ ":" ++ d.providerEventId

def intent (d : Delivery R) : Bytes :=
  d.kind.bytes d.tenantId d.reservationId d.amount d.unitId d.pricing d.provenance

def canonicalHash (d : Delivery R) : Bytes := R.sha256 d.intent

end Delivery

/-- A refusal of the ledger: an error in the response, or the status of the call. -/
inductive Refusal
  | error (code : LedgerCode) (message : String)
  | status (message : String)
  deriving DecidableEq

/-- `ProviderReportRequest` and `InvoiceReconcileRequest`, as far as the ledger hashes them; `metadata` is
`provider_response_metadata` of the one and `provider_invoice_id` of the other. -/
structure AdjustRequest where
  kind : EventKind
  tenantId : String
  reservationId : String
  amount : ℕ
  unit : Option String
  pricing : Option PricingFreeze
  metadata : String
  requestHash : Bytes

/-- The ledger computes the hash again and refuses another one; the receiver sends the 32 bytes of a digest, so the
test of their number cannot fail. -/
def AdjustRequest.canonicalRequestHash (sha256 : Bytes → Bytes) (r : AdjustRequest) : Except Refusal Bytes := do
  let pricing := r.pricing.getD ⟨"", [], "", ""⟩
  let canonical := sha256 (r.kind.bytes r.tenantId r.reservationId r.amount (r.unit.getD "") pricing r.metadata)
  if r.requestHash ≠ [] then do
    check (r.requestHash = canonical)
      (.error .idempotencyConflict "idempotency_key reused with different request")
  return canonical

def Delivery.request {R : Receiver} (d : Delivery R) : AdjustRequest where
  kind := d.kind
  tenantId := d.tenantId
  reservationId := d.reservationId
  amount := d.amount
  unit := some d.unitId
  pricing := some d.pricing
  metadata := d.provenance
  requestHash := d.canonicalHash

theorem canonicalRequestHash_request {R : Receiver} {d : Delivery R} {hash : Bytes}
    (h : d.request.canonicalRequestHash R.sha256 = .ok hash) : hash = d.canonicalHash := by
  simp only [AdjustRequest.canonicalRequestHash] at h
  split at h
  · simp only [check_bind_eq_ok] at h
    exact (Except.ok.inj h.2).symm
  · exact (Except.ok.inj h).symm

section Identity

variable {R : Receiver} {d d' : Delivery R}

structure EventKey where
  provider : String
  eventKind : EventKind
  providerAccount : String
  providerEventId : String
  deriving DecidableEq

def Delivery.event (d : Delivery R) : EventKey := ⟨d.provider, d.kind, d.providerAccount, d.providerEventId⟩

def Delivery.name (d : Delivery R) : String := d.providerAccount ++ ":" ++ d.providerEventId

theorem provider_eq (d d' : Delivery R) : d.provider = d'.provider := by
  have h := List.mem_singleton.mp d.allowed
  have h' := List.mem_singleton.mp d'.allowed
  exact h.trans h'.symm

theorem provenance_eq (d : Delivery R) : d.provenance = d.kind.text ++ (":" ++ (d.provider ++ (":" ++ d.name))) := by
  simp only [Delivery.provenance, Delivery.name, String.append_assoc]

theorem provenance_inj (hkind : d.kind = d'.kind) : d.provenance = d'.provenance ↔ d.name = d'.name := by
  rw [provenance_eq, provenance_eq, hkind, provider_eq d d', String.append_right_inj, String.append_right_inj,
    String.append_right_inj, String.append_right_inj]

theorem event_of_name (hkind : d.kind = d'.kind) (hname : d.name = d'.name)
    (haccount : d.providerAccount = d'.providerAccount) : d.event = d'.event := by
  have hid : d.providerEventId = d'.providerEventId := by
    rw [Delivery.name, Delivery.name, haccount, String.append_right_inj] at hname
    exact hname
  rw [Delivery.event, Delivery.event, provider_eq d d', hkind, haccount, hid]

theorem not_sessionKey_provenance (d : Delivery R) : ¬SessionKey d.provenance := by
  rw [provenance_eq, SessionKey, String.toList_append]
  intro h
  have hlen : "session_".toList.length ≤ d.kind.text.toList.length := by cases d.kind <;> decide
  have hprefix := List.prefix_of_prefix_length_le h (List.prefix_append _ _) hlen
  revert hprefix
  cases d.kind <;> decide

theorem intentBytes_inj (hparse : ∀ s u, R.parseUuid s = some u → UuidText (utf8 s)) {head mark : String}
    (h : intentBytes head mark d.tenantId d.reservationId d.amount d.unitId d.pricing d.provenance =
      intentBytes head mark d'.tenantId d'.reservationId d'.amount d'.unitId d'.pricing d'.provenance) :
    d.tenantId = d'.tenantId ∧ d.reservationId = d'.reservationId ∧ d.amount = d'.amount ∧ d.unitId = d'.unitId ∧
      d.pricing.bytes ++ (utf8 "|provenance|" ++ utf8 d.provenance) =
        d'.pricing.bytes ++ (utf8 "|provenance|" ++ utf8 d'.provenance) := by
  have hunit : utf8 "|unit|" = [124, 117, 110, 105, 116, 124] := by decide
  rw [intentBytes, intentBytes, List.append_cancel_left_eq] at h
  obtain ⟨htenant, h⟩ := prefixFree_uuidText.append_inj (hparse _ _ d.tenant_read) (hparse _ _ d'.tenant_read) h
  rw [List.append_cancel_left_eq] at h
  obtain ⟨hreservation, h⟩ := prefixFree_uuidText.append_inj (hparse _ _ d.reservation_read)
    (hparse _ _ d'.reservation_read) h
  simp only [List.append_cancel_left_eq, hunit, List.cons_append, List.nil_append] at h
  obtain ⟨hamount, -, h⟩ := append_cons_inj (digits_utf8_toString _) (digits_utf8_toString _) (by decide) (by decide) h
  simp only [List.cons.injEq, true_and] at h
  obtain ⟨hunit, h⟩ := prefixFree_uuidText.append_inj (hparse _ _ d.unit_read) (hparse _ _ d'.unit_read) h
  exact ⟨utf8_inj.mp htenant, utf8_inj.mp hreservation, Nat.repr_inj.mp (utf8_inj.mp hamount), utf8_inj.mp hunit, h⟩

theorem canonicalHash_inj (hsha : Function.Injective R.sha256)
    (hparse : ∀ s u, R.parseUuid s = some u → UuidText (utf8 s)) (hkind : d.kind = d'.kind)
    (h : d.canonicalHash = d'.canonicalHash) :
    d.tenantId = d'.tenantId ∧ d.reservationId = d'.reservationId ∧ d.amount = d'.amount ∧ d.unitId = d'.unitId ∧
      d.pricing.bytes ++ (utf8 "|provenance|" ++ utf8 d.provenance) =
        d'.pricing.bytes ++ (utf8 "|provenance|" ++ utf8 d'.provenance) := by
  have hintent : d.intent = d'.intent := hsha h
  rw [Delivery.intent, Delivery.intent, ← hkind] at hintent
  cases hk : d.kind with
  | providerReport =>
    rw [hk] at hintent
    exact intentBytes_inj hparse hintent
  | invoiceReconcile =>
    rw [hk] at hintent
    exact intentBytes_inj hparse hintent

end Identity

end SpendGuard.Webhook
