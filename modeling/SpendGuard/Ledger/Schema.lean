import Mathlib
import SpendGuard.Base.Proc

/-!
The tables of the ledger database and the values stored in them.  A surrogate account id stands for
the tuple the table keeps unique, so an account is that tuple itself.
-/

namespace SpendGuard.Ledger

abbrev Bytes := List UInt8

def hexDigits : ℕ → ℕ → List Char
  | 0, _ => []
  | width + 1, n => hexDigits width (n / 16) ++ [Nat.digitChar (n % 16)]

/-- SHA-256 as a free constructor: equal digests have equal preimages. -/
def sha256Hex (preimage : String) : String := "sha256(" ++ preimage ++ ")"

/-- A UUID, or one obtained from it by hashing its text with a suffix: `derivation` lists the
suffixes, the last one applied first. -/
structure Uuid where
  bits : ℕ
  derivation : List String := []
  deriving DecidableEq

namespace Uuid

/-- The first 16 bytes of `sha256(text ‖ suffix)`. -/
def digest (u : Uuid) (suffix : String) : Uuid := { u with derivation := suffix :: u.derivation }

def text (u : Uuid) : String :=
  let d := hexDigits 32 u.bits
  String.ofList (d.take 8 ++ ['-'] ++ (d.drop 8).take 4 ++ ['-'] ++ (d.drop 12).take 4 ++ ['-'] ++
    (d.drop 16).take 4 ++ ['-'] ++ d.drop 20) ++ String.join u.derivation

theorem text_ne_empty (u : Uuid) : u.text ≠ "" := by
  intro h
  have hlist := congrArg String.toList h
  simp [text] at hlist

def le (u v : Uuid) : Bool :=
  u.bits < v.bits || (u.bits == v.bits && decide (u.derivation ≤ v.derivation))

theorem digest_injective {u v : Uuid} {x y : String} (h : u.digest x = v.digest y) : u = v ∧ x = y := by
  simp only [digest, mk.injEq, List.cons.injEq] at h
  obtain ⟨hb, hx, hd⟩ := h
  exact ⟨by cases u; cases v; simp_all, hx⟩

instance : ToString Uuid := ⟨text⟩

end Uuid

/-- One second of the clock, which counts microseconds as `TIMESTAMPTZ` does. -/
def second : ℕ := 1000000

/-- `TIMESTAMPTZ` with Postgres' `infinity`. -/
inductive Timestamp
  | time (micros : ℕ)
  | infinity
  deriving DecidableEq

namespace Timestamp

/-- `ts <= clock_timestamp()`. -/
def passed (now : ℕ) : Timestamp → Bool
  | .time s => s ≤ now
  | .infinity => false

instance : ToString Timestamp where
  toString
    | .time s => toString s
    | .infinity => "infinity"

theorem passed_mono {ts : Timestamp} {t t' : ℕ} (ht : t ≤ t') (h : ts.passed t = true) :
    ts.passed t' = true := by
  cases ts with
  | time s => simp only [passed, decide_eq_true_eq] at h ⊢; exact Nat.le_trans h ht
  | infinity => exact h

end Timestamp

inductive AccountKind
  | availableBudget | reservedHold | committedSpend | debt | adjustment | refundCredit
  | disputeAdjustment
  deriving DecidableEq

def AccountKind.text : AccountKind → String
  | .availableBudget => "available_budget"
  | .reservedHold => "reserved_hold"
  | .committedSpend => "committed_spend"
  | .debt => "debt"
  | .adjustment => "adjustment"
  | .refundCredit => "refund_credit"
  | .disputeAdjustment => "dispute_adjustment"

inductive OperationKind
  | reserve | release | commitEstimated | providerReport | invoiceReconcile | overrunDebt
  | adjustment | refundCredit | disputeAdjustment | compensating | deniedDecision
  deriving DecidableEq

def OperationKind.text : OperationKind → String
  | .reserve => "reserve"
  | .release => "release"
  | .commitEstimated => "commit_estimated"
  | .providerReport => "provider_report"
  | .invoiceReconcile => "invoice_reconcile"
  | .overrunDebt => "overrun_debt"
  | .adjustment => "adjustment"
  | .refundCredit => "refund_credit"
  | .disputeAdjustment => "dispute_adjustment"
  | .compensating => "compensating"
  | .deniedDecision => "denied_decision"

inductive ScopeType
  | reservation | budgetWindow | controlPlaneWriter
  deriving DecidableEq

def ScopeType.text : ScopeType → String
  | .reservation => "reservation"
  | .budgetWindow => "budget_window"
  | .controlPlaneWriter => "control_plane_writer"

inductive Direction
  | debit | credit
  deriving DecidableEq

inductive ReservationState
  | reserved | committed | released | overrunDebt
  deriving DecidableEq

def ReservationState.text : ReservationState → String
  | .reserved => "reserved"
  | .committed => "committed"
  | .released => "released"
  | .overrunDebt => "overrun_debt"

inductive CommitState
  | unknown | estimated | providerReported | invoiceReconciled
  deriving DecidableEq

def CommitState.text : CommitState → String
  | .unknown => "unknown"
  | .estimated => "estimated"
  | .providerReported => "provider_reported"
  | .invoiceReconciled => "invoice_reconciled"

inductive EventType
  | decision | outcome
  deriving DecidableEq

inductive FencingAction
  | acquire | renew | revoke | promote | recover
  deriving DecidableEq

inductive SessionStatus
  | active | released | expired | denied
  deriving DecidableEq

/-- A row of `ledger_accounts`. -/
structure Account where
  tenant : Uuid
  budget : Uuid
  window : Uuid
  unit : Uuid
  kind : AccountKind
  deriving DecidableEq

def Account.withKind (a : Account) (k : AccountKind) : Account := { a with kind := k }

@[simp] theorem Account.withKind_kind (a : Account) (k : AccountKind) : (a.withKind k).kind = k := rfl

theorem Account.withKind_ne {a b : Account} {k : AccountKind} (h : b.kind ≠ k) : a.withKind k ≠ b := by
  rintro rfl
  exact h rfl

@[simp] theorem Account.withKind_tenant (a : Account) (k : AccountKind) :
    (a.withKind k).tenant = a.tenant := rfl

@[simp] theorem Account.withKind_withKind (a : Account) (j k : AccountKind) :
    (a.withKind j).withKind k = a.withKind k := rfl

@[simp] theorem Account.withKind_self (a : Account) : a.withKind a.kind = a := rfl

/-- The four frozen pricing fields; the last two are nullable in `ledger_entries`. -/
structure Pricing where
  version : String
  snapshotHash : Bytes
  fxRateVersion : Option String
  unitConversionVersion : Option String
  deriving DecidableEq

structure PricingSnapshot where
  version : String
  snapshotHash : Bytes
  fxRateVersion : String
  unitConversionVersion : String
  deriving DecidableEq

structure FencingScope where
  id : Uuid
  scopeType : ScopeType
  tenant : Uuid
  currentEpoch : ℕ
  activeOwner : Option String
  ttlExpiresAt : Option Timestamp
  deriving DecidableEq

structure FencingEvent where
  scope : Uuid
  oldEpoch : ℕ
  newEpoch : ℕ
  owner : String
  action : FencingAction
  deriving DecidableEq

structure LedgerTransaction where
  id : Uuid
  tenant : Uuid
  operationKind : OperationKind
  idempotencyKey : String
  requestHash : Bytes
  auditDecisionEventId : Uuid
  decisionId : Uuid
  lockOrderToken : String
  fencingScope : Option Uuid
  fencingEpochAtPost : Option ℕ
  deriving DecidableEq

structure LedgerEntry where
  transaction : Uuid
  account : Account
  direction : Direction
  amount : ℕ
  pricing : Pricing
  reservation : Option Uuid
  shard : ℕ
  sequence : ℕ
  deriving DecidableEq

/-- A row of `audit_outbox` together with the row of `audit_outbox_global_keys` that mirrors it;
`mirrorKey` is the idempotency key of the mirror, which some procedures suffix. -/
structure AuditRow where
  outboxId : Uuid
  auditDecisionEventId : Uuid
  decisionId : Uuid
  tenant : Uuid
  transaction : Uuid
  eventType : EventType
  operationKind : OperationKind
  fencingEpoch : ℕ
  workload : String
  producerSequence : ℕ
  idempotencyKey : String
  mirrorKey : String
  deriving DecidableEq

structure Reservation where
  id : Uuid
  tenant : Uuid
  budget : Uuid
  window : Uuid
  state : ReservationState
  sourceTransaction : Uuid
  ttlExpiresAt : Timestamp
  idempotencyKey : String
  deriving DecidableEq

structure Commit where
  id : Uuid
  reservation : Uuid
  tenant : Uuid
  budget : Uuid
  unit : Uuid
  latestState : CommitState
  estimatedAmount : Option ℕ
  providerReportedAmount : Option ℕ
  invoiceReconciledAmount : Option ℕ
  deltaToReserved : ℤ
  pricingVersion : String
  priceSnapshotHash : Bytes
  deriving DecidableEq

/-- What `session_audit_tuple_fields` copies into every session outcome. -/
structure SessionTuple where
  tenant : Uuid
  budget : Uuid
  window : Uuid
  unit : Uuid
  pricing : PricingSnapshot
  deriving DecidableEq

def SessionTuple.account (t : SessionTuple) (k : AccountKind) : Account :=
  ⟨t.tenant, t.budget, t.window, t.unit, k⟩

theorem SessionTuple.account_ne {s : SessionTuple} {b : Account} {k : AccountKind} (h : b.kind ≠ k) :
    s.account k ≠ b := by
  rintro rfl
  exact h rfl

/-- The JSON answer of a session procedure; a key that is absent is `none`. -/
structure SessionOutcome where
  status : String
  reason : Option String := none
  reasonCode : Option String := none
  sessionStatus : Option SessionStatus := none
  sessionReservation : Uuid
  sessionId : Option String := none
  route : Option String := none
  streamingCommitId : Option String := none
  requestedAmount : Option ℤ := none
  availableAmount : Option ℤ := none
  reservedAmount : Option ℤ := none
  attemptedDelta : Option ℤ := none
  amountDelta : Option ℤ := none
  committedAmount : ℤ
  remainingAmount : ℤ
  releasedThisCall : Option ℤ := none
  releasedAmount : Option ℤ := none
  ttlExpiresAt : Option Timestamp := none
  tuple : SessionTuple
  transaction : Option Uuid := none
  deriving DecidableEq

structure SessionReservation where
  id : Uuid
  tuple : SessionTuple
  sessionId : String
  route : String
  reservedAmount : ℕ
  committedAmount : ℕ
  releasedAmount : ℕ
  status : SessionStatus
  ttlExpiresAt : Timestamp
  reserveIdempotencyKey : String
  reserveRequestHash : Bytes
  reserveTransaction : Option Uuid
  reserveOutcome : SessionOutcome
  deriving DecidableEq

structure SessionCommitDelta where
  sessionReservation : Uuid
  streamingCommitId : String
  amountDelta : ℕ
  requestOutcome : String
  idempotencyKey : String
  requestHash : Bytes
  applied : Bool
  transaction : Uuid
  outcome : SessionOutcome
  deriving DecidableEq

inductive SessionOperation
  | reserve | commitDelta | release | expire
  deriving DecidableEq

structure SessionEvent where
  sessionReservation : Uuid
  operation : SessionOperation
  eventType : String
  idempotencyKey : String
  requestHash : Bytes
  transaction : Option Uuid
  amount : Option ℤ
  outcome : SessionOutcome
  deriving DecidableEq

structure SequenceAllocator where
  shard : ℕ
  lastSequence : ℕ
  deriving DecidableEq

structure Db where
  accounts : List Account
  pricingSnapshots : List PricingSnapshot
  allocators : List SequenceAllocator
  fencingScopes : List FencingScope
  fencingEvents : List FencingEvent
  transactions : List LedgerTransaction
  entries : List LedgerEntry
  audit : List AuditRow
  reservations : List Reservation
  commits : List Commit
  sessions : List SessionReservation
  sessionCommits : List SessionCommitDelta
  sessionEvents : List SessionEvent

/-- A row lock, or the wait on a key of a unique index. -/
inductive Lock
  | fencingScope (id : Uuid)
  | reservation (id : Uuid)
  | commit (reservation : Uuid)
  | session (id : Uuid)
  | account (a : Account)
  | allocator (shard : ℕ)
  | transactionId (id : Uuid)
  | transactionKey (tenant : Uuid) (op : OperationKind) (key : String)
  | auditEvent (id : Uuid)
  | auditDecision (tenant decision : Uuid) (eventType : EventType)
  | auditSequence (tenant : Uuid) (workload : String) (sequence : ℕ)
  | auditKey (tenant : Uuid) (op : OperationKind) (key : String)
  | reservationId (id : Uuid)
  | commitId (id : Uuid)
  | sessionId (id : Uuid)
  | sessionKey (tenant : Uuid) (session route key : String)
  | sessionEvent (session : Uuid) (op : SessionOperation) (key : String)
  deriving DecidableEq

/-- `SQLSTATE` and message of a raised exception. -/
structure PgError where
  sqlstate : String
  message : String
  deriving DecidableEq

abbrev SqlProc := Base.Proc Db Lock PgError

end SpendGuard.Ledger
