import SpendGuard.Approval.Requests
import SpendGuard.Ledger.Conservation
import SpendGuard.Ledger.Denied
import SpendGuard.Sidecar.Companion

/-!
How an approval comes about.  The sidecar looks for an earlier decision under the key of the request
and records the new one; the ledger writes the carrier transaction with its audit row, and the approval.
-/

namespace SpendGuard.Approval

open Base Base.Proc Ledger

structure ContractBundleRef where
  bundleId : String
  bundleHash : Bytes
  deriving DecidableEq

structure RecordDeniedDecisionRequest where
  tenantId : String
  decisionId : String
  auditDecisionEventId : String
  producerSequence : ℕ
  idempotency : Option Sidecar.Idempotency
  fencing : Option Sidecar.Fencing
  attemptedClaims : List Sidecar.BudgetClaim
  matchedRuleIds : List String
  reasonCodes : List String
  finalDecision : String
  auditEvent : Option Audit.CloudEvent
  contractBundle : Option ContractBundleRef
  pricing : Option PricingSnapshot
  decisionContextJson : Bytes
  requestedEffectJson : Bytes
  approvalTtlSeconds : ℕ

/-- How texts are read: UUIDs by the services and by the database, numbers and documents. -/
structure Reader (J : Type) where
  uuid : String → Option Uuid
  cast : String → Option Uuid
  bigInt : String → Except String ℤ
  json : Bytes → Except String J
  emptyObject : J

inductive RecordError
  | invalidRequest (message : String)
  | fencingEpochStale (message : String)
  | database (e : PgError)
  deriving DecidableEq

def claimLe (a b : Sidecar.BudgetClaim) : Bool :=
  let unit (c : Sidecar.BudgetClaim) := (c.unit.map (·.unitId)).getD ""
  if a.budgetId ≠ b.budgetId then a.budgetId ≤ b.budgetId
  else if unit a ≠ unit b then unit a ≤ unit b
  else a.amountAtomic ≤ b.amountAtomic

namespace RecordDeniedDecisionRequest

/-- The business intent: neither the ids that an attempt mints nor its lease are part of it. -/
def canonicalRequestHash (r : RecordDeniedDecisionRequest) : Bytes :=
  let claims := (r.attemptedClaims.insertionSort fun a b => claimLe a b = true).map fun c =>
    c.budgetId ++ ":" ++ (c.unit.map (·.unitId)).getD "" ++ ":" ++ c.amountAtomic ++ ":" ++
      c.windowInstanceId ++ "|"
  let sorted (texts : List String) := (texts.insertionSort (· ≤ ·)).map (· ++ ",")
  let bundle := r.contractBundle.map fun b =>
    "|bundle_id:" ++ b.bundleId ++ "|bundle_hash:" ++ toString b.bundleHash
  let pricing := r.pricing.map fun p =>
    "|pricing_version:" ++ p.version ++ "|price_snapshot:" ++ toString p.snapshotHash
  let scope := r.fencing.map fun f => "|scope:" ++ f.scopeId
  (sha256Hex ("v1:denied_decision:business_intent:" ++ r.tenantId ++ String.join claims ++
    "|rules:" ++ String.join (sorted r.matchedRuleIds) ++
    "|reasons:" ++ String.join (sorted r.reasonCodes) ++
    "|decision:" ++ r.finalDecision ++ bundle.getD "" ++ pricing.getD "" ++ scope.getD "")).toUTF8.toList

def validate (r : RecordDeniedDecisionRequest) : Except RecordError Unit := do
  check (r.tenantId ≠ "") (.invalidRequest "tenant_id required")
  check (r.decisionId ≠ "") (.invalidRequest "decision_id required")
  check (r.auditDecisionEventId ≠ "") (.invalidRequest "audit_decision_event_id required")
  check (r.auditEvent.isSome) (.invalidRequest "audit_event (CloudEvent) required for audit_outbox row")
  check (r.finalDecision ≠ "") (.invalidRequest "final_decision required")
  check (r.finalDecision ≠ "CONTINUE")
    (.invalidRequest "RecordDeniedDecision rejects CONTINUE; route to ReserveSet")
  check (r.matchedRuleIds ≠ []) (.invalidRequest "matched_rule_ids must be non-empty when DENY")

/-- An approval is raised for `REQUIRE_APPROVAL` with both documents. -/
def wantsApproval (r : RecordDeniedDecisionRequest) : Bool :=
  r.finalDecision = "REQUIRE_APPROVAL" ∧ r.decisionContextJson ≠ [] ∧ r.requestedEffectJson ≠ []

/-- `p_transaction`, once the request has passed the handler's tests. -/
def transaction {J : Type} (rd : Reader J) (id : Uuid) (r : RecordDeniedDecisionRequest) :
    Except RecordError TransactionArgs := do
  r.validate
  let tenant ← found (rd.uuid r.tenantId) (.invalidRequest "tenant_id: invalid uuid")
  let decision ← found (rd.uuid r.decisionId) (.invalidRequest "decision_id: invalid uuid")
  let event ← found (rd.uuid r.auditDecisionEventId)
    (.invalidRequest "audit_decision_event_id: invalid uuid")
  let idempotency ← found r.idempotency (.invalidRequest "idempotency missing")
  check (idempotency.key ≠ "") (.invalidRequest "idempotency.key empty")
  let fencing ← found r.fencing (.invalidRequest "fencing missing")
  check (fencing.scopeId ≠ "") (.invalidRequest "fencing.scope_id empty")
  check (fencing.workloadInstanceId ≠ "") (.invalidRequest "fencing.workload_instance_id empty")
  check (fencing.epoch ≠ 0) (.fencingEpochStale "epoch 0 is not a valid lease")
  let scope ← found (rd.cast fencing.scopeId)
    (.database ⟨"22P02", "invalid input syntax for type uuid: \"" ++ fencing.scopeId ++ "\""⟩)
  return ⟨id, tenant, idempotency.key, r.canonicalRequestHash, decision, event, scope, fencing.epoch,
    fencing.workloadInstanceId⟩

/-- `u32 as i32`, with an hour for zero. -/
def ttl (r : RecordDeniedDecisionRequest) : ℤ :=
  if r.approvalTtlSeconds = 0 then 3600
  else if r.approvalTtlSeconds < 2 ^ 31 then r.approvalTtlSeconds else r.approvalTtlSeconds - 2 ^ 32

end RecordDeniedDecisionRequest

def deriveDeniedLockOrderToken (decision : Uuid) : String :=
  "v1:denied:" ++ sha256Hex ("v1:denied_decision:" ++ decision.text)

/-- The arguments of `post_approval_required_decision`. -/
structure ApprovalPost (J : Type) where
  denied : DeniedPost
  decisionContext : J
  requestedEffect : J
  ttlSeconds : ℤ

/-- The id of a new row, and the clock when its expiry and its creation are written. -/
structure ApprovalMint where
  approvalId : Uuid
  expiryFrom : ℤ
  createdAt : ℤ

def ApprovalPost.row {J : Type} (rd : Reader J) (p : ApprovalPost J) (m : ApprovalMint) :
    ApprovalRequest J where
  approvalId := m.approvalId
  tenantId := p.denied.transaction.tenant
  decisionId := p.denied.transaction.decisionId
  auditDecisionEventId := p.denied.transaction.auditDecisionEventId
  state := .pending
  ttlExpiresAt := m.expiryFrom + p.ttlSeconds * second
  approverPolicy := rd.emptyObject
  requestedEffect := p.requestedEffect
  decisionContext := p.decisionContext
  resolvedAt := none
  resolvedBySubject := none
  resolvedByIssuer := none
  resolutionReason := none
  createdAt := m.createdAt
  bundledAt := none
  bundledLedgerTransactionId := none
  proposalSource := .sidecarDecision
  proposedDslPatch := none
  proposingFindingId := none

/-- A row that a decision has raised.  The table does not name the carrier: the transaction that the
inserting call was answered. -/
structure RaisedApproval (J : Type) where
  row : ApprovalRequest J
  carrier : Uuid

structure ApprovalDb (J : Type) where
  ledger : Db
  approvals : List (RaisedApproval J)

def ApprovalDb.approvalOf {J : Type} (s : ApprovalDb J) (tenant decision : Uuid) : Option (RaisedApproval J) :=
  s.approvals.find? fun a => a.row.tenantId = tenant ∧ a.row.decisionId = decision

structure ApprovalAnswer where
  carrier : Uuid
  approvalId : Uuid
  firstInsert : Bool

inductive RecordOutcome
  | success (transaction auditDecisionEvent : Uuid) (approval : Option Uuid)
  | replay (transaction : Uuid)

structure RecordEnv where
  transaction : Uuid
  outbox : Uuid
  now : ℕ
  mint : ApprovalMint

section Handler

variable {J : Type}

def postApprovalRequiredDecision (rd : Reader J) (p : ApprovalPost J) (now : ℕ) (m : ApprovalMint)
    (s : ApprovalDb J) : Except PgError (ApprovalAnswer × ApprovalDb J) := do
  let (carrier, ledger) ← exec now (postDeniedDecisionTransaction p.denied) s.ledger
  match s.approvalOf p.denied.transaction.tenant p.denied.transaction.decisionId with
  | some a => return (⟨carrier, a.row.approvalId, false⟩, { s with ledger := ledger })
  | none =>
    check (∀ a ∈ s.approvals, a.row.approvalId ≠ m.approvalId) (uniqueViolation "approval_requests_pkey")
    (checkRow (p.row rd m)).mapError checkViolation
    return (⟨carrier, m.approvalId, true⟩, ⟨ledger, s.approvals ++ [⟨p.row rd m, carrier⟩]⟩)

/-- `Ledger::RecordDeniedDecision`. -/
def recordDeniedDecision (rd : Reader J) (env : RecordEnv) (r : RecordDeniedDecisionRequest)
    (s : ApprovalDb J) : Except RecordError (RecordOutcome × ApprovalDb J) := do
  let t ← r.transaction rd env.transaction
  let denied : DeniedPost := ⟨t, deriveDeniedLockOrderToken t.decisionId,
    ⟨env.outbox, .decision, r.producerSequence⟩⟩
  if r.wantsApproval then
    let context ← (rd.json r.decisionContextJson).mapError fun e =>
      .invalidRequest ("decision_context_json: invalid JSON (" ++ e ++ ")")
    let effect ← (rd.json r.requestedEffectJson).mapError fun e =>
      .invalidRequest ("requested_effect_json: invalid JSON (" ++ e ++ ")")
    let (answer, s') ← (postApprovalRequiredDecision rd ⟨denied, context, effect, r.ttl⟩ env.now env.mint
      s).mapError .database
    if answer.firstInsert ∧ answer.carrier = env.transaction then
      return (.success answer.carrier t.auditDecisionEventId (some answer.approvalId), s')
    else return (.replay answer.carrier, s')
  else
    let (carrier, ledger) ← (exec env.now (postDeniedDecisionTransaction denied) s.ledger).mapError .database
    if carrier = env.transaction then
      return (.success carrier t.auditDecisionEventId none, { s with ledger := ledger })
    else return (.replay carrier, { s with ledger := ledger })

end Handler

/-- What the sidecar records once a request has evaluated to `REQUIRE_APPROVAL`; the ids of the
decision and of its event are the texts of those it has minted. -/
structure ApprovalAttempt where
  tenantId : String
  key : String
  decisionId : String
  auditDecisionEventId : String
  producerSequence : ℕ
  fencing : Sidecar.Fencing
  claims : List Sidecar.BudgetClaim
  matchedRules : List String
  reasonCodes : List String
  event : Audit.CloudEvent
  bundle : ContractBundleRef
  pricing : PricingSnapshot
  decisionContextJson : Bytes
  requestedEffectJson : Bytes
  context_nonempty : decisionContextJson ≠ []
  effect_nonempty : requestedEffectJson ≠ []

def ApprovalAttempt.request (a : ApprovalAttempt) : RecordDeniedDecisionRequest where
  tenantId := a.tenantId
  decisionId := a.decisionId
  auditDecisionEventId := a.auditDecisionEventId
  producerSequence := a.producerSequence
  idempotency := some { key := a.key }
  fencing := some a.fencing
  attemptedClaims := a.claims
  matchedRuleIds := a.matchedRules
  reasonCodes := a.reasonCodes
  finalDecision := "REQUIRE_APPROVAL"
  auditEvent := some a.event
  contractBundle := some a.bundle
  pricing := some a.pricing
  decisionContextJson := a.decisionContextJson
  requestedEffectJson := a.requestedEffectJson
  approvalTtlSeconds := 3600

/-- The `RequestDecision` calls that have found no earlier decision and have not recorded theirs. -/
structure DecisionWorld (ι J : Type) where
  db : ApprovalDb J
  calls : ι → Option ApprovalAttempt

/-- A call asks for an earlier decision, records its own, or ends without recording one. -/
inductive DecisionMove (ι : Type)
  | ask (i : ι) (now : ℕ) (a : ApprovalAttempt)
  | record (i : ι) (env : RecordEnv)
  | leave (i : ι)

namespace DecisionWorld

variable {ι J : Type} [DecidableEq ι]

def set (g : DecisionWorld ι J) (i : ι) (a : Option ApprovalAttempt) : DecisionWorld ι J :=
  { g with calls := Function.update g.calls i a }

def ask (rd : Reader J) (g : DecisionWorld ι J) (i : ι) (now : ℕ) (a : ApprovalAttempt) : DecisionWorld ι J :=
  match g.calls i, rd.uuid a.tenantId with
  | none, some tenant =>
    match exec now (queryDecisionOutcome tenant a.key) g.db.ledger with
    | .ok (none, _) => g.set i (some a)
    | _ => g
  | _, _ => g

-- The handler's transaction is one move: a call waits at the key of `ledger_transactions` for the
-- others of its key, and at the decision of `audit_outbox` for the others of its decision, before it
-- looks for an approval.
def record (rd : Reader J) (g : DecisionWorld ι J) (i : ι) (env : RecordEnv) : DecisionWorld ι J :=
  match g.calls i with
  | none => g
  | some a =>
    match recordDeniedDecision rd env a.request g.db with
    | .ok (_, s) => { g.set i none with db := s }
    | .error _ => g.set i none

def step (rd : Reader J) (g : DecisionWorld ι J) : DecisionMove ι → DecisionWorld ι J
  | .ask i now a => g.ask rd i now a
  | .record i env => g.record rd i env
  | .leave i => g.set i none

/-- A call that is about to replay a denial of its key finds the approval of its own decision. -/
def unraced (rd : Reader J) (g : DecisionWorld ι J) : DecisionMove ι → Bool
  | .record i env =>
    (g.calls i).all fun a => (a.request.transaction rd env.transaction).toOption.all fun t =>
      (g.db.ledger.findTransaction t.tenant .deniedDecision t.idempotencyKey).all fun x =>
        x.requestHash ≠ t.requestHash || (g.db.approvalOf t.tenant t.decisionId).isSome
  | _ => true

end DecisionWorld

namespace ApprovalDb

variable {J : Type}

def approvalsUnder (s : ApprovalDb J) (tenant : Uuid) (key : String) : List (RaisedApproval J) :=
  s.approvals.filter fun a => ∃ x ∈ s.ledger.transactions, x.id = a.carrier ∧
    x.operationKind = .deniedDecision ∧ x.tenant = tenant ∧ x.idempotencyKey = key

structure OneToOne (s : ApprovalDb J) : Prop where
  audited : ∀ a ∈ s.approvals, ∃ r ∈ s.ledger.audit, r.eventType = .decision ∧ r.tenant = a.row.tenantId ∧
    r.decisionId = a.row.decisionId ∧ r.auditDecisionEventId = a.row.auditDecisionEventId
  carrier : ∀ a ∈ s.approvals, ∃ x ∈ s.ledger.transactions, x.id = a.carrier ∧
    x.operationKind = .deniedDecision
  perCarrier : ∀ x ∈ s.ledger.transactions, x.operationKind = .deniedDecision →
    (s.approvals.filter fun a => a.carrier = x.id).length ≤ 1
  perKey : ∀ tenant key, (s.approvalsUnder tenant key).length ≤ 1

theorem OneToOne.of_nil {s : ApprovalDb J} (h : s.approvals = []) : s.OneToOne := by
  constructor
  · simp [h]
  · simp [h]
  · simp [h]
  · simp [approvalsUnder, h]

section Recorded

variable {s : ApprovalDb J} {r : DeniedPost} {ledger : Db} {x : LedgerTransaction}

theorem mem_transactions_recorded (h : r.Recorded s.ledger ledger) : x ∈ ledger.transactions ↔
    x ∈ s.ledger.transactions ∨ x = r.transaction.row .deniedDecision r.lockOrderToken := by
  rw [h.result]
  exact List.mem_append.trans (or_congr_right List.mem_singleton)

theorem audit_recorded (h : r.Recorded s.ledger ledger) :
    ledger.audit = s.ledger.audit ++ [r.transaction.auditRow .deniedDecision r.audit] := by
  rw [h.result]
  rfl

theorem OneToOne.carrier_ne (hs : s.OneToOne) (h : r.Recorded s.ledger ledger) :
    ∀ a ∈ s.approvals, a.carrier ≠ r.transaction.id := by
  intro a ha hcarrier
  obtain ⟨x, hx, hid, _⟩ := hs.carrier a ha
  exact h.unused x hx (hid.trans hcarrier)

theorem OneToOne.approvalsUnder_recorded (hs : s.OneToOne) (h : r.Recorded s.ledger ledger) (tenant : Uuid)
    (key : String) : ({ s with ledger := ledger }).approvalsUnder tenant key = s.approvalsUnder tenant key := by
  apply List.filter_congr
  intro a ha
  rw [decide_eq_decide]
  constructor
  · rintro ⟨x, hx, hid, hkind⟩
    rcases (mem_transactions_recorded h).mp hx with hx | rfl
    · exact ⟨x, hx, hid, hkind⟩
    · exact absurd hid.symm (hs.carrier_ne h a ha)
  · rintro ⟨x, hx, hrest⟩
    exact ⟨x, (mem_transactions_recorded h).mpr (.inl hx), hrest⟩

theorem OneToOne.recorded (hs : s.OneToOne) (h : r.Recorded s.ledger ledger) :
    ({ s with ledger := ledger }).OneToOne where
  audited a ha := by
    obtain ⟨row, hrow, hmatch⟩ := hs.audited a ha
    refine ⟨row, ?_, hmatch⟩
    rw [audit_recorded h]
    exact List.mem_append_left _ hrow
  carrier a ha := by
    obtain ⟨x, hx, hid⟩ := hs.carrier a ha
    exact ⟨x, (mem_transactions_recorded h).mpr (.inl hx), hid⟩
  perCarrier x hx hkind := by
    rcases (mem_transactions_recorded h).mp hx with hx | rfl
    · exact hs.perCarrier x hx hkind
    · have hnone : s.approvals.filter (fun a => a.carrier = r.transaction.id) = [] := by
        rw [List.filter_eq_nil_iff]
        intro a ha
        simpa using hs.carrier_ne h a ha
      exact Nat.le_trans (Nat.le_of_eq (congrArg List.length hnone)) (Nat.zero_le 1)
  perKey tenant key := by
    rw [hs.approvalsUnder_recorded h]
    exact hs.perKey tenant key

theorem approvalsUnder_eq_nil {tenant : Uuid} {key : String}
    (hnew : s.ledger.findTransaction tenant .deniedDecision key = none) : s.approvalsUnder tenant key = [] := by
  rw [approvalsUnder, List.filter_eq_nil_iff]
  intro a _ hunder
  simp only [decide_eq_true_eq] at hunder
  obtain ⟨x, hx, -, hkind, htenant, hkey⟩ := hunder
  have hnone := List.find?_eq_none.mp hnew x hx
  simp [htenant, hkind, hkey] at hnone

theorem OneToOne.raised (hs : s.OneToOne) (h : r.Recorded s.ledger ledger) {row : ApprovalRequest J}
    (hevent : r.audit.eventType = .decision) (htenant : row.tenantId = r.transaction.tenant)
    (hdecision : row.decisionId = r.transaction.decisionId)
    (haudit : row.auditDecisionEventId = r.transaction.auditDecisionEventId) :
    (⟨ledger, s.approvals ++ [⟨row, r.transaction.id⟩]⟩ : ApprovalDb J).OneToOne := by
  have hbefore := hs.recorded h
  refine ⟨?_, ?_, ?_, ?_⟩
  · intro a ha
    rcases List.mem_append.mp ha with ha | ha
    · exact hbefore.audited a ha
    · rw [List.mem_singleton.mp ha]
      refine ⟨r.transaction.auditRow .deniedDecision r.audit, ?_, hevent, htenant.symm, hdecision.symm,
        haudit.symm⟩
      rw [audit_recorded h]
      exact List.mem_append_right _ (List.mem_singleton_self _)
  · intro a ha
    rcases List.mem_append.mp ha with ha | ha
    · exact hbefore.carrier a ha
    · rw [List.mem_singleton.mp ha]
      exact ⟨_, (mem_transactions_recorded h).mpr (.inr rfl), rfl, rfl⟩
  · intro x hx hkind
    rw [List.filter_append, List.length_append]
    by_cases hid : r.transaction.id = x.id
    · have hnone : s.approvals.filter (fun a => a.carrier = x.id) = [] := by
        rw [List.filter_eq_nil_iff, ← hid]
        intro a ha
        simpa using hs.carrier_ne h a ha
      rw [hnone]
      exact Nat.le_trans (Nat.le_of_eq (Nat.zero_add _)) (List.length_filter_le _ _)
    · have hnone : [(⟨row, r.transaction.id⟩ : RaisedApproval J)].filter (fun a => a.carrier = x.id) = [] := by
        simp [hid]
      rw [hnone]
      exact hbefore.perCarrier x hx hkind
  · intro tenant key
    rw [approvalsUnder, List.filter_append, List.length_append]
    have hold := hs.approvalsUnder_recorded h tenant key
    rw [approvalsUnder] at hold
    by_cases hkey : tenant = r.transaction.tenant ∧ key = r.transaction.idempotencyKey
    · obtain ⟨rfl, rfl⟩ := hkey
      rw [hold, approvalsUnder_eq_nil h.new]
      exact Nat.le_trans (Nat.le_of_eq (Nat.zero_add _)) (List.length_filter_le _ _)
    · have hnone : [(⟨row, r.transaction.id⟩ : RaisedApproval J)].filter (fun a =>
          ∃ x ∈ ledger.transactions, x.id = a.carrier ∧ x.operationKind = .deniedDecision ∧ x.tenant = tenant ∧
            x.idempotencyKey = key) = [] := by
        rw [List.filter_eq_nil_iff]
        intro a ha hunder
        simp only [decide_eq_true_eq] at hunder
        obtain ⟨x, hx, hid, -, rfl, rfl⟩ := hunder
        rw [List.mem_singleton.mp ha] at hid
        rcases (mem_transactions_recorded h).mp hx with hx | rfl
        · exact h.unused x hx hid
        · exact hkey ⟨rfl, rfl⟩
      rw [hnone, hold]
      exact hs.perKey tenant key

end Recorded

end ApprovalDb

section Steps

variable {ι J : Type} {rd : Reader J} {s s' : ApprovalDb J}

theorem postApprovalRequiredDecision_ok {p : ApprovalPost J} {now : ℕ} {m : ApprovalMint}
    {answer : ApprovalAnswer} (h : postApprovalRequiredDecision rd p now m s = .ok (answer, s')) :
    ∃ ledger, exec now (postDeniedDecisionTransaction p.denied) s.ledger = .ok (answer.carrier, ledger) ∧
      ((∃ a, s.approvalOf p.denied.transaction.tenant p.denied.transaction.decisionId = some a ∧
          s' = { s with ledger := ledger }) ∨
        (s.approvalOf p.denied.transaction.tenant p.denied.transaction.decisionId = none ∧
          checkRow (p.row rd m) = .ok () ∧ s' = ⟨ledger, s.approvals ++ [⟨p.row rd m, answer.carrier⟩]⟩)) := by
  rw [postApprovalRequiredDecision, bind_eq_ok] at h
  obtain ⟨⟨carrier, ledger⟩, hpost, h⟩ := h
  dsimp only at h
  split at h
  · next a ha =>
    cases h
    exact ⟨ledger, hpost, .inl ⟨a, ha, rfl⟩⟩
  · next hnone =>
    rw [check_bind_eq_ok, bind_eq_ok] at h
    obtain ⟨-, ⟨⟩, hrow, h⟩ := h
    cases h
    exact ⟨ledger, hpost, .inr ⟨hnone, mapError_eq_ok.mp hrow, rfl⟩⟩

theorem ApprovalDb.OneToOne.post {p : ApprovalPost J} {now : ℕ} {m : ApprovalMint} {answer : ApprovalAnswer}
    (hs : s.OneToOne) (hevent : p.denied.audit.eventType = .decision)
    (hmet : ∀ x, s.ledger.findTransaction p.denied.transaction.tenant .deniedDecision
        p.denied.transaction.idempotencyKey = some x → x.requestHash = p.denied.transaction.requestHash →
      s.approvalOf p.denied.transaction.tenant p.denied.transaction.decisionId ≠ none)
    (h : postApprovalRequiredDecision rd p now m s = .ok (answer, s')) : s'.OneToOne := by
  obtain ⟨ledger, hpost, hcases⟩ := postApprovalRequiredDecision_ok h
  rcases exec_postDeniedDecisionTransaction hpost with ⟨rfl, x, hx, hhash, -⟩ | ⟨hid, hrecorded⟩
  · rcases hcases with ⟨a, -, rfl⟩ | ⟨hnone, -⟩
    · exact hs
    · exact absurd hnone (hmet x hx hhash)
  · rcases hcases with ⟨a, -, rfl⟩ | ⟨-, -, rfl⟩
    · exact hs.recorded hrecorded
    · rw [hid]
      exact hs.raised hrecorded hevent rfl rfl rfl

theorem recordDeniedDecision_ok {env : RecordEnv} {a : ApprovalAttempt} {outcome : RecordOutcome}
    (h : recordDeniedDecision rd env a.request s = .ok (outcome, s')) :
    ∃ t context effect answer, a.request.transaction rd env.transaction = .ok t ∧
      rd.json a.decisionContextJson = .ok context ∧ rd.json a.requestedEffectJson = .ok effect ∧
      postApprovalRequiredDecision rd ⟨⟨t, deriveDeniedLockOrderToken t.decisionId,
        ⟨env.outbox, .decision, a.producerSequence⟩⟩, context, effect, a.request.ttl⟩ env.now env.mint s =
          .ok (answer, s') := by
  have hwants : a.request.wantsApproval = true := by
    simp [RecordDeniedDecisionRequest.wantsApproval, ApprovalAttempt.request, a.context_nonempty,
      a.effect_nonempty]
  rw [recordDeniedDecision, bind_eq_ok] at h
  obtain ⟨t, ht, h⟩ := h
  rw [if_pos hwants, bind_eq_ok] at h
  obtain ⟨context, hcontext, h⟩ := h
  rw [bind_eq_ok] at h
  obtain ⟨effect, heffect, h⟩ := h
  rw [bind_eq_ok] at h
  obtain ⟨⟨answer, s₁⟩, hpost, h⟩ := h
  have hs : s₁ = s' := by
    dsimp only at h
    split at h
    · cases h
      rfl
    · cases h
      rfl
  refine ⟨t, context, effect, answer, ht, mapError_eq_ok.mp hcontext, mapError_eq_ok.mp heffect, ?_⟩
  rw [← hs]
  exact mapError_eq_ok.mp hpost

variable [DecidableEq ι] {g g' : DecisionWorld ι J}

theorem DecisionWorld.ask_db (i : ι) (now : ℕ) (a : ApprovalAttempt) : (g.ask rd i now a).db = g.db := by
  unfold ask
  split
  · split
    · rfl
    · rfl
  · rfl

theorem DecisionWorld.step_oneToOne {m : DecisionMove ι} (hg : g.db.OneToOne) (hmet : g.unraced rd m = true) :
    (g.step rd m).db.OneToOne := by
  cases m with
  | ask i now a =>
    rw [step, ask_db]
    exact hg
  | leave i => exact hg
  | record i env =>
    rw [step, record]
    split
    · exact hg
    · next a ha =>
      split
      · next outcome s hrecord =>
        obtain ⟨t, context, effect, answer, ht, -, -, hpost⟩ := recordDeniedDecision_ok hrecord
        apply hg.post rfl _ hpost
        intro x hx hhash hnone
        simp [unraced, ha, ht, hx, hhash, hnone, Except.toOption] at hmet
      · exact hg

end Steps

/-- As long as no call replays a denial of its key without finding the approval of its own decision,
the approvals stay in correspondence with the decisions that raised them. -/
theorem approvals_one_to_one {ι J : Type} [DecidableEq ι] {rd : Reader J} {g : DecisionWorld ι J}
    {tr : List (DecisionMove ι × DecisionWorld ι J)} (hstart : g.db.OneToOne)
    (h : Trace (fun g m g' => g.step rd m = g') g tr) (hmet : Along (fun g m => g.unraced rd m = true) g tr) :
    ∀ p ∈ tr, p.2.db.OneToOne := by
  apply h.invariant (I := fun g : DecisionWorld ι J => g.db.OneToOne) hmet _ hstart
  rintro g m _ hg hunraced rfl
  exact DecisionWorld.step_oneToOne hg hunraced

def demoReader : Reader Bytes where
  uuid text := (["t", "d1", "e1", "d2", "e2", "d3", "e3"].zip [1, 201, 301, 202, 302, 203, 303]).lookup text |>.map
    (⟨·, []⟩)
  cast text := if text = "s" then some ⟨10, []⟩ else none
  bigInt _ := .ok 5
  json := .ok
  emptyObject := []

/-- An attempt at the request with the given key: each has its own decision, event and sequence. -/
def demoAttempt (key decision event : String) (n : ℕ) : ApprovalAttempt where
  tenantId := "t"
  key := key
  decisionId := decision
  auditDecisionEventId := event
  producerSequence := n
  fencing := ⟨1, "s", "sidecar-1"⟩
  claims := [{ budgetId := "b", amountAtomic := "5" }]
  matchedRules := ["needs-approval"]
  reasonCodes := []
  event := {}
  bundle := ⟨"bundle-1", []⟩
  pricing := ⟨"p1", [], "fx1", "uc1"⟩
  decisionContextJson := [1]
  requestedEffectJson := [1]
  context_nonempty := by simp
  effect_nonempty := by simp

def demoEnv (n : ℕ) : RecordEnv := ⟨⟨100 + n, []⟩, ⟨500 + n, []⟩, 0, ⟨⟨600 + n, []⟩, 0, 0⟩⟩

def demoWorld : DecisionWorld ℕ Bytes := ⟨⟨openLedger, []⟩, fun _ => none⟩

theorem demoWorld_oneToOne : demoWorld.db.OneToOne := .of_nil rfl

def demoMoves : List (DecisionMove ℕ) :=
  [.ask 1 0 (demoAttempt "k1" "d1" "e1" 1), .record 1 (demoEnv 1),
    .ask 2 0 (demoAttempt "k1" "d2" "e2" 2), .record 2 (demoEnv 2),
    .ask 3 0 (demoAttempt "k2" "d3" "e3" 3), .record 3 (demoEnv 3)]

theorem demoMoves_one_to_one :
    let tr := traceOf (DecisionWorld.step demoReader) demoWorld demoMoves
    (tr.map fun p => p.2.db.approvals.map fun a => (a.row.decisionId.bits, a.carrier.bits)) =
      [[], [(201, 101)], [(201, 101)], [(201, 101)], [(201, 101)], [(201, 101), (203, 103)]] ∧
    ∀ p ∈ tr, p.2.db.OneToOne := by
  refine ⟨by decide +kernel, ?_⟩
  exact approvals_one_to_one demoWorld_oneToOne (trace_traceOf _ demoWorld demoMoves) (by decide +kernel)

def racedMoves : List (DecisionMove ℕ) :=
  [.ask 1 0 (demoAttempt "k1" "d1" "e1" 1), .ask 2 0 (demoAttempt "k1" "d2" "e2" 2),
    .record 1 (demoEnv 1), .record 2 (demoEnv 2)]

/-- The retry replays the carrier and raises a second approval, for a decision that has no audit row. -/
theorem raced_retry_raises_second :
    let tr := traceOf (DecisionWorld.step demoReader) demoWorld racedMoves
    Trace (fun g m g' => g.step demoReader m = g') demoWorld tr ∧ demoWorld.db.OneToOne ∧
      (tr.map fun p => p.2.db.approvals.map fun a => (a.row.decisionId.bits, a.carrier.bits)) =
        [[], [], [(201, 101)], [(201, 101), (202, 101)]] ∧
      (tr.map fun p => p.2.db.ledger.audit.map (·.decisionId.bits)) = [[], [], [201], [201]] ∧
      ¬ ∀ p ∈ tr, p.2.db.OneToOne := by
  intro tr
  have hrun : (tr.map fun p => p.2.db.approvals.map fun a => (a.row.decisionId.bits, a.carrier.bits)) =
        [[], [], [(201, 101)], [(201, 101), (202, 101)]] ∧
      (tr.map fun p => p.2.db.ledger.audit.map (·.decisionId.bits)) = [[], [], [201], [201]] ∧
      ∃ p ∈ tr, (p.2.db.approvalsUnder ⟨1, []⟩ "k1").length = 2 := by
    decide +kernel
  obtain ⟨happrovals, haudit, p, hp, hlength⟩ := hrun
  refine ⟨trace_traceOf _ demoWorld racedMoves, demoWorld_oneToOne, happrovals, haudit, ?_⟩
  intro hall
  have hone := (hall p hp).perKey ⟨1, []⟩ "k1"
  rw [hlength] at hone
  exact absurd hone (by decide)

end SpendGuard.Approval
