import SpendGuard.Audit.CloudEvent
import SpendGuard.Base.Text
import SpendGuard.Sidecar.Idempotency

/-!
The HTTP companion: the gateway plugin's calls, inflated into the messages of the adapter and followed
through both lanes.  What the plugin does not send is left at its default.
-/

namespace SpendGuard.Sidecar

open Base Ledger

def trim (s : String) : String :=
  String.ofList ((s.toList.dropWhile isWhitespace).rdropWhile isWhitespace)

def present (o : Option String) : Option String := (o.map trim).filter (· ≠ "")

inductive DecisionServiceError
  | invalidRequest (message : String)
  | dependencyUnavailable (e : DomainError)
  | internal (e : DomainError)
  deriving DecidableEq

def domainToCompanionErr : DomainError → DecisionServiceError
  | .invalidRequest d => .invalidRequest d
  | .ledgerClient d => .dependencyUnavailable (.ledgerClient d)
  | .fencingAcquire d => .dependencyUnavailable (.fencingAcquire d)
  | e => .internal e

structure HttpDecisionRequest where
  tenantId : String
  claimEstimateAtomic : String
  promptClass : String
  modelClass : String
  idempotencyKey : String
  budgetId : Option String
  deriving DecidableEq

def validateClaimAtomic (raw : String) : Except DecisionServiceError String := do
  let trimmed := trim raw
  check (trimmed ≠ "") (.invalidRequest "decision: claim_estimate_atomic required")
  check (trimmed.toList.all Char.isDigit) (.invalidRequest ("decision: claim_estimate_atomic '" ++ trimmed ++
    "' must be a positive decimal integer"))
  return trimmed

def HttpDecisionRequest.claim (budget amount : String) : BudgetClaim where
  budgetId := budget
  amountAtomic := amount

/-- The first half of `decision`: the plugin's request as the adapter would have sent it. -/
def HttpDecisionRequest.decisionRequest (cfg : SidecarConfig) (req : HttpDecisionRequest) :
    Except DecisionServiceError DecisionRequest := do
  check (trim req.tenantId ≠ "") (.invalidRequest "decision: tenant_id required")
  check (trim req.idempotencyKey ≠ "") (.invalidRequest "decision: idempotency_key required")
  check (req.tenantId = cfg.tenant) (.invalidRequest ("decision: tenant_id '" ++ req.tenantId ++
    "' does not match sidecar tenant '" ++ cfg.tenant ++ "'"))
  let amount ← validateClaimAtomic req.claimEstimateAtomic
  let budget ← found (present req.budgetId)
    (.invalidRequest "decision: budget_id required (Kong plugin config must supply it)")
  return {
    sessionId := req.idempotencyKey
    trigger := .llmCallPre
    ids := some { runId := req.idempotencyKey, llmCallId := req.idempotencyKey }
    route := req.modelClass
    inputs := some { projectedClaims := [claim budget amount] }
    idempotency := some { key := req.idempotencyKey }
    reservationSource := .byok }

structure Fencing where
  epoch : ℕ
  scopeId : String
  workloadInstanceId : String

structure ReserveSetRequest where
  tenantId : String
  decisionId : String
  auditDecisionEventId : String
  producerSequence : ℕ
  idempotency : Option Idempotency
  fencing : Option Fencing
  claims : List BudgetClaim
  ttlExpiresAt : Option ℕ
  auditEvent : Option Audit.CloudEvent
  pricing : Option PricingSnapshot

/-- What the reserve lane adds to a request: the loaded bundle's prices, the lease, the minted ids and
the signed event. -/
structure LaneEnv where
  workload : String
  pricing : PricingSnapshot
  fencing : Option ActiveFencing
  decision : Uuid
  auditDecisionEvent : Uuid
  producerSequence : ℕ
  ttlExpiresAt : ℕ
  event : Audit.CloudEvent

def buildBudgetClaims (req : DecisionRequest) : Except DomainError (List BudgetClaim) := do
  let inputs ← found req.inputs (.invalidRequest "DecisionRequest.inputs required")
  check (inputs.projectedClaims ≠ [])
    (.invalidRequest "DecisionRequest.inputs.projected_claims must be non-empty")
  return inputs.projectedClaims

/-- `run_through_reserve` up to its call of the ledger.  A decision other than `CONTINUE` reserves
nothing. -/
def reserveLane (cfg : SidecarConfig) (evaluate : List BudgetClaim → Decision) (env : LaneEnv)
    (req : DecisionRequest) : Except DomainError (Option ReserveSetRequest) := do
  let idempotency ← found req.idempotency (.invalidRequest "DecisionRequest.idempotency required")
  check (idempotency.key ≠ "") (.invalidRequest "DecisionRequest.idempotency.key required")
  let claims ← buildBudgetClaims req
  let f ← found env.fencing (.fencingAcquire "no active fencing scope")
  if evaluate claims ≠ .continued then return none
  else return some {
    tenantId := cfg.tenant
    decisionId := env.decision.text
    auditDecisionEventId := env.auditDecisionEvent.text
    producerSequence := env.producerSequence
    idempotency := some { key := idempotency.key }
    fencing := some ⟨f.epoch, f.scope.text, env.workload⟩
    claims := claims
    ttlExpiresAt := some env.ttlExpiresAt
    auditEvent := some env.event
    pricing := some env.pricing }

namespace ReserveSetRequest

def validateClaim (i : ℕ) (c : BudgetClaim) : Except DomainError Unit := do
  let claim := "claim[" ++ toString i ++ "]"
  check (c.budgetId ≠ "") (.invalidRequest (claim ++ ".budget_id empty"))
  let unit ← found c.unit (.invalidRequest (claim ++ ".unit missing"))
  check (unit.unitId ≠ "") (.invalidRequest (claim ++ ".unit.unit_id empty"))
  check (c.windowInstanceId ≠ "") (.invalidRequest (claim ++ ".window_instance_id empty"))
  let amount ← found c.amountAtomic.toInt? (.invalidRequest (claim ++ ".amount_atomic invalid"))
  check (0 ≤ amount) (.invalidRequest (claim ++ ".amount_atomic must be non-negative"))

def validateClaims : ℕ → List BudgetClaim → Except DomainError Unit
  | _, [] => return ()
  | i, c :: claims => do
    validateClaim i c
    validateClaims (i + 1) claims

def validate (r : ReserveSetRequest) : Except DomainError Unit := do
  check (r.tenantId ≠ "") (.invalidRequest "tenant_id required")
  check (r.decisionId ≠ "") (.invalidRequest "decision_id required")
  check (r.auditDecisionEventId ≠ "") (.invalidRequest "audit_decision_event_id required")
  check (r.claims ≠ []) (.invalidRequest "claims must not be empty")
  check (r.auditEvent.isSome) (.invalidRequest "audit_event (CloudEvent) required for audit_outbox row")
  validateClaims 0 r.claims

def checkRequest (parseUuid : String → Option Uuid) (r : ReserveSetRequest) : Except DomainError Unit := do
  r.validate
  let _ ← found (parseUuid r.tenantId) (.invalidRequest "tenant_id: invalid uuid")
  let _ ← found (parseUuid r.decisionId) (.invalidRequest "decision_id: invalid uuid")
  let _ ← found (parseUuid r.auditDecisionEventId) (.invalidRequest "audit_decision_event_id: invalid uuid")
  let idempotency ← found r.idempotency (.invalidRequest "idempotency missing")
  check (idempotency.key ≠ "") (.invalidRequest "idempotency.key empty")
  let fencing ← found r.fencing (.invalidRequest "fencing missing")
  check (fencing.scopeId ≠ "") (.invalidRequest "fencing.scope_id empty")
  check (fencing.workloadInstanceId ≠ "") (.invalidRequest "fencing.workload_instance_id empty")
  check (fencing.epoch ≠ 0) (.fencingEpochStale "epoch 0 is not a valid lease")
  let _ ← found r.ttlExpiresAt (.invalidRequest "ttl_expires_at missing")
  let pricing ← found r.pricing (.invalidRequest "pricing missing")
  check (pricing.version ≠ "" ∧ pricing.snapshotHash ≠ [])
    (.invalidRequest "pricing.pricing_version + price_snapshot_hash required")

end ReserveSetRequest

inductive TraceVerdict
  | accepted
  | rejected
  deriving DecidableEq

structure TraceRequest where
  reservationId : String
  outcome : TraceVerdict
  actualAmountAtomic : Option String

def TraceRequest.post (t : TraceRequest) (amount : String) : LlmCallPostPayload where
  reservation := t.reservationId
  providerReportedAmount := ""
  unit := none
  pricing := some ⟨"", [], "", ""⟩
  outcome := .success
  estimatedAmount := amount

def TraceRequest.payload (t : TraceRequest) : Except DecisionServiceError LlmCallPostPayload := do
  let amount ← found (present t.actualAmountAtomic)
    (.invalidRequest "trace: actual_amount_atomic required for ACCEPTED outcome")
  check (amount.toList.all Char.isDigit) (.invalidRequest ("trace: actual_amount_atomic '" ++ amount ++
    "' must be a positive decimal integer"))
  return t.post amount

def trace (parseUuid : String → Option Uuid) (w : World) (env : CallEnv) (t : TraceRequest) :
    Except DecisionServiceError Uuid × World :=
  if trim t.reservationId = "" then (.error (.invalidRequest "trace: reservation_id required"), w)
  else match t.outcome with
    | .accepted =>
      match t.payload with
      | .error e => (.error e, w)
      | .ok p => Prod.map (Except.mapError domainToCompanionErr) id (runCommitEstimated parseUuid w env p)
    | .rejected =>
      match parseUuid t.reservationId with
      | none => (.error (.invalidRequest "trace: reservation_id parse"), w)
      | some reservation =>
        Prod.map (Except.mapError domainToCompanionErr) id (runRelease w env reservation .runAborted)

section Lanes

variable {cfg : SidecarConfig} {http : HttpDecisionRequest} {req : DecisionRequest} {r : ReserveSetRequest}
  {evaluate : List BudgetClaim → Decision} {env : LaneEnv} {parseUuid : String → Option Uuid}

theorem present_ne_empty {o : Option String} {s : String} (h : present o = some s) : s ≠ "" := by
  have hkept := (Option.filter_eq_some_iff.mp h).2
  exact of_decide_eq_true hkept

theorem claims_of_decisionRequest (h : http.decisionRequest cfg = .ok req) :
    cfg.tenant ≠ "" ∧ ∃ budget amount, budget ≠ "" ∧
      buildBudgetClaims req = .ok [HttpDecisionRequest.claim budget amount] := by
  simp only [HttpDecisionRequest.decisionRequest, bind_eq_ok, check_eq_ok, found_eq_ok, exists_const] at h
  obtain ⟨htenant, -, hsame, amount, -, budget, hbudget, hreq⟩ := h
  cases hreq
  refine ⟨?_, budget, amount, present_ne_empty hbudget, rfl⟩
  rintro hempty
  rw [hsame, hempty] at htenant
  exact htenant rfl

theorem reserveLane_eq_some (h : reserveLane cfg evaluate env req = .ok (some r)) :
    buildBudgetClaims req = .ok r.claims ∧ r.tenantId = cfg.tenant ∧ r.decisionId = env.decision.text ∧
      r.auditDecisionEventId = env.auditDecisionEvent.text ∧ r.auditEvent = some env.event ∧
      r.pricing = some env.pricing := by
  simp only [reserveLane, bind_eq_ok, check_eq_ok, found_eq_ok, exists_const] at h
  obtain ⟨i, -, -, claims, hclaims, f, -, hsent⟩ := h
  split_ifs at hsent
  · cases hsent
  · cases hsent
    exact ⟨hclaims, rfl, rfl, rfl, rfl, rfl⟩

theorem validate_unit_missing (htenant : r.tenantId ≠ "") (hdecision : r.decisionId ≠ "")
    (haudit : r.auditDecisionEventId ≠ "") (hevent : r.auditEvent.isSome = true) {c : BudgetClaim}
    {claims : List BudgetClaim} (hclaims : r.claims = c :: claims) (hbudget : c.budgetId ≠ "")
    (hunit : c.unit = none) : r.validate = .error (.invalidRequest "claim[0].unit missing") := by
  simp only [ReserveSetRequest.validate, check_of, htenant, hdecision, haudit, hevent, hclaims, ne_eq,
    not_false_eq_true, reduceCtorEq, ok_bind, ReserveSetRequest.validateClaims,
    ReserveSetRequest.validateClaim, hbudget, hunit]
  rfl

theorem version_of_checkRequest {x : PricingSnapshot} (h : r.checkRequest parseUuid = .ok ())
    (hpricing : r.pricing = some x) : x.version ≠ "" := by
  simp only [ReserveSetRequest.checkRequest, bind_eq_ok, check_eq_ok, found_eq_ok, exists_const] at h
  obtain ⟨_, -, _, -, _, -, _, -, _, -, -, _, -, -, -, -, _, -, y, hy, hpriced⟩ := h
  obtain rfl : x = y := Option.some.inj (hpricing.symm.trans hy)
  exact hpriced.1

/-- A trace of the amount `b` for a reservation that is still held, under the epoch that reserved it. -/
structure TraceRequest.Timely (parseUuid : String → Option Uuid) (w : World) (env : CallEnv)
    (t : TraceRequest) (reservation : Uuid) (ctx : ReservationCtx) (b : ℤ) : Prop where
  accepted : t.outcome = .accepted
  named : trim t.reservationId ≠ ""
  parsed : parseUuid t.reservationId = some reservation
  context : (recoverReservationCtx w env reservation).1 = .ok ctx
  reserved : ctx.currentState = .reserved
  lease : ∃ f, w.sidecar.fencing = some f ∧ f.epoch = ctx.fencingEpochAtPost
  amount : ∃ digits, present t.actualAmountAtomic = some digits ∧ digits.toList.all Char.isDigit = true ∧
    digits.toInt? = some b
  positive : 0 < b
  within : b ≤ ctx.originalReserved

theorem checkCommit_pricing_differs {s : SidecarState} {reservation : Uuid} {ctx : ReservationCtx}
    {p : LlmCallPostPayload} {x : PricingSnapshot} (hreserved : ctx.currentState = .reserved)
    (hlease : ∃ f, s.fencing = some f ∧ f.epoch = ctx.fencingEpochAtPost) (hunit : p.unit = none)
    (hpricing : p.pricing = some x) (hdiffers : x ≠ ctx.pricing) :
    checkCommit s reservation ctx p =
      .error (.pricingFreezeMismatch "payload pricing tuple differs from original reservation") := by
  obtain ⟨f, hf, hepoch⟩ := hlease
  have hmismatch : ¬ ∀ y ∈ p.pricing, y = ctx.pricing := by
    intro h
    exact hdiffers (h x hpricing)
  have hnoUnit : ∀ u ∈ p.unit, u = ctx.unit.text := by
    simp [hunit]
  simp only [checkCommit, check_of hreserved, hf, found_some, check_of hepoch, check_of hnoUnit, ok_bind,
    check_of_not hmismatch, error_bind]

theorem trace_pricing_differs {w : World} {env : CallEnv} {t : TraceRequest} {reservation : Uuid}
    {ctx : ReservationCtx} {b : ℤ} (h : t.Timely parseUuid w env reservation ctx b)
    (hpriced : ctx.pricing.version ≠ "") :
    (trace parseUuid w env t).1 = .error (.internal
      (.pricingFreezeMismatch "payload pricing tuple differs from original reservation")) ∧
    (trace parseUuid w env t).2.ledger = w.ledger := by
  obtain ⟨digits, hpresent, hdigits, -⟩ := h.amount
  obtain ⟨cache, hcache⟩ := recoverReservationCtx_snd w env reservation
  have hpayload : t.payload = .ok (t.post digits) := by
    simp only [TraceRequest.payload, hpresent, found_some, check_of hdigits, ok_bind]
    rfl
  have hroute : routeCommit parseUuid (t.post digits) = .ok reservation := by
    simp [routeCommit, TraceRequest.post, check, present_ne_empty hpresent, h.parsed]
  have hdiffers : (⟨"", [], "", ""⟩ : PricingSnapshot) ≠ ctx.pricing := by
    intro heq
    exact hpriced (heq ▸ rfl)
  -- the cache is not read again, so the checks are those of `w` itself
  have hcheck : checkCommit { w.sidecar with reservationCache := cache } reservation ctx (t.post digits) =
      .error (.pricingFreezeMismatch "payload pricing tuple differs from original reservation") :=
    checkCommit_pricing_differs h.reserved h.lease rfl rfl hdiffers
  have hrecover : recoverReservationCtx w env reservation =
      (.ok ctx, { w with sidecar := { w.sidecar with reservationCache := cache } }) :=
    Prod.ext h.context hcache
  simp only [trace, if_neg h.named, h.accepted, hpayload, runCommitEstimated, hroute, hrecover,
    commitWithContext, hcheck]
  exact ⟨rfl, rfl⟩

variable (parseUuid) in
/-- A plugin's call never gets a reservation, for want of a unit; and were it given one by a request
with the same prices, no accepted trace would commit against it. -/
theorem companion_lanes_refused (h : http.decisionRequest cfg = .ok req)
    (hsent : reserveLane cfg evaluate env req = .ok (some r)) :
    r.validate = .error (.invalidRequest "claim[0].unit missing") ∧
    ∀ claims, ({ r with claims := claims }).checkRequest parseUuid = .ok () →
      ∀ w call t reservation ctx b, r.pricing = some ctx.pricing →
        TraceRequest.Timely parseUuid w call t reservation ctx b →
          (trace parseUuid w call t).1 = .error (.internal
            (.pricingFreezeMismatch "payload pricing tuple differs from original reservation")) ∧
          (trace parseUuid w call t).2.ledger = w.ledger := by
  obtain ⟨htenant, budget, amount, hbudget, hbuilt⟩ := claims_of_decisionRequest h
  obtain ⟨hclaims, hrtenant, hdecision, haudit, hevent, -⟩ := reserveLane_eq_some hsent
  rw [hclaims] at hbuilt
  refine ⟨?_, ?_⟩
  · apply validate_unit_missing
    · rw [hrtenant]
      exact htenant
    · rw [hdecision]
      exact env.decision.text_ne_empty
    · rw [haudit]
      exact env.auditDecisionEvent.text_ne_empty
    · rw [hevent]
      rfl
    · exact Except.ok.inj hbuilt
    · exact hbudget
    · rfl
  · intro claims hadmitted w call t reservation ctx b hpricing htimely
    exact trace_pricing_differs htimely (version_of_checkRequest hadmitted hpricing)

end Lanes

def gatewayConfig : SidecarConfig := ⟨"acme", "eu"⟩

def gatewayCall : HttpDecisionRequest :=
  ⟨"acme", "100", "chat", "gpt-4o-mini", "req-1", some "budget-1"⟩

def gatewayDecision : DecisionRequest where
  sessionId := "req-1"
  trigger := .llmCallPre
  ids := some { runId := "req-1", llmCallId := "req-1" }
  route := "gpt-4o-mini"
  inputs := some { projectedClaims := [{ budgetId := "budget-1", amountAtomic := "100" }] }
  idempotency := some { key := "req-1" }
  reservationSource := .byok

def gatewayLane : LaneEnv :=
  ⟨"wl-1", ⟨"v1", [1], "fx-1", "uc-1"⟩, some ⟨⟨1, []⟩, 1, 900⟩, ⟨2, []⟩, ⟨3, []⟩, 1, 600, {}⟩

def gatewayReserve (claims : List BudgetClaim) : ReserveSetRequest :=
  ⟨"acme", Uuid.text ⟨2, []⟩, Uuid.text ⟨3, []⟩, 1, some { key := "req-1" },
    some ⟨1, Uuid.text ⟨1, []⟩, "wl-1"⟩, claims, some 600, some {}, some gatewayLane.pricing⟩

def gatewayReservation : ReservationCtx :=
  ⟨⟨4, []⟩, 100, gatewayLane.pricing, ⟨1, []⟩, 1, ⟨2, []⟩, .reserved⟩

def gatewayWorld : World where
  sidecar := ⟨⟨0, []⟩, "wl-1", gatewayLane.fencing, [(⟨5, []⟩, gatewayReservation)], [], 1⟩
  ledger := ⟨[], [], [], [], [], [], [], [], [], [], [], [], []⟩

def gatewayEnv : CallEnv := ⟨10, true, true, ⟨6, []⟩, ⟨7, []⟩⟩

def gatewayTrace : TraceRequest := ⟨"reservation-5", .accepted, some "40"⟩

def readUuid (s : String) : Option Uuid := if s = "" then none else some ⟨5, []⟩

theorem gatewayCall_inflated : gatewayCall.decisionRequest gatewayConfig = .ok gatewayDecision := rfl

theorem gatewayDecision_sent :
    reserveLane gatewayConfig (fun _ => .continued) gatewayLane gatewayDecision =
      .ok (some (gatewayReserve [HttpDecisionRequest.claim "budget-1" "100"])) := rfl

/-- A call of 100 on a budget is refused for its unit, and 40 of a reservation of 100 for its prices. -/
theorem gatewayCall_refused :
    gatewayCall.decisionRequest gatewayConfig = .ok gatewayDecision ∧
    reserveLane gatewayConfig (fun _ => .continued) gatewayLane gatewayDecision =
      .ok (some (gatewayReserve [HttpDecisionRequest.claim "budget-1" "100"])) ∧
    (gatewayReserve [HttpDecisionRequest.claim "budget-1" "100"]).validate =
      .error (.invalidRequest "claim[0].unit missing") ∧
    (trace readUuid gatewayWorld gatewayEnv gatewayTrace).1 = .error (.internal
      (.pricingFreezeMismatch "payload pricing tuple differs from original reservation")) := by
  refine ⟨gatewayCall_inflated, gatewayDecision_sent, ?_⟩
  decide +kernel

def adapterClaim : BudgetClaim where
  budgetId := "budget-1"
  unit := some { unitId := "usd" }
  amountAtomic := "100"
  direction := .debit
  windowInstanceId := "window-1"

theorem adapterClaim_valid : ReserveSetRequest.validateClaim 0 adapterClaim = .ok () := by
  have hamount : adapterClaim.amountAtomic.toInt? = some 100 := Int.toInt?_repr 100
  simp only [ReserveSetRequest.validateClaim, hamount, found_some, ok_bind]
  rfl

theorem gatewayReserve_admitted : (gatewayReserve [adapterClaim]).checkRequest readUuid = .ok () := by
  have hvalid : (gatewayReserve [adapterClaim]).validate = .ok () := by
    simp only [ReserveSetRequest.validate, gatewayReserve, ReserveSetRequest.validateClaims, adapterClaim_valid]
    rfl
  simp only [ReserveSetRequest.checkRequest, hvalid, ok_bind]
  rfl

theorem gatewayTrace_timely :
    gatewayTrace.Timely readUuid gatewayWorld gatewayEnv ⟨5, []⟩ gatewayReservation 40 where
  accepted := rfl
  named := by decide
  parsed := rfl
  context := rfl
  reserved := rfl
  lease := ⟨_, rfl, rfl⟩
  amount := ⟨"40", rfl, rfl, Int.toInt?_repr 40⟩
  positive := by decide
  within := by decide

theorem gatewayCall_lanes_refused :
    (gatewayReserve [HttpDecisionRequest.claim "budget-1" "100"]).validate =
      .error (.invalidRequest "claim[0].unit missing") ∧
    (trace readUuid gatewayWorld gatewayEnv gatewayTrace).2.ledger = gatewayWorld.ledger := by
  have hrefused := companion_lanes_refused readUuid gatewayCall_inflated gatewayDecision_sent
  exact ⟨hrefused.1, (hrefused.2 [adapterClaim] gatewayReserve_admitted gatewayWorld gatewayEnv gatewayTrace
    ⟨5, []⟩ gatewayReservation 40 rfl gatewayTrace_timely).2⟩

end SpendGuard.Sidecar
