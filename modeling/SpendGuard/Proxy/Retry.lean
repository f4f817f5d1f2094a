import SpendGuard.Proxy.Estimate
import SpendGuard.Sidecar.Idempotency

/-!
The request the proxy sends to the sidecar for a call, and what becomes of it when the client sends
the call again under the same idempotency key.
-/

namespace SpendGuard.Proxy

open Base Ledger Sidecar

structure Inbound where
  tenantId : String
  budgetId : String
  windowInstanceId : String
  unitId : String
  runId : String
  bodyBytes : Bytes
  model : String
  agentId : String
  headerOverrideTokens : Option ℤ
  plannedStepsHint : ℤ
  explicitIdempotencyKey : Option String

structure Attempt where
  decisionIdPreview : String
  decisionId : String
  nanos : String

structure Signatures where
  parseBody : Bytes → Option Json
  callSignature : Json → Option String
  deriveUuid : String → String → String
  attemptKey : String → String

def Inbound.estimateInputs (i : Inbound) (body : Json) (attempt : Attempt) : EstimateInputs where
  body := body
  model := i.model
  tenantId := i.tenantId
  agentId := i.agentId
  runId := i.runId
  decisionId := attempt.decisionIdPreview
  stepId := i.runId ++ ":call:preview"
  predictionPolicy := "STRICT_CEILING"
  headerOverrideTokens := i.headerOverrideTokens
  plannedStepsHint := i.plannedStepsHint

def Inbound.idempotencyKey (lib : Signatures) (i : Inbound) (attempt : Attempt) (signature : String) :
    String :=
  match i.explicitIdempotencyKey with
  | some k => if k ≠ "" then k else lib.attemptKey (signature ++ "|" ++ attempt.nanos)
  | none => lib.attemptKey (signature ++ "|" ++ attempt.nanos)

def Inbound.unit (i : Inbound) : UnitRef where
  unitId := i.unitId
  kind := .token
  tokenKind := "output_token"
  modelFamily := i.model

def Inbound.claim (i : Inbound) (estimate : ClaimEstimate) : Sidecar.BudgetClaim where
  budgetId := i.budgetId
  unit := some i.unit
  amountAtomic := toString (reservedTokens estimate)
  direction := .debit
  windowInstanceId := i.windowInstanceId

def buildDecisionRequest (lib : Signatures) (i : Inbound) (attempt : Attempt) (signature : String)
    (estimate : ClaimEstimate) : DecisionRequest where
  sessionId := "egress-proxy:" ++ i.runId
  trigger := .llmCallPre
  route := "llm.call"
  ids := some
    { runId := i.runId
      stepId := i.runId ++ ":call:" ++ String.ofList (signature.toList.take 16)
      llmCallId := lib.deriveUuid signature "llm_call_id"
      decisionId := attempt.decisionId }
  idempotency := some { key := i.idempotencyKey lib attempt signature }
  inputs := some
    { projectedClaims := [i.claim estimate]
      projectedUnit := some i.unit
      claimEstimate := some estimate }

def decisionRequest (lib : Signatures) (s : Estimators) (i : Inbound) (attempt : Attempt) :
    Option DecisionRequest := do
  let body ← lib.parseBody i.bodyBytes
  let estimate := estimateCallCost s (i.estimateInputs body attempt)
  guard (i.budgetId ≠ "" ∧ i.windowInstanceId ≠ "" ∧ i.unitId ≠ "")
  let signature ← lib.callSignature body
  return buildDecisionRequest lib i attempt signature estimate

/-- The client repeats a call: same tenant, run and body, under the same explicit key. -/
structure Inbound.Retries (i j : Inbound) : Prop where
  tenant : i.tenantId = j.tenantId
  run : i.runId = j.runId
  body : i.bodyBytes = j.bodyBytes
  key : i.explicitIdempotencyKey = j.explicitIdempotencyKey
  explicit : ∃ k, k ≠ "" ∧ i.explicitIdempotencyKey = some k

/-- The two requests say the same: they aim at the same budget with the same estimate, and happened to
mint the same decision id. -/
structure SameRequest (s s' : Estimators) (i j : Inbound) (body : Json) (attempt attempt' : Attempt) :
    Prop where
  decision : attempt.decisionId = attempt'.decisionId
  budget : i.budgetId = j.budgetId
  window : i.windowInstanceId = j.windowInstanceId
  unit : i.unitId = j.unitId
  model : i.model = j.model
  estimate : estimateCallCost s (i.estimateInputs body attempt) =
    estimateCallCost s' (j.estimateInputs body attempt')

section Retry

variable {lib : Signatures} {s s' : Estimators} {i j : Inbound} {attempt attempt' : Attempt}
  {body : Json} {signature : String} {req req' : DecisionRequest}

theorem built_of_decisionRequest (h : decisionRequest lib s i attempt = some req) :
    ∃ body signature, lib.parseBody i.bodyBytes = some body ∧ lib.callSignature body = some signature ∧
      req = buildDecisionRequest lib i attempt signature
        (estimateCallCost s (i.estimateInputs body attempt)) := by
  obtain ⟨body, hbody, h⟩ := Option.bind_eq_some_iff.mp h
  obtain ⟨_, -, h⟩ := Option.bind_eq_some_iff.mp h
  obtain ⟨signature, hsignature, h⟩ := Option.bind_eq_some_iff.mp h
  exact ⟨body, signature, hbody, hsignature, (Option.some.inj h).symm⟩

theorem Inbound.Retries.idempotencyKey (h : i.Retries j) :
    i.idempotencyKey lib attempt signature = j.idempotencyKey lib attempt' signature ∧
      j.idempotencyKey lib attempt' signature ≠ "" := by
  obtain ⟨k, hk, hi⟩ := h.explicit
  have hj := h.key ▸ hi
  simp [Inbound.idempotencyKey, hi, hj, hk]

theorem buildDecisionRequest_eq_iff (h : i.Retries j) :
    buildDecisionRequest lib i attempt signature (estimateCallCost s (i.estimateInputs body attempt)) =
      buildDecisionRequest lib j attempt' signature (estimateCallCost s' (j.estimateInputs body attempt')) ↔
    SameRequest s s' i j body attempt attempt' := by
  have hkey : i.idempotencyKey lib attempt signature = j.idempotencyKey lib attempt' signature :=
    h.idempotencyKey.1
  constructor
  · intro heq
    simp only [buildDecisionRequest, Inbound.claim, Inbound.unit, DecisionRequest.mk.injEq,
      Option.some.injEq, SpendGuardIds.mk.injEq, Inputs.mk.injEq, List.cons.injEq, Sidecar.BudgetClaim.mk.injEq,
      UnitRef.mk.injEq, true_and, and_true] at heq
    obtain ⟨-, ⟨-, -, hdecision⟩, ⟨⟨hbudget, ⟨hunit, hmodel⟩, -, hwindow⟩, -, hestimate⟩, -⟩ := heq
    exact ⟨hdecision, hbudget, hwindow, hunit, hmodel, hestimate⟩
  · rintro ⟨hdecision, hbudget, hwindow, hunit, hmodel, hestimate⟩
    simp only [buildDecisionRequest, Inbound.claim, Inbound.unit, h.run, hkey, hdecision, hbudget,
      hwindow, hunit, hmodel, hestimate]

theorem Inbound.Retries.requests (h : i.Retries j) (hreq : decisionRequest lib s i attempt = some req)
    (hreq' : decisionRequest lib s' j attempt' = some req') :
    req.key = req'.key ∧ req'.key ≠ "" ∧ (req = req' ↔
      ∃ body, lib.parseBody i.bodyBytes = some body ∧ SameRequest s s' i j body attempt attempt') := by
  obtain ⟨body, signature, hbody, hsignature, rfl⟩ := built_of_decisionRequest hreq
  obtain ⟨body', signature', hbody', hsignature', rfl⟩ := built_of_decisionRequest hreq'
  obtain rfl : body = body' := Option.some.inj (hbody.symm.trans (h.body ▸ hbody'))
  obtain rfl : signature = signature' := Option.some.inj (hsignature.symm.trans hsignature')
  obtain ⟨hkey, hnonempty⟩ : i.idempotencyKey lib attempt signature =
    j.idempotencyKey lib attempt' signature ∧ _ := h.idempotencyKey
  refine ⟨hkey, hnonempty, (buildDecisionRequest_eq_iff h).trans ?_⟩
  constructor
  · exact fun hsame => ⟨body, hbody, hsame⟩
  · rintro ⟨body', hbody', hsame⟩
    obtain rfl : body = body' := Option.some.inj (hbody.symm.trans hbody')
    exact hsame

variable {σ : Type} {codec : Codec} {cfg : SidecarConfig}
  {runThroughReserve : ℕ → DecisionRequest → σ → Except DomainError DecisionResponse × σ}
  {now now' : ℕ} {server server₁ server₂ : DecisionServer σ} {r : DecisionResponse}

/-- A call that is repeated while the first answer is remembered gets that answer exactly if the sidecar
is not draining and the second attempt minted the decision id of the first.  Nothing is reserved
either way. -/
theorem retry_answered_iff (hsha : Function.Injective codec.sha256)
    (hencode : codec.encode req = codec.encode req' → req = req') (h : i.Retries j)
    (hreq : decisionRequest lib s i attempt = some req)
    (hreq' : decisionRequest lib s' j attempt' = some req')
    (hfirst : requestDecision codec cfg runThroughReserve now server req = (.ok r, server₁))
    (hentry : server₂.cache.slot? req.key = server₁.cache.slot? req.key)
    (hretained : server₂.cache.retained now' req.key = true) :
    ((requestDecision codec cfg runThroughReserve now' server₂ req').1 = .ok r ↔
      server₂.draining = false ∧
        ∃ body, lib.parseBody i.bodyBytes = some body ∧ SameRequest s s' i j body attempt attempt') ∧
    (requestDecision codec cfg runThroughReserve now' server₂ req').2 = server₂ := by
  obtain ⟨hkey, hnonempty, hsame⟩ := h.requests hreq hreq'
  obtain ⟨t, hcached⟩ := entry_of_answered hfirst
  rw [hkey] at hentry hretained hcached
  have hfingerprint : idempotencyRequestFingerprint codec cfg req =
      idempotencyRequestFingerprint codec cfg req' ↔ req = req' :=
    (fingerprint_eq_iff hsha).trans ⟨hencode, congrArg _⟩
  rw [requestDecision_of_retained (hentry.trans hcached) hretained hnonempty, ← hsame, ← hfingerprint]
  split_ifs with hdraining hmatch
  · simp [hdraining]
  · simpa [hdraining] using hmatch
  · simpa [hdraining] using hmatch

end Retry

def oneBody : Signatures where
  parseBody _ := some (.obj [("model", .str "gpt-4"), ("max_tokens", .int 10)])
  callSignature _ := some "0123456789abcdef0123456789abcdef"
  deriveUuid signature scope := scope ++ signature
  attemptKey := id

/-- The client asks for its retries to collapse under the key `k`. -/
def keyedCall : Inbound where
  tenantId := "t"
  budgetId := "b"
  windowInstanceId := "w"
  unitId := "u"
  runId := "r"
  bodyBytes := []
  model := "gpt-4"
  agentId := ""
  headerOverrideTokens := none
  plannedStepsHint := 0
  explicitIdempotencyKey := some "k"

theorem keyedCall_retries : keyedCall.Retries keyedCall := ⟨rfl, rfl, rfl, rfl, "k", by decide, rfl⟩

/-- The request of the `n`-th attempt. -/
def keyedRequest (decisionId : String) : DecisionRequest :=
  buildDecisionRequest oneBody keyedCall ⟨"", decisionId, ""⟩ "0123456789abcdef0123456789abcdef"
    (estimateCallCost hundredTokens
      (keyedCall.estimateInputs (.obj [("model", .str "gpt-4"), ("max_tokens", .int 10)]) ⟨"", decisionId, ""⟩))

def idleServer : DecisionServer ℕ := ⟨false, some ⟨⟨10, []⟩, 1, 1000⟩, ⟨[], [], 8, 600⟩, 0⟩

def countingReserve (_ : ℕ) (req : DecisionRequest) (n : ℕ) : Except DomainError DecisionResponse × ℕ :=
  (.ok { decisionId := (req.ids.map (·.decisionId)).getD "", decision := .continued }, n + 1)

/-- The client repeats the very same call.  The proxy mints a second decision id, so for every digest
without collisions the sidecar sees a different request under the same key, and refuses it. -/
theorem retry_refused :
    decisionRequest oneBody hundredTokens keyedCall ⟨"p1", "d1", "1"⟩ = some (keyedRequest "d1") ∧
    decisionRequest oneBody hundredTokens keyedCall ⟨"p2", "d2", "2"⟩ = some (keyedRequest "d2") ∧
    ∀ (codec : Codec) (cfg : SidecarConfig), Function.Injective codec.sha256 →
      Function.Injective codec.encode →
      let first := requestDecision codec cfg countingReserve 0 idleServer (keyedRequest "d1")
      first.1 = .ok { decisionId := "d1", decision := .continued } ∧
      (requestDecision codec cfg countingReserve 1 first.2 (keyedRequest "d2")).1 =
        .error (.idempotencyConflict (idempotencyRequestFingerprint codec cfg (keyedRequest "d1"))
          (idempotencyRequestFingerprint codec cfg (keyedRequest "d2"))) := by
  refine ⟨rfl, rfl, fun codec cfg hsha hencode => ⟨rfl, ?_⟩⟩
  have hdiffer : idempotencyRequestFingerprint codec cfg (keyedRequest "d1") ≠
      idempotencyRequestFingerprint codec cfg (keyedRequest "d2") := by
    rw [Ne, fingerprint_eq_iff hsha, hencode.eq_iff]
    intro h
    have hids := congrArg DecisionRequest.ids h
    revert hids
    decide
  have hentry : (requestDecision codec cfg countingReserve 0 idleServer (keyedRequest "d1")).2.cache.slot?
      (keyedRequest "d2").key = some ⟨idempotencyRequestFingerprint codec cfg (keyedRequest "d1"),
        { decisionId := "d1", decision := .continued }, 0⟩ := rfl
  have hretained : (requestDecision codec cfg countingReserve 0 idleServer
      (keyedRequest "d1")).2.cache.retained 1 (keyedRequest "d2").key = true := by
    have httl : (requestDecision codec cfg countingReserve 0 idleServer
      (keyedRequest "d1")).2.cache.ttlSecs = 600 := rfl
    simp [IdempotencyCache.retained, hentry, httl]
  rw [requestDecision_of_retained hentry hretained (by decide)]
  simp only [hdiffer, if_false]
  rfl

def plainCodec : Codec := ⟨fun req => (req.ids.map (·.decisionId.toUTF8.toList)).getD [], id⟩

/-- An attempt that brings the decision id of the first gets its answer, and reserves nothing. -/
theorem retry_collapsed :
    let first := requestDecision plainCodec ⟨"t", "eu"⟩ countingReserve 0 idleServer (keyedRequest "d1")
    (requestDecision plainCodec ⟨"t", "eu"⟩ countingReserve 1 first.2 (keyedRequest "d1")).1 =
      .ok { decisionId := "d1", decision := .continued } ∧
    (requestDecision plainCodec ⟨"t", "eu"⟩ countingReserve 1 first.2 (keyedRequest "d1")).2 = first.2 := by
  have hreq (preview nanos : String) : decisionRequest oneBody hundredTokens keyedCall
      ⟨preview, "d1", nanos⟩ = some (keyedRequest "d1") := rfl
  have hfirst : requestDecision plainCodec ⟨"t", "eu"⟩ countingReserve 0 idleServer (keyedRequest "d1") =
      (.ok { decisionId := "d1", decision := .continued },
        (requestDecision plainCodec ⟨"t", "eu"⟩ countingReserve 0 idleServer (keyedRequest "d1")).2) := rfl
  have hretained : (requestDecision plainCodec ⟨"t", "eu"⟩ countingReserve 0 idleServer
      (keyedRequest "d1")).2.cache.retained 1 (keyedRequest "d1").key = true := by decide +kernel
  have h := retry_answered_iff Function.injective_id (fun _ => rfl) keyedCall_retries (hreq "p1" "1")
    (hreq "p2" "2") hfirst rfl hretained
  exact ⟨h.1.mpr ⟨rfl, _, rfl, rfl, rfl, rfl, rfl, rfl, rfl⟩, h.2⟩

end SpendGuard.Proxy
