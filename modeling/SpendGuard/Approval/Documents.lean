import SpendGuard.Approval.Decisions
import SpendGuard.Base.Hex
import SpendGuard.Sidecar.Contract

/-!
The two documents of an approval: what the sidecar writes when a request needs one, and the reserve that
it builds from them once the approval is granted.
-/

namespace SpendGuard.Approval

open Base Ledger

structure CachedContractBundle where
  bundleId : Uuid
  bundleHash : Bytes
  pricing : PricingSnapshot
  parsed : Sidecar.Contract

structure SchemaBundle where
  bundleId : Uuid
  canonicalSchemaVersion : String

/-- The arguments of `run_record_denied_decision` for a request that evaluates to `REQUIRE_APPROVAL`. -/
structure RequiredApproval where
  tenantId : String
  key : String
  decisionId : String
  auditDecisionEventId : String
  producerSequence : ℕ
  fencing : Sidecar.Fencing
  claims : List Sidecar.BudgetClaim
  matchedRules : List String
  reasonCodes : List String
  event : Audit.CloudEvent
  bundle : CachedContractBundle
  schemaBundle : Option SchemaBundle
  epoch_lt : fencing.epoch < 2 ^ 64

/-- What `run_through_reserve` adds to a request: the loaded bundles, the lease, the projector's code, the
minted ids as texts and the signed event. -/
structure DecisionEnv where
  workload : String
  bundle : CachedContractBundle
  schemaBundle : Option SchemaBundle
  fencing : Option Sidecar.ActiveFencing
  epoch_lt : ∀ f, fencing = some f → f.epoch < 2 ^ 64
  emittedCode : String
  decision : String
  auditDecisionEvent : String
  producerSequence : ℕ
  event : Audit.CloudEvent

/-- `run_through_reserve` up to its call of the ledger, for a request that needs an approval. -/
def requireApproval {J : Type} (rd : Reader J) (cfg : Sidecar.SidecarConfig) (env : DecisionEnv)
    (req : Sidecar.DecisionRequest) : Except Sidecar.DomainError (Option RequiredApproval) := do
  let idempotency ← found req.idempotency (.invalidRequest "DecisionRequest.idempotency required")
  check (idempotency.key ≠ "") (.invalidRequest "DecisionRequest.idempotency.key required")
  let claims ← Sidecar.buildBudgetClaims req
  let outcome := env.bundle.parsed.outcome rd.uuid rd.bigInt env.emittedCode claims
  match hf : env.fencing with
  | none => .error (.fencingAcquire "no active fencing scope")
  | some f =>
    if outcome.decision = .requireApproval then
      return some {
        tenantId := cfg.tenant
        key := idempotency.key
        decisionId := env.decision
        auditDecisionEventId := env.auditDecisionEvent
        producerSequence := env.producerSequence
        fencing := ⟨f.epoch, f.scope.text, env.workload⟩
        claims := claims
        matchedRules := outcome.matchedRuleIds
        reasonCodes := outcome.reasonCodes
        event := env.event
        bundle := env.bundle
        schemaBundle := env.schemaBundle
        epoch_lt := env.epoch_lt f hf }
    else return none

theorem requireApproval_ok {J : Type} {rd : Reader J} {cfg : Sidecar.SidecarConfig} {env : DecisionEnv}
    {req : Sidecar.DecisionRequest} {x : RequiredApproval} (h : requireApproval rd cfg env req = .ok (some x)) :
    Sidecar.buildBudgetClaims req = .ok x.claims ∧ x.bundle = env.bundle ∧
      (env.bundle.parsed.outcome rd.uuid rd.bigInt env.emittedCode x.claims).decision = .requireApproval := by
  simp only [requireApproval, bind_eq_ok] at h
  obtain ⟨_, -, _, -, claims, hclaims, h⟩ := h
  split at h
  · cases h
  · split at h
    · next hdecision =>
      cases h
      exact ⟨hclaims, rfl, hdecision⟩
    · cases h

def unitKindText : Sidecar.UnitKind → String
  | .monetary => "MONETARY"
  | .token => "TOKEN"
  | .credit => "CREDIT"
  | .nonMonetary => "NON_MONETARY"
  | .unspecified => "MONETARY"

def directionText : Option Sidecar.Direction → String
  | some .credit => "CREDIT"
  | _ => "DEBIT"

namespace RequiredApproval

def decisionContext (x : RequiredApproval) : Json :=
  let primary := x.claims.head?
  .obj [
    ("tenant_id", .str x.tenantId),
    ("budget_id", .str ((primary.map (·.budgetId)).getD "")),
    ("window_instance_id", .str ((primary.map (·.windowInstanceId)).getD "")),
    ("fencing_scope_id", .str x.fencing.scopeId),
    ("fencing_epoch", .int x.fencing.epoch),
    ("decision_id", .str x.decisionId),
    ("matched_rule_ids", .arr (x.matchedRules.map .str)),
    ("reason_codes", .arr (x.reasonCodes.map .str)),
    ("contract_bundle_id", .str x.bundle.bundleId.text),
    ("contract_bundle_hash_hex", .str (Hex.encode x.bundle.bundleHash)),
    ("schema_bundle_id", .str ((x.schemaBundle.map (·.bundleId.text)).getD "")),
    ("schema_bundle_canonical_version", .str ((x.schemaBundle.map (·.canonicalSchemaVersion)).getD "")),
    ("pricing_version", .str x.bundle.pricing.version),
    ("price_snapshot_hash_hex", .str (Hex.encode x.bundle.pricing.snapshotHash)),
    ("fx_rate_version", .str x.bundle.pricing.fxRateVersion),
    ("unit_conversion_version", .str x.bundle.pricing.unitConversionVersion)]

def requestedEffect (x : RequiredApproval) : Json :=
  let primary := x.claims.head?
  let unit := primary.bind (·.unit)
  .obj [
    ("unit_id", .str ((unit.map (·.unitId)).getD "")),
    ("unit_kind", .str ((unit.map fun u => unitKindText u.kind).getD "MONETARY")),
    ("unit_token_kind", .str ((unit.map (·.tokenKind)).getD "")),
    ("amount_atomic", .str ((primary.map (·.amountAtomic)).getD "")),
    ("direction", .str (directionText (primary.map (·.direction))))]

/-- What goes to the ledger; `toVec` is the text of a document. -/
def attempt (toVec : Json → {text : Bytes // text ≠ []}) (x : RequiredApproval) : ApprovalAttempt where
  tenantId := x.tenantId
  key := x.key
  decisionId := x.decisionId
  auditDecisionEventId := x.auditDecisionEventId
  producerSequence := x.producerSequence
  fencing := x.fencing
  claims := x.claims
  matchedRules := x.matchedRules
  reasonCodes := x.reasonCodes
  event := x.event
  bundle := ⟨x.bundle.bundleId.text, x.bundle.bundleHash⟩
  pricing := x.bundle.pricing
  decisionContextJson := toVec x.decisionContext
  requestedEffectJson := toVec x.requestedEffect
  context_nonempty := (toVec x.decisionContext).property
  effect_nonempty := (toVec x.requestedEffect).property

end RequiredApproval

structure DecisionContext where
  tenantId : String
  budgetId : String
  windowInstanceId : String
  fencingScopeId : String
  fencingEpoch : ℕ
  decisionId : String
  matchedRuleIds : List String
  reasonCodes : List String
  contractBundleId : String
  contractBundleHashHex : String
  schemaBundleId : String
  schemaBundleCanonicalVersion : String
  pricingVersion : String
  priceSnapshotHashHex : String
  fxRateVersion : String
  unitConversionVersion : String
  deriving DecidableEq

structure RequestedEffect where
  unitId : String
  unitKind : String
  unitTokenKind : String
  amountAtomic : String
  direction : String
  deriving DecidableEq

section Fields

def required (j : Json) (name : String) : Except String Json :=
  found (j.get? name) ("missing field " ++ name)

def stringOf (name : String) (v : Json) : Except String String :=
  found v.asStr? (name ++ ": invalid type, expected a string")

def requiredString (j : Json) (name : String) : Except String String := do
  let v ← required j name
  stringOf name v

/-- `#[serde(default)]`. -/
def defaultString (j : Json) (name : String) : Except String String :=
  match j.get? name with
  | none => return ""
  | some v => stringOf name v

def strings (name : String) : List Json → Except String (List String)
  | [] => return []
  | v :: vs => do
    let s ← stringOf name v
    let rest ← strings name vs
    return s :: rest

def defaultStrings (j : Json) (name : String) : Except String (List String) :=
  match j.get? name with
  | none => return []
  | some v => do
    let items ← found v.asArr? (name ++ ": invalid type, expected a sequence")
    strings name items

@[simp] theorem strings_map_str (name : String) (l : List String) : strings name (l.map .str) = .ok l := by
  induction l with
  | nil => rfl
  | cons s l ih =>
    simp only [List.map_cons, strings, ih]
    rfl

variable {α : Type} {j v : Json} {name s : String} {l : List String}

theorem required_bind {f : Json → Except String α} (h : j.get? name = some v) : required j name >>= f = f v := by
  rw [required, h, found_some, ok_bind]

theorem requiredString_bind {f : String → Except String α} (h : j.get? name = some (.str s)) :
    requiredString j name >>= f = f s := by
  rw [requiredString, required_bind h]
  rfl

theorem defaultString_bind {f : String → Except String α} (h : j.get? name = some (.str s)) :
    defaultString j name >>= f = f s := by
  rw [defaultString, h]
  rfl

theorem defaultStrings_bind {f : List String → Except String α} (h : j.get? name = some (.arr (l.map .str))) :
    defaultStrings j name >>= f = f l := by
  rw [defaultStrings, h]
  simp only [Json.asArr?, found_some, ok_bind, strings_map_str]

end Fields

def DecisionContext.ofJson (j : Json) : Except String DecisionContext := do
  let tenantId ← requiredString j "tenant_id"
  let budgetId ← requiredString j "budget_id"
  let windowInstanceId ← requiredString j "window_instance_id"
  let fencingScopeId ← requiredString j "fencing_scope_id"
  let epoch ← required j "fencing_epoch"
  let fencingEpoch ← found epoch.asU64? "fencing_epoch: invalid type, expected u64"
  let decisionId ← requiredString j "decision_id"
  let matchedRuleIds ← defaultStrings j "matched_rule_ids"
  let reasonCodes ← defaultStrings j "reason_codes"
  let contractBundleId ← requiredString j "contract_bundle_id"
  let contractBundleHashHex ← requiredString j "contract_bundle_hash_hex"
  let schemaBundleId ← defaultString j "schema_bundle_id"
  let schemaBundleCanonicalVersion ← defaultString j "schema_bundle_canonical_version"
  let pricingVersion ← defaultString j "pricing_version"
  let priceSnapshotHashHex ← defaultString j "price_snapshot_hash_hex"
  let fxRateVersion ← defaultString j "fx_rate_version"
  let unitConversionVersion ← defaultString j "unit_conversion_version"
  return ⟨tenantId, budgetId, windowInstanceId, fencingScopeId, fencingEpoch, decisionId, matchedRuleIds,
    reasonCodes, contractBundleId, contractBundleHashHex, schemaBundleId, schemaBundleCanonicalVersion,
    pricingVersion, priceSnapshotHashHex, fxRateVersion, unitConversionVersion⟩

def RequestedEffect.ofJson (j : Json) : Except String RequestedEffect := do
  let unitId ← requiredString j "unit_id"
  let unitKind ← requiredString j "unit_kind"
  let unitTokenKind ← defaultString j "unit_token_kind"
  let amountAtomic ← requiredString j "amount_atomic"
  let direction ← requiredString j "direction"
  return ⟨unitId, unitKind, unitTokenKind, amountAtomic, direction⟩

structure ApprovalResumeContext where
  approvalId : String
  tenantId : String
  decisionId : String
  state : String
  decisionContext : Json
  requestedEffect : Json
  bundledLedgerTransactionId : String

/-- `Ledger::GetApprovalForResume` with the row of the approval. -/
def getApprovalForResume (rd : Reader Json) (approvalId tenantId : String) (row : ApprovalRequest Json) :
    Except String ApprovalResumeContext := do
  let approval ← found (rd.uuid approvalId) "[INVALID_REQUEST] approval_id parse"
  let tenant ← found (rd.uuid tenantId) "[INVALID_REQUEST] tenant_id parse"
  check (row.approvalId = approval) ("[NOT_FOUND] approval " ++ approval.text ++ " not found")
  check (row.tenantId = tenant) "[PERMISSION_DENIED] tenant_id mismatch"
  return ⟨approval.text, tenant.text, row.decisionId.text, row.state.text, row.decisionContext,
    row.requestedEffect, (row.bundledLedgerTransactionId.map Uuid.text).getD ""⟩

structure Parsed where
  decision : DecisionContext
  effect : RequestedEffect

def parse (ctx : ApprovalResumeContext) : Except String Parsed := do
  let decision ← (DecisionContext.ofJson ctx.decisionContext).mapError ("decision_context_json: " ++ ·)
  let effect ← (RequestedEffect.ofJson ctx.requestedEffect).mapError ("requested_effect_json: " ++ ·)
  return ⟨decision, effect⟩

/-- What a resume meets in the sidecar: its settings and bundle, and what it mints. -/
structure ResumeEnv where
  region : String
  workload : String
  bundle : Option CachedContractBundle
  decision : Uuid
  auditDecisionEvent : Uuid
  producerSequence : ℕ
  time : Audit.Timestamp
  ttlExpiresAt : ℕ
  sign : Audit.CloudEvent → Except String Audit.CloudEvent

structure ResumedReserve where
  request : Sidecar.ReserveSetRequest
  contractBundle : ContractBundleRef

def unitKindOf : String → Sidecar.UnitKind
  | "MONETARY" => .monetary
  | "TOKEN" => .token
  | "CREDIT" => .credit
  | "NON_MONETARY" => .nonMonetary
  | _ => .unspecified

def directionOf (text : String) : Sidecar.Direction := if text = "CREDIT" then .credit else .debit

namespace Parsed

def claim (p : Parsed) : Sidecar.BudgetClaim where
  budgetId := p.decision.budgetId
  unit := some { unitId := p.effect.unitId, kind := unitKindOf p.effect.unitKind,
                 tokenKind := p.effect.unitTokenKind }
  amountAtomic := p.effect.amountAtomic
  direction := directionOf p.effect.direction
  windowInstanceId := p.decision.windowInstanceId

def cloudEvent (env : ResumeEnv) (workload policy : String) (p : Parsed) : Audit.CloudEvent where
  specversion := "1.0"
  type := "spendguard.audit.decision"
  source := "sidecar://" ++ env.region ++ "/" ++ workload
  id := env.auditDecisionEvent.text
  time := some env.time
  datacontenttype := "application/json"
  data := (Json.render (.obj [
    ("resume_of_approval_id", .str p.decision.decisionId),
    ("amount_atomic", .str p.effect.amountAtomic),
    ("budget_id", .str p.decision.budgetId),
    ("matched_rule_ids", .arr (p.decision.matchedRuleIds.map .str)),
    ("reason_codes", .arr (p.decision.reasonCodes.map .str))])).toUTF8.toList
  tenantId := p.decision.tenantId
  decisionId := env.decision.text
  schemaBundleId := p.decision.schemaBundleId
  producerId := "sidecar:" ++ workload
  producerSequence := UInt64.ofNat env.producerSequence
  prediction := { predictionPolicyUsed := policy }

def intoReserveSetRequest (rd : Reader Json) (env : ResumeEnv) (workloadInstanceId key : String) (p : Parsed) :
    Except String ResumedReserve := do
  let _ ← (rd.bigInt p.effect.amountAtomic).mapError ("amount_atomic parse: " ++ ·)
  let workload := if workloadInstanceId = "" then env.workload else workloadInstanceId
  let live ← found env.bundle "no contract bundle installed"
  let liveHash := Hex.encode live.bundleHash
  check (p.decision.contractBundleHashHex = "" ∨ p.decision.contractBundleHashHex = liveHash)
    ("[BUNDLE_HOT_RELOADED] approval was issued under bundle hash " ++ p.decision.contractBundleHashHex ++
      " but the sidecar's currently-installed bundle is " ++ liveHash)
  let event ← (env.sign (p.cloudEvent env workload live.parsed.predictionPolicy.asStr)).mapError
    ("sign resume cloudevent: " ++ ·)
  let priceSnapshotHash ← found (Hex.decode p.decision.priceSnapshotHashHex)
    "decision_context.price_snapshot_hash_hex decode"
  return {
    request := {
      tenantId := p.decision.tenantId
      decisionId := env.decision.text
      auditDecisionEventId := env.auditDecisionEvent.text
      producerSequence := env.producerSequence
      idempotency := some { key := key }
      fencing := some ⟨p.decision.fencingEpoch, p.decision.fencingScopeId, workload⟩
      claims := [p.claim]
      ttlExpiresAt := some env.ttlExpiresAt
      auditEvent := some event
      pricing := some ⟨p.decision.pricingVersion, priceSnapshotHash, p.decision.fxRateVersion,
        p.decision.unitConversionVersion⟩ }
    contractBundle := ⟨p.decision.contractBundleId,
      (Hex.decode p.decision.contractBundleHashHex).getD []⟩ }

end Parsed

structure ResumeRequest where
  tenantId : String
  approvalId : String
  workloadInstanceId : String

def resumeKey (approvalId : String) : String := sha256Hex ("resume:" ++ approvalId)

inductive ResumeStage
  | bundled (transaction : String)
  | denied
  | reserve (r : ResumedReserve)

/-- `resume_after_approval_inner` up to its call of `ReserveSet`. -/
def prepareResume (rd : Reader Json) (env : ResumeEnv) (req : ResumeRequest) (row : ApprovalRequest Json) :
    Except String ResumeStage := do
  let ctx ← (getApprovalForResume rd req.approvalId req.tenantId row).mapError
    ("[LEDGER_REJECTED] GetApprovalForResume: " ++ ·)
  if ctx.state = "approved" then
    if ctx.bundledLedgerTransactionId ≠ "" then return .bundled ctx.bundledLedgerTransactionId
    else
      let parsed ← (parse ctx).mapError ("[CONTEXT_PARSE_FAILED] " ++ ·)
      let r ← (parsed.intoReserveSetRequest rd env req.workloadInstanceId (resumeKey req.approvalId)).mapError
        ("[RESUME_BUILD_FAILED] " ++ ·)
      return .reserve r
  else if ctx.state = "denied" then return .denied
  else .error ("[APPROVAL_NON_TERMINAL] approval state=" ++ ctx.state.quote ++ " is not resumable")

section RoundTrip

variable (x : RequiredApproval)

/-- The claim that comes back: of the first one of the request, in the terms of the documents. -/
def RequiredApproval.parsed : Parsed where
  decision := {
    tenantId := x.tenantId
    budgetId := (x.claims.head?.map (·.budgetId)).getD ""
    windowInstanceId := (x.claims.head?.map (·.windowInstanceId)).getD ""
    fencingScopeId := x.fencing.scopeId
    fencingEpoch := x.fencing.epoch
    decisionId := x.decisionId
    matchedRuleIds := x.matchedRules
    reasonCodes := x.reasonCodes
    contractBundleId := x.bundle.bundleId.text
    contractBundleHashHex := Hex.encode x.bundle.bundleHash
    schemaBundleId := (x.schemaBundle.map (·.bundleId.text)).getD ""
    schemaBundleCanonicalVersion := (x.schemaBundle.map (·.canonicalSchemaVersion)).getD ""
    pricingVersion := x.bundle.pricing.version
    priceSnapshotHashHex := Hex.encode x.bundle.pricing.snapshotHash
    fxRateVersion := x.bundle.pricing.fxRateVersion
    unitConversionVersion := x.bundle.pricing.unitConversionVersion }
  effect := {
    unitId := ((x.claims.head?.bind (·.unit)).map (·.unitId)).getD ""
    unitKind := ((x.claims.head?.bind (·.unit)).map fun u => unitKindText u.kind).getD "MONETARY"
    unitTokenKind := ((x.claims.head?.bind (·.unit)).map (·.tokenKind)).getD ""
    amountAtomic := (x.claims.head?.map (·.amountAtomic)).getD ""
    direction := directionText (x.claims.head?.map (·.direction)) }

theorem asU64?_natCast {n : ℕ} (h : n < 2 ^ 64) : (Json.int n).asU64? = some n := by
  simp only [Json.asU64?]
  rw [if_pos ⟨Int.natCast_nonneg n, by exact_mod_cast h⟩, Int.toNat_natCast]

-- The fields are read in the order of the structure, which is not that of the document.
theorem ofJson_decisionContext : DecisionContext.ofJson x.decisionContext = .ok x.parsed.decision := by
  rw [DecisionContext.ofJson]
  iterate 4 refine (requiredString_bind rfl).trans ?_
  refine (required_bind rfl).trans ?_
  rw [asU64?_natCast x.epoch_lt, found_some, ok_bind]
  refine (requiredString_bind rfl).trans ?_
  iterate 2 refine (defaultStrings_bind rfl).trans ?_
  iterate 2 refine (requiredString_bind rfl).trans ?_
  iterate 6 refine (defaultString_bind rfl).trans ?_
  rfl

theorem ofJson_requestedEffect : RequestedEffect.ofJson x.requestedEffect = .ok x.parsed.effect := by
  rw [RequestedEffect.ofJson]
  iterate 2 refine (requiredString_bind rfl).trans ?_
  refine (defaultString_bind rfl).trans ?_
  iterate 2 refine (requiredString_bind rfl).trans ?_
  rfl

end RoundTrip

def claimTerms (c : Sidecar.BudgetClaim) : String × String × Option String × String × Sidecar.Direction :=
  (c.budgetId, c.windowInstanceId, c.unit.map (·.unitId), c.amountAtomic, c.direction)

section Claims

variable {x : RequiredApproval} {c : Sidecar.BudgetClaim} {cs : List Sidecar.BudgetClaim}

theorem directionOf_directionText (d : Sidecar.Direction) :
    directionOf (directionText (some d)) = d ↔ d ≠ .unspecified := by
  cases d <;> decide

theorem unitKindOf_unitKindText (k : Sidecar.UnitKind) :
    unitKindOf (unitKindText k) = k ↔ k ≠ .unspecified := by
  cases k <;> decide

theorem parsed_claim_cons (hclaims : x.claims = c :: cs) : x.parsed.claim = {
    budgetId := c.budgetId
    unit := some { unitId := (c.unit.map (·.unitId)).getD "",
                   kind := unitKindOf ((c.unit.map fun u => unitKindText u.kind).getD "MONETARY"),
                   tokenKind := (c.unit.map (·.tokenKind)).getD "" }
    amountAtomic := c.amountAtomic
    direction := directionOf (directionText (some c.direction))
    windowInstanceId := c.windowInstanceId } := by
  simp [Parsed.claim, RequiredApproval.parsed, hclaims]

theorem parsed_claim_terms :
    [x.parsed.claim].map claimTerms = x.claims.map claimTerms ↔
      ∃ c, x.claims = [c] ∧ c.unit.isSome = true ∧ c.direction ≠ .unspecified := by
  match hclaims : x.claims with
  | [] => simp
  | [c] =>
    rw [parsed_claim_cons hclaims]
    cases hunit : c.unit with
    | none => simp [claimTerms, hunit]
    | some u => simp [claimTerms, hunit, directionOf_directionText]
  | c :: d :: cs => simp

theorem parsed_claim_eq :
    [x.parsed.claim] = x.claims ↔
      ∃ c u, x.claims = [c] ∧ c.unit = some u ∧ c.direction ≠ .unspecified ∧ u.kind ≠ .unspecified ∧
        u.currency = "" ∧ u.unitName = "" ∧ u.modelFamily = "" ∧ u.creditProgram = "" := by
  match hclaims : x.claims with
  | [] => simp
  | [c] =>
    rw [parsed_claim_cons hclaims]
    obtain ⟨budget, unit, amount, direction, window⟩ := c
    cases unit with
    | none => simp
    | some u =>
      obtain ⟨unitId, kind, currency, unitName, tokenKind, modelFamily, creditProgram⟩ := u
      simp only [Option.map_some, Option.getD_some, List.cons.injEq, and_true,
        Sidecar.BudgetClaim.mk.injEq, true_and, Option.some.injEq, Sidecar.UnitRef.mk.injEq,
        directionOf_directionText, unitKindOf_unitKindText, exists_and_left, exists_eq_left']
      grind
  | c :: d :: cs => simp

end Claims

section Resume

variable {rd : Reader Json} {toVec : Json → {text : Bytes // text ≠ []}} {x : RequiredApproval}
  {recording : RecordEnv} {s : ApprovalDb Json} {a : RaisedApproval Json}

/-- The approval is one that the decision raises: the ledger reads back the documents it was sent. -/
structure RequiredApproval.Raises (x : RequiredApproval) (rd : Reader Json)
    (toVec : Json → {text : Bytes // text ≠ []}) (recording : RecordEnv) (s : ApprovalDb Json)
    (a : RaisedApproval Json) : Prop where
  json : ∀ j ∈ [x.decisionContext, x.requestedEffect], rd.json (toVec j) = .ok j
  raised : ∃ outcome s', recordDeniedDecision rd recording (x.attempt toVec).request s = .ok (outcome, s') ∧
    a ∈ s'.approvals
  new : a ∉ s.approvals

theorem RequiredApproval.Raises.row_eq (h : x.Raises rd toVec recording s a) :
    ∃ denied ttl, a.row = (⟨denied, x.decisionContext, x.requestedEffect, ttl⟩ : ApprovalPost Json).row rd
      recording.mint ∧ checkRow a.row = .ok () := by
  obtain ⟨hjson, ⟨outcome, s', hrecord, hraised⟩, hnew⟩ := h
  rw [List.forall_mem_cons, List.forall_mem_singleton] at hjson
  obtain ⟨t, context, effect, answer, -, hc, he, hpost⟩ := recordDeniedDecision_ok hrecord
  have hcontext : context = x.decisionContext := Except.ok.inj (hc.symm.trans hjson.1)
  have heffect : effect = x.requestedEffect := Except.ok.inj (he.symm.trans hjson.2)
  obtain ⟨ledger, -, ⟨_, -, rfl⟩ | ⟨-, hrow, rfl⟩⟩ := postApprovalRequiredDecision_ok hpost
  · exact absurd hraised hnew
  · rcases List.mem_append.mp hraised with hmem | hmem
    · exact absurd hmem hnew
    · rw [List.mem_singleton.mp hmem, ← hcontext, ← heffect]
      exact ⟨_, _, rfl, hrow⟩

variable {row : ApprovalRequest Json} {env : ResumeEnv} {live : CachedContractBundle} {req : ResumeRequest}

theorem prepareResume_approved (hcontext : row.decisionContext = x.decisionContext)
    (heffect : row.requestedEffect = x.requestedEffect) (happroved : row.state = .approved)
    (hunbundled : row.bundledLedgerTransactionId = none) (happroval : rd.uuid req.approvalId = some row.approvalId)
    (htenant : rd.uuid req.tenantId = some row.tenantId) :
    prepareResume rd env req row =
      (x.parsed.intoReserveSetRequest rd env req.workloadInstanceId (resumeKey req.approvalId)).mapError
        ("[RESUME_BUILD_FAILED] " ++ ·) >>= fun r => .ok (.reserve r) := by
  have hget : getApprovalForResume rd req.approvalId req.tenantId row = .ok ⟨row.approvalId.text,
      row.tenantId.text, row.decisionId.text, "approved", x.decisionContext, x.requestedEffect, ""⟩ := by
    rw [getApprovalForResume, happroval, htenant, found_some, found_some, ok_bind, ok_bind,
      check_of rfl, ok_bind, check_of rfl, ok_bind, hcontext, heffect, happroved, hunbundled]
    rfl
  have hparse (ctx : ApprovalResumeContext) (hc : ctx.decisionContext = x.decisionContext)
      (he : ctx.requestedEffect = x.requestedEffect) : parse ctx = .ok x.parsed := by
    rw [parse, hc, he, ofJson_decisionContext, ofJson_requestedEffect]
    rfl
  rw [prepareResume, hget, mapError_ok, ok_bind, if_pos rfl, if_neg (not_not.mpr rfl), hparse _ rfl rfl,
    mapError_ok, ok_bind]
  rfl

theorem intoReserveSetRequest_unread {workload key e : String} {p : Parsed}
    (hamount : rd.bigInt p.effect.amountAtomic = .error e) :
    p.intoReserveSetRequest rd env workload key = .error ("amount_atomic parse: " ++ e) := by
  rw [Parsed.intoReserveSetRequest, hamount]
  rfl

theorem intoReserveSetRequest_read (workload key : String) {n : ℤ} (hlive : env.bundle = some live)
    (hbundle : live.bundleHash = x.bundle.bundleHash) (hsign : ∀ e, (env.sign e).isOk = true)
    (hamount : rd.bigInt x.parsed.effect.amountAtomic = .ok n) :
    ∃ r, x.parsed.intoReserveSetRequest rd env workload key = .ok r ∧ r.request.claims = [x.parsed.claim] ∧
      r.request.pricing = some x.bundle.pricing := by
  obtain ⟨event, hevent⟩ := isOk_iff_exists.mp (hsign (x.parsed.cloudEvent env
    (if workload = "" then env.workload else workload) live.parsed.predictionPolicy.asStr))
  have hhash : x.parsed.decision.contractBundleHashHex = Hex.encode live.bundleHash := by
    rw [hbundle]
    rfl
  have hprice : Hex.decode x.parsed.decision.priceSnapshotHashHex = some x.bundle.pricing.snapshotHash :=
    Hex.decode_encode x.bundle.pricing.snapshotHash
  rw [Parsed.intoReserveSetRequest, hamount, mapError_ok, ok_bind, hlive, found_some, ok_bind]
  dsimp only
  rw [check_of (.inr hhash), ok_bind, hevent, mapError_ok, ok_bind, hprice, found_some, ok_bind]
  exact ⟨_, rfl, rfl, rfl⟩

theorem amount_read {cfg : Sidecar.SidecarConfig} {denv : DecisionEnv} {dreq : Sidecar.DecisionRequest}
    {c : Sidecar.BudgetClaim} (hlane : requireApproval rd cfg denv dreq = .ok (some x)) (hclaims : x.claims = [c]) :
    ∃ n, rd.bigInt x.parsed.effect.amountAtomic = .ok n := by
  obtain ⟨-, -, hdecision⟩ := requireApproval_ok hlane
  obtain ⟨-, ⟨-, c', hc', n, -, hn, -⟩, -⟩ := Sidecar.outcome_requireApproval hdecision
  rw [hclaims, List.mem_singleton] at hc'
  refine ⟨n, ?_⟩
  rw [← hn, hc']
  simp [RequiredApproval.parsed, hclaims]

variable (env) (req)

theorem resumed_iff {Q : List Sidecar.BudgetClaim → Prop} (hraises : x.Raises rd toVec recording s a) (hfrozen : Frozen a.row row)
    (happroved : row.state = .approved) (hunbundled : row.bundledLedgerTransactionId = none)
    (happroval : rd.uuid req.approvalId = some row.approvalId) (htenant : rd.uuid req.tenantId = some row.tenantId)
    (hlive : env.bundle = some live) (hbundle : live.bundleHash = x.bundle.bundleHash)
    (hsign : ∀ e, (env.sign e).isOk = true) :
    (∃ r, prepareResume rd env req row = .ok (.reserve r) ∧ Q r.request.claims ∧
        r.request.pricing = some x.bundle.pricing) ↔
      (∃ n, rd.bigInt x.parsed.effect.amountAtomic = .ok n) ∧ Q [x.parsed.claim] := by
  obtain ⟨denied, ttl, hrow, -⟩ := hraises.row_eq
  have hcontext : row.decisionContext = x.decisionContext := by
    rw [hfrozen.decisionContext, hrow]
    rfl
  have heffect : row.requestedEffect = x.requestedEffect := by
    rw [hfrozen.requestedEffect, hrow]
    rfl
  rw [prepareResume_approved hcontext heffect happroved hunbundled happroval htenant]
  cases hamount : rd.bigInt x.parsed.effect.amountAtomic with
  | error e =>
    rw [intoReserveSetRequest_unread hamount]
    constructor
    · rintro ⟨r, hr, -⟩
      cases hr
    · rintro ⟨⟨n, hn⟩, -⟩
      cases hn
  | ok n =>
    obtain ⟨r, hr, hclaims, hpricing⟩ := intoReserveSetRequest_read req.workloadInstanceId
      (resumeKey req.approvalId) hlive hbundle hsign hamount
    rw [hr, mapError_ok, ok_bind]
    constructor
    · rintro ⟨r', hr', hq, -⟩
      cases hr'
      rw [hclaims] at hq
      exact ⟨⟨n, rfl⟩, hq⟩
    · rintro ⟨-, hq⟩
      refine ⟨r, rfl, ?_, hpricing⟩
      rw [hclaims]
      exact hq

/-- A request whose approval is granted reserves on the same bundle what it asked for, at the prices of the
decision, exactly if it had one claim, with a unit and a direction; and the claim is the message that was
sent exactly if its unit has a kind besides, and nothing that the documents leave out. -/
theorem resumed_reserve_iff {cfg : Sidecar.SidecarConfig} {denv : DecisionEnv} {dreq : Sidecar.DecisionRequest}
    {claims : List Sidecar.BudgetClaim} (hclaims : Sidecar.buildBudgetClaims dreq = .ok claims)
    (hlane : requireApproval rd cfg denv dreq = .ok (some x))
    (hraises : x.Raises rd toVec recording s a) (hfrozen : Frozen a.row row)
    (happroved : row.state = .approved) (hunbundled : row.bundledLedgerTransactionId = none)
    (happroval : rd.uuid req.approvalId = some row.approvalId) (htenant : rd.uuid req.tenantId = some row.tenantId)
    (hlive : env.bundle = some live) (hbundle : live.bundleHash = denv.bundle.bundleHash)
    (hsign : ∀ e, (env.sign e).isOk = true) :
    ((∃ r, prepareResume rd env req row = .ok (.reserve r) ∧
        r.request.claims.map claimTerms = claims.map claimTerms ∧
        r.request.pricing = some denv.bundle.pricing) ↔
      ∃ c, claims = [c] ∧ c.unit.isSome = true ∧ c.direction ≠ .unspecified) ∧
    ((∃ r, prepareResume rd env req row = .ok (.reserve r) ∧ r.request.claims = claims ∧
        r.request.pricing = some denv.bundle.pricing) ↔
      ∃ c u, claims = [c] ∧ c.unit = some u ∧ c.direction ≠ .unspecified ∧ u.kind ≠ .unspecified ∧
        u.currency = "" ∧ u.unitName = "" ∧ u.modelFamily = "" ∧ u.creditProgram = "") := by
  obtain ⟨hbuilt, hx, -⟩ := requireApproval_ok hlane
  cases hclaims.symm.trans hbuilt
  rw [← hx] at hbundle ⊢
  have hresumed (Q : List Sidecar.BudgetClaim → Prop) := resumed_iff env req (Q := Q) hraises hfrozen happroved hunbundled happroval htenant hlive hbundle hsign
  constructor
  · rw [hresumed fun l => l.map claimTerms = x.claims.map claimTerms, parsed_claim_terms]
    apply and_iff_right_of_imp
    rintro ⟨c, hsingle, -⟩
    exact amount_read hlane hsingle
  · rw [hresumed (· = x.claims), parsed_claim_eq]
    apply and_iff_right_of_imp
    rintro ⟨c, u, hsingle, -⟩
    exact amount_read hlane hsingle

end Resume

section Demo

def largeClaim (amount : String) : Sidecar.BudgetClaim where
  budgetId := "b"
  unit := some { unitId := "u", kind := .monetary }
  amountAtomic := amount
  direction := .debit
  windowInstanceId := "w"

def largeClaims (claims : List Sidecar.BudgetClaim) : Sidecar.DecisionRequest where
  inputs := some { projectedClaims := claims }
  idempotency := some { key := "k1" }

def financeContract : Sidecar.Contract :=
  ⟨⟨7, []⟩, [⟨"large", ⟨⟨2, []⟩, none, some "5"⟩, ⟨.requireApproval, "LARGE", some "finance"⟩, .blockNextCall⟩],
    .strictCeiling⟩

def financeBundle : CachedContractBundle := ⟨⟨8, []⟩, [8], ⟨"p1", [9], "fx1", "uc1"⟩, financeContract⟩

def financeEnv : DecisionEnv where
  workload := "sidecar-1"
  bundle := financeBundle
  schemaBundle := none
  fencing := some ⟨⟨10, []⟩, 1, 0⟩
  epoch_lt f hf := by
    cases hf
    decide
  emittedCode := ""
  decision := "d1"
  auditDecisionEvent := "e1"
  producerSequence := 1
  event := {}

def financeUuid (text : String) : Option Uuid :=
  (["t", "b", "c", "d1", "e1", "a"].zip [1, 2, 7, 201, 301, 601]).lookup text |>.map (⟨·, []⟩)

def financeBigInt (text : String) : Except String ℤ :=
  found ((["5", "7"].zip [5, 7]).lookup text) "invalid digit found in string"

def financeApproval (claims : List Sidecar.BudgetClaim) : RequiredApproval where
  tenantId := "t"
  key := "k1"
  decisionId := "d1"
  auditDecisionEventId := "e1"
  producerSequence := 1
  fencing := ⟨1, Uuid.text ⟨10, []⟩, "sidecar-1"⟩
  claims := claims
  matchedRules := (financeContract.outcome financeUuid financeBigInt "" claims).matchedRuleIds
  reasonCodes := (financeContract.outcome financeUuid financeBigInt "" claims).reasonCodes
  event := {}
  bundle := financeBundle
  schemaBundle := none
  epoch_lt := by decide

def shortVec (j : Json) : {text : Bytes // text ≠ []} :=
  if (j.get? "unit_id").isSome then ⟨[2], by decide⟩ else ⟨[1], by decide⟩

def financeReader (claims : List Sidecar.BudgetClaim) : Reader Json where
  uuid := financeUuid
  cast _ := some ⟨10, []⟩
  bigInt := financeBigInt
  json text := .ok (if text = [2] then (financeApproval claims).requestedEffect
    else (financeApproval claims).decisionContext)
  emptyObject := .obj []

theorem financeReader_json (claims : List Sidecar.BudgetClaim) :
    ∀ j ∈ [(financeApproval claims).decisionContext, (financeApproval claims).requestedEffect],
      (financeReader claims).json (shortVec j) = .ok j := by
  rw [List.forall_mem_cons, List.forall_mem_singleton]
  exact ⟨rfl, rfl⟩

def financeResume : ResumeEnv :=
  ⟨"eu", "sidecar-1", some financeBundle, ⟨211, []⟩, ⟨311, []⟩, 2, {}, 100, .ok⟩

def financeRecord (claims : List Sidecar.BudgetClaim) : Except RecordError (RecordOutcome × ApprovalDb Json) :=
  recordDeniedDecision (financeReader claims) (demoEnv 1) ((financeApproval claims).attempt shortVec).request
    ⟨openLedger, []⟩

def financeRaised (p : RecordOutcome × ApprovalDb Json) : Bool :=
  p.2.approvals.map (fun a => (a.row.approvalId, a.row.tenantId, a.row.bundledLedgerTransactionId)) =
    [(⟨601, []⟩, ⟨1, []⟩, none)]

theorem finance_raises (claims : List Sidecar.BudgetClaim)
    (h : (financeRecord claims).toOption.any financeRaised = true) :
    ∃ a, (financeApproval claims).Raises (financeReader claims) shortVec (demoEnv 1) ⟨openLedger, []⟩ a ∧
      a.row.approvalId = ⟨601, []⟩ ∧ a.row.tenantId = ⟨1, []⟩ ∧ a.row.bundledLedgerTransactionId = none := by
  obtain ⟨⟨outcome, s'⟩, hrecord, hraised⟩ := (Option.any_eq_true ..).mp h
  rw [financeRaised, decide_eq_true_eq, List.map_eq_singleton_iff] at hraised
  obtain ⟨a, happrovals, hrow⟩ := hraised
  simp only [Prod.mk.injEq] at hrow
  refine ⟨a, ⟨financeReader_json claims, ⟨outcome, s', toOption_eq_some.mp hrecord, ?_⟩, by simp⟩, hrow⟩
  rw [happrovals]
  exact List.mem_singleton_self a

def RaisedApproval.granted (a : RaisedApproval Json) : ApprovalRequest Json := { a.row with state := .approved }

theorem RaisedApproval.frozen_granted (a : RaisedApproval Json) : Frozen a.row a.granted :=
  ⟨rfl, rfl, rfl, rfl, rfl, rfl, rfl, rfl, rfl, rfl, rfl, rfl⟩

/-- One claim is reserved as it was asked for. -/
theorem single_claim_resumed :
    requireApproval (financeReader [largeClaim "5"]) ⟨"t", "eu"⟩ financeEnv (largeClaims [largeClaim "5"]) =
      .ok (some (financeApproval [largeClaim "5"])) ∧
    ∃ a, (financeApproval [largeClaim "5"]).Raises (financeReader [largeClaim "5"]) shortVec (demoEnv 1)
        ⟨openLedger, []⟩ a ∧
      ∃ r, prepareResume (financeReader [largeClaim "5"]) financeResume ⟨"t", "a", ""⟩ a.granted =
          .ok (.reserve r) ∧
        r.request.claims = [largeClaim "5"] ∧ r.request.pricing = some financeBundle.pricing := by
  have hlane : requireApproval (financeReader [largeClaim "5"]) ⟨"t", "eu"⟩ financeEnv
      (largeClaims [largeClaim "5"]) = .ok (some (financeApproval [largeClaim "5"])) := rfl
  refine ⟨hlane, ?_⟩
  obtain ⟨a, hraises, hid, htenant, hunbundled⟩ := finance_raises [largeClaim "5"] (by decide +kernel)
  refine ⟨a, hraises, ?_⟩
  apply (resumed_reserve_iff financeResume ⟨"t", "a", ""⟩ rfl hlane hraises a.frozen_granted rfl hunbundled
    (congrArg some hid.symm) (congrArg some htenant.symm) rfl rfl fun _ => rfl).2.mpr
  exact ⟨_, _, rfl, rfl, by decide, by decide, rfl, rfl, rfl, rfl⟩

/-- Of two claims the second is lost. -/
theorem second_claim_lost :
    requireApproval (financeReader [largeClaim "5", largeClaim "7"]) ⟨"t", "eu"⟩ financeEnv
        (largeClaims [largeClaim "5", largeClaim "7"]) =
      .ok (some (financeApproval [largeClaim "5", largeClaim "7"])) ∧
    Sidecar.buildBudgetClaims (largeClaims [largeClaim "5", largeClaim "7"]) =
      .ok [largeClaim "5", largeClaim "7"] ∧
    ∃ a, (financeApproval [largeClaim "5", largeClaim "7"]).Raises (financeReader [largeClaim "5", largeClaim "7"])
        shortVec (demoEnv 1) ⟨openLedger, []⟩ a ∧
      ∃ r, prepareResume (financeReader [largeClaim "5", largeClaim "7"]) financeResume ⟨"t", "a", ""⟩ a.granted =
          .ok (.reserve r) ∧
        r.request.claims = [largeClaim "5"] := by
  refine ⟨rfl, rfl, ?_⟩
  obtain ⟨a, hraises, hid, htenant, hunbundled⟩ :=
    finance_raises [largeClaim "5", largeClaim "7"] (by decide +kernel)
  refine ⟨a, hraises, ?_⟩
  obtain ⟨r, hr, hclaims, -⟩ := (resumed_iff financeResume ⟨"t", "a", ""⟩ (Q := (· = [largeClaim "5"])) hraises
    a.frozen_granted rfl hunbundled (congrArg some hid.symm) (congrArg some htenant.symm) rfl rfl
    fun _ => rfl).mpr ⟨⟨5, rfl⟩, rfl⟩
  exact ⟨r, hr, hclaims⟩

end Demo

end SpendGuard.Approval
