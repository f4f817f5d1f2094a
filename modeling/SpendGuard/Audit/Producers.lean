import SpendGuard.Audit.Mirror
import SpendGuard.Sidecar.Request

/-!
The events the shipping producers build, the outbox rows their posts end in, and which of the posts the
calendar refuses.
-/

namespace SpendGuard.Audit

open Base Ledger

inductive PredictionPolicy
  | strictCeiling
  | empiricalRunCeiling
  | adaptiveCeiling
  | shadowOnly
  deriving DecidableEq

def PredictionPolicy.text : PredictionPolicy → String
  | .strictCeiling => "STRICT_CEILING"
  | .empiricalRunCeiling => "EMPIRICAL_RUN_CEILING"
  | .adaptiveCeiling => "ADAPTIVE_CEILING"
  | .shadowOnly => "SHADOW_ONLY"

structure ProjectResponse where
  runProjectionAtDecisionAtomic : Int64
  runPredictedRemainingSteps : Int32
  runStepsCompletedSoFar : Int64

/-- What is minted for each event, and what the signer adds to it. -/
structure Stamp where
  id : Uuid
  time : Timestamp
  sequence : UInt64
  signingKeyId : String
  signature : Bytes

structure SidecarContext where
  region : String
  workload : String
  tenant : String

def SidecarContext.event (ctx : SidecarContext) (stamp : Stamp) (type : String) (decision : Uuid) (data : Bytes) :
    CloudEvent where
  specversion := "1.0"
  type := type
  source := "sidecar://" ++ ctx.region ++ "/" ++ ctx.workload
  id := stamp.id.text
  time := some stamp.time
  datacontenttype := "application/json"
  data := data
  tenantId := ctx.tenant
  decisionId := decision.text
  producerId := "sidecar:" ++ ctx.workload
  producerSequence := stamp.sequence
  producerSignature := stamp.signature
  signingKeyId := stamp.signingKeyId

def jsonBytes (v : Json) : Bytes := (Json.render v).toUTF8.data.toList

/-- The policy is the contract's; the projector's answer replaces the run fields of the estimate. -/
def decisionPrediction (policy : PredictionPolicy) (projector : Option ProjectResponse)
    (estimate : Option Sidecar.ClaimEstimate) : Prediction :=
  let p : Prediction := { predictionPolicyUsed := policy.text }
  let p := match estimate with
    | some est => { p with
        predictedATokens := .ofInt est.predictedATokens
        predictedBTokens := .ofInt est.predictedBTokens
        predictedCTokens := .ofInt est.predictedCTokens
        reservedStrategy := est.reservedStrategy
        predictionStrategyUsed := est.predictionStrategyUsed
        tokenizerTier := est.tokenizerTier
        tokenizerVersionId := est.tokenizerVersionId
        predictionConfidence := est.predictionConfidence
        predictionSampleSize := .ofInt est.predictionSampleSize
        coldStartLayerUsed := est.coldStartLayerUsed
        runProjectionAtDecisionAtomic := .ofInt est.runProjectionAtDecisionAtomic
        runPredictedRemainingSteps := .ofInt est.runPredictedRemainingSteps
        runStepsCompletedSoFar := .ofInt est.runStepsCompletedSoFar }
    | none => { p with
        runProjectionAtDecisionAtomic := 0
        runPredictedRemainingSteps := -1
        runStepsCompletedSoFar := 0 }
  match projector with
  | some r => { p with
      runProjectionAtDecisionAtomic := r.runProjectionAtDecisionAtomic
      runPredictedRemainingSteps := r.runPredictedRemainingSteps
      runStepsCompletedSoFar := r.runStepsCompletedSoFar }
  | none => p

/-- A decision of the sidecar, on the reserve and on the deny lane alike. -/
structure DecisionInputs where
  ctx : SidecarContext
  stamp : Stamp
  decision : Uuid
  runId : String
  schemaBundleId : String
  /-- The snapshot, serialised. -/
  data : Bytes
  policy : PredictionPolicy
  projector : Option ProjectResponse
  estimate : Option Sidecar.ClaimEstimate

def DecisionInputs.prediction (d : DecisionInputs) : Prediction := decisionPrediction d.policy d.projector d.estimate

def buildAuditDecisionCloudevent (d : DecisionInputs) : CloudEvent :=
  { d.ctx.event d.stamp decisionType d.decision d.data with
    runId := d.runId
    schemaBundleId := d.schemaBundleId
    prediction := d.prediction }

/-- A decision resumed after approval has no estimate and no run. -/
structure ResumeInputs where
  ctx : SidecarContext
  stamp : Stamp
  decision : Uuid
  schemaBundleId : String
  data : Bytes
  policy : PredictionPolicy

def resumeCloudevent (r : ResumeInputs) : CloudEvent :=
  { r.ctx.event r.stamp decisionType r.decision r.data with
    schemaBundleId := r.schemaBundleId
    prediction := { predictionPolicyUsed := r.policy.text } }

def realIsAmount (bits : UInt32) : Bool := bits.toNat % 2 ^ 31 < 0x7f800000 && (bits.toNat < 2 ^ 31 || realIsZero bits)

structure CommitInputs where
  ctx : SidecarContext
  stamp : Stamp
  reservation : Uuid
  decision : Uuid
  estimatedAmountAtomic : String
  actualInputTokens : Option Int64
  actualOutputTokens : Option Int64
  deltaBRatio : Option UInt32
  deltaCRatio : Option UInt32

def CommitInputs.data (fl : FloatText) (c : CommitInputs) : Json :=
  .obj ((c.actualInputTokens.toList.map fun n => ("actual_input_tokens", .int n.toInt)) ++
    (c.actualOutputTokens.toList.map fun n => ("actual_output_tokens", .int n.toInt)) ++
    [("decision_id", .str c.decision.text)] ++
    ((c.deltaBRatio.filter (realIsAmount ·)).toList.map fun x => ("delta_b_ratio", .real (fl.render x))) ++
    ((c.deltaCRatio.filter (realIsAmount ·)).toList.map fun x => ("delta_c_ratio", .real (fl.render x))) ++
    [("estimated_amount_atomic", .str c.estimatedAmountAtomic), ("kind", .str "commit_estimated"),
      ("reservation_id", .str c.reservation.text)])

def commitCloudevent (fl : FloatText) (c : CommitInputs) : CloudEvent :=
  { c.ctx.event c.stamp outcomeType c.decision (jsonBytes (c.data fl)) with
    prediction := {
      actualInputTokens := c.actualInputTokens.getD 0
      actualOutputTokens := c.actualOutputTokens.getD 0
      deltaBRatio := (c.deltaBRatio.filter (realIsAmount ·)).getD 0
      deltaCRatio := (c.deltaCRatio.filter (realIsAmount ·)).getD 0 } }

structure ReleaseInputs where
  ctx : SidecarContext
  stamp : Stamp
  reservation : Uuid
  reservationSet : Uuid
  decision : Uuid
  reason : String
  metadata : String

def ReleaseInputs.data (r : ReleaseInputs) : Json :=
  .obj [("decision_id", .str r.decision.text), ("kind", .str "release"), ("metadata", .str r.metadata),
    ("reason", .str r.reason), ("reservation_id", .str r.reservation.text),
    ("reservation_set_id", .str r.reservationSet.text)]

def releaseCloudevent (r : ReleaseInputs) : CloudEvent :=
  r.ctx.event r.stamp outcomeType r.decision (jsonBytes r.data)

structure SweepInputs where
  workload : String
  stamp : Stamp
  tenant : Uuid
  reservation : Uuid
  decision : Uuid
  ttlExpiresAt : String

def SweepInputs.data (s : SweepInputs) : Json :=
  .obj [("reason", .str "TTL_EXPIRED"), ("reservation_id", .str s.reservation.text),
    ("ttl_expires_at", .str s.ttlExpiresAt)]

def sweepCloudevent (s : SweepInputs) : CloudEvent where
  specversion := "1.0"
  type := outcomeType
  source := "ttl-sweeper://" ++ s.tenant.text ++ "/" ++ s.workload
  id := s.stamp.id.text
  time := some s.stamp.time
  datacontenttype := "application/json"
  data := jsonBytes s.data
  tenantId := s.tenant.text
  decisionId := s.decision.text
  producerId := "ttl-sweeper:" ++ s.workload
  producerSequence := s.stamp.sequence
  producerSignature := s.stamp.signature
  signingKeyId := s.stamp.signingKeyId

structure WebhookInputs where
  workload : String
  stamp : Stamp
  provider : String
  providerAccount : String
  providerEventId : String
  tenant : String
  decision : Uuid
  amount : Option ℤ

def WebhookInputs.data (w : WebhookInputs) (kind : String) : Json :=
  .obj [("amount_atomic", .str ((w.amount.map toString).getD "")), ("kind", .str kind), ("provider", .str w.provider),
    ("provider_account", .str w.providerAccount), ("provider_event_id", .str w.providerEventId)]

def buildCloudevent (w : WebhookInputs) (type kind : String) : CloudEvent where
  specversion := "1.0"
  type := type
  source := "webhook-receiver://" ++ w.provider ++ "/" ++ w.providerAccount
  id := w.stamp.id.text
  time := some w.stamp.time
  datacontenttype := "application/json"
  data := jsonBytes (w.data kind)
  tenantId := w.tenant
  decisionId := w.decision.text
  producerId := "webhook-receiver:" ++ w.workload
  producerSequence := w.stamp.sequence
  signingKeyId := "webhook-receiver:demo:v1"

inductive AuditPost
  | decision (d : DecisionInputs)
  | resume (r : ResumeInputs)
  | commit (c : CommitInputs)
  | release (r : ReleaseInputs)
  | sweep (s : SweepInputs)
  | providerReport (w : WebhookInputs)
  | invoice (w : WebhookInputs) (m : InvoiceMint)

def AuditPost.rows (fl : FloatText) : AuditPost → List (String × Json)
  | .decision d => [(decisionType, cloudeventPayload fl (buildAuditDecisionCloudevent d))]
  | .resume r => [(decisionType, cloudeventPayload fl (resumeCloudevent r))]
  | .commit c => [(outcomeType, cloudeventPayload fl (commitCloudevent fl c))]
  | .release r => [(outcomeType, cloudeventPayload fl (releaseCloudevent r))]
  | .sweep s => [(outcomeType, cloudeventPayload fl (sweepCloudevent s))]
  | .providerReport w => [(decisionType, cloudeventPayload fl (buildCloudevent w decisionType "provider_report"))]
  | .invoice w m =>
    let e := buildCloudevent w outcomeType "invoice_reconcile"
    [(decisionType, extractCloudeventPayload
        (invoiceDecision m w.decision (w.stamp.id.digest ":decision") w.stamp.sequence.toNat e)),
      (outcomeType, extractCloudeventPayload e)]

def AuditPost.outcomeData (fl : FloatText) : AuditPost → Option Json
  | .decision _ | .resume _ | .providerReport _ => none
  | .commit c => some (c.data fl)
  | .release r => some r.data
  | .sweep s => some s.data
  | .invoice w _ => some (w.data "invoice_reconcile")

structure Prediction.Valid (fl : FloatText) (pg : Postgres) (q : Prediction) : Prop where
  reservedStrategy : q.reservedStrategy ∈ ["", "A", "B", "C"]
  predictionStrategyUsed : q.predictionStrategyUsed ∈ ["", "A", "B", "C"]
  tokenizerTier : q.tokenizerTier ∈ ["", "T1", "T2", "T3"]
  coldStartLayerUsed : q.coldStartLayerUsed ∈ ["", "L1", "L2", "L3", "L4"]
  tokenizerVersionId : q.tokenizerVersionId = "" ∨ (pg.castUuid q.tokenizerVersionId).isSome = true
  predictionConfidence : ∃ n, pg.castNumeric43 (fl.render q.predictionConfidence) = some n ∧ 0 ≤ n ∧ n ≤ 1000
  predictedATokens : 0 ≤ q.predictedATokens.toInt
  predictedBTokens : 0 ≤ q.predictedBTokens.toInt
  predictedCTokens : 0 ≤ q.predictedCTokens.toInt
  predictionSampleSize : 0 ≤ q.predictionSampleSize.toInt
  runProjection : 0 ≤ q.runProjectionAtDecisionAtomic.toInt
  runRemaining : -1 ≤ q.runPredictedRemainingSteps.toInt
  runSteps : 0 ≤ q.runStepsCompletedSoFar.toInt

structure Prediction.Informed (q : Prediction) : Prop where
  predictedATokens : q.predictedATokens.toInt ≠ 0
  reservedStrategy : q.reservedStrategy ≠ ""
  predictionStrategyUsed : q.predictionStrategyUsed ≠ ""
  tokenizerTier : q.tokenizerTier ≠ ""
  projected : noProjector q.runProjectionAtDecisionAtomic.toInt q.runPredictedRemainingSteps.toInt
    q.runStepsCompletedSoFar.toInt = false

def AuditPost.CalendarFree (fl : FloatText) (pg : Postgres) : AuditPost → Prop
  | .decision d => d.prediction.Valid fl pg → d.prediction.Informed
  | .commit c => ∃ i o, c.actualInputTokens = some i ∧ 0 ≤ i.toInt ∧ c.actualOutputTokens = some o ∧ 0 ≤ o.toInt
  | _ => False

namespace PredictionColumns

theorem oneOf_text {s : String} {values : List String} :
    oneOf (if s = "" then none else some s) values = true ↔ s ∈ "" :: values := by
  by_cases h : s = "" <;> simp [oneOf, h]

theorem nonneg_nonzero {n : ℤ} : nonneg (nonzero (some n)) = true ↔ 0 ≤ n := by
  by_cases h : n = 0 <;> simp [nonneg, nonzero, Option.filter, h]

theorem pos_nonzero {n : ℤ} (h : 0 ≤ n) : (nonzero (some n)).all (0 < ·) = true := by
  by_cases hn : n = 0
  · simp [nonzero, Option.filter, hn]
  · simp only [nonzero, Option.filter, ne_eq, hn, not_false_eq_true, decide_true, if_true, Option.all_some,
      decide_eq_true_eq]
    omega

end PredictionColumns

theorem noProjector_iff {projection remaining steps : ℤ} :
    noProjector projection remaining steps = true ↔
      projection = 0 ∧ (remaining = -1 ∨ remaining = 0) ∧ steps = 0 := by
  simp [noProjector, and_assoc]

section Decision

open PredictionColumns

variable {fl : FloatText} {pg : Postgres} {q : Prediction} {version : Option Uuid} {n : ℤ}

theorem Prediction.columns_sound_iff :
    (q.columns version (some n)).Sound decisionType ↔
      q.reservedStrategy ∈ ["", "A", "B", "C"] ∧ q.predictionStrategyUsed ∈ ["", "A", "B", "C"] ∧
      q.predictionPolicyUsed ∈ ["", "STRICT_CEILING", "EMPIRICAL_RUN_CEILING", "ADAPTIVE_CEILING", "SHADOW_ONLY"] ∧
      q.tokenizerTier ∈ ["", "T1", "T2", "T3"] ∧ (0 ≤ n ∧ n ≤ 1000) ∧
      q.coldStartLayerUsed ∈ ["", "L1", "L2", "L3", "L4"] ∧
      ((0 ≤ q.predictedATokens.toInt ∧ 0 ≤ q.predictedBTokens.toInt) ∧ 0 ≤ q.predictedCTokens.toInt) ∧
      (-1 ≤ q.runPredictedRemainingSteps.toInt ∧ 0 ≤ q.runStepsCompletedSoFar.toInt) ∧
      0 ≤ q.runProjectionAtDecisionAtomic.toInt ∧ 0 ≤ q.predictionSampleSize.toInt := by
  have hconfidence : (nonzero (some n)).all (fun n => 0 ≤ n && n ≤ 1000) = true ↔ 0 ≤ n ∧ n ≤ 1000 := by
    by_cases hn : n = 0 <;> simp [nonzero, Option.filter, hn]
  have hidle (x : ℤ) (hx : noProjector q.runProjectionAtDecisionAtomic.toInt q.runPredictedRemainingSteps.toInt
      q.runStepsCompletedSoFar.toInt = true → x = 0) :
      nonneg (if noProjector q.runProjectionAtDecisionAtomic.toInt q.runPredictedRemainingSteps.toInt
        q.runStepsCompletedSoFar.toInt = true then none else some x) = true ↔ 0 ≤ x := by
    split
    · simp [nonneg, hx ‹_›]
    · simp [nonneg]
  have hremaining : (if noProjector q.runProjectionAtDecisionAtomic.toInt q.runPredictedRemainingSteps.toInt
      q.runStepsCompletedSoFar.toInt = true ∨ q.runPredictedRemainingSteps.toInt = -1 then none
      else some q.runPredictedRemainingSteps.toInt).all (-1 ≤ ·) = true ↔ -1 ≤ q.runPredictedRemainingSteps.toInt := by
    split
    · rename_i h
      have hlow : -1 ≤ q.runPredictedRemainingSteps.toInt := by
        rcases h with h | h
        · have := (noProjector_iff.mp h).2.1
          omega
        · omega
      simp [hlow]
    · simp
  have hbound : (if noProjector q.runProjectionAtDecisionAtomic.toInt q.runPredictedRemainingSteps.toInt
      q.runStepsCompletedSoFar.toInt = true then none
      else some q.runProjectionAtDecisionAtomic.toInt).all (· ≤ 9223372036854775807) = true := by
    have hlt := q.runProjectionAtDecisionAtomic.toInt_lt
    split
    · rfl
    · simp only [Option.all_some, decide_eq_true_eq]
      omega
  simp only [Sound, domainConstraints, Prediction.columns, List.forall_mem_cons, oneOf_text, nonneg_nonzero, hconfidence,
    Bool.and_eq_true, hidle _ fun h => (noProjector_iff.mp h).1, hidle _ fun h => (noProjector_iff.mp h).2.2, hremaining,
    hbound]
  constructor
  · rintro ⟨hreserved, hused, hpolicy, htier, hn, hlayer, htokens, -, hruns, hprojection, -, hsample, -⟩
    exact ⟨hreserved, hused, hpolicy, htier, hn, hlayer, htokens, hruns, hprojection, hsample⟩
  · rintro ⟨hreserved, hused, hpolicy, htier, hn, hlayer, htokens, hruns, hprojection, hsample⟩
    exact ⟨hreserved, hused, hpolicy, htier, hn, hlayer, htokens, ⟨rfl, rfl⟩, hruns, hprojection, trivial, hsample, rfl, rfl,
      by simp [decisionType, outcomeType], by simp [pos_nonzero htokens.1.2], by simp [pos_nonzero htokens.2], by simp⟩

theorem castUuidJson_isOk_iff {s : String} :
    (∃ version, castUuidJson pg (some (.str s)) = .ok version) ↔ s = "" ∨ (pg.castUuid s).isSome = true := by
  by_cases h : s = ""
  · simp [castUuidJson, castKey, h]
  · simp only [castUuidJson, castKey, h, if_false, false_or, bind_eq_ok, found_eq_ok, Option.isSome_iff_exists]
    constructor
    · rintro ⟨_, u, hu, _⟩
      exact ⟨u, hu⟩
    · rintro ⟨u, hu⟩
      exact ⟨_, u, hu, rfl⟩

theorem castNumeric43Json_eq_ok {text : String} {confidence : Option ℤ} :
    castNumeric43Json pg (some (.real text)) = .ok confidence ↔
      ∃ n, pg.castNumeric43 text = some n ∧ some n = confidence := by
  simp only [castNumeric43Json, castKey, bind_eq_ok, found_eq_ok]
  exact exists_congr fun n => and_congr_right fun _ => ⟨Except.ok.inj, congrArg Except.ok⟩

variable {p : Json} {policy : PredictionPolicy}

theorem PredictionPolicy.text_mem (policy : PredictionPolicy) :
    policy.text ∈ ["STRICT_CEILING", "EMPIRICAL_RUN_CEILING", "ADAPTIVE_CEILING", "SHADOW_ONLY"] := by
  cases policy <;> decide

theorem CarriesPrediction.admissible_iff (h : CarriesPrediction fl p q)
    (hpolicy : q.predictionPolicyUsed ∈
      ["", "STRICT_CEILING", "EMPIRICAL_RUN_CEILING", "ADAPTIVE_CEILING", "SHADOW_ONLY"]) :
    Admissible fl pg [(decisionType, p)] ↔ q.Valid fl pg := by
  simp only [Admissible, List.mem_singleton, forall_eq, h.mirrored_decision, bind_eq_ok, castNumeric43Json_eq_ok]
  constructor
  · rintro ⟨_, ⟨version, hversion, _, ⟨n, hn, rfl⟩, hc⟩, hsound⟩
    cases hc
    obtain ⟨hreserved, hused, -, htier, hconfidence, hlayer, ⟨⟨ha, hb⟩, hc⟩, ⟨hremaining, hsteps⟩, hprojection, hsample⟩ :=
      Prediction.columns_sound_iff.mp hsound
    exact ⟨hreserved, hused, htier, hlayer, castUuidJson_isOk_iff.mp ⟨version, hversion⟩, ⟨n, hn, hconfidence⟩, ha, hb, hc,
      hsample, hprojection, hremaining, hsteps⟩
  · intro hq
    obtain ⟨n, hn, hconfidence⟩ := hq.predictionConfidence
    obtain ⟨version, hversion⟩ := castUuidJson_isOk_iff.mpr hq.tokenizerVersionId
    exact ⟨_, ⟨version, hversion, _, ⟨n, hn, rfl⟩, rfl⟩, Prediction.columns_sound_iff.mpr
      ⟨hq.reservedStrategy, hq.predictionStrategyUsed, hpolicy, hq.tokenizerTier, hconfidence, hq.coldStartLayerUsed,
        ⟨⟨hq.predictedATokens, hq.predictedBTokens⟩, hq.predictedCTokens⟩, ⟨hq.runRemaining, hq.runSteps⟩,
        hq.runProjection, hq.predictionSampleSize⟩⟩

section Required

theorem isSome_text {s : String} : (if s = "" then none else some s).isSome = true ↔ s ≠ "" := by
  split <;> simp_all

theorem isSome_nonzero {n : ℤ} : (nonzero (some n)).isSome = true ↔ n ≠ 0 := by simp [nonzero, Option.filter]

theorem isSome_unless {idle : Bool} {n : ℤ} : (if idle = true then none else some n).isSome = true ↔ idle = false := by
  cases idle <;> simp

variable {confidence : Option ℤ}

theorem Prediction.informed_of_complete (h : (q.columns version confidence).Complete decisionType) : q.Informed := by
  obtain ⟨htokens, hreserved, hused, -, htier, hrun, -⟩ := h.decision rfl
  exact ⟨isSome_nonzero.mp htokens, isSome_text.mp hreserved, isSome_text.mp hused, isSome_text.mp htier,
    isSome_unless.mp hrun⟩

theorem Prediction.Informed.complete (h : q.Informed) (hpolicy : q.predictionPolicyUsed ≠ "")
    (ha : 0 ≤ q.predictedATokens.toInt) : (q.columns version confidence).Complete decisionType where
  decision _ := ⟨isSome_nonzero.mpr h.predictedATokens, isSome_text.mpr h.reservedStrategy,
    isSome_text.mpr h.predictionStrategyUsed, isSome_text.mpr hpolicy, isSome_text.mpr h.tokenizerTier,
    isSome_unless.mpr h.projected, isSome_unless.mpr h.projected⟩
  outcome htype := absurd htype (by decide)
  nonzero _ := pos_nonzero ha

end Required

theorem CarriesPrediction.informed_of_filled (h : CarriesPrediction fl p q) (hq : q.Valid fl pg)
    (hfilled : Filled fl pg [(decisionType, p)]) : q.Informed := by
  obtain ⟨n, hn, -⟩ := hq.predictionConfidence
  obtain ⟨version, hversion⟩ := castUuidJson_isOk_iff.mpr hq.tokenizerVersionId
  apply Prediction.informed_of_complete
  apply hfilled _ (List.mem_singleton_self _)
  rw [h.mirrored_decision]
  exact bind_eq_ok.mpr ⟨version, hversion, bind_eq_ok.mpr ⟨_, castNumeric43Json_eq_ok.mpr ⟨n, hn, rfl⟩, rfl⟩⟩

theorem CarriesPrediction.filled_iff (h : CarriesPrediction fl p q) (hpolicy : q.predictionPolicyUsed ≠ "")
    (hq : q.Valid fl pg) : Filled fl pg [(decisionType, p)] ↔ q.Informed := by
  refine ⟨h.informed_of_filled hq, fun hinformed row hrow c hc => ?_⟩
  cases List.mem_singleton.mp hrow
  simp only [h.mirrored_decision, bind_eq_ok] at hc
  obtain ⟨version, -, confidence, -, hc⟩ := hc
  cases hc
  exact hinformed.complete hpolicy hq.predictedATokens

end Decision

section Outcome

open PredictionColumns

variable {fl : FloatText} {pg : Postgres} {v p : Json} {key : String}

theorem actualTokens_eq {x : Option Int64} (hobj : v.isObj = true) (hv : v.get? key = x.map fun n => .int n.toInt)
    (hp : p.get? key = some (.int (x.getD 0).toInt)) :
    actualTokens pg (some v) p key = .ok ((x.map (·.toInt)).filter (0 ≤ ·)) := by
  rw [actualTokens, Option.filter_some, jsonbHas_obj hobj, hv]
  cases x with
  | none =>
    simp only [Option.map_none, hp, castBigintJson_int64, ok_bind]
    rfl
  | some n =>
    simp only [Option.map_some, Option.isSome_some, if_true, hv, castBigintJson_int64, ok_bind]
    rfl

def outcomeColumnsOf (input output : Option Int64) (b c : UInt32) : PredictionColumns where
  actualInputTokens := (input.map (·.toInt)).filter (0 ≤ ·)
  actualOutputTokens := (output.map (·.toInt)).filter (0 ≤ ·)
  deltaBRatio := (some b).filter (!realIsZero ·)
  deltaCRatio := (some c).filter (!realIsZero ·)

variable {input output : Option Int64} {b c : UInt32}

theorem outcomeColumnsOf_sound (hb : realIsNegative b = false) (hc : realIsNegative c = false) :
    (outcomeColumnsOf input output b c).Sound outcomeType := by
  have hcount (x : Option Int64) : nonneg ((x.map (·.toInt)).filter (0 ≤ ·)) = true := by
    cases x with
    | none => rfl
    | some n => by_cases hn : 0 ≤ n.toInt <;> simp [nonneg, Option.filter, hn]
  have hratio {x : UInt32} (hx : realIsNegative x = false) :
      ((some x).filter (!realIsZero ·)).all (!realIsNegative ·) = true := by
    cases hz : realIsZero x <;> simp [Option.filter, hz, hx]
  simp only [Sound, domainConstraints, outcomeColumnsOf, List.forall_mem_cons, hcount, hratio hb, hratio hc]
  simp [oneOf, nonneg]

theorem outcomeColumnsOf_complete_iff :
    (outcomeColumnsOf input output b c).Complete outcomeType ↔
      ∃ i o, input = some i ∧ 0 ≤ i.toInt ∧ output = some o ∧ 0 ≤ o.toInt := by
  have hcount (x : Option Int64) :
      ((x.map (·.toInt)).filter (0 ≤ ·)).isSome = true ↔ ∃ n, x = some n ∧ 0 ≤ n.toInt := by
    cases x <;> simp [Option.filter]
  constructor
  · intro h
    obtain ⟨hi, ho⟩ := h.outcome rfl
    obtain ⟨i, hi⟩ := (hcount input).mp hi
    obtain ⟨o, ho⟩ := (hcount output).mp ho
    exact ⟨i, o, hi.1, hi.2, ho⟩
  · rintro ⟨i, o, hi, hi', ho⟩
    refine ⟨fun htype => absurd htype (by decide), fun _ => ⟨(hcount _).mpr ⟨i, hi, hi'⟩, (hcount _).mpr ⟨o, ho⟩⟩,
      fun htype => absurd htype (by decide)⟩

theorem mirrored_outcome_of_counts {e : CloudEvent} (hdata : e.data ≠ []) (hv : pg.castJsonb e.data = some v)
    (hobj : v.isObj = true)
    (hinput : v.get? "actual_input_tokens" = input.map fun n => .int n.toInt)
    (houtput : v.get? "actual_output_tokens" = output.map fun n => .int n.toInt)
    (hq : e.prediction = {
      actualInputTokens := input.getD 0
      actualOutputTokens := output.getD 0
      deltaBRatio := b
      deltaCRatio := c }) :
    mirrorAuditOutboxPredictionColumns fl pg outcomeType (cloudeventPayload fl e) =
      .ok (outcomeColumnsOf input output b c) := by
  have hcarries : CarriesPrediction fl (cloudeventPayload fl e) e.prediction := carriesPrediction_cloudeventPayload
  rw [hq] at hcarries
  exact hcarries.mirrored_outcome carries_cloudeventPayload hdata hv
    (actualTokens_eq hobj hinput hcarries.actualInputTokens) (actualTokens_eq hobj houtput hcarries.actualOutputTokens)

theorem jsonBytes_ne_nil (fields : List (String × Json)) : jsonBytes (.obj fields) ≠ [] := by
  intro hnil
  have hhead := congrArg List.head? hnil
  simp only [jsonBytes, Json.head?_render_obj] at hhead
  cases hhead

theorem CommitInputs.data_counts (c : CommitInputs) :
    (c.data fl).get? "actual_input_tokens" = c.actualInputTokens.map (fun n => .int n.toInt) ∧
      (c.data fl).get? "actual_output_tokens" = c.actualOutputTokens.map (fun n => .int n.toInt) := by
  cases hi : c.actualInputTokens <;> cases ho : c.actualOutputTokens <;>
    cases hb : c.deltaBRatio.filter (realIsAmount ·) <;> cases hc : c.deltaCRatio.filter (realIsAmount ·) <;>
    simp only [CommitInputs.data, hi, ho, hb, hc] <;> exact ⟨rfl, rfl⟩

theorem realIsNegative_amount (x : Option UInt32) :
    realIsNegative ((x.filter (realIsAmount ·)).getD 0) = false := by
  cases hx : x.filter (realIsAmount ·) with
  | none => rfl
  | some bits =>
    have hamount : realIsAmount bits = true := by
      cases x with
      | none => cases hx
      | some y => exact (Option.filter_eq_some_iff.mp hx).2
    simp only [realIsAmount, realIsZero, Bool.and_eq_true, Bool.or_eq_true, decide_eq_true_eq] at hamount
    simp only [Option.getD_some, realIsNegative, realIsZero, Bool.and_eq_false_iff, decide_eq_false_iff_not,
      Bool.not_eq_eq_eq_not, Bool.not_false, decide_eq_true_eq]
    omega

end Outcome

section Posts

variable {fl : FloatText} {pg : Postgres}

theorem Prediction.valid_of_policy (hzero : pg.castNumeric43 (fl.render 0) = some 0) (policy : String) :
    Prediction.Valid fl pg { predictionPolicyUsed := policy } := by
  have hcount : 0 ≤ (0 : Int64).toInt := by decide
  have hremaining : -1 ≤ (0 : Int32).toInt := by decide
  exact ⟨by simp, by simp, by simp, by simp, .inl rfl, ⟨0, hzero, le_rfl, by decide⟩, hcount, hcount, hcount, hcount,
    hcount, hremaining, hcount⟩

theorem Prediction.not_informed_of_policy (policy : String) :
    ¬Prediction.Informed { predictionPolicyUsed := policy } := fun h => h.predictedATokens rfl

theorem policy_admitted (policy : PredictionPolicy) :
    policy.text ∈ ["", "STRICT_CEILING", "EMPIRICAL_RUN_CEILING", "ADAPTIVE_CEILING", "SHADOW_ONLY"] :=
  List.mem_cons_of_mem _ policy.text_mem

theorem policy_ne_empty (policy : PredictionPolicy) : policy.text ≠ "" := by
  cases policy <;> decide

theorem DecisionInputs.prediction_policy (d : DecisionInputs) : d.prediction.predictionPolicyUsed = d.policy.text := by
  unfold DecisionInputs.prediction decisionPrediction
  cases d.estimate <;> cases d.projector <;> rfl

theorem not_free_of_incomplete {rows : List (String × Json)} {row : String × Json} {c : PredictionColumns}
    (hadmissible : Admissible fl pg rows) (hrow : row ∈ rows)
    (hc : mirrorAuditOutboxPredictionColumns fl pg row.1 row.2 = .ok c) (hincomplete : ¬c.Complete row.1) :
    ¬∀ t t', postAccepted fl pg t rows = postAccepted fl pg t' rows :=
  fun h => hincomplete (postAccepted_eq_iff.mp h hadmissible row hrow c hc)

theorem not_free_of_uninformed {p : Json} {policy : String} (hzero : pg.castNumeric43 (fl.render 0) = some 0)
    (h : CarriesPrediction fl p { predictionPolicyUsed := policy })
    (hpolicy : policy ∈ ["", "STRICT_CEILING", "EMPIRICAL_RUN_CEILING", "ADAPTIVE_CEILING", "SHADOW_ONLY"]) :
    ¬∀ t t', postAccepted fl pg t [(decisionType, p)] = postAccepted fl pg t' [(decisionType, p)] := by
  have hvalid := Prediction.valid_of_policy hzero policy
  rw [postAccepted_eq_iff, h.admissible_iff hpolicy]
  intro hfree
  exact Prediction.not_informed_of_policy policy (h.informed_of_filled hvalid (hfree hvalid))

theorem not_complete_uncounted {b c : UInt32} : ¬(outcomeColumnsOf none none b c).Complete outcomeType := by
  intro h
  obtain ⟨i, o, hi, -⟩ := outcomeColumnsOf_complete_iff.mp h
  cases hi

theorem not_free_of_uncounted {e : CloudEvent} {v : Json} (hdata : e.data ≠ []) (hv : pg.castJsonb e.data = some v)
    (hobj : v.isObj = true) (hinput : v.get? "actual_input_tokens" = none) (houtput : v.get? "actual_output_tokens" = none)
    (hq : e.prediction = {}) :
    ¬∀ t t', postAccepted fl pg t [(outcomeType, cloudeventPayload fl e)] =
      postAccepted fl pg t' [(outcomeType, cloudeventPayload fl e)] := by
  have hmirror : mirrorAuditOutboxPredictionColumns fl pg outcomeType (cloudeventPayload fl e) =
      .ok (outcomeColumnsOf none none 0 0) := mirrored_outcome_of_counts hdata hv hobj hinput houtput hq
  refine not_free_of_incomplete ?_ (List.mem_singleton_self _) hmirror not_complete_uncounted
  rintro row hrow
  cases List.mem_singleton.mp hrow
  exact ⟨_, hmirror, outcomeColumnsOf_sound rfl rfl⟩

section Commit

variable (c : CommitInputs) (hdata : pg.castJsonb (jsonBytes (c.data fl)) = some (c.data fl))
include hdata

theorem commit_mirrored :
    mirrorAuditOutboxPredictionColumns fl pg outcomeType (cloudeventPayload fl (commitCloudevent fl c)) =
      .ok (outcomeColumnsOf c.actualInputTokens c.actualOutputTokens
        ((c.deltaBRatio.filter (realIsAmount ·)).getD 0) ((c.deltaCRatio.filter (realIsAmount ·)).getD 0)) :=
  mirrored_outcome_of_counts (jsonBytes_ne_nil _) hdata rfl c.data_counts.1 c.data_counts.2 rfl

theorem commit_admissible : Admissible fl pg ((AuditPost.commit c).rows fl) := by
  intro row hrow
  cases List.mem_singleton.mp hrow
  exact ⟨_, commit_mirrored c hdata, outcomeColumnsOf_sound (realIsNegative_amount _) (realIsNegative_amount _)⟩

theorem commit_filled_iff :
    Filled fl pg ((AuditPost.commit c).rows fl) ↔ (AuditPost.commit c).CalendarFree fl pg := by
  simp only [Filled, AuditPost.rows, List.mem_singleton, forall_eq, commit_mirrored c hdata, Except.ok.injEq, forall_eq',
    outcomeColumnsOf_complete_iff, AuditPost.CalendarFree]

end Commit

theorem not_free_of_invoice (w : WebhookInputs) (m : InvoiceMint)
    (hdata : pg.castJsonb (jsonBytes (w.data "invoice_reconcile")) = some (w.data "invoice_reconcile")) :
    ¬∀ t t', postAccepted fl pg t ((AuditPost.invoice w m).rows fl) =
      postAccepted fl pg t' ((AuditPost.invoice w m).rows fl) := by
  have hdecision : mirrorAuditOutboxPredictionColumns fl pg decisionType (extractCloudeventPayload
      (invoiceDecision m w.decision (w.stamp.id.digest ":decision") w.stamp.sequence.toNat
        (buildCloudevent w outcomeType "invoice_reconcile"))) = .ok {} :=
    (unpredicted_extractCloudeventPayload _).mirrored_decision
  have houtcome : mirrorAuditOutboxPredictionColumns fl pg outcomeType
      (extractCloudeventPayload (buildCloudevent w outcomeType "invoice_reconcile")) = .ok {} :=
    (unpredicted_extractCloudeventPayload _).mirrored_outcome
      (dataOf_eq carries_extractCloudeventPayload (jsonBytes_ne_nil _) hdata) rfl rfl rfl
  refine not_free_of_incomplete ?_ (List.mem_cons_self ..) hdecision ?_
  · intro row hrow
    rcases List.mem_cons.mp hrow with rfl | hrow
    · exact ⟨_, hdecision, PredictionColumns.empty_sound _⟩
    · cases List.mem_singleton.mp hrow
      exact ⟨_, houtcome, PredictionColumns.empty_sound _⟩
  · intro h
    cases (h.decision rfl).1

/-- The calendar does not decide whether a post is accepted exactly if it is a decision that has an
estimate with all required values and a projection, or values that are refused at all times, or a commit
with both token counts.  A resumed decision, a release, a sweep, a provider report and an invoice are
accepted until the end of 2026 and refused from then on. -/
theorem accepted_at_all_times_iff (post : AuditPost) (hzero : pg.castNumeric43 (fl.render 0) = some 0)
    (hdata : ∀ v ∈ post.outcomeData fl, pg.castJsonb (jsonBytes v) = some v) :
    (∀ t t', postAccepted fl pg t (post.rows fl) = postAccepted fl pg t' (post.rows fl)) ↔
      post.CalendarFree fl pg := by
  cases post with
  | decision d =>
    have hcarries : CarriesPrediction fl (cloudeventPayload fl (buildAuditDecisionCloudevent d)) d.prediction :=
      carriesPrediction_cloudeventPayload
    have hpolicy := d.prediction_policy
    rw [postAccepted_eq_iff, AuditPost.rows, hcarries.admissible_iff (hpolicy ▸ policy_admitted _), AuditPost.CalendarFree]
    exact imp_congr_right fun hvalid => hcarries.filled_iff (hpolicy ▸ policy_ne_empty _) hvalid
  | resume r =>
    have hcarries : CarriesPrediction fl (cloudeventPayload fl (resumeCloudevent r)) { predictionPolicyUsed := r.policy.text } :=
      carriesPrediction_cloudeventPayload
    exact iff_of_false (not_free_of_uninformed hzero hcarries (policy_admitted _)) id
  | commit c =>
    exact (postAccepted_eq_iff.trans (imp_iff_right (commit_admissible c (hdata _ rfl)))).trans
      (commit_filled_iff c (hdata _ rfl))
  | release r =>
    exact iff_of_false (not_free_of_uncounted (jsonBytes_ne_nil _) (hdata _ rfl) rfl rfl rfl rfl) id
  | sweep s =>
    exact iff_of_false (not_free_of_uncounted (jsonBytes_ne_nil _) (hdata _ rfl) rfl rfl rfl rfl) id
  | providerReport w =>
    have hcarries : CarriesPrediction fl (cloudeventPayload fl (buildCloudevent w decisionType "provider_report")) {} :=
      carriesPrediction_cloudeventPayload
    exact iff_of_false (not_free_of_uninformed hzero hcarries (List.mem_cons_self ..)) id
  | invoice w m =>
    exact iff_of_false (not_free_of_invoice w m (hdata _ rfl)) id

end Posts

def someStamp : Stamp := ⟨⟨7, []⟩, { seconds := 1798761599 }, 42, "ed25519:k1", [1, 2, 3]⟩

def lateSweep : SweepInputs := ⟨"sweeper-1", someStamp, ⟨1, []⟩, ⟨2, []⟩, ⟨3, []⟩, "2026-12-31T23:59:00+00:00"⟩

def knowing (v : Json) : Postgres := { plainPostgres with castJsonb := fun _ => some v }

/-- The release of an expired reservation is accepted in the last microsecond of 2026 and refused in the
first one of 2027. -/
theorem sweep_refused_from_2027 :
    postAccepted unaryFloats (knowing lateSweep.data) (cutoff - 1) ((AuditPost.sweep lateSweep).rows unaryFloats) = true ∧
      postAccepted unaryFloats (knowing lateSweep.data) cutoff ((AuditPost.sweep lateSweep).rows unaryFloats) = false := by
  have hrow (t : ℕ) : postAccepted unaryFloats (knowing lateSweep.data) t ((AuditPost.sweep lateSweep).rows unaryFloats) =
      ((outcomeColumnsOf none none 0 0).violated t outcomeType).isEmpty :=
    postAccepted_singleton (mirrored_outcome_of_counts (jsonBytes_ne_nil _) rfl rfl rfl rfl rfl)
  rw [hrow, hrow]
  decide +kernel

def countedCommit : CommitInputs where
  ctx := ⟨"eu-1", "wl-1", "00000000-0000-4000-8000-000000000001"⟩
  stamp := someStamp
  reservation := ⟨2, []⟩
  decision := ⟨3, []⟩
  estimatedAmountAtomic := "500"
  actualInputTokens := some 12
  actualOutputTokens := some 0
  deltaBRatio := none
  deltaCRatio := none

theorem countedCommit_accepted :
    postAccepted unaryFloats (knowing (countedCommit.data unaryFloats)) 0 ((AuditPost.commit countedCommit).rows unaryFloats) =
        true ∧
      ∀ t t', postAccepted unaryFloats (knowing (countedCommit.data unaryFloats)) t
          ((AuditPost.commit countedCommit).rows unaryFloats) =
        postAccepted unaryFloats (knowing (countedCommit.data unaryFloats)) t'
          ((AuditPost.commit countedCommit).rows unaryFloats) := by
  refine ⟨?_, (accepted_at_all_times_iff (.commit countedCommit) rfl ?_).mpr ?_⟩
  · exact postAccepted_iff.mpr ⟨commit_admissible countedCommit rfl, fun h => absurd h (by decide)⟩
  · rintro v ⟨rfl⟩
    rfl
  · exact ⟨12, 0, rfl, by decide, rfl, by decide⟩

end SpendGuard.Audit
