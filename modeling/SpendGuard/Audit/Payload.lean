import SpendGuard.Audit.CloudEvent
import SpendGuard.Base.Check
import SpendGuard.Ledger.Schema

/-!
The outbox row: how the ledger's handlers write a caller's event into it, and how the forwarder and
the replay endpoint read it back.
-/

namespace SpendGuard.Audit

open Base Ledger

/-- How a float is written as JSON; reading brings its bits back. -/
structure FloatText where
  render : UInt32 → String
  parse : String → Option UInt32
  ofInt : ℤ → UInt32
  parse_render (bits : UInt32) : parse (render bits) = some bits

def FloatText.read (fl : FloatText) : Json → Option UInt32
  | .real text => fl.parse text
  | .int n => some (fl.ofInt n)
  | _ => none

structure OutboxRow where
  auditOutboxId : Uuid
  tenantId : Uuid
  decisionId : Uuid
  eventType : String
  cloudeventPayload : Json
  cloudeventPayloadSignature : Bytes
  producerSequence : ℤ

section Codec

variable (fl : FloatText) (parseUuid : String → Option Uuid)

def Prediction.payloadWith (float : UInt32 → Json) (p : Prediction) : List (String × Json) :=
  [("predicted_a_tokens", .int p.predictedATokens.toInt), ("predicted_b_tokens", .int p.predictedBTokens.toInt),
    ("predicted_c_tokens", .int p.predictedCTokens.toInt), ("reserved_strategy", .str p.reservedStrategy),
    ("prediction_strategy_used", .str p.predictionStrategyUsed),
    ("prediction_policy_used", .str p.predictionPolicyUsed), ("tokenizer_tier", .str p.tokenizerTier),
    ("tokenizer_version_id", .str p.tokenizerVersionId),
    ("prediction_confidence", float p.predictionConfidence),
    ("prediction_sample_size", .int p.predictionSampleSize.toInt),
    ("cold_start_layer_used", .str p.coldStartLayerUsed),
    ("run_projection_at_decision_atomic", .int p.runProjectionAtDecisionAtomic.toInt),
    ("run_predicted_remaining_steps", .int p.runPredictedRemainingSteps.toInt),
    ("run_steps_completed_so_far", .int p.runStepsCompletedSoFar.toInt),
    ("actual_input_tokens", .int p.actualInputTokens.toInt),
    ("actual_output_tokens", .int p.actualOutputTokens.toInt), ("delta_b_ratio", float p.deltaBRatio),
    ("delta_c_ratio", float p.deltaCRatio)]

def Prediction.payload (p : Prediction) : List (String × Json) := p.payloadWith fun bits => .real (fl.render bits)

def cloudeventPayload (e : CloudEvent) : Json := .obj (e.envelopePayload ++ e.prediction.payload fl)

def extractCloudeventPayload (e : CloudEvent) : Json := .obj e.envelopePayload

inductive DecodeError
  | missing (key : String)
  | badUuid (key : String)
  | badNumber (key : String)
  | badEnum (key value : String)
  | badBase64 (key : String)
  | notObject
  deriving DecidableEq

def reqStr (p : Json) (key : String) : Except DecodeError String :=
  found ((p.get? key >>= Json.asStr?).filter (· ≠ "")) (.missing key)

def optStr (p : Json) (key default : String) : String := (p.get? key >>= Json.asStr?).getD default

def optI64 (p : Json) (key : String) (default : ℤ) : Except DecodeError ℤ :=
  match p.get? key with
  | some v => found v.asI64? (.badNumber key)
  | none => .ok default

def optI32 (p : Json) (key : String) (default : ℤ) : Except DecodeError ℤ := do
  let n ← optI64 p key default
  check (-2 ^ 31 ≤ n ∧ n < 2 ^ 31) (.badNumber key)
  return n

def optF32 (p : Json) (key : String) (default : UInt32) : Except DecodeError UInt32 :=
  match p.get? key with
  | some v => found (fl.read v) (.badNumber key)
  | none => .ok default

def reqUuid (p : Json) (key : String) : Except DecodeError Uuid := do
  found (parseUuid (← reqStr p key)) (.badUuid key)

def reqI64 (p : Json) (key : String) : Except DecodeError ℤ :=
  found (p.get? key >>= Json.asI64?) (.badNumber key)

def reqU64 (p : Json) (key : String) : Except DecodeError ℕ :=
  found (p.get? key >>= Json.asU64?) (.badNumber key)

def decodePrediction (p : Json) : Except DecodeError Prediction := do
  return {
    predictedATokens := .ofInt (← optI64 p "predicted_a_tokens" 0)
    predictedBTokens := .ofInt (← optI64 p "predicted_b_tokens" 0)
    predictedCTokens := .ofInt (← optI64 p "predicted_c_tokens" 0)
    reservedStrategy := optStr p "reserved_strategy" ""
    predictionStrategyUsed := optStr p "prediction_strategy_used" ""
    predictionPolicyUsed := optStr p "prediction_policy_used" ""
    tokenizerTier := optStr p "tokenizer_tier" ""
    tokenizerVersionId := optStr p "tokenizer_version_id" ""
    predictionConfidence := ← optF32 fl p "prediction_confidence" 0
    predictionSampleSize := .ofInt (← optI64 p "prediction_sample_size" 0)
    coldStartLayerUsed := optStr p "cold_start_layer_used" ""
    runProjectionAtDecisionAtomic := .ofInt (← optI64 p "run_projection_at_decision_atomic" 0)
    runPredictedRemainingSteps := .ofInt (← optI32 p "run_predicted_remaining_steps" 0)
    runStepsCompletedSoFar := .ofInt (← optI64 p "run_steps_completed_so_far" 0)
    actualInputTokens := .ofInt (← optI64 p "actual_input_tokens" 0)
    actualOutputTokens := .ofInt (← optI64 p "actual_output_tokens" 0)
    deltaBRatio := ← optF32 fl p "delta_b_ratio" 0
    deltaCRatio := ← optF32 fl p "delta_c_ratio" 0 }

def strictDecode (row : OutboxRow) : Except DecodeError CloudEvent := do
  let p := row.cloudeventPayload
  check (p.isObj = true) .notObject
  let specversion ← reqStr p "specversion"
  check (specversion = "1.0") (.badEnum "specversion" specversion)
  let type ← reqStr p "type"
  check (type = "spendguard.audit.decision" ∨ type = "spendguard.audit.outcome") (.badEnum "type" type)
  let source ← reqStr p "source"
  let datacontenttype ← reqStr p "datacontenttype"
  let id ← reqStr p "id"
  let _ ← found (parseUuid id) (.badUuid "id")
  let seconds ← reqI64 p "time_seconds"
  let nanos ← reqI64 p "time_nanos"
  let _ ← reqUuid parseUuid p "tenantid"
  let _ ← reqUuid parseUuid p "decisionid"
  let producerId ← reqStr p "producer_id"
  let producerSequence ← reqU64 p "producer_sequence"
  let dataB64 ← reqStr p "data_b64"
  let data ← found (Base64.decode dataB64.toList) (.badBase64 "data_b64")
  let prediction ← decodePrediction fl p
  return {
    specversion := specversion
    type := type
    source := source
    id := id
    time := some ⟨.ofInt seconds, .ofInt nanos⟩
    datacontenttype := datacontenttype
    data := data
    tenantId := optStr p "tenantid" ""
    runId := optStr p "runid" ""
    decisionId := optStr p "decisionid" ""
    schemaBundleId := optStr p "schema_bundle_id" ""
    producerId := producerId
    producerSequence := .ofNat producerSequence
    producerSignature := row.cloudeventPayloadSignature
    signingKeyId := optStr p "signing_key_id" ""
    prediction := prediction }

def getStr (p : Json) (key : String) : String := (p.get? key >>= Json.asStr?).getD ""

def getU64 (p : Json) (key : String) : UInt64 := .ofNat ((p.get? key >>= Json.asU64?).getD 0)

def getI64 (p : Json) (key : String) : Int64 := .ofInt ((p.get? key >>= Json.asI64?).getD 0)

def getI32 (p : Json) (key : String) : Int32 := (getI64 p key).toInt32

def getF32 (p : Json) (key : String) : UInt32 := (p.get? key >>= fl.read).getD 0

def replayPrediction (p : Json) : Prediction where
  predictedATokens := getI64 p "predicted_a_tokens"
  predictedBTokens := getI64 p "predicted_b_tokens"
  predictedCTokens := getI64 p "predicted_c_tokens"
  reservedStrategy := getStr p "reserved_strategy"
  predictionStrategyUsed := getStr p "prediction_strategy_used"
  predictionPolicyUsed := getStr p "prediction_policy_used"
  tokenizerTier := getStr p "tokenizer_tier"
  tokenizerVersionId := getStr p "tokenizer_version_id"
  predictionConfidence := getF32 fl p "prediction_confidence"
  predictionSampleSize := getI64 p "prediction_sample_size"
  coldStartLayerUsed := getStr p "cold_start_layer_used"
  runProjectionAtDecisionAtomic := getI64 p "run_projection_at_decision_atomic"
  runPredictedRemainingSteps := getI32 p "run_predicted_remaining_steps"
  runStepsCompletedSoFar := getI64 p "run_steps_completed_so_far"
  actualInputTokens := getI64 p "actual_input_tokens"
  actualOutputTokens := getI64 p "actual_output_tokens"
  deltaBRatio := getF32 fl p "delta_b_ratio"
  deltaCRatio := getF32 fl p "delta_c_ratio"

def decodeCloudeventFromJsonb (row : OutboxRow) : Except String CloudEvent := do
  let p := row.cloudeventPayload
  let dataB64 := getStr p "data_b64"
  let data ← if dataB64 = "" then .ok [] else found (Base64.decode dataB64.toList) "data_b64 decode"
  return {
    specversion := getStr p "specversion"
    type := getStr p "type"
    source := getStr p "source"
    id := getStr p "id"
    time := some ⟨getI64 p "time_seconds", getI32 p "time_nanos"⟩
    datacontenttype := getStr p "datacontenttype"
    data := data
    tenantId := getStr p "tenantid"
    runId := getStr p "runid"
    decisionId := getStr p "decisionid"
    schemaBundleId := getStr p "schema_bundle_id"
    producerId := getStr p "producer_id"
    producerSequence := getU64 p "producer_sequence"
    producerSignature := row.cloudeventPayloadSignature
    signingKeyId := getStr p "signing_key_id"
    prediction := replayPrediction fl p }

end Codec

section Keys

variable {fl : FloatText} {parseUuid : String → Option Uuid} {p : Json} {key s : String}

theorem asI64?_int64 (n : Int64) : (Json.int n.toInt).asI64? = some n.toInt := if_pos ⟨n.le_toInt, n.toInt_lt⟩

theorem asI64?_int32 (n : Int32) : (Json.int n.toInt).asI64? = some n.toInt := by
  rw [← n.toInt_toInt64]
  exact asI64?_int64 n.toInt64

theorem asU64?_uint64 (n : UInt64) : (Json.int n.toNat).asU64? = some n.toNat := by
  have hn := n.toNat_lt
  simp only [Json.asU64?, Int.toNat_natCast]
  exact if_pos (by omega)

theorem reqStr_of_get (h : p.get? key = some (.str s)) (hs : s ≠ "") : reqStr p key = .ok s := by
  have hfilter : (some s).filter (· ≠ "") = some s := by simp [Option.filter, hs]
  simp only [reqStr, h, Option.bind_eq_bind, Option.bind_some, Json.asStr?, hfilter, found_some]

theorem optStr_of_get (h : p.get? key = some (.str s)) (default : String) : optStr p key default = s := by
  simp only [optStr, h, Option.bind_eq_bind, Option.bind_some, Json.asStr?, Option.getD_some]

theorem optI64_of_get (n : Int64) (h : p.get? key = some (.int n.toInt)) (default : ℤ) :
    optI64 p key default = .ok n.toInt := by
  simp only [optI64, h, asI64?_int64, found_some]

theorem optI32_of_get (n : Int32) (h : p.get? key = some (.int n.toInt)) (default : ℤ) :
    optI32 p key default = .ok n.toInt := by
  simp only [optI32, optI64, h, asI64?_int32, found_some]
  exact check_bind_eq_ok.mpr ⟨⟨n.le_toInt, n.toInt_lt⟩, rfl⟩

theorem optF32_of_get (bits : UInt32) (h : p.get? key = some (.real (fl.render bits))) (default : UInt32) :
    optF32 fl p key default = .ok bits := by
  simp only [optF32, h, FloatText.read, fl.parse_render, found_some]

theorem reqI64_of_get (n : Int64) (h : p.get? key = some (.int n.toInt)) : reqI64 p key = .ok n.toInt := by
  simp only [reqI64, h, Option.bind_eq_bind, Option.bind_some, asI64?_int64, found_some]

theorem reqI64_of_get32 (n : Int32) (h : p.get? key = some (.int n.toInt)) : reqI64 p key = .ok n.toInt := by
  simp only [reqI64, h, Option.bind_eq_bind, Option.bind_some, asI64?_int32, found_some]

theorem asU64?_of_get (n : UInt64) (h : p.get? key = some (.int n.toNat)) :
    p.get? key >>= Json.asU64? = some n.toNat := by
  rw [h, Option.bind_eq_bind, Option.bind_some, asU64?_uint64]

theorem reqU64_of_get (n : UInt64) (h : p.get? key = some (.int n.toNat)) : reqU64 p key = .ok n.toNat := by
  rw [reqU64, asU64?_of_get n h, found_some]

theorem reqUuid_of_get {u : Uuid} (h : p.get? key = some (.str s)) (hs : s ≠ "") (hu : parseUuid s = some u) :
    reqUuid parseUuid p key = .ok u := by
  rw [reqUuid, reqStr_of_get h hs]
  exact congrArg (found · _) hu

theorem getI64_of_get (n : Int64) (h : p.get? key = some (.int n.toInt)) : getI64 p key = n := by
  simp only [getI64, h, Option.bind_eq_bind, Option.bind_some, asI64?_int64, Option.getD_some, Int64.ofInt_toInt]

theorem getI32_of_get (n : Int32) (h : p.get? key = some (.int n.toInt)) : getI32 p key = n := by
  simp only [getI32, getI64, h, Option.bind_eq_bind, Option.bind_some, asI64?_int32, Option.getD_some,
    Int64.toInt32_ofInt, Int32.ofInt_toInt]

theorem getU64_of_get (n : UInt64) (h : p.get? key = some (.int n.toNat)) : getU64 p key = n := by
  rw [getU64, asU64?_of_get n h, Option.getD_some, UInt64.ofNat_toNat]

theorem getF32_of_get (bits : UInt32) (h : p.get? key = some (.real (fl.render bits))) :
    getF32 fl p key = bits := by
  simp only [getF32, h, Option.bind_eq_bind, Option.bind_some, FloatText.read, fl.parse_render, Option.getD_some]

end Keys

structure CloudEvent.Storable (parseUuid : String → Option Uuid) (e : CloudEvent) : Prop where
  specversion : e.specversion = "1.0"
  type : e.type = "spendguard.audit.decision" ∨ e.type = "spendguard.audit.outcome"
  time : e.time.isSome = true
  source : e.source ≠ ""
  datacontenttype : e.datacontenttype ≠ ""
  producerId : e.producerId ≠ ""
  data : e.data ≠ []
  id : ∃ u, parseUuid e.id = some u
  tenantId : ∃ u, parseUuid e.tenantId = some u
  decisionId : ∃ u, parseUuid e.decisionId = some u

structure Carries (p : Json) (e : CloudEvent) : Prop where
  isObj : p.isObj = true
  specversion : p.get? "specversion" = some (.str e.specversion)
  type : p.get? "type" = some (.str e.type)
  source : p.get? "source" = some (.str e.source)
  id : p.get? "id" = some (.str e.id)
  seconds : p.get? "time_seconds" = some (.int (e.time.getD {}).seconds.toInt)
  nanos : p.get? "time_nanos" = some (.int (e.time.getD {}).nanos.toInt)
  datacontenttype : p.get? "datacontenttype" = some (.str e.datacontenttype)
  data : p.get? "data_b64" = some (.str (base64 e.data))
  tenantId : p.get? "tenantid" = some (.str e.tenantId)
  runId : p.get? "runid" = some (.str e.runId)
  decisionId : p.get? "decisionid" = some (.str e.decisionId)
  schemaBundleId : p.get? "schema_bundle_id" = some (.str e.schemaBundleId)
  producerId : p.get? "producer_id" = some (.str e.producerId)
  producerSequence : p.get? "producer_sequence" = some (.int e.producerSequence.toNat)
  signingKeyId : p.get? "signing_key_id" = some (.str e.signingKeyId)

structure CarriesPredictionWith (float : UInt32 → Json) (p : Json) (q : Prediction) : Prop where
  predictedATokens : p.get? "predicted_a_tokens" = some (.int q.predictedATokens.toInt)
  predictedBTokens : p.get? "predicted_b_tokens" = some (.int q.predictedBTokens.toInt)
  predictedCTokens : p.get? "predicted_c_tokens" = some (.int q.predictedCTokens.toInt)
  reservedStrategy : p.get? "reserved_strategy" = some (.str q.reservedStrategy)
  predictionStrategyUsed : p.get? "prediction_strategy_used" = some (.str q.predictionStrategyUsed)
  predictionPolicyUsed : p.get? "prediction_policy_used" = some (.str q.predictionPolicyUsed)
  tokenizerTier : p.get? "tokenizer_tier" = some (.str q.tokenizerTier)
  tokenizerVersionId : p.get? "tokenizer_version_id" = some (.str q.tokenizerVersionId)
  predictionConfidence : p.get? "prediction_confidence" = some (float q.predictionConfidence)
  predictionSampleSize : p.get? "prediction_sample_size" = some (.int q.predictionSampleSize.toInt)
  coldStartLayerUsed : p.get? "cold_start_layer_used" = some (.str q.coldStartLayerUsed)
  runProjection : p.get? "run_projection_at_decision_atomic" = some (.int q.runProjectionAtDecisionAtomic.toInt)
  runRemaining : p.get? "run_predicted_remaining_steps" = some (.int q.runPredictedRemainingSteps.toInt)
  runSteps : p.get? "run_steps_completed_so_far" = some (.int q.runStepsCompletedSoFar.toInt)
  actualInputTokens : p.get? "actual_input_tokens" = some (.int q.actualInputTokens.toInt)
  actualOutputTokens : p.get? "actual_output_tokens" = some (.int q.actualOutputTokens.toInt)
  deltaBRatio : p.get? "delta_b_ratio" = some (float q.deltaBRatio)
  deltaCRatio : p.get? "delta_c_ratio" = some (float q.deltaCRatio)

abbrev CarriesPrediction (fl : FloatText) : Json → Prediction → Prop :=
  CarriesPredictionWith fun bits => .real (fl.render bits)

section RoundTrip

variable {fl : FloatText} {parseUuid : String → Option Uuid} {e : CloudEvent} {row : OutboxRow} {q : Prediction}

theorem carries_cloudeventPayload : Carries (cloudeventPayload fl e) e :=
  ⟨rfl, rfl, rfl, rfl, rfl, rfl, rfl, rfl, rfl, rfl, rfl, rfl, rfl, rfl, rfl, rfl⟩

theorem carries_extractCloudeventPayload : Carries (extractCloudeventPayload e) e :=
  ⟨rfl, rfl, rfl, rfl, rfl, rfl, rfl, rfl, rfl, rfl, rfl, rfl, rfl, rfl, rfl, rfl⟩

theorem carriesPrediction_cloudeventPayload : CarriesPrediction fl (cloudeventPayload fl e) e.prediction :=
  ⟨rfl, rfl, rfl, rfl, rfl, rfl, rfl, rfl, rfl, rfl, rfl, rfl, rfl, rfl, rfl, rfl, rfl, rfl⟩

theorem CarriesPrediction.decodePrediction {p : Json} (h : CarriesPrediction fl p q) :
    decodePrediction fl p = .ok q := by
  simp only [Audit.decodePrediction, optI64_of_get _ h.predictedATokens, optI64_of_get _ h.predictedBTokens,
    optI64_of_get _ h.predictedCTokens, optStr_of_get h.reservedStrategy,
    optStr_of_get h.predictionStrategyUsed, optStr_of_get h.predictionPolicyUsed, optStr_of_get h.tokenizerTier,
    optStr_of_get h.tokenizerVersionId, optF32_of_get _ h.predictionConfidence,
    optI64_of_get _ h.predictionSampleSize, optStr_of_get h.coldStartLayerUsed,
    optI64_of_get _ h.runProjection, optI32_of_get _ h.runRemaining, optI64_of_get _ h.runSteps,
    optI64_of_get _ h.actualInputTokens, optI64_of_get _ h.actualOutputTokens, optF32_of_get _ h.deltaBRatio,
    optF32_of_get _ h.deltaCRatio, ok_bind, Int64.ofInt_toInt, Int32.ofInt_toInt]
  rfl

theorem CarriesPrediction.replayPrediction {p : Json} (h : CarriesPrediction fl p q) :
    replayPrediction fl p = q := by
  simp only [Audit.replayPrediction, getStr, getI64_of_get _ h.predictedATokens,
    getI64_of_get _ h.predictedBTokens, getI64_of_get _ h.predictedCTokens, h.reservedStrategy,
    h.predictionStrategyUsed, h.predictionPolicyUsed, h.tokenizerTier, h.tokenizerVersionId,
    getF32_of_get _ h.predictionConfidence, getI64_of_get _ h.predictionSampleSize, h.coldStartLayerUsed,
    getI64_of_get _ h.runProjection, getI32_of_get _ h.runRemaining, getI64_of_get _ h.runSteps,
    getI64_of_get _ h.actualInputTokens, getI64_of_get _ h.actualOutputTokens, getF32_of_get _ h.deltaBRatio,
    getF32_of_get _ h.deltaCRatio]
  rfl

theorem decodePrediction_extractCloudeventPayload :
    decodePrediction fl (extractCloudeventPayload e) = .ok {} := rfl

theorem replayPrediction_extractCloudeventPayload :
    replayPrediction fl (extractCloudeventPayload e) = {} := rfl

theorem base64_ne_empty {data : List UInt8} (h : data ≠ []) : base64 data ≠ "" := by
  intro hempty
  apply h
  rw [← Base64.encode_eq_nil_iff]
  simpa [base64] using congrArg String.toList hempty

theorem decode_base64 (data : List UInt8) : Base64.decode (base64 data).toList = some data := by
  rw [base64, String.toList_ofList, Base64.decode_encode]

theorem CloudEvent.Storable.strictDecode (hempty : parseUuid "" = none) (he : e.Storable parseUuid)
    (h : Carries row.cloudeventPayload e) (hq : decodePrediction fl row.cloudeventPayload = .ok q) :
    strictDecode fl parseUuid row =
      .ok { e with producerSignature := row.cloudeventPayloadSignature, prediction := q } := by
  have hnonempty {s : String} (hs : ∃ u, parseUuid s = some u) : s ≠ "" := by
    rintro rfl
    obtain ⟨u, hu⟩ := hs
    rw [hempty] at hu
    cases hu
  obtain ⟨t, ht⟩ := Option.isSome_iff_exists.mp he.time
  obtain ⟨u, hu⟩ := he.id
  obtain ⟨tenant, htenant⟩ := he.tenantId
  obtain ⟨decision, hdecision⟩ := he.decisionId
  have hspec : e.specversion ≠ "" := by simp [he.specversion]
  have htype : e.type ≠ "" := by
    cases he.type with
    | inl h => simp [h]
    | inr h => simp [h]
  simp only [Audit.strictDecode, check_of h.isObj, reqStr_of_get h.specversion hspec, check_of he.specversion,
    reqStr_of_get h.type htype, check_of he.type, reqStr_of_get h.source he.source,
    reqStr_of_get h.datacontenttype he.datacontenttype, reqStr_of_get h.id (hnonempty he.id), hu, found_some,
    reqI64_of_get _ h.seconds, reqI64_of_get32 _ h.nanos, reqUuid_of_get h.tenantId (hnonempty he.tenantId) htenant,
    reqUuid_of_get h.decisionId (hnonempty he.decisionId) hdecision, reqStr_of_get h.producerId he.producerId,
    reqU64_of_get _ h.producerSequence, reqStr_of_get h.data (base64_ne_empty he.data), decode_base64, hq,
    optStr_of_get h.tenantId, optStr_of_get h.runId, optStr_of_get h.decisionId, optStr_of_get h.schemaBundleId,
    optStr_of_get h.signingKeyId, ok_bind, Int64.ofInt_toInt, Int32.ofInt_toInt, UInt64.ofNat_toNat, ht]
  rfl

theorem CloudEvent.Storable.replayed (he : e.Storable parseUuid) (h : Carries row.cloudeventPayload e) :
    decodeCloudeventFromJsonb fl row =
      .ok { e with
        producerSignature := row.cloudeventPayloadSignature
        prediction := replayPrediction fl row.cloudeventPayload } := by
  obtain ⟨t, ht⟩ := Option.isSome_iff_exists.mp he.time
  have hdata : getStr row.cloudeventPayload "data_b64" = base64 e.data := optStr_of_get h.data ""
  simp only [decodeCloudeventFromJsonb, hdata, if_neg (base64_ne_empty he.data), decode_base64, found_some,
    getI64_of_get _ h.seconds, getI32_of_get _ h.nanos, getU64_of_get _ h.producerSequence, ht, ok_bind]
  simp only [getStr, h.specversion, h.type, h.source, h.id, h.datacontenttype, h.tenantId, h.runId, h.decisionId,
    h.schemaBundleId, h.producerId, h.signingKeyId]
  rfl

theorem canonicalBytes_signature (e : CloudEvent) (signature : Bytes) :
    canonicalBytes { e with producerSignature := signature } = canonicalBytes e := rfl

theorem canonicalBytes_unpredicted_iff (e : CloudEvent) :
    canonicalBytes { e with prediction := {} } = canonicalBytes e ↔
      e.ledgerMinted = true ∨ e.prediction.sent = {} := by
  cases he : e.ledgerMinted with
  | true => simp [canonicalBytes_prediction he]
  | false =>
    simp only [Bool.false_eq_true, false_or]
    constructor
    · intro h
      exact (congrArg CloudEvent.prediction (content_of_canonicalBytes he h.symm))
    · intro h
      have hfields : e.prediction.fields = Prediction.fields {} := by rw [← e.prediction.fields_sent, h]
      have hempty : { e with prediction := {} }.ledgerMinted = false := he
      simp only [canonicalBytes, he, hempty, Bool.false_eq_true, if_false, canonicalBytesProto, CloudEvent.fields,
        hfields]
      rfl

/-- A stored event comes back with its bytes from the rows of the shared writer, and from those of
invoice reconcile exactly if it had no prediction or is one of the ledger's own. -/
theorem outbox_round_trip (hempty : parseUuid "" = none) (he : e.Storable parseUuid) :
    (row.cloudeventPayload = cloudeventPayload fl e → ∃ e', strictDecode fl parseUuid row = .ok e' ∧
      canonicalBytes e' = canonicalBytes e ∧ decodeCloudeventFromJsonb fl row = .ok e') ∧
    (row.cloudeventPayload = extractCloudeventPayload e → ∃ e', strictDecode fl parseUuid row = .ok e' ∧
      (canonicalBytes e' = canonicalBytes e ↔ e.ledgerMinted = true ∨ e.prediction.sent = {}) ∧
      decodeCloudeventFromJsonb fl row = .ok e') := by
  constructor
  · intro hrow
    have hcarries : Carries row.cloudeventPayload e := hrow ▸ carries_cloudeventPayload
    have hprediction : CarriesPrediction fl row.cloudeventPayload e.prediction :=
      hrow ▸ carriesPrediction_cloudeventPayload
    refine ⟨_, he.strictDecode hempty hcarries hprediction.decodePrediction,
      canonicalBytes_signature e _, ?_⟩
    rw [he.replayed hcarries, hprediction.replayPrediction]
  · intro hrow
    have hcarries : Carries row.cloudeventPayload e := hrow ▸ carries_extractCloudeventPayload
    have hdecode : decodePrediction fl row.cloudeventPayload = .ok {} :=
      hrow ▸ decodePrediction_extractCloudeventPayload
    have hreplay : replayPrediction fl row.cloudeventPayload = {} :=
      hrow ▸ replayPrediction_extractCloudeventPayload
    refine ⟨_, he.strictDecode hempty hcarries hdecode, ?_, ?_⟩
    · exact canonicalBytes_unpredicted_iff e
    · rw [he.replayed hcarries, hreplay]

end RoundTrip

def unaryFloats : FloatText where
  render bits := String.ofList (List.replicate bits.toNat '1')
  parse text := some (.ofNat text.length)
  ofInt n := .ofNat n.toNat
  parse_render bits := by simp

def anyUuid (s : String) : Option Uuid := if s = "" then none else some ⟨1, []⟩

def predictedEvent : CloudEvent :=
  { sidecarEvent with
    tenantId := "00000000-0000-4000-8000-000000000001"
    decisionId := "00000000-0000-7000-8000-000000000002"
    prediction := { predictedATokens := 4096, reservedStrategy := "A" } }

theorem predictedEvent_storable : predictedEvent.Storable anyUuid :=
  ⟨rfl, .inl rfl, rfl, by decide, by decide, by decide, by decide, ⟨_, rfl⟩, ⟨_, rfl⟩, ⟨_, rfl⟩⟩

def rowOf (payload : Json) : OutboxRow where
  auditOutboxId := ⟨1, []⟩
  tenantId := ⟨1, []⟩
  decisionId := ⟨1, []⟩
  eventType := "spendguard.audit.decision"
  cloudeventPayload := payload
  cloudeventPayloadSignature := [1, 2, 3]
  producerSequence := 42

/-- Invoice reconcile drops the prediction, and with it the signature of the event. -/
theorem invoice_prediction_lost :
    ∃ e', strictDecode unaryFloats anyUuid (rowOf (extractCloudeventPayload predictedEvent)) = .ok e' ∧
      canonicalBytes e' ≠ canonicalBytes predictedEvent := by
  refine ⟨_, predictedEvent_storable.strictDecode rfl carries_extractCloudeventPayload
    decodePrediction_extractCloudeventPayload, fun h => ?_⟩
  have hcontent := content_of_canonicalBytes (by decide +kernel) h
  exact absurd hcontent (by decide +kernel)

/-- Through the shared writer the same event comes back whole. -/
theorem predictedEvent_round_trip :
    ∃ e', strictDecode unaryFloats anyUuid (rowOf (cloudeventPayload unaryFloats predictedEvent)) = .ok e' ∧
      canonicalBytes e' = canonicalBytes predictedEvent ∧
      decodeCloudeventFromJsonb unaryFloats (rowOf (cloudeventPayload unaryFloats predictedEvent)) = .ok e' :=
  (outbox_round_trip rfl predictedEvent_storable).1 rfl

end SpendGuard.Audit
