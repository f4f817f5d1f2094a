import SpendGuard.Audit.Rows

/-!
The prediction columns of the outbox: the trigger that fills them from the payload, and the checks an
inserted row has to pass.
-/

namespace SpendGuard.Audit

open Base Ledger

/-- The prediction columns of `audit_outbox`; a `REAL` is given by its bits. -/
structure PredictionColumns where
  predictedATokens : Option ℤ := none
  predictedBTokens : Option ℤ := none
  predictedCTokens : Option ℤ := none
  reservedStrategy : Option String := none
  predictionStrategyUsed : Option String := none
  predictionPolicyUsed : Option String := none
  tokenizerTier : Option String := none
  tokenizerVersionId : Option Uuid := none
  /-- In thousandths. -/
  predictionConfidence : Option ℤ := none
  predictionSampleSize : Option ℤ := none
  coldStartLayerUsed : Option String := none
  runProjectionAtDecisionAtomic : Option ℤ := none
  runPredictedRemainingSteps : Option ℤ := none
  runStepsCompletedSoFar : Option ℤ := none
  actualInputTokens : Option ℤ := none
  actualOutputTokens : Option ℤ := none
  deltaBRatio : Option UInt32 := none
  deltaCRatio : Option UInt32 := none
  deriving DecidableEq

def decisionType : String := "spendguard.audit.decision"

def outcomeType : String := "spendguard.audit.outcome"

/-- `NULLIF(v, '')` and a cast, of a number or of a text. -/
def castKey {α : Type} (ofInt : ℤ → Option α) (ofText : String → Option α) :
    Option Json → Except String (Option α)
  | none | some .null => .ok none
  | some (.int n) => do return some (← found (ofInt n) "out of range")
  | some (.real text) => do return some (← found (ofText text) "invalid input syntax")
  | some (.str s) => if s = "" then .ok none else do return some (← found (ofText s) "invalid input syntax")
  | some _ => .error "invalid input syntax"

def within (low high n : ℤ) : Option ℤ := if low ≤ n ∧ n < high then some n else none

/-- `NULLIF(x, 0)`. -/
def nonzero (x : Option ℤ) : Option ℤ := x.filter (· ≠ 0)

def realIsZero (bits : UInt32) : Bool := bits.toNat % 2 ^ 31 = 0

def realIsNegative (bits : UInt32) : Bool :=
  2 ^ 31 ≤ bits.toNat && !realIsZero bits && bits.toNat % 2 ^ 31 ≤ 0x7f800000

section Trigger

variable (fl : FloatText) (pg : Postgres)

def castBigintJson : Option Json → Except String (Option ℤ) :=
  castKey (within (-2 ^ 63) (2 ^ 63)) (fun s => (pg.castBigint s).map (·.toInt))

def castIntJson : Option Json → Except String (Option ℤ) := castKey (within (-2 ^ 31) (2 ^ 31)) pg.castInt

def castNumericJson : Option Json → Except String (Option ℤ) :=
  castKey (within (1 - 10 ^ 38) (10 ^ 38)) pg.castNumeric

def castNumeric43Json : Option Json → Except String (Option ℤ) :=
  castKey (fun n => within (-9999) 10000 (1000 * n)) pg.castNumeric43

def castRealJson : Option Json → Except String (Option UInt32) := castKey (fun n => some (fl.ofInt n)) fl.parse

def castUuidJson : Option Json → Except String (Option Uuid) := castKey (fun n => pg.castUuid (toString n)) pg.castUuid

/-- `NULLIF(p ->> key, '')`. -/
def textKey (p : Json) (key : String) : Option String := do
  let s ← match ← p.get? key with
    | .null => none
    | .str s => some s
    | .int n => some (toString n)
    | .real text => some text
    | v => some (pg.jsonbText v)
  if s = "" then none else some s

/-- The operator `?`: a key of an object, an item of an array, or the text itself. -/
def jsonbHas (v : Json) (key : String) : Bool :=
  match v with
  | .obj _ => (v.get? key).isSome
  | .arr items => items.contains (.str key)
  | .str s => s = key
  | _ => false

/-- The count in the signed data decides if it is there; a zero in the envelope may be a default. -/
def actualTokens (data : Option Json) (p : Json) (key : String) : Except String (Option ℤ) :=
  match data.filter (jsonbHas · key) with
  | some v => do return (← castBigintJson pg (v.get? key)).filter (0 ≤ ·)
  | none => do return (← castBigintJson pg (p.get? key)).filter (0 < ·)

def dataOf (p : Json) : Except String (Option Json) :=
  match textKey pg p "data_b64" with
  | none => .ok none
  | some s => do
    let bytes ← found (Base64.decodeLoose [] 0 s.toList) "invalid base64"
    return some (← found (pg.castJsonb bytes) "invalid input syntax for type json")

def noProjector (projection remaining steps : ℤ) : Bool := projection = 0 && (remaining = -1 || remaining = 0) && steps = 0

def decisionColumns (p : Json) (projection remaining steps : ℤ) : Except String PredictionColumns := do
  return {
    predictedATokens := nonzero (← castBigintJson pg (p.get? "predicted_a_tokens"))
    predictedBTokens := nonzero (← castBigintJson pg (p.get? "predicted_b_tokens"))
    predictedCTokens := nonzero (← castBigintJson pg (p.get? "predicted_c_tokens"))
    reservedStrategy := textKey pg p "reserved_strategy"
    predictionStrategyUsed := textKey pg p "prediction_strategy_used"
    predictionPolicyUsed := textKey pg p "prediction_policy_used"
    tokenizerTier := textKey pg p "tokenizer_tier"
    tokenizerVersionId := ← castUuidJson pg (p.get? "tokenizer_version_id")
    predictionConfidence := nonzero (← castNumeric43Json pg (p.get? "prediction_confidence"))
    predictionSampleSize := nonzero (← castBigintJson pg (p.get? "prediction_sample_size"))
    coldStartLayerUsed := textKey pg p "cold_start_layer_used"
    runProjectionAtDecisionAtomic := if noProjector projection remaining steps = true then none else some projection
    runPredictedRemainingSteps :=
      if noProjector projection remaining steps = true ∨ remaining = -1 then none else some remaining
    runStepsCompletedSoFar := if noProjector projection remaining steps = true then none else some steps }

def outcomeColumns (p : Json) : Except String PredictionColumns := do
  let data ← dataOf pg p
  return {
    actualInputTokens := ← actualTokens pg data p "actual_input_tokens"
    actualOutputTokens := ← actualTokens pg data p "actual_output_tokens"
    deltaBRatio := (← castRealJson fl (p.get? "delta_b_ratio")).filter (!realIsZero ·)
    deltaCRatio := (← castRealJson fl (p.get? "delta_c_ratio")).filter (!realIsZero ·) }

def mirrorAuditOutboxPredictionColumns (type : String) (p : Json) : Except String PredictionColumns := do
  let projection := (← castNumericJson pg (p.get? "run_projection_at_decision_atomic")).getD 0
  let remaining := (← castIntJson pg (p.get? "run_predicted_remaining_steps")).getD (-1)
  let steps := (← castBigintJson pg (p.get? "run_steps_completed_so_far")).getD 0
  if type = decisionType then decisionColumns pg p projection remaining steps
  else if type = outcomeType then outcomeColumns fl pg p
  else return {}

end Trigger

def cutoff : ℕ := 1798761600 * second

namespace PredictionColumns

def oneOf (x : Option String) (values : List String) : Bool := x.all (values.contains ·)

def nonneg (x : Option ℤ) : Bool := x.all (0 ≤ ·)

def domainConstraints (type : String) (c : PredictionColumns) : List (String × Bool) :=
  [("audit_outbox_reserved_strategy_chk", oneOf c.reservedStrategy ["A", "B", "C"]),
    ("audit_outbox_prediction_strategy_used_chk", oneOf c.predictionStrategyUsed ["A", "B", "C"]),
    ("audit_outbox_prediction_policy_used_chk", oneOf c.predictionPolicyUsed
      ["STRICT_CEILING", "EMPIRICAL_RUN_CEILING", "ADAPTIVE_CEILING", "SHADOW_ONLY"]),
    ("audit_outbox_tokenizer_tier_chk", oneOf c.tokenizerTier ["T1", "T2", "T3"]),
    ("audit_outbox_prediction_confidence_chk", c.predictionConfidence.all fun n => 0 ≤ n && n ≤ 1000),
    ("audit_outbox_cold_start_layer_used_chk", oneOf c.coldStartLayerUsed ["L1", "L2", "L3", "L4"]),
    ("audit_outbox_predicted_tokens_chk",
      nonneg c.predictedATokens && nonneg c.predictedBTokens && nonneg c.predictedCTokens),
    ("audit_outbox_actual_tokens_chk", nonneg c.actualInputTokens && nonneg c.actualOutputTokens),
    ("audit_outbox_run_steps_chk",
      c.runPredictedRemainingSteps.all (-1 ≤ ·) && nonneg c.runStepsCompletedSoFar),
    ("audit_outbox_run_projection_chk", nonneg c.runProjectionAtDecisionAtomic),
    ("audit_outbox_run_projection_int64_chk", c.runProjectionAtDecisionAtomic.all (· ≤ 9223372036854775807)),
    ("audit_outbox_prediction_sample_size_chk", nonneg c.predictionSampleSize),
    ("audit_outbox_delta_b_ratio_chk", c.deltaBRatio.all (!realIsNegative ·)),
    ("audit_outbox_delta_c_ratio_chk", c.deltaCRatio.all (!realIsNegative ·)),
    ("audit_outbox_cold_start_layer_outcome_chk", type ≠ outcomeType || c.coldStartLayerUsed.isNone),
    ("audit_outbox_predicted_b_tokens_nonzero_chk",
      c.predictionStrategyUsed ≠ some "B" || c.predictedBTokens.all (0 < ·)),
    ("audit_outbox_predicted_c_tokens_nonzero_chk",
      c.predictionStrategyUsed ≠ some "C" || c.predictedCTokens.all (0 < ·))]

def datedConstraints (recordedAt : ℕ) (type : String) (c : PredictionColumns) : List (String × Bool) :=
  [("audit_outbox_decision_required_cols_chk", type ≠ decisionType || recordedAt < cutoff ||
      (c.predictedATokens.isSome && c.reservedStrategy.isSome && c.predictionStrategyUsed.isSome &&
        c.predictionPolicyUsed.isSome && c.tokenizerTier.isSome && c.runProjectionAtDecisionAtomic.isSome &&
        c.runStepsCompletedSoFar.isSome)),
    ("audit_outbox_outcome_required_cols_chk", type ≠ outcomeType || recordedAt < cutoff ||
      (c.actualInputTokens.isSome && c.actualOutputTokens.isSome)),
    ("audit_outbox_predicted_a_tokens_nonzero_chk", type ≠ decisionType || recordedAt < cutoff ||
      c.predictedATokens.all (0 < ·))]

def violated (recordedAt : ℕ) (type : String) (c : PredictionColumns) : List String :=
  ((c.domainConstraints type ++ c.datedConstraints recordedAt type).filter (!·.2)).map Prod.fst

end PredictionColumns

def insertAccepted (fl : FloatText) (pg : Postgres) (recordedAt : ℕ) (row : String × Json) : Bool :=
  match mirrorAuditOutboxPredictionColumns fl pg row.1 row.2 with
  | .ok c => (c.violated recordedAt row.1).isEmpty
  | .error _ => false

def postAccepted (fl : FloatText) (pg : Postgres) (recordedAt : ℕ) (rows : List (String × Json)) : Bool :=
  rows.all (insertAccepted fl pg recordedAt)

namespace PredictionColumns

def Sound (type : String) (c : PredictionColumns) : Prop := ∀ x ∈ c.domainConstraints type, x.2 = true

structure Complete (type : String) (c : PredictionColumns) : Prop where
  decision : type = decisionType → c.predictedATokens.isSome = true ∧ c.reservedStrategy.isSome = true ∧
    c.predictionStrategyUsed.isSome = true ∧ c.predictionPolicyUsed.isSome = true ∧ c.tokenizerTier.isSome = true ∧
    c.runProjectionAtDecisionAtomic.isSome = true ∧ c.runStepsCompletedSoFar.isSome = true
  outcome : type = outcomeType → c.actualInputTokens.isSome = true ∧ c.actualOutputTokens.isSome = true
  nonzero : type = decisionType → c.predictedATokens.all (0 < ·) = true

variable {c : PredictionColumns} {type : String} {recordedAt : ℕ}

theorem empty_sound (type : String) : ({} : PredictionColumns).Sound type := by
  simp [Sound, domainConstraints, oneOf, nonneg]

theorem dated_iff :
    (∀ x ∈ c.datedConstraints recordedAt type, x.2 = true) ↔ (cutoff ≤ recordedAt → c.Complete type) := by
  rcases Nat.lt_or_ge recordedAt cutoff with h | h
  · simp [datedConstraints, h, Nat.not_le.mpr h]
  · simp only [datedConstraints, List.forall_mem_cons, List.not_mem_nil, false_implies, implies_true, and_true,
      Nat.not_lt.mpr h, decide_false, Bool.or_false, Bool.or_eq_true, Bool.and_eq_true, decide_eq_true_eq, ne_eq,
      ← imp_iff_not_or, h, true_implies, and_assoc]
    constructor
    · rintro ⟨hd, ho, ha⟩
      exact ⟨hd, ho, ha⟩
    · exact fun hc => ⟨hc.decision, hc.outcome, hc.nonzero⟩

theorem violated_eq_nil_iff :
    c.violated recordedAt type = [] ↔ c.Sound type ∧ (cutoff ≤ recordedAt → c.Complete type) := by
  rw [← dated_iff, violated, List.map_eq_nil_iff, List.filter_eq_nil_iff]
  simp only [List.mem_append, Bool.not_eq_true, Bool.not_eq_false', or_imp, forall_and]
  rfl

end PredictionColumns

section Clock

variable {fl : FloatText} {pg : Postgres} {recordedAt : ℕ} {rows : List (String × Json)}

theorem insertAccepted_iff {row : String × Json} :
    insertAccepted fl pg recordedAt row = true ↔
      (∃ c, mirrorAuditOutboxPredictionColumns fl pg row.1 row.2 = .ok c ∧ c.Sound row.1) ∧
      (cutoff ≤ recordedAt → ∀ c, mirrorAuditOutboxPredictionColumns fl pg row.1 row.2 = .ok c → c.Complete row.1) := by
  unfold insertAccepted
  cases mirrorAuditOutboxPredictionColumns fl pg row.1 row.2 with
  | error e => simp
  | ok c => simp [PredictionColumns.violated_eq_nil_iff]

variable (fl pg) in
def Admissible (rows : List (String × Json)) : Prop :=
  ∀ row ∈ rows, ∃ c, mirrorAuditOutboxPredictionColumns fl pg row.1 row.2 = .ok c ∧ c.Sound row.1

variable (fl pg) in
def Filled (rows : List (String × Json)) : Prop :=
  ∀ row ∈ rows, ∀ c, mirrorAuditOutboxPredictionColumns fl pg row.1 row.2 = .ok c → c.Complete row.1

theorem postAccepted_iff :
    postAccepted fl pg recordedAt rows = true ↔
      Admissible fl pg rows ∧ (cutoff ≤ recordedAt → Filled fl pg rows) := by
  simp only [postAccepted, List.all_eq_true, insertAccepted_iff, Admissible, Filled]
  exact ⟨fun h => ⟨fun row hrow => (h row hrow).1, fun ht row hrow => (h row hrow).2 ht⟩,
    fun h row hrow => ⟨h.1 row hrow, fun ht => h.2 ht row hrow⟩⟩

theorem postAccepted_singleton {type : String} {p : Json} {c : PredictionColumns}
    (h : mirrorAuditOutboxPredictionColumns fl pg type p = .ok c) :
    postAccepted fl pg recordedAt [(type, p)] = (c.violated recordedAt type).isEmpty := by
  simp only [postAccepted, List.all_cons, List.all_nil, Bool.and_true, insertAccepted, h]

/-- Whether a post is accepted does not depend on the clock exactly if it is refused at all times or
fills the required columns. -/
theorem postAccepted_eq_iff :
    (∀ t t', postAccepted fl pg t rows = postAccepted fl pg t' rows) ↔
      (Admissible fl pg rows → Filled fl pg rows) := by
  constructor
  · intro h hadmissible
    have hearly : postAccepted fl pg 0 rows = true :=
      postAccepted_iff.mpr ⟨hadmissible, fun h => absurd h (by decide)⟩
    exact (postAccepted_iff.mp ((h 0 cutoff).symm.trans hearly)).2 le_rfl
  · intro h t t'
    have hfree (t : ℕ) : postAccepted fl pg t rows = true ↔ Admissible fl pg rows :=
      postAccepted_iff.trans ⟨And.left, fun hadmissible => ⟨hadmissible, fun _ => h hadmissible⟩⟩
    exact Bool.eq_iff_iff.mpr ((hfree t).trans (hfree t').symm)

end Clock

section Casts

variable {fl : FloatText} {pg : Postgres} {p : Json}

theorem castBigintJson_int64 (n : Int64) : castBigintJson pg (some (.int n.toInt)) = .ok (some n.toInt) := by
  have hfits : within (-2 ^ 63) (2 ^ 63) n.toInt = some n.toInt := if_pos ⟨n.le_toInt, n.toInt_lt⟩
  simp only [castBigintJson, castKey, hfits, found_some, ok_bind]
  rfl

theorem castIntJson_int32 (n : Int32) : castIntJson pg (some (.int n.toInt)) = .ok (some n.toInt) := by
  have hfits : within (-2 ^ 31) (2 ^ 31) n.toInt = some n.toInt := if_pos ⟨n.le_toInt, n.toInt_lt⟩
  simp only [castIntJson, castKey, hfits, found_some, ok_bind]
  rfl

theorem castNumericJson_int64 (n : Int64) : castNumericJson pg (some (.int n.toInt)) = .ok (some n.toInt) := by
  have hlow := n.le_toInt
  have hhigh := n.toInt_lt
  have hfits : within (1 - 10 ^ 38) (10 ^ 38) n.toInt = some n.toInt := if_pos ⟨by omega, by omega⟩
  simp only [castNumericJson, castKey, hfits, found_some, ok_bind]
  rfl

theorem castRealJson_render (bits : UInt32) : castRealJson fl (some (.real (fl.render bits))) = .ok (some bits) := by
  simp only [castRealJson, castKey, fl.parse_render, found_some, ok_bind]
  rfl

theorem textKey_of_get {key s : String} (h : p.get? key = some (.str s)) :
    textKey pg p key = if s = "" then none else some s := by
  simp only [textKey, h, Option.bind_eq_bind, Option.bind_some]

theorem jsonbHas_obj {v : Json} {key : String} (hv : v.isObj = true) : jsonbHas v key = (v.get? key).isSome := by
  cases v with
  | obj fields => rfl
  | _ => cases hv

variable {q : Prediction}

def Prediction.columns (q : Prediction) (version : Option Uuid) (confidence : Option ℤ) : PredictionColumns :=
  let idle := noProjector q.runProjectionAtDecisionAtomic.toInt q.runPredictedRemainingSteps.toInt
    q.runStepsCompletedSoFar.toInt
  { predictedATokens := nonzero (some q.predictedATokens.toInt)
    predictedBTokens := nonzero (some q.predictedBTokens.toInt)
    predictedCTokens := nonzero (some q.predictedCTokens.toInt)
    reservedStrategy := if q.reservedStrategy = "" then none else some q.reservedStrategy
    predictionStrategyUsed := if q.predictionStrategyUsed = "" then none else some q.predictionStrategyUsed
    predictionPolicyUsed := if q.predictionPolicyUsed = "" then none else some q.predictionPolicyUsed
    tokenizerTier := if q.tokenizerTier = "" then none else some q.tokenizerTier
    tokenizerVersionId := version
    predictionConfidence := nonzero confidence
    predictionSampleSize := nonzero (some q.predictionSampleSize.toInt)
    coldStartLayerUsed := if q.coldStartLayerUsed = "" then none else some q.coldStartLayerUsed
    runProjectionAtDecisionAtomic := if idle = true then none else some q.runProjectionAtDecisionAtomic.toInt
    runPredictedRemainingSteps :=
      if idle = true ∨ q.runPredictedRemainingSteps.toInt = -1 then none
      else some q.runPredictedRemainingSteps.toInt
    runStepsCompletedSoFar := if idle = true then none else some q.runStepsCompletedSoFar.toInt }

theorem CarriesPredictionWith.mirrored_decision {float : UInt32 → Json} (h : CarriesPredictionWith float p q) :
    mirrorAuditOutboxPredictionColumns fl pg decisionType p = do
      let version ← castUuidJson pg (some (.str q.tokenizerVersionId))
      let confidence ← castNumeric43Json pg (some (float q.predictionConfidence))
      return q.columns version confidence := by
  simp only [mirrorAuditOutboxPredictionColumns, decisionColumns, if_true, h.predictedATokens, h.predictedBTokens,
    h.predictedCTokens, h.tokenizerVersionId, h.predictionConfidence, h.predictionSampleSize, h.runProjection,
    h.runRemaining, h.runSteps, castBigintJson_int64, castIntJson_int32, castNumericJson_int64,
    textKey_of_get h.reservedStrategy, textKey_of_get h.predictionStrategyUsed, textKey_of_get h.predictionPolicyUsed,
    textKey_of_get h.tokenizerTier, textKey_of_get h.coldStartLayerUsed, ok_bind, Option.getD_some]
  rfl

theorem dataOf_eq {e : CloudEvent} {v : Json} (h : Carries p e) (hdata : e.data ≠ [])
    (hv : pg.castJsonb e.data = some v) : dataOf pg p = .ok (some v) := by
  have hloose : Base64.decodeLoose [] 0 (base64 e.data).toList = some e.data := by
    rw [base64, String.toList_ofList, Base64.decodeLoose_encode]
  rw [dataOf, textKey_of_get h.data, if_neg (base64_ne_empty hdata)]
  simp only [hloose, hv, found_some, ok_bind]
  rfl

theorem CarriesPredictionWith.mirrored_outcome {float : UInt32 → Json} {b c : Option UInt32}
    (h : CarriesPredictionWith float p q) (hb : castRealJson fl (some (float q.deltaBRatio)) = .ok b)
    (hc : castRealJson fl (some (float q.deltaCRatio)) = .ok c) :
    mirrorAuditOutboxPredictionColumns fl pg outcomeType p = do
      let data ← dataOf pg p
      let input ← actualTokens pg data p "actual_input_tokens"
      let output ← actualTokens pg data p "actual_output_tokens"
      return {
        actualInputTokens := input
        actualOutputTokens := output
        deltaBRatio := b.filter (!realIsZero ·)
        deltaCRatio := c.filter (!realIsZero ·) } := by
  have htype : outcomeType ≠ decisionType := by decide
  simp only [mirrorAuditOutboxPredictionColumns, outcomeColumns, if_neg htype, if_true, h.runProjection, h.runRemaining,
    h.runSteps, h.deltaBRatio, h.deltaCRatio, castBigintJson_int64, castIntJson_int32, castNumericJson_int64,
    hb, hc, ok_bind]

theorem CarriesPrediction.mirrored_outcome {e : CloudEvent} {v : Json} {input output : Option ℤ}
    (h : CarriesPrediction fl p q) (hcarries : Carries p e) (hdata : e.data ≠ []) (hv : pg.castJsonb e.data = some v)
    (hinput : actualTokens pg (some v) p "actual_input_tokens" = .ok input)
    (houtput : actualTokens pg (some v) p "actual_output_tokens" = .ok output) :
    mirrorAuditOutboxPredictionColumns fl pg outcomeType p = .ok {
      actualInputTokens := input
      actualOutputTokens := output
      deltaBRatio := (some q.deltaBRatio).filter (!realIsZero ·)
      deltaCRatio := (some q.deltaCRatio).filter (!realIsZero ·) } := by
  rw [CarriesPredictionWith.mirrored_outcome h (castRealJson_render _) (castRealJson_render _),
    dataOf_eq hcarries hdata hv]
  simp only [hinput, houtput, ok_bind]
  rfl

/-! A payload without the keys of the prediction leaves the columns empty. -/

structure Unpredicted (p : Json) : Prop where
  predictedATokens : p.get? "predicted_a_tokens" = none
  predictedBTokens : p.get? "predicted_b_tokens" = none
  predictedCTokens : p.get? "predicted_c_tokens" = none
  reservedStrategy : p.get? "reserved_strategy" = none
  predictionStrategyUsed : p.get? "prediction_strategy_used" = none
  predictionPolicyUsed : p.get? "prediction_policy_used" = none
  tokenizerTier : p.get? "tokenizer_tier" = none
  tokenizerVersionId : p.get? "tokenizer_version_id" = none
  predictionConfidence : p.get? "prediction_confidence" = none
  predictionSampleSize : p.get? "prediction_sample_size" = none
  coldStartLayerUsed : p.get? "cold_start_layer_used" = none
  runProjection : p.get? "run_projection_at_decision_atomic" = none
  runRemaining : p.get? "run_predicted_remaining_steps" = none
  runSteps : p.get? "run_steps_completed_so_far" = none
  actualInputTokens : p.get? "actual_input_tokens" = none
  actualOutputTokens : p.get? "actual_output_tokens" = none
  deltaBRatio : p.get? "delta_b_ratio" = none
  deltaCRatio : p.get? "delta_c_ratio" = none

theorem unpredicted_extractCloudeventPayload (e : CloudEvent) : Unpredicted (extractCloudeventPayload e) :=
  ⟨rfl, rfl, rfl, rfl, rfl, rfl, rfl, rfl, rfl, rfl, rfl, rfl, rfl, rfl, rfl, rfl, rfl, rfl⟩

theorem castKey_none {α : Type} {ofInt : ℤ → Option α} {ofText : String → Option α} :
    castKey ofInt ofText none = .ok none := rfl

theorem textKey_of_none {key : String} (h : p.get? key = none) : textKey pg p key = none := by
  simp only [textKey, h, Option.bind_eq_bind, Option.bind_none]

theorem Unpredicted.mirrored_decision (h : Unpredicted p) :
    mirrorAuditOutboxPredictionColumns fl pg decisionType p = .ok {} := by
  have hidle : noProjector 0 (-1) 0 = true := rfl
  simp only [mirrorAuditOutboxPredictionColumns, decisionColumns, if_true, h.predictedATokens, h.predictedBTokens,
    h.predictedCTokens, h.tokenizerVersionId, h.predictionConfidence, h.predictionSampleSize, h.runProjection,
    h.runRemaining, h.runSteps, textKey_of_none h.reservedStrategy, textKey_of_none h.predictionStrategyUsed,
    textKey_of_none h.predictionPolicyUsed, textKey_of_none h.tokenizerTier, textKey_of_none h.coldStartLayerUsed,
    castBigintJson, castIntJson, castNumericJson, castNumeric43Json, castUuidJson, castKey_none, ok_bind,
    Option.getD_none, hidle, true_or]
  rfl

theorem Unpredicted.mirrored_outcome (h : Unpredicted p) {v : Json} (hdata : dataOf pg p = .ok (some v))
    (hv : v.isObj = true) (hinput : v.get? "actual_input_tokens" = none)
    (houtput : v.get? "actual_output_tokens" = none) :
    mirrorAuditOutboxPredictionColumns fl pg outcomeType p = .ok {} := by
  have htype : outcomeType ≠ decisionType := by decide
  simp only [mirrorAuditOutboxPredictionColumns, outcomeColumns, if_neg htype, if_true, h.runProjection, h.runRemaining,
    h.runSteps, h.deltaBRatio, h.deltaCRatio, h.actualInputTokens, h.actualOutputTokens, hdata, actualTokens,
    Option.filter_some, jsonbHas_obj hv, hinput, houtput, castBigintJson, castIntJson, castNumericJson, castRealJson,
    castKey_none, ok_bind]
  rfl

end Casts

end SpendGuard.Audit
